import Std.Data.HashMap
import JoinShapes.Combination

/-!
# The store of combinations

A store keeps every combination of a run once, under its position of first insertion. Two indexes lead into it: from
fingerprints to positions, and from a table and a width to the positions of the combinations of that width that hold
the table.

A list stands ready for every table and every width from the start. There is no room for more tables or widths than
`Store.maxSlots`, so that `Store.new` may fail.

`Store.insert` gives the position of a combination and whether it is new. It refuses combinations of a width outside
the bound and fingerprints that already stand for other members. A member outside the schema is refused too, but only
when its turn comes: the members before it are then already listed under the refused position.
-/

namespace JoinShapes

/-- The combinations of one run. -/
structure Store where
  tableNum : Nat
  joinNum : Nat
  combinations : Array Combination
  byFingerprint : Std.HashMap Fingerprint Nat
  byWidth : Std.HashMap (Nat × Nat) IndexSet

namespace Store

/-- A store without combinations for `tableNum` tables and widths up to `joinNum`. -/
def empty (tableNum joinNum : Nat) : Store := ⟨tableNum, joinNum, #[], ∅, ∅⟩

/-- The greatest number of lists that can be laid out in a row: one takes 24 bytes, and a row at most `2 ^ 63 - 1`. -/
def maxSlots : Nat := 9223372036854775807 / 24

/-- There is room for the lists of `tableNum` tables and `joinNum` widths. The widths are laid out even for no table. -/
def HasRoom (tableNum joinNum : Nat) : Prop := joinNum ≤ maxSlots ∧ tableNum ≤ maxSlots

instance (tableNum joinNum : Nat) : Decidable (HasRoom tableNum joinNum) :=
  inferInstanceAs (Decidable (joinNum ≤ maxSlots ∧ tableNum ≤ maxSlots))

/-- The store that a run starts with, if there is room for it. -/
def new (tableNum joinNum : Nat) : Except PlanError Store :=
  if HasRoom tableNum joinNum then .ok (.empty tableNum joinNum) else .error .capacityOverflow

/-- The number of combinations. -/
def size (s : Store) : Nat := s.combinations.size

/-- The combination at a position. -/
def get (s : Store) (phase : Phase) (id : Nat) : Except PlanError Combination :=
  match s.combinations[id]? with
  | some c => .ok c
  | none => .error (.invariant phase (.unknownCombination id))

/-- The position of the combination with this fingerprint. -/
def lookup (s : Store) (f : Fingerprint) : Option Nat := s.byFingerprint[f]?

/-- Lists `id` under a table and a width. -/
def list (s : Store) (width : Nat) (id : Nat) (table : Nat) : Store :=
  { s with byWidth := s.byWidth.alter (table, width) fun ids => some ((ids.getD .empty).insert id) }

/-- Lists `id` under each of its members, up to the first that is no position of the schema. -/
def listMembers (s : Store) (phase : Phase) (width : Nat) (id : Nat) :
    List Nat → Store × Except PlanError Unit
  | [] => (s, .ok ())
  | table :: tables =>
    if table < s.tableNum then listMembers (s.list width id table) phase width id tables
    else (s, .error (.invariant phase (.memberOutside table s.tableNum)))

/-- The position of a combination and whether it was not stored before. -/
def insert (s : Store) (phase : Phase) (c : Combination) : Store × Except PlanError (Nat × Bool) :=
  if c.width = 0 ∨ s.joinNum < c.width then
    (s, .error (.invariant phase (.widthOutside c.members s.joinNum)))
  else
    let f := c.fingerprint s.tableNum
    match s.lookup f with
    | some id =>
      match s.get phase id with
      | .error e => (s, .error e)
      | .ok existing =>
        if existing.members = c.members then (s, .ok (id, false))
        else (s, .error (.collision f existing.members.toList c.members.toList))
    | none =>
      let id := s.size
      match s.listMembers phase c.width id c.members.toList with
      | (s, .error e) => (s, .error e)
      | (s, .ok ()) =>
        ({ s with
            combinations := s.combinations.push (c.fingerprinted s.tableNum)
            byFingerprint := s.byFingerprint.insert f id }, .ok (id, true))

/-- `insert` where a refusal ends the run. -/
def add (s : Store) (phase : Phase) (c : Combination) : Except PlanError (Store × Nat × Bool) :=
  match s.insert phase c with
  | (s, .ok r) => .ok (s, r)
  | (_, .error e) => .error e

/-- The positions of the combinations of this width that hold `table`, in ascending order. -/
def cached (s : Store) (table width : Nat) : List Nat :=
  match s.byWidth[(table, width)]? with
  | some ids => ids.toList
  | none => []

/-- The positions of the combinations up to a width that hold `table`, by width. -/
def cachedUpTo (s : Store) (table maxWidth : Nat) : List Nat :=
  (List.range' 1 (min maxWidth s.joinNum)).flatMap (s.cached table)

/-- The positions of all combinations that hold `table`, by width. -/
def cachedAll (s : Store) (table : Nat) : List Nat := s.cachedUpTo table s.joinNum

/-- Counts one more of the width; the widths start at one. -/
def countWidth (counts : List Nat) (width : Nat) : List Nat := counts.modify (width - 1) (· + 1)

/-- The number of combinations of each width from one to the bound. -/
def widthHistogram (s : Store) : List Nat :=
  s.combinations.foldl (fun counts c => countWidth counts c.width) (List.replicate s.joinNum 0)

end Store
end JoinShapes
