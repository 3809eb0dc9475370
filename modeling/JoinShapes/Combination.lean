import JoinShapes.Adjacency

/-!
# Combinations of tables

A combination is a set of tables together with the tables that could be joined to it next: the neighbours of its
members that are not members themselves. Its fingerprint may be remembered from an earlier computation.
-/

namespace JoinShapes

/-- A set of tables and the tables next to it. -/
structure Combination where
  members : IndexSet
  extensions : IndexSet
  /-- The fingerprint, once it was asked for. -/
  memo : Option Fingerprint

namespace Combination

/-- The combination of these members, next to those of `near` that are no members. -/
def ofParts (members near : IndexSet) : Combination := ⟨members, near.sdiff members, none⟩

/-- One table by itself. -/
def singleton (n : TableNode) : Combination := ofParts (.singleton n.index) n.neighbors

/-- One more table, unless it is a member already. -/
def grow (c : Combination) (n : TableNode) : Option Combination :=
  if n.index ∈ c.members then none
  else some (ofParts (c.members.insert n.index) (c.extensions.union n.neighbors))

/-- Two combinations without a common member as one. -/
def merge (c d : Combination) : Option Combination :=
  if c.members.isDisjoint d.members then
    some (ofParts (c.members.union d.members) (c.extensions.union d.extensions))
  else none

/-- The number of members. -/
def width (c : Combination) : Nat := c.members.size

/-- The remembered fingerprint, or else the one in a schema of `tableNum` tables. -/
def fingerprint (c : Combination) (tableNum : Nat) : Fingerprint :=
  c.memo.getD (.ofAscending tableNum c.members.toList)

/-- The combination with its fingerprint remembered. -/
def fingerprinted (c : Combination) (tableNum : Nat) : Combination := { c with memo := some (c.fingerprint tableNum) }

end Combination
end JoinShapes
