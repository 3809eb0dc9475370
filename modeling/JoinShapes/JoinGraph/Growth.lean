import JoinShapes.Store

/-!
# Seeding and growth

A run starts from one combination per table (`seed`). The combinations of a width are then made from those that are one
table narrower (`growTo`), in both directions: a table joins the combinations that hold one of its neighbours, and each
combination that holds the table takes in one of its extensions. Which combinations hold a table is read when the table
has its turn, from the store as it stands by then.
-/

namespace JoinShapes
namespace JoinGraph

/-- Stores the combination of one table. -/
def seedOne (s : Store) (node : TableNode) : Except PlanError Store := do
  let (s, _, isNew) ← s.add .seeding (.singleton node)
  if isNew then return s else .error (.invariant .seeding (.seededTwice node.index))

/-- Stores one combination per table. -/
def seed (s : Store) (nodes : Array TableNode) : Except PlanError Store := nodes.toList.foldlM seedOne s

/-- Stores what a combination and one more table make, unless the table is a member. -/
def addGrown (s : Store) (c : Combination) (node : TableNode) : Except PlanError Store :=
  match c.grow node with
  | some d => (·.1) <$> s.add .growth d
  | none => .ok s

/-- Adds the table of `node` to the combinations of a width that hold `neighbor`. -/
def growInto (width : Nat) (node : TableNode) (s : Store) (neighbor : Nat) : Except PlanError Store :=
  (s.cached neighbor width).foldlM (fun s id => do addGrown s (← s.get .growth id) node) s

/-- Adds each of its extensions to the combination at a position. -/
def growOut (nodes : Array TableNode) (s : Store) (id : Nat) : Except PlanError Store := do
  let c ← s.get .growth id
  (c.extensions.toList.filterMap (nodes[·]?)).foldlM (addGrown · c) s

/-- Grows the combinations of a width by one table, at the table of `node` and in both directions. -/
def growAt (nodes : Array TableNode) (width : Nat) (s : Store) (node : TableNode) : Except PlanError Store := do
  let s ← node.neighbors.toList.foldlM (growInto width node) s
  (s.cached node.index width).foldlM (growOut nodes) s

/-- Stores the combinations of a width, made from those one table narrower. -/
def growTo (nodes : Array TableNode) (s : Store) (width : Nat) : Except PlanError Store :=
  nodes.toList.foldlM (growAt nodes (width - 1)) s

/-- Grows through the given widths, and notes how many combinations each brings. -/
def growThrough (nodes : Array TableNode) : List Nat → Store → Journaled PlanError Store
  | [], s => pure s
  | width :: widths, s => do
    let before := s.size
    let s ← .ofExcept (growTo nodes s width)
    .note .debug s!"Growth to width {width}: {s.size - before} new combinations"
    growThrough nodes widths s

end JoinGraph
end JoinShapes
