import JoinShapes.EdgeSet
import JoinShapes.JoinGraph.Growth

/-!
# Links between owners and combinations

An owner, a single table or a combination of at least two, can be joined with a combination next to it. Linking an
owner goes through the tables next to it, its gates, and at each gate through the combinations that hold it: where
owner and partner make something together, that is stored, and the owner gets an edge to it. Which combinations hold a
gate is read when the gate has its turn, from the store as it stands by then.
-/

namespace JoinShapes
namespace JoinGraph

/-- A store, and the edges of the owner that is being linked. -/
structure Linking where
  store : Store
  edges : EdgeSet

/-- Links the owner to the combination at a position, if `join?` says what both make. -/
def linkPartner (phase : Phase) (join? : Combination → Option Combination) (l : Linking) (partner : Nat) :
    Except PlanError Linking := do
  match join? (← l.store.get phase partner) with
  | none => return l
  | some joined =>
    let (s, result, _) ← l.store.add phase joined
    return ⟨s, l.edges.insert ⟨partner, result⟩⟩

/-- Links the owner to the combinations up to a width that hold a gate. -/
def linkGate (phase : Phase) (join? : Combination → Option Combination) (maxWidth : Nat) (l : Linking) (gate : Nat) :
    Except PlanError Linking :=
  (l.store.cachedUpTo gate maxWidth).foldlM (linkPartner phase join?) l

/-- Links the owner to the combinations up to a width that hold one of its gates. -/
def linkOwner (phase : Phase) (join? : Combination → Option Combination) (maxWidth : Nat) (gates : IndexSet)
    (s : Store) : Except PlanError Linking :=
  gates.toList.foldlM (linkGate phase join? maxWidth) ⟨s, .empty⟩

/-- What a table and a combination make, if the table is no member and there is room for it. -/
def joinTable? (joinNum : Nat) (node : TableNode) (c : Combination) : Option Combination :=
  if joinNum ≤ c.width then none else c.grow node

/-- Links a table to the combinations next to it. -/
def linkTable (s : Store) (node : TableNode) : Except PlanError Linking :=
  linkOwner .tableExtension (joinTable? s.joinNum node) s.joinNum node.neighbors s

/-- Links the combination at a position to those next to it, if it has several tables and room for more. -/
def linkCombination (s : Store) (id : Nat) : Except PlanError Linking := do
  let c ← s.get .combinationMerge id
  if 2 ≤ c.width ∧ c.width < s.joinNum then
    linkOwner .combinationMerge c.merge (s.joinNum - c.width) c.extensions s
  else return ⟨s, .empty⟩

/-- Links the owners in order; edges by owner. -/
def linkAll {α : Type} (link : Store → α → Except PlanError Linking) :
    Store → List α → Except PlanError (Store × List EdgeSet)
  | s, [] => .ok (s, [])
  | s, owner :: owners => do
    let l ← link s owner
    let (s, more) ← linkAll link l.store owners
    return (s, l.edges :: more)

/-- Links every table to the combinations next to it; edges by table. -/
def linkTables (nodes : Array TableNode) (s : Store) : Except PlanError (Store × List EdgeSet) :=
  linkAll linkTable s nodes.toList

/-- Links every stored combination to those next to it; edges by position in the store. -/
def linkCombinations (s : Store) : Except PlanError (Store × List EdgeSet) :=
  linkAll linkCombination s (List.range s.size)

/-- The number of edges of all owners. -/
def edgeCount (edges : List EdgeSet) : Nat := edges.foldl (fun n s => n + s.size) 0

end JoinGraph
end JoinShapes
