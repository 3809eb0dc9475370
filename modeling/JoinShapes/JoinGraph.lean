import JoinShapes.JoinGraph.Links

/-!
# Join graphs

The result of a planning run before names are put to it: the nodes of the tables, the store of all connected sets up to
the width bound, and the edges that lead from tables and combinations to wider combinations. `prepare` makes the store
for given nodes, and `run` goes through the phases; `ofNodes` does both, and `ofSchema` reads the nodes off a schema
first.
-/

namespace JoinShapes

/-- A finished planning run. -/
structure JoinGraph where
  nodes : Array TableNode
  joinNum : Nat
  store : Store
  /-- By table. -/
  tableEdges : Array EdgeSet
  /-- By position in the store; combinations past the end have no edges. -/
  combinationEdges : Array EdgeSet

namespace JoinGraph

/-- The edges of the combination at a position. -/
def edgesOf (g : JoinGraph) (id : Nat) : EdgeSet := g.combinationEdges[id]?.getD .empty

/-- The first node that does not stand at its index. -/
def misplaced? (nodes : List TableNode) : Option (Nat × TableNode) :=
  (nodes.zipIdx.find? fun (n, i) => n.index != i).map fun (n, i) => (i, n)

/-- Refuses a width bound of zero and nodes out of place. -/
def check (nodes : List TableNode) (joinNum : Nat) : Except PlanError Unit :=
  if joinNum = 0 then .error (.invalidJoinNum joinNum) else
    match misplaced? nodes with
    | some (i, n) => .error (.invariant .seeding (.misplacedNode i n.index))
    | none => .ok ()

/-- The store that a run over the given nodes starts with. -/
def prepare (nodes : List TableNode) (joinNum : Nat) : Except PlanError Store := do
  check nodes joinNum
  Store.new nodes.length joinNum

/-- Runs all phases from a fresh store. -/
def run (nodes : Array TableNode) (s : Store) : Journaled PlanError JoinGraph := do
  let joinNum := s.joinNum
  let s ← .ofExcept (seed s nodes)
  .note .debug s!"Seeded {nodes.size} single-table combinations"
  let s ← growThrough nodes (List.range' 2 (joinNum - 2)) s
  let (s, tableEdges) ← .ofExcept (linkTables nodes s)
  .note .debug s!"Linked tables to combinations: {edgeCount tableEdges} edges"
  let (s, combinationEdges) ← .ofExcept (linkCombinations s)
  .note .debug s!"Linked combinations to combinations: {edgeCount combinationEdges} edges"
  let histogram := renderList s.widthHistogram
  .note .info
    s!"Join planning finished: {nodes.size} tables, {s.size} combinations, width histogram {histogram}"
  return ⟨nodes, joinNum, s, tableEdges.toArray, combinationEdges.toArray⟩

/-- The finished run over the given nodes. -/
def ofNodes (nodes : List TableNode) (joinNum : Nat) : Journaled PlanError JoinGraph := do
  let s ← .ofExcept (prepare nodes joinNum)
  run nodes.toArray s

/-- What is said of a width bound past which fingerprints may collide. -/
def widthWarning (joinNum exactWidth tableNum : Nat) : Entry :=
  ⟨.warn, s!"join_num {joinNum} exceeds the collision-free fingerprint width {exactWidth} for {tableNum} tables"⟩

/-- Runs all phases on the tables of a schema. -/
def ofSchema (schema : Schema) (joinNum : Nat) : Journaled PlanError JoinGraph := do
  let nodes ← .ofExcept (TableNode.ofSchema schema)
  let exactWidth := Fingerprint.maxExactWidth nodes.length
  if exactWidth < joinNum then .notes [widthWarning joinNum exactWidth nodes.length]
  .note .debug
    s!"Planning joins for schema `{schema.name}`: {nodes.length} tables, join_num {joinNum}"
  ofNodes nodes joinNum

end JoinGraph
end JoinShapes
