import JoinShapes.JoinGraph
import JoinShapes.Plan.Basic

/-!
# From a join graph to a plan

`Plan.ofGraph` puts names to the positions of a finished run. Combinations of one table are the tables themselves and
get no record. Whatever does not resolve, or would give an owner two methods of one name, ends the assembly.
-/

namespace JoinShapes
namespace Plan

/-- A finding of the assembly. -/
def broken {α : Type} (b : Breach) : Except PlanError α := .error (.invariant .materialization b)

/-- The table at a position. -/
def tableAt (s : Schema) (index : Nat) : Except PlanError TableSchema :=
  match s.tables[index]? with
  | some t => .ok t
  | none => broken (.unresolvedIndex index)

/-- The names of the members, in order. -/
def memberNames (s : Schema) (c : Combination) : Except PlanError (List String) := do
  return JoinedName.sorted (← c.members.toList.mapM fun i => (·.name) <$> tableAt s i)

/-- The reference that a foreign key of `owner` makes, to the table `far` at its other end. -/
def reference (owner : String) (fk : ForeignKey) (far : String) : RefTable :=
  ⟨far, owner, fk.column, fk.refTable, fk.refColumn⟩

/-- The references of a table: one for each foreign key, in order. -/
def tableReferences (t : TableSchema) : List RefTable :=
  RefTable.sorted (t.foreignKeys.map fun fk => reference t.name fk fk.refTable)

/-- What one edge of `owner` leads to, by a method whose name is none of `seen`. -/
def step (s : Schema) (g : JoinGraph) (owner : String) (seen : List String) (e : JoinEdge) :
    Except PlanError RefJoinedTable := do
  let result ← g.store.get .materialization e.result
  if result.width < 2 then broken (.singleTableResult e)
  let partner ← g.store.get .materialization e.partner
  let names ← memberNames s partner
  let accessor := JoinedName.accessor names
  if accessor ∈ seen then broken (.repeatedAccessor owner accessor)
  return {
    joinedTable := JoinedName.ofTables (← memberNames s result)
    width := result.width
    tables := names
    accessor
    viaRefTable := if partner.width = 1 then names.head? else none }

/-- What the edges of `owner` lead to, in order of the edges. -/
def steps (s : Schema) (g : JoinGraph) (owner : String) : List String → List JoinEdge →
    Except PlanError (List RefJoinedTable)
  | _, [] => .ok []
  | seen, e :: es => do
    let r ← step s g owner seen e
    return r :: (← steps s g owner (r.accessor :: seen) es)

/-- The joined tables that the edges of `owner` lead to. -/
def joinedReferences (s : Schema) (g : JoinGraph) (owner : String) (edges : EdgeSet) :
    Except PlanError (List RefJoinedTable) :=
  RefJoinedTable.sorted <$> steps s g owner [] edges.toList

/-- The record of the table at a position. -/
def tableRecord (s : Schema) (g : JoinGraph) (t : TableSchema) (index : Nat) : Except PlanError PlannedTable := do
  match g.tableEdges[index]? with
  | none => broken (.missingEdgeList index)
  | some edges =>
    return ⟨t.name, t.columns, t.primaryKey, t.foreignKeys, tableReferences t, ← joinedReferences s g t.name edges⟩

/-- The references from members to tables next to the combination. -/
def referencesOut (s : Schema) (c : Combination) (member : Nat) : Except PlanError (List RefTable) := do
  let t ← tableAt s member
  let keys ← t.outgoing.mapM fun fk =>
    match s.indexOf? fk.refTable with
    | some target => .ok (fk, target)
    | none => broken (.unresolvedTarget fk.refTable)
  return (keys.filter fun (_, target) => target ∈ c.extensions).map fun (fk, _) => reference t.name fk fk.refTable

/-- The references from a table next to the combination to members. -/
def referencesIn (s : Schema) (c : Combination) (extension : Nat) : Except PlanError (List RefTable) := do
  let t ← tableAt s extension
  let keys := t.outgoing.filter fun fk => (s.indexOf? fk.refTable).any (· ∈ c.members)
  return keys.map fun fk => reference t.name fk t.name

/-- The references across the boundary of a combination: one for each foreign key, in order. -/
def combinationReferences (s : Schema) (c : Combination) : Except PlanError (List RefTable) := do
  let out ← c.members.toList.mapM (referencesOut s c)
  let back ← c.extensions.toList.mapM (referencesIn s c)
  return RefTable.sorted (out.flatten ++ back.flatten)

/-- The record of a combination of several tables. -/
def combinationRecord (s : Schema) (g : JoinGraph) (c : Combination) (id : Nat) : Except PlanError JoinedTable := do
  let names ← memberNames s c
  let refTables ← combinationReferences s c
  let name := JoinedName.ofTables names
  return ⟨name, names, refTables, ← joinedReferences s g name (g.edgesOf id)⟩

/-- The plan that a join graph describes for the tables of a schema. -/
def ofGraph (s : Schema) (g : JoinGraph) : Except PlanError Plan := do
  if s.size ≠ g.nodes.size then broken (.nodeCountMismatch s.size g.nodes.size)
  let tables ← s.tables.zipIdx.mapM fun (t, i) => tableRecord s g t i
  let wide := g.store.combinations.toList.zipIdx.filter fun (c, _) => 2 ≤ c.width
  let joinedTables ← wide.mapM fun (c, id) => combinationRecord s g c id
  return ⟨s.name, g.joinNum, tables, JoinedTable.sorted joinedTables⟩

/-- The plan of a schema for joins of at most `joinNum` tables. -/
def ofSchema (s : Schema) (joinNum : Nat) : Journaled PlanError Plan := do
  let g ← JoinGraph.ofSchema s joinNum
  let plan ← .ofExcept (ofGraph s g)
  .note .debug
    s!"Materialized {plan.tables.length} tables and {plan.joinedTables.length} joined tables"
  return plan

end Plan
end JoinShapes
