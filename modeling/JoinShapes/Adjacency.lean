import JoinShapes.PlanError
import JoinShapes.Schema.Basic

/-!
# Adjacency of tables

A `TableNode` holds the positions that a table refers to and those that refer to it. `TableNode.ofSchema` reads the
nodes off a schema; a foreign key of a table to itself makes no neighbour.
-/

namespace JoinShapes

/-- The foreign-key neighbourhood of one table. -/
structure TableNode where
  index : Nat
  refs : IndexSet
  backRefs : IndexSet

namespace TableNode

/-- The tables joined to this one by a foreign key of either. -/
def neighbors (n : TableNode) : IndexSet := n.refs.union n.backRefs

def isIsolated (n : TableNode) : Bool := n.refs.isEmpty && n.backRefs.isEmpty

/-- A node without neighbours. -/
def isolated (index : Nat) : TableNode := ⟨index, .empty, .empty⟩

/-- Notes that the table at `i` refers to the one at `j`, at both of them. -/
def refer (i j : Nat) (nodes : List TableNode) : List TableNode :=
  (nodes.modify i fun n => { n with refs := n.refs.insert j }).modify j
    fun n => { n with backRefs := n.backRefs.insert i }

/-- Notes a foreign key of the table at `i`. -/
def referKey (s : Schema) (t : TableSchema) (i : Nat) (nodes : List TableNode) (fk : ForeignKey) :
    Except PlanError (List TableNode) :=
  match s.indexOf? fk.refTable with
  | some j => .ok (refer i j nodes)
  | none => .error (.unknownTable t.name fk.refTable)

/-- One node per table of the schema, in order. -/
def ofSchema (s : Schema) : Except PlanError (List TableNode) :=
  s.tables.zipIdx.foldlM (fun nodes (t, i) => t.outgoing.foldlM (referKey s t i) nodes)
    ((List.range s.size).map isolated)

end TableNode
end JoinShapes
