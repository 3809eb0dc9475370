import JoinShapes.Fingerprint
import JoinShapes.IndexSet

/-!
# Faults of a planning run

Three faults come from the input: a width bound of zero, one too great for the lists of the store, and two sets with one
fingerprint. All others say that parts of the run disagree with each other; they name the phase and what was found.
-/

namespace JoinShapes

/-- The stages of a planning run. -/
inductive Phase
  | seeding
  | growth
  | tableExtension
  | combinationMerge
  | materialization
deriving DecidableEq, Repr

/-- The name of the phase. -/
def Phase.render : Phase → String
  | seeding => "Seeding"
  | growth => "Growth"
  | tableExtension => "TableExtension"
  | combinationMerge => "CombinationMerge"
  | materialization => "Materialization"

/-- The combination at position `partner` of the store can be joined in, which gives the one at `result`. -/
structure JoinEdge where
  partner : Nat
  result : Nat
deriving DecidableEq, Repr

/-- The edge with its field names. -/
def JoinEdge.render (e : JoinEdge) : String :=
  s!"JoinEdge \x7b partner: CombinationId({e.partner}), result: CombinationId({e.result}) \x7d"

/-- Two parts of a planning run that do not fit together. -/
inductive Breach
  /-- A table node stands at a position other than its index. -/
  | misplacedNode (position index : Nat)
  /-- A table had a combination of its own before it was seeded. -/
  | seededTwice (index : Nat)
  /-- A combination is empty or wider than the run allows. -/
  | widthOutside (members : IndexSet) (joinNum : Nat)
  /-- A member is no position of the schema. -/
  | memberOutside (member tableNum : Nat)
  | unknownCombination (id : Nat)
  | nodeCountMismatch (tables nodes : Nat)
  | missingEdgeList (index : Nat)
  /-- A position has no table. -/
  | unresolvedIndex (index : Nat)
  /-- A foreign key has no target table. -/
  | unresolvedTarget (table : String)
  /-- The result of joining is a single table. -/
  | singleTableResult (edge : JoinEdge)
  /-- Two edges of one owner lead to methods of one name. -/
  | repeatedAccessor (owner accessor : String)
  /-- Any other finding, in words. -/
  | stated (text : String)

/-- The finding in words. -/
def Breach.message : Breach → String
  | misplacedNode position index => s!"table node at position {position} carries index {index}"
  | seededTwice index => s!"table {index} seeded twice"
  | widthOutside members joinNum =>
    s!"combination {members.render} has width {members.size} outside 1..={joinNum}"
  | memberOutside member tableNum => s!"member index {member} outside 0..{tableNum}"
  | unknownCombination id => s!"unknown combination #{id}"
  | nodeCountMismatch tables nodes => s!"schema has {tables} tables but the plan has {nodes} nodes"
  | missingEdgeList index => s!"no edge list for table {index}"
  | unresolvedIndex index => s!"table index {index} does not resolve"
  | unresolvedTarget table => s!"foreign key target {table} does not resolve"
  | singleTableResult edge => s!"edge {edge.render} reaches a single table"
  | repeatedAccessor owner accessor => s!"`{owner}` gets accessor `{accessor}` twice"
  | stated text => text

/-- Why there is no plan. -/
inductive PlanError
  | invalidJoinNum (joinNum : Nat)
  | unknownTable (table target : String)
  | invariant (phase : Phase) (breach : Breach)
  /-- Two sets of positions share a fingerprint. -/
  | collision (fingerprint : Fingerprint) (existing candidate : List Nat)
  /-- The lists of the store cannot be laid out; the run is broken off. -/
  | capacityOverflow

/-- Numbers in square brackets, separated by commas. -/
def renderList (xs : List Nat) : String := "[" ++ ", ".intercalate (xs.map toString) ++ "]"

/-- The fault in words. -/
def PlanError.message : PlanError → String
  | invalidJoinNum joinNum => s!"Maximum join width must be at least 1, got {joinNum}"
  | unknownTable table target => s!"Table `{table}` references unknown table `{target}`"
  | invariant phase breach => s!"{phase.render}: planner invariant violated: {breach.message}"
  | collision f existing candidate =>
    s!"Fingerprint {f.render} maps to both {renderList existing} and {renderList candidate}"
  | capacityOverflow => "capacity overflow"

end JoinShapes
