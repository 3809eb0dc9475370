import JoinShapes.Declaration.Document
import JoinShapes.Files.Access
import JoinShapes.Plan.Assembly
import JoinShapes.Plan.Document
import JoinShapes.Settings.Basic

/-!
# Generation

From a schema to its plan, by a given reader of schema files. `Generation.planOfText` plans the schema of a text;
`Generation.run` reads its source from a file, and writes only after the plan is finished, so that a schema or planning
error leaves no trace.
-/

namespace JoinShapes

/-- Why a run leaves no plan. -/
inductive GenerationError
  | schema (e : SchemaError)
  | plan (e : PlanError)
  /-- A directory or a file could not be made. -/
  | unwritable (path : String)

/-- The fault in words. -/
def GenerationError.message : GenerationError → String
  | schema e => s!"Schema error: {e.message}"
  | plan e => s!"Join planning failed: {e.message}"
  | unwritable path => s!"Failed to write {path}: it could not be created"

/-- What a run has written. -/
structure Report where
  outputPath : String
  tableCount : Nat
  joinedTableCount : Nat
deriving DecidableEq, Repr

namespace Generation

variable (read : String → Except String Declaration)

/-- The plan for the schema that a text describes. -/
def planOfText (text : String) (joinNum : Nat) : Journaled GenerationError Plan := do
  let declaration ← .mapError .schema (.ofExcept (Declaration.ofText read text))
  let schema ← declaration.toSchema.mapError .schema
  (Plan.ofSchema schema joinNum).mapError .plan

section Files

variable {m : Type → Type} [Monad m] [FileAccess m]

/-- An operation at a path that has to succeed. -/
def require (path : String) (act : m Bool) : JournaledT m GenerationError Unit :=
  .ofEffect do if ← act then return .ok () else return .error (.unwritable path)

/-- Writes a plan to the place that the settings name. -/
def write (s : Settings) (plan : Plan) : JournaledT m GenerationError Report := do
  require s.destination (FileAccess.makeDirectories s.destination)
  require s.outputPath (FileAccess.write s.outputPath (plan.text s.pretty))
  .lift (.note .info
    s!"Wrote {plan.tables.length} tables and {plan.joinedTables.length} joined tables to {s.outputPath}")
  return ⟨s.outputPath, plan.tables.length, plan.joinedTables.length⟩

/-- Reads the source, plans, and writes the plan. -/
def run (s : Settings) : JournaledT m GenerationError Report := do
  .lift (.note .info s!"Loading schema from {s.source} (join_num {s.joinNum})")
  let declaration ← .ofEffect (return (← Declaration.ofFile read s.source).mapError .schema)
  let schema ← .lift (declaration.toSchema.mapError .schema)
  let plan ← .lift ((Plan.ofSchema schema s.joinNum).mapError .plan)
  write s plan

end Files
end Generation
end JoinShapes
