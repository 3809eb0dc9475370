import JoinShapes.Files.Path

/-!
# Settings

What a run needs to know: where the schema is, where the plan goes, and how wide joins may be.
-/

namespace JoinShapes

/-- The settings of a run. -/
structure Settings where
  source : String
  destination : String
  package : String
  joinNum : Nat
  pretty : Bool
deriving DecidableEq, Repr

namespace Settings

/-- What holds where nothing is said. -/
def default : Settings := ⟨"schema.yaml", "generated", "model", 5, true⟩

/-- The file that the plan is written to. -/
def outputPath (s : Settings) : String := Path.join s.destination (s.package ++ "_joins.json")

/-- Other settings take the place of these. -/
def merge (_ other : Settings) : Settings := other

end Settings
end JoinShapes
