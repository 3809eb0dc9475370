import JoinShapes.CommandLine.Arguments
import JoinShapes.EnvFile.Assignment
import JoinShapes.Generation

/-!
# Runs of the command line

A run takes the assignments of the nearest environment file, reads the arguments, resolves and checks the settings, and
generates. How it ends is an `Outcome`, with an exit code and the texts for the two output streams.
-/

namespace JoinShapes
namespace CommandLine

/-- How a run ends. -/
inductive Outcome
  | help
  | version
  /-- The environment file gives a variable a value that it cannot have. -/
  | unassignable (name : String)
  | refused (r : Refusal)
  | misconfigured (e : SettingsError)
  | failed (e : GenerationError)
  | finished (r : Report)

/-- The text that describes the arguments. -/
def helpText : String := "\n".intercalate [
  "ormjoin - join planner for generated ORM accessors",
  "",
  "Usage: ormjoin [OPTIONS]",
  "",
  "Options:",
  "      --src <FILE>      Schema definition file (YAML)",
  "      --dst <DIR>       Output directory for the generated join plan",
  "      --package <NAME>  Package name of the generated code",
  "      --join-num <N>    Maximum number of tables joined together (1 disables joins)",
  "      --compact         Write compact JSON instead of pretty-printed",
  "  -h, --help            Print help",
  "  -V, --version         Print version",
  ""]

/-- The name and the version of the program. -/
def versionText : String := "ormjoin 0.3.1-dev\n"

namespace Outcome

/-- The exit code: two for refused arguments, one for a run that failed, and a hundred and one for a run that was
broken off. -/
def exitCode : Outcome → UInt32
  | help | version | finished _ => 0
  | unassignable _ | failed (.plan .capacityOverflow) => 101
  | misconfigured _ | failed _ => 1
  | refused _ => 2

/-- What is written to standard output. -/
def stdout : Outcome → String
  | help => helpText
  | version => versionText
  | finished r =>
    s!"Planned {r.tableCount} tables and {r.joinedTableCount} joined tables -> {r.outputPath}\n"
  | unassignable _ | refused _ | misconfigured _ | failed _ => ""

/-- What is written to standard error. -/
def stderr : Outcome → String
  | unassignable name => s!"error: failed to set environment variable {Text.quoted name}: null character in its value\n"
  | refused r => s!"error: {r.message}\n"
  | misconfigured e => s!"Configuration error: {e.message}\n"
  | failed e => s!"Generation failed: {e.message}\n"
  | help | version | finished _ => ""

end Outcome

/-- A run that has ended, and the journal of its generation. -/
structure Ending where
  entries : List Entry
  outcome : Outcome

section Files

variable {m : Type → Type} [Monad m] [FileAccess m]

/-- The name of environment files. -/
def environmentFile : String := ".env"

/-- The assignments of the first environment file in the working directory and `depth` directories above it. -/
def assignments : Nat → String → m (List EnvFile.Assignment)
  | 0, place => return ((← FileAccess.read (place ++ environmentFile)).toOption.map EnvFile.ofBytes).getD []
  | depth + 1, place => do
    match ← FileAccess.read (place ++ environmentFile) with
    | .ok content => return EnvFile.ofBytes content
    | .error _ => assignments depth (place ++ "../")

/-- What a request leads to in an environment, by a given reader of schema files. -/
def answer (read : String → Except String Declaration) (env : Environment) : Request → m Ending
  | .help => return ⟨[], .help⟩
  | .version => return ⟨[], .version⟩
  | .generate given =>
    match Settings.ofOverrides given env with
    | .error e => return ⟨[], .misconfigured e⟩
    | .ok settings => do
      let result ← (Generation.run read settings).run
      return ⟨result.entries, match result.outcome with
        | .ok r => .finished r
        | .error e => .failed e⟩

/-- The whole run; `environment` gives the values of the variables that it is asked for. -/
def run (read : String → Except String Declaration) (environment : List String → m Environment) (args : List String) :
    m Ending := do
  let given ← assignments (← FileAccess.depth) ""
  let env ← environment (Environment.settingNames ++ EnvFile.mentioned given)
  match env.assignAll given with
  | .error name => return ⟨[], .unassignable name⟩
  | .ok env =>
    match request args with
    | .error r => return ⟨[], .refused r⟩
    | .ok r => answer read env r

end Files
end CommandLine
end JoinShapes
