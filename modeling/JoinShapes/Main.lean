import JoinShapes.CommandLine.Run

/-!
# The program

The command line on the files and the environment of the machine.
-/

namespace JoinShapes

/-- Whether an operation succeeds. -/
def succeeds (act : IO Unit) : IO Bool := try act; return true catch _ => return false

/-- Makes a directory and all that lead to it; whether it is there now. -/
def makeMachineDirectories (path : String) : IO Bool := do
  if !Path.isUsable path then return false
  let r := Path.route path
  let start := if r.isAbsolute then "/" else ""
  let isMade ← if r.makeable.isEmpty then pure true
    else succeeds (IO.FS.createDirAll (start ++ "/".intercalate r.makeable))
  if isMade && r.endsInDot then succeeds (discard (IO.FS.realPath path)) else return isMade

instance : FileAccess IO where
  depth := return (Path.route (← IO.currentDir).toString).names.length
  read path := try return .ok (← IO.FS.readBinFile path) catch e => return .error (toString e)
  makeDirectories := makeMachineDirectories
  write path text := succeeds (IO.FS.writeFile path text)

/-- The values of some variables of the machine. -/
def machineEnvironment (names : List String) : IO Environment := do
  let values ← names.filterMapM fun name => do return (← IO.getEnv name).map fun value => (name, value.toUTF8)
  return ⟨values⟩

end JoinShapes

open JoinShapes in
/-- Runs the program; journal entries that matter go to standard error first. -/
def main (args : List String) : IO UInt32 := do
  let ending ← CommandLine.run Declaration.readYaml machineEnvironment args
  for e in ending.entries do
    match e.severity with
    | .debug => pure ()
    | .info => IO.eprintln s!"info: {e.text}"
    | .warn => IO.eprintln s!"warning: {e.text}"
  IO.print ending.outcome.stdout
  IO.eprint ending.outcome.stderr
  return ending.outcome.exitCode
