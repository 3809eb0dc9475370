import JoinShapes.Settings.Basic
import JoinShapes.TableName
import JoinShapes.Text.Quoted

/-!
# Valid settings

Every field of the settings has a rule of its own, and all rules are checked: `Settings.violations` lists every rule
that fails, in the order of the fields.
-/

namespace JoinShapes

/-- A rule that settings do not keep. -/
inductive Violation
  | emptySource
  | emptyDestination
  | invalidPackage (value : String)
  | joinNumOutside (value : Nat)
deriving DecidableEq, Repr

/-- Why there are no settings. -/
inductive SettingsError
  /-- A variable of the environment, or a settings file, does not have the form that it needs. -/
  | unparsable (name value reason : String)
  | invalid (violations : List Violation)

namespace Settings

/-- The least width that may be asked for. -/
def minJoinNum : Nat := 1

/-- The greatest width that may be asked for. -/
def maxJoinNum : Nat := 8

/-- Whether generated code may belong to a package of this name. -/
def isPackageName (name : String) : Bool :=
  match name.toList with
  | [] => false
  | c :: cs => (c.isAlpha || c == '_') && cs.all TableName.isNameChar

/-- The rules that the settings do not keep. -/
def violations (s : Settings) : List Violation :=
  (if s.source.isEmpty then [.emptySource] else [])
  ++ (if s.destination.isEmpty then [.emptyDestination] else [])
  ++ (if isPackageName s.package then [] else [.invalidPackage s.package])
  ++ (if minJoinNum ≤ s.joinNum ∧ s.joinNum ≤ maxJoinNum then [] else [.joinNumOutside s.joinNum])

/-- The settings, if they keep all rules. -/
def check (s : Settings) : Except SettingsError Settings :=
  if s.violations.isEmpty then .ok s else .error (.invalid s.violations)

end Settings

namespace Violation

/-- The field that the rule is about. -/
def field : Violation → String
  | emptySource => "source"
  | emptyDestination => "destination"
  | invalidPackage _ => "package"
  | joinNumOutside _ => "join_num"

/-- The short name of the rule. -/
def code : Violation → String
  | emptySource | emptyDestination => "empty_path"
  | invalidPackage _ => "invalid_package_name"
  | joinNumOutside _ => "range"

/-- What the rule asks for, where it has words of its own. -/
def message? : Violation → Option String
  | joinNumOutside _ => some s!"Join width must be between {Settings.minJoinNum} and {Settings.maxJoinNum}"
  | _ => none

/-- The text that the rule refused. -/
def value : Violation → String
  | emptySource | emptyDestination => ""
  | invalidPackage v => v
  | joinNumOutside n => toString n

/-- The violation in words. -/
def message (v : Violation) : String :=
  let words := v.message?.getD
    s!"Validation error: {v.code} [\x7b\"value\": String({Text.quoted v.value})\x7d]"
  s!"{v.field}: {words}"

end Violation

/-- The fault in words. -/
def SettingsError.message : SettingsError → String
  | unparsable name value reason => s!"Parse error for {name}: {value} - {reason}"
  | invalid violations => "Validation error: " ++ "\n".intercalate (violations.map Violation.message)

end JoinShapes
