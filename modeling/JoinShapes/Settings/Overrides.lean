import JoinShapes.Environment
import JoinShapes.Settings.Validation
import JoinShapes.Text.Numeral

/-!
# Settings from flags and the environment

A flag that is given decides its setting; otherwise a variable of the environment does, and otherwise the default. A
variable that a flag stands in for is not looked at, so that its value cannot be a fault.
-/

namespace JoinShapes

namespace Environment

/-- The variables that settings are taken from. -/
def settingNames : List String :=
  ["ORMJOIN_SOURCE", "ORMJOIN_DESTINATION", "ORMJOIN_PACKAGE", "ORMJOIN_JOIN_NUM", "ORMJOIN_PRETTY"]

/-- The width that the environment asks for. -/
def joinNum (env : Environment) : Except SettingsError Nat :=
  match env.text? "ORMJOIN_JOIN_NUM" with
  | none => .ok Settings.default.joinNum
  | some value =>
    match Numeral.ofText value with
    | .ok n => .ok n
    | .error e => .error (.unparsable "ORMJOIN_JOIN_NUM" value e.message)

/-- The layout that the environment asks for. -/
def pretty (env : Environment) : Except SettingsError Bool :=
  match env.text? "ORMJOIN_PRETTY" with
  | none => .ok Settings.default.pretty
  | some "true" => .ok true
  | some "false" => .ok false
  | some value => .error (.unparsable "ORMJOIN_PRETTY" value "provided string was not `true` or `false`")

end Environment

/-- The settings that were given as flags. -/
structure Overrides where
  source : Option String
  destination : Option String
  package : Option String
  joinNum : Option Nat
  /-- Whether the plan is to be written without layout. -/
  compact : Bool
deriving DecidableEq, Repr

namespace Overrides

/-- No flag at all. -/
def empty : Overrides := ⟨none, none, none, none, false⟩

/-- The settings that flags and environment make together, not yet checked. -/
def resolve (o : Overrides) (env : Environment) : Except SettingsError Settings := do
  let text (given : Option String) (name default : String) : String :=
    given.getD ((env.text? name).getD default)
  return {
    source := text o.source "ORMJOIN_SOURCE" Settings.default.source
    destination := text o.destination "ORMJOIN_DESTINATION" Settings.default.destination
    package := text o.package "ORMJOIN_PACKAGE" Settings.default.package
    joinNum := ← (o.joinNum.map Except.ok).getD env.joinNum
    pretty := ← if o.compact then .ok false else env.pretty }

end Overrides

namespace Settings

/-- The checked settings of flags and environment. -/
def ofOverrides (o : Overrides) (env : Environment) : Except SettingsError Settings := o.resolve env >>= check

/-- The checked settings of an environment. -/
def ofEnvironment (env : Environment) : Except SettingsError Settings := ofOverrides .empty env

end Settings
end JoinShapes
