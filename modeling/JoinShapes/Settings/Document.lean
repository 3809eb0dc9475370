import JoinShapes.Files.Access
import JoinShapes.Settings.Validation
import JoinShapes.Yaml.Decode

/-!
# Settings in YAML files

A settings file gives all settings but the layout, which may be left out. It is read by whichever reader is given;
`readYaml` is the one for YAML.
-/

namespace JoinShapes
namespace Settings

open Yaml

def ofYaml (d : Document) (n : Node Nat) : Reading Settings := do
  match ← d.fields ["source", "destination", "package", "join_num", "pretty"] n with
  | [source, destination, package, joinNum, pretty] =>
    return ⟨← required d.text source, ← required d.text destination, ← required d.text package,
      ← required d.word joinNum, ← orElse default.pretty d.flag pretty⟩
  | _ => failure

/-- Reads settings from YAML. -/
def readYaml (text : String) : Except String Settings :=
  match Yaml.ofText? ofYaml text with
  | some s => .ok s
  | none => .error "it does not describe settings"

section Files

variable (read : String → Except String Settings)

/-- The checked settings that a text describes, by a reader of such texts. -/
def ofText (text : String) : Except SettingsError Settings :=
  match read text with
  | .ok s => s.check
  | .error reason => .error (.unparsable "yaml_content" text reason)

/-- The checked settings of a file. -/
def ofFile {m : Type → Type} [Monad m] [FileAccess m] (path : String) : m (Except SettingsError Settings) := do
  match ← readText path with
  | .ok text => return ofText read text
  | .error reason => return .error (.unparsable "yaml_file" "file read failed" reason)

end Files
end Settings
end JoinShapes
