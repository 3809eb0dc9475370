import JoinShapes.Declaration.Basic
import JoinShapes.Files.Access
import JoinShapes.Json.Decode
import JoinShapes.Yaml.Decode

/-!
# Declarations as documents

A declaration is read from YAML or from a JSON document by the same rules: only names, column types and the two ends of
a foreign key have to be given, and a foreign key leads to the column `id` unless it says otherwise. Schema files are
read by whichever reader is given (`ofText`, `ofFile`); `readYaml` is the one that the program uses.
-/

namespace JoinShapes
namespace Declaration

/-- The column that a foreign key leads to if it does not say so. -/
def defaultRefColumn : String := "id"

/-! ## JSON -/

section Json

open Json

def columnToJson (c : ColumnDefinition) : Json :=
  .obj [("name", .str c.name), ("type", .str c.dataType), ("nullable", .bool c.nullable)]

def columnOfJson? (v : Json) : Option ColumnDefinition := do
  match ← v.slots? ["name", "type", "nullable"] with
  | [name, type, nullable] => return ⟨← name.required text?, ← type.required text?, ← nullable.orElse false bool?⟩
  | _ => none

def keyToJson (fk : KeyDefinition) : Json :=
  .obj [("column", .str fk.column), ("references", .str fk.references), ("referenced_column", .str fk.referencedColumn)]

def keyOfJson? (v : Json) : Option KeyDefinition := do
  match ← v.slots? ["column", "references", "referenced_column"] with
  | [column, references, referencedColumn] =>
    return ⟨← column.required text?, ← references.required text?, ← referencedColumn.orElse defaultRefColumn text?⟩
  | _ => none

def tableToJson (t : TableDefinition) : Json :=
  .obj [("name", .str t.name), ("columns", .arr (t.columns.map columnToJson)),
    ("primary_key", .arr (t.primaryKey.map .str)), ("foreign_keys", .arr (t.foreignKeys.map keyToJson))]

def tableOfJson? (v : Json) : Option TableDefinition := do
  match ← v.slots? ["name", "columns", "primary_key", "foreign_keys"] with
  | [name, columns, primaryKey, foreignKeys] =>
    return ⟨← name.required text?, ← columns.orElse [] (list? columnOfJson?), ← primaryKey.orElse [] (list? text?),
      ← foreignKeys.orElse [] (list? keyOfJson?)⟩
  | _ => none

def toJson (d : Declaration) : Json :=
  .obj [("name", (d.name.map .str).getD .null), ("tables", .arr (d.tables.map tableToJson))]

def ofJson? (v : Json) : Option Declaration := do
  match ← v.slots? ["name", "tables"] with
  | [name, tables] => return ⟨← name.optional text?, ← tables.required (list? tableOfJson?)⟩
  | _ => none

end Json

/-! ## YAML -/

section Yaml

open Yaml

def columnOfYaml (d : Document) (n : Node Nat) : Reading ColumnDefinition := do
  match ← d.fields ["name", "type", "nullable"] n with
  | [name, type, nullable] => return ⟨← required d.text name, ← required d.text type, ← orElse false d.flag nullable⟩
  | _ => failure

def keyOfYaml (d : Document) (n : Node Nat) : Reading KeyDefinition := do
  match ← d.fields ["column", "references", "referenced_column"] n with
  | [column, references, referencedColumn] =>
    return ⟨← required d.text column, ← required d.text references,
      ← orElse defaultRefColumn d.text referencedColumn⟩
  | _ => failure

def tableOfYaml (d : Document) (n : Node Nat) : Reading TableDefinition := do
  match ← d.fields ["name", "columns", "primary_key", "foreign_keys"] n with
  | [name, columns, primaryKey, foreignKeys] =>
    return ⟨← required d.text name, ← orElse [] (d.list (columnOfYaml d)) columns,
      ← orElse [] (d.list d.text) primaryKey, ← orElse [] (d.list (keyOfYaml d)) foreignKeys⟩
  | _ => failure

def ofYaml (d : Document) (n : Node Nat) : Reading Declaration := do
  match ← d.fields ["name", "tables"] n with
  | [name, tables] => return ⟨← orElse none (d.optional d.text) name, ← required (d.list (tableOfYaml d)) tables⟩
  | _ => failure

end Yaml

/-- Reads a declaration from YAML. -/
def readYaml (text : String) : Except String Declaration :=
  match Yaml.ofText? ofYaml text with
  | some d => .ok d
  | none => .error "it does not describe tables"

/-! ## Schema files -/

section Files

variable (read : String → Except String Declaration)

/-- The declaration that the text of a schema file holds, by a reader of such texts. -/
def ofText (text : String) : Except SchemaError Declaration := (read text).mapError .malformed

/-- The declaration that a schema file holds. -/
def ofFile {m : Type → Type} [Monad m] [FileAccess m] (path : String) : m (Except SchemaError Declaration) := do
  match ← readText path with
  | .ok text => return ofText read text
  | .error e => return .error (.unreadable e)

end Files
end Declaration
end JoinShapes
