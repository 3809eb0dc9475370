import JoinShapes.Json.Decode
import JoinShapes.Schema.Basic

/-!
# Tables as JSON documents

The documents of columns, foreign keys and tables, written and read. Only `nullable` may be left out.
-/

namespace JoinShapes

open Json

namespace Column

def toJson (c : Column) : Json :=
  .obj [("name", .str c.name), ("data_type", .str c.dataType), ("nullable", .bool c.nullable)]

def ofJson? (v : Json) : Option Column := do
  match ← v.slots? ["name", "data_type", "nullable"] with
  | [name, dataType, nullable] =>
    return ⟨← name.required text?, ← dataType.required text?, ← nullable.orElse false bool?⟩
  | _ => none

end Column

namespace ForeignKey

def toJson (fk : ForeignKey) : Json :=
  .obj [("column", .str fk.column), ("ref_table", .str fk.refTable), ("ref_column", .str fk.refColumn)]

def ofJson? (v : Json) : Option ForeignKey := do
  match ← v.slots? ["column", "ref_table", "ref_column"] with
  | [column, refTable, refColumn] =>
    return ⟨← column.required text?, ← refTable.required text?, ← refColumn.required text?⟩
  | _ => none

end ForeignKey

namespace TableSchema

def toJson (t : TableSchema) : Json :=
  .obj [("name", .str t.name), ("columns", .arr (t.columns.map Column.toJson)),
    ("primary_key", .arr (t.primaryKey.map .str)), ("foreign_keys", .arr (t.foreignKeys.map ForeignKey.toJson))]

def ofJson? (v : Json) : Option TableSchema := do
  match ← v.slots? ["name", "columns", "primary_key", "foreign_keys"] with
  | [name, columns, primaryKey, foreignKeys] =>
    return ⟨← name.required text?, ← columns.required (list? Column.ofJson?),
      ← primaryKey.required (list? text?), ← foreignKeys.required (list? ForeignKey.ofJson?)⟩
  | _ => none

end TableSchema

/-- The name and the tables of a schema. -/
def Schema.toJson (s : Schema) : Json :=
  .obj [("name", .str s.name), ("tables", .arr (s.tables.map TableSchema.toJson))]

end JoinShapes
