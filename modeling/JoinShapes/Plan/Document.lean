import JoinShapes.Json.Parse
import JoinShapes.Json.Render
import JoinShapes.Plan.Basic
import JoinShapes.Schema.Document

/-!
# Plans as JSON documents

A plan is written as an object with all fields in order of declaration. `Plan.text` is the file that a run leaves
behind; `Plan.ofText?` reads it again.
-/

namespace JoinShapes

open Json

namespace JoinCondition

def toJson (c : JoinCondition) : Json :=
  .obj [("left_table", .str c.leftTable), ("left_column", .str c.leftColumn),
    ("right_table", .str c.rightTable), ("right_column", .str c.rightColumn)]

def ofJson? (v : Json) : Option JoinCondition := do
  match ← v.slots? ["left_table", "left_column", "right_table", "right_column"] with
  | [leftTable, leftColumn, rightTable, rightColumn] =>
    return ⟨← leftTable.required text?, ← leftColumn.required text?, ← rightTable.required text?,
      ← rightColumn.required text?⟩
  | _ => none

end JoinCondition

namespace RefTable

def toJson (r : RefTable) : Json := .obj [("table", .str r.table), ("on", r.on.toJson)]

def ofJson? (v : Json) : Option RefTable := do
  match ← v.slots? ["table", "on"] with
  | [table, on] => return ⟨← table.required text?, ← on.required JoinCondition.ofJson?⟩
  | _ => none

end RefTable

namespace RefJoinedTable

def toJson (r : RefJoinedTable) : Json :=
  .obj [("joined_table", .str r.joinedTable), ("width", .nat r.width), ("tables", .arr (r.tables.map .str)),
    ("accessor", .str r.accessor), ("via_ref_table", (r.viaRefTable.map .str).getD .null)]

def ofJson? (v : Json) : Option RefJoinedTable := do
  match ← v.slots? ["joined_table", "width", "tables", "accessor", "via_ref_table"] with
  | [joinedTable, width, tables, accessor, viaRefTable] =>
    return ⟨← joinedTable.required text?, ← width.required word?, ← tables.required (list? text?),
      ← accessor.required text?, ← viaRefTable.optional text?⟩
  | _ => none

end RefJoinedTable

namespace PlannedTable

def toJson (t : PlannedTable) : Json :=
  .obj [("name", .str t.name), ("columns", .arr (t.columns.map Column.toJson)),
    ("primary_key", .arr (t.primaryKey.map .str)), ("foreign_keys", .arr (t.foreignKeys.map ForeignKey.toJson)),
    ("ref_tables", .arr (t.refTables.map RefTable.toJson)),
    ("ref_joined_tables", .arr (t.refJoinedTables.map RefJoinedTable.toJson))]

def ofJson? (v : Json) : Option PlannedTable := do
  match ← v.slots? ["name", "columns", "primary_key", "foreign_keys", "ref_tables", "ref_joined_tables"] with
  | [name, columns, primaryKey, foreignKeys, refTables, refJoinedTables] =>
    return ⟨← name.required text?, ← columns.required (list? Column.ofJson?), ← primaryKey.required (list? text?),
      ← foreignKeys.required (list? ForeignKey.ofJson?), ← refTables.required (list? RefTable.ofJson?),
      ← refJoinedTables.required (list? RefJoinedTable.ofJson?)⟩
  | _ => none

end PlannedTable

namespace JoinedTable

def toJson (j : JoinedTable) : Json :=
  .obj [("name", .str j.name), ("tables", .arr (j.tables.map .str)),
    ("ref_tables", .arr (j.refTables.map RefTable.toJson)),
    ("ref_joined_tables", .arr (j.refJoinedTables.map RefJoinedTable.toJson))]

def ofJson? (v : Json) : Option JoinedTable := do
  match ← v.slots? ["name", "tables", "ref_tables", "ref_joined_tables"] with
  | [name, tables, refTables, refJoinedTables] =>
    return ⟨← name.required text?, ← tables.required (list? text?), ← refTables.required (list? RefTable.ofJson?),
      ← refJoinedTables.required (list? RefJoinedTable.ofJson?)⟩
  | _ => none

end JoinedTable

namespace Plan

def toJson (p : Plan) : Json :=
  .obj [("name", .str p.name), ("join_num", .nat p.joinNum), ("tables", .arr (p.tables.map PlannedTable.toJson)),
    ("joined_tables", .arr (p.joinedTables.map JoinedTable.toJson))]

def ofJson? (v : Json) : Option Plan := do
  match ← v.slots? ["name", "join_num", "tables", "joined_tables"] with
  | [name, joinNum, tables, joinedTables] =>
    return ⟨← name.required text?, ← joinNum.required word?, ← tables.required (list? PlannedTable.ofJson?),
      ← joinedTables.required (list? JoinedTable.ofJson?)⟩
  | _ => none

/-- The plan as text, laid out for readers or without blanks. -/
def text (p : Plan) (isPretty : Bool) : String := if isPretty then p.toJson.pretty else p.toJson.compact

/-- The plan that a text spells. -/
def ofText? (text : String) : Option Plan := Json.parse? text >>= ofJson?

end Plan
end JoinShapes
