import Std.Data.HashMap
import JoinShapes.Journal
import JoinShapes.TableName
import JoinShapes.Schema.Error

/-!
# Schemas

A schema is a named list of tables whose names are usable and distinct and whose foreign keys all point at tables of
the list. Tables are identified by their positions in the list, and an index leads from names to positions.

`Schema.build` makes a schema or tells the first fault. It goes through the tables twice. The first time it fills the
index, and that a name is noted already tells that it is taken; the second time it looks up the targets of the foreign
keys.
-/

namespace JoinShapes

/-- A column of a table. -/
structure Column where
  name : String
  dataType : String
  nullable : Bool
deriving DecidableEq, Repr

/-- A column that refers to a column of another table, or of the same one. -/
structure ForeignKey where
  column : String
  refTable : String
  refColumn : String
deriving DecidableEq, Repr

/-- A table as declared. -/
structure TableSchema where
  name : String
  columns : List Column
  primaryKey : List String
  foreignKeys : List ForeignKey
deriving DecidableEq, Repr

namespace TableSchema

def hasColumn (t : TableSchema) (column : String) : Bool := t.columns.any (·.name == column)

/-- Foreign keys that point at another table. -/
def outgoing (t : TableSchema) : List ForeignKey := t.foreignKeys.filter (·.refTable != t.name)

end TableSchema

namespace Schema

/-- The positions of tables by name. -/
abbrev Index := Std.HashMap String Nat

/-- Notes the names of tables, the first of which is at `position`; one that is unusable or noted already is refused. -/
def indexFrom (index : Index) (position : Nat) : List TableSchema → Except SchemaError Index
  | [] => .ok index
  | t :: ts =>
    if !TableName.isValid t.name then .error (.invalidTableName t.name)
    else
      match index.containsThenInsert t.name position with
      | (true, _) => .error (.duplicateTable t.name)
      | (false, index) => indexFrom index (position + 1) ts

/-- The index of a list of tables. -/
def indexTables (tables : List TableSchema) : Except SchemaError Index := indexFrom ∅ 0 tables

/-- Refuses a foreign key of `t` whose target is not in the index, and warns of one whose target is `t` itself. -/
def checkKey (index : Index) (t : TableSchema) (fk : ForeignKey) : Journaled SchemaError Unit := do
  if !index.contains fk.refTable then .ofExcept (.error (.unknownTarget t.name fk.column fk.refTable))
  if fk.refTable == t.name then
    .note .warn s!"Self-referencing foreign key {t.name}.{fk.column} is kept as a reference but cannot be joined"

/-- Looks up the targets of all foreign keys, table by table. -/
def checkKeys (index : Index) (tables : List TableSchema) : Journaled SchemaError Unit :=
  tables.forM fun t => t.foreignKeys.forM (checkKey index t)

end Schema

/-- A named list of tables without fault, and its index. -/
structure Schema where
  name : String
  tables : List TableSchema
  index : Schema.Index
  indexed : Schema.indexTables tables = .ok index
  targeted : (Schema.checkKeys index tables).outcome = .ok ()

namespace Schema

/-- The schema of these tables, or their first fault. -/
def build (name : String) (tables : List TableSchema) : Journaled SchemaError Schema :=
  match hindex : indexTables tables with
  | .error e => .ofExcept (.error e)
  | .ok index =>
    match hkeys : checkKeys index tables with
    | ⟨entries, .error e⟩ => ⟨entries, .error e⟩
    | ⟨entries, .ok ()⟩ => ⟨entries, .ok ⟨name, tables, index, hindex, by rw [hkeys]⟩⟩

/-- The number of tables. -/
def size (s : Schema) : Nat := s.tables.length

/-- The position of the table of this name. -/
def indexOf? (s : Schema) (name : String) : Option Nat := s.index[name]?

/-- The table of this name. -/
def table? (s : Schema) (name : String) : Option TableSchema := (s.indexOf? name).bind (s.tables[·]?)

end Schema
end JoinShapes
