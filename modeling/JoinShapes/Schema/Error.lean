/-!
# Faults of a schema

Everything that keeps a set of table definitions from becoming a schema, each with the names it concerns.
-/

namespace JoinShapes

/-- Why table definitions do not make a schema. -/
inductive SchemaError
  /-- A foreign key of `table` points at a table that is not there. -/
  | unknownTarget (table column target : String)
  /-- A column that `table` does not declare. -/
  | unknownColumn (table column : String)
  | invalidTableName (table : String)
  | duplicateTable (table : String)
  | duplicateColumn (table column : String)
  /-- The definitions could not be read as text. -/
  | unreadable (error : String)
  /-- The text is no well-formed description of tables. -/
  | malformed (error : String)
  /-- A fault of the definitions as a whole. -/
  | unusable (message : String)
deriving DecidableEq, Repr

namespace SchemaError

/-- The definitions name no table. -/
def noTables : SchemaError := .unusable "Schema must contain at least one table definition"

/-- The fault in words. -/
def message : SchemaError → String
  | unknownTarget table column target =>
    s!"Foreign key `{table}.{column}` references unknown table `{target}`"
  | unknownColumn table column => s!"Column `{column}` is not declared on table `{table}`"
  | invalidTableName table =>
    s!"Invalid table name `{table}`: expected an ASCII identifier without `__` or a trailing `_`"
  | duplicateTable table => s!"Duplicate table definition: `{table}`"
  | duplicateColumn table column => s!"Duplicate column `{column}` on table `{table}`"
  | unreadable error => s!"Failed to read schema file: {error}"
  | malformed error => s!"Failed to parse schema: {error}"
  | unusable text => s!"Invalid schema: {text}"

end SchemaError
end JoinShapes
