import JoinShapes.Schema.Basic

/-!
# Declarations

A declaration is what a schema file says: tables, and perhaps a name for the schema. It is checked more closely than the
tables of a schema: columns are told apart, and keys have to name declared columns wherever a table lists its columns.
`Declaration.toSchema` makes a schema of a declaration without fault.
-/

namespace JoinShapes

/-- A column as it is declared. -/
structure ColumnDefinition where
  name : String
  dataType : String
  nullable : Bool
deriving DecidableEq, Repr

/-- A foreign key as it is declared. -/
structure KeyDefinition where
  column : String
  references : String
  referencedColumn : String
deriving DecidableEq, Repr

/-- A table as it is declared. -/
structure TableDefinition where
  name : String
  columns : List ColumnDefinition
  primaryKey : List String
  foreignKeys : List KeyDefinition
deriving DecidableEq, Repr

/-- The tables of a schema file and the name that it gives them. -/
structure Declaration where
  name : Option String
  tables : List TableDefinition
deriving DecidableEq, Repr

/-! ## Conversion -/

def ColumnDefinition.toColumn (c : ColumnDefinition) : Column := ⟨c.name, c.dataType, c.nullable⟩

def KeyDefinition.toForeignKey (fk : KeyDefinition) : ForeignKey := ⟨fk.column, fk.references, fk.referencedColumn⟩

namespace TableDefinition

/-- The table of a schema that the definition describes. -/
def toTableSchema (t : TableDefinition) : TableSchema where
  name := t.name
  columns := t.columns.map (·.toColumn)
  primaryKey := t.primaryKey
  foreignKeys := t.foreignKeys.map (·.toForeignKey)

/-! ## Validation -/

/-- Whether a column may be used: tables that list no columns have every column. -/
def declares (t : TableDefinition) (column : String) : Bool := t.columns.isEmpty || t.columns.any (·.name == column)

/-- The first of some names that is one of `seen` or of the names before it. -/
def repeated? (seen : List String) : List String → Option String
  | [] => none
  | n :: ns => if n ∈ seen then some n else repeated? (n :: seen) ns

/-- Refuses two columns of one name, and a primary key with a column that is not declared. -/
def validateColumns (t : TableDefinition) : Except SchemaError Unit :=
  match repeated? [] (t.columns.map (·.name)) with
  | some c => .error (.duplicateColumn t.name c)
  | none => t.primaryKey.forM fun c => if t.declares c then .ok () else .error (.unknownColumn t.name c)

end TableDefinition

namespace Declaration

/-- Looks at the tables one by one: at the name, which is to be usable and none of `seen`, and then at the columns. -/
def validateTables (seen : List String) : List TableDefinition → Except SchemaError Unit
  | [] => .ok ()
  | t :: ts => do
    if !TableName.isValid t.name then .error (.invalidTableName t.name)
    else if t.name ∈ seen then .error (.duplicateTable t.name)
    t.validateColumns
    validateTables (t.name :: seen) ts

/-- Looks for the target of a foreign key of `t`, and then for the columns at both ends. -/
def validateKey (tables : List TableDefinition) (t : TableDefinition) (fk : KeyDefinition) : Except SchemaError Unit :=
  match tables.find? (·.name == fk.references) with
  | none => .error (.unknownTarget t.name fk.column fk.references)
  | some target =>
    if !t.declares fk.column then .error (.unknownColumn t.name fk.column)
    else if !target.declares fk.referencedColumn then .error (.unknownColumn target.name fk.referencedColumn)
    else .ok ()

/-- Whether a declaration is without fault, or else its first one. -/
def validate (d : Declaration) : Except SchemaError Unit := do
  if d.tables.isEmpty then .error .noTables
  validateTables [] d.tables
  d.tables.forM fun t => t.foreignKeys.forM (validateKey d.tables t)

/-- The name of schemas that are not given one. -/
def defaultName : String := "default"

/-- The tables of the schema that a declaration describes. -/
def tableSchemas (d : Declaration) : List TableSchema := d.tables.map (·.toTableSchema)

/-- The schema that a declaration describes. -/
def toSchema (d : Declaration) : Journaled SchemaError Schema := do
  .ofExcept d.validate
  Schema.build (d.name.getD defaultName) d.tableSchemas

end Declaration
end JoinShapes
