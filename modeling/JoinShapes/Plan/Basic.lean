import JoinShapes.JoinedName
import JoinShapes.Schema.Basic

/-!
# Plans

A plan lists the tables of a schema and all joined tables, by name: for each, the tables that a foreign key leads to or
comes from, and the wider joined tables that one more join leads to.
-/

namespace JoinShapes

/-- The columns that have to be equal for two rows to be joined. -/
structure JoinCondition where
  leftTable : String
  leftColumn : String
  rightTable : String
  rightColumn : String
deriving DecidableEq, Repr

/-- A table at the other end of a foreign key. -/
structure RefTable where
  table : String
  on : JoinCondition
deriving DecidableEq, Repr

/-- A wider joined table, reached by joining in the group `tables`. -/
structure RefJoinedTable where
  joinedTable : String
  /-- The number of members of `joinedTable`. -/
  width : Nat
  tables : List String
  accessor : String
  /-- The group, if it is a single table. -/
  viaRefTable : Option String
deriving DecidableEq, Repr

/-- A table of the schema with all that can be joined to it. -/
structure PlannedTable where
  name : String
  columns : List Column
  primaryKey : List String
  foreignKeys : List ForeignKey
  refTables : List RefTable
  refJoinedTables : List RefJoinedTable
deriving DecidableEq, Repr

/-- Several tables joined, with all that can be joined to them. -/
structure JoinedTable where
  name : String
  tables : List String
  refTables : List RefTable
  refJoinedTables : List RefJoinedTable
deriving DecidableEq, Repr

/-- The number of members. -/
def JoinedTable.width (j : JoinedTable) : Nat := j.tables.length

/-- All joined tables of a schema up to a width. -/
structure Plan where
  name : String
  joinNum : Nat
  tables : List PlannedTable
  joinedTables : List JoinedTable
deriving DecidableEq, Repr

namespace Plan

/-- The table of this name. -/
def table? (p : Plan) (name : String) : Option PlannedTable := p.tables.find? (·.name == name)

/-- The joined table of this name. -/
def joinedTable? (p : Plan) (name : String) : Option JoinedTable := p.joinedTables.find? (·.name == name)

/-- The joined table with exactly these members, in any order. -/
def joinedTableFor? (p : Plan) (tables : List String) : Option JoinedTable :=
  p.joinedTables.find? (·.tables == JoinedName.sorted tables)

end Plan

/-- Whether lists of texts are in order: the first difference decides, and a list comes before those it starts. -/
def inOrder : List String → List String → Bool
  | [], _ => true
  | _ :: _, [] => false
  | s :: ss, t :: ts => if s = t then inOrder ss ts else decide (s ≤ t)

namespace RefTable

/-- References are ordered by table, then by the four parts of the condition. -/
def sortKey (r : RefTable) : List String :=
  [r.table, r.on.leftTable, r.on.leftColumn, r.on.rightTable, r.on.rightColumn]

/-- The references in order. -/
def sorted (rs : List RefTable) : List RefTable := rs.mergeSort fun a b => inOrder a.sortKey b.sortKey

end RefTable

/-- Lists of one width are ordered as lists, and narrower ones come first. -/
def widthThenNames (width : Nat) (names : List String) (width' : Nat) (names' : List String) : Bool :=
  width < width' || width == width' && inOrder names names'

namespace RefJoinedTable

/-- By width, joined table and group. -/
def sorted (rs : List RefJoinedTable) : List RefJoinedTable :=
  rs.mergeSort fun a b => widthThenNames a.width (a.joinedTable :: a.tables) b.width (b.joinedTable :: b.tables)

end RefJoinedTable

namespace JoinedTable

/-- By width and members. -/
def sorted (js : List JoinedTable) : List JoinedTable :=
  js.mergeSort fun a b => widthThenNames a.width a.tables b.width b.tables

end JoinedTable
end JoinShapes
