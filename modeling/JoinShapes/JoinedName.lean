/-!
# Names of joined tables

A joined table is named after its members: `join_`, then the member names in ascending order, separated by a double
underscore. The method that leads to a group of tables is named by the same rule. `tables?` takes a name apart again.
-/

namespace JoinShapes
namespace JoinedName

/-- What every generated name starts with. -/
def opening : List Char := ['j', 'o', 'i', 'n', '_']

/-- The names in ascending order of their characters. -/
def sorted (tables : List String) : List String := tables.mergeSort fun a b => decide (a ≤ b)

/-- The words in order, with a double underscore between neighbours. -/
def joinWords : List (List Char) → List Char
  | [] => []
  | [w] => w
  | w :: v :: ws => w ++ '_' :: '_' :: joinWords (v :: ws)

/-- The words between double underscores, read from the left. -/
def splitWords : List Char → List (List Char)
  | [] => [[]]
  | '_' :: '_' :: cs => [] :: splitWords cs
  | c :: cs => (splitWords cs).modifyHead (c :: ·)

/-- The name of the joined table of these members, whatever their order. -/
def ofTables (tables : List String) : String :=
  String.ofList (opening ++ joinWords ((sorted tables).map String.toList))

/-- The name of the method that joins in these tables. -/
def accessor (tables : List String) : String := ofTables tables

/-- The members that a joined name spells: at least two, none of them empty. -/
def tables? (name : String) : Option (List String) :=
  if opening.isPrefixOf name.toList then
    let words := splitWords (name.toList.drop opening.length)
    if words.length < 2 || words.any List.isEmpty then none else some (words.map String.ofList)
  else none

end JoinedName
end JoinShapes
