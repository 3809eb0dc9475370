/-!
# Table names

A usable table name is an ASCII identifier that starts with a letter, never holds two underscores in a row and does
not end in one. Under that rule the double underscore is free to separate names inside a longer one.
-/

namespace JoinShapes
namespace TableName

/-- Whether two underscores stand next to each other. -/
def hasDoubleUnderscore : List Char → Bool
  | '_' :: '_' :: _ => true
  | _ :: cs => hasDoubleUnderscore cs
  | [] => false

/-- The characters that a table name is made of after its first letter. -/
def isNameChar (c : Char) : Bool := c.isAlphanum || c == '_'

/-- Whether `name` may name a table. -/
def isValid (name : String) : Bool :=
  match name.toList with
  | [] => false
  | c :: cs => c.isAlpha && cs.all isNameChar && !hasDoubleUnderscore (c :: cs) && (c :: cs).getLast? != some '_'

end TableName
end JoinShapes
