import JoinShapes.Json.Token

/-!
# JSON as text

Two layouts of one value: `compact` writes no blanks, `pretty` puts every item and field on a line of its own, indented
by two blanks a level. Empty arrays and objects stay closed in both.
-/

namespace JoinShapes
namespace Json

mutual

/-- The tokens of a value. -/
def tokens : Json → List Token
  | null => [.null]
  | bool b => [.bool b]
  | nat n => [.natural n]
  | numeral s => [.numeral s]
  | str s => [.text s]
  | arr [] => [.openArray, .closeArray]
  | arr (v :: vs) => .openArray :: (tokens v ++ itemTokens vs)
  | obj [] => [.openObject, .closeObject]
  | obj ((name, v) :: fs) => .openObject :: .text name :: .colon :: (tokens v ++ fieldTokens fs)

/-- The tokens of the remaining items of an array, its end included. -/
def itemTokens : List Json → List Token
  | [] => [.closeArray]
  | v :: vs => .comma :: (tokens v ++ itemTokens vs)

/-- The tokens of the remaining fields of an object, its end included. -/
def fieldTokens : List (String × Json) → List Token
  | [] => [.closeObject]
  | (name, v) :: fs => .comma :: .text name :: .colon :: (tokens v ++ fieldTokens fs)

end

/-- The value as text without blanks. -/
def compact (v : Json) : String := String.ofList (v.tokens.flatMap Token.spell)

/-- A new line, indented. -/
def newLine (level : Nat) : List Char := '\n' :: List.replicate (2 * level) ' '

mutual

/-- The characters of a value laid out at a level of nesting. -/
def layout (level : Nat) : Json → List Char
  | null => Token.null.spell
  | bool b => (Token.bool b).spell
  | nat n => (Token.natural n).spell
  | numeral s => (Token.numeral s).spell
  | str s => Token.quote s
  | arr [] => ['[', ']']
  | arr (v :: vs) => '[' :: (newLine (level + 1) ++ layout (level + 1) v ++ layoutItems level vs)
  | obj [] => ['\x7b', '\x7d']
  | obj ((name, v) :: fs) =>
    '\x7b' :: (newLine (level + 1) ++ Token.quote name ++ ':' :: ' ' :: layout (level + 1) v ++ layoutFields level fs)

/-- The remaining items of an array at a level, its end included. -/
def layoutItems (level : Nat) : List Json → List Char
  | [] => newLine level ++ [']']
  | v :: vs => ',' :: (newLine (level + 1) ++ layout (level + 1) v ++ layoutItems level vs)

/-- The remaining fields of an object at a level, its end included. -/
def layoutFields (level : Nat) : List (String × Json) → List Char
  | [] => newLine level ++ ['\x7d']
  | (name, v) :: fs =>
    ',' :: (newLine (level + 1) ++ Token.quote name ++ ':' :: ' ' :: layout (level + 1) v ++ layoutFields level fs)

end

/-- The value as text with one item or field a line. -/
def pretty (v : Json) : String := String.ofList (v.layout 0)

end Json
end JoinShapes
