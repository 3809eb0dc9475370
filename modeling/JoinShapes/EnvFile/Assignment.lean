import JoinShapes.Environment
import JoinShapes.EnvFile.Lines
import JoinShapes.Text.Alphanumeric

/-!
# Assignments of environment files

A line `NAME=value` assigns a value to a variable that has none yet. A value is text in which `$NAME` or `${NAME}`
stands for the value of another variable; single quotes keep everything as it is, double quotes keep blanks, and a
backslash keeps the character after it. The first line in error ends the reading. A value with a null character can be
read but not assigned.

A name after a dollar sign goes as far as letters and digits do, and the character that ends it is taken as it is: a
quote there opens or closes nothing.
-/

namespace JoinShapes
namespace EnvFile

/-- A piece of a value. -/
inductive Piece
  | char (c : Char)
  /-- The value of a variable. -/
  | valueOf (reference : List Char)
deriving DecidableEq, Repr

/-- A variable and the value that it is to have. -/
structure Assignment where
  name : String
  value : List Piece
deriving DecidableEq, Repr

/-! ## Values -/

/-- Where the reading of a value stands; `isQuoted` tells whether it is inside double quotes. -/
inductive ValueState
  | text (isQuoted : Bool)
  | strong
  | escape (isQuoted : Bool)
  /-- After a dollar sign and some letters of a name. -/
  | name (isQuoted : Bool) (letters : List Char)
  /-- After a dollar sign, a brace and some letters of a name. -/
  | braced (isQuoted : Bool) (letters : List Char)
  /-- After a value and a blank. -/
  | done

/-- What a backslash makes of a character. -/
def unescape? (c : Char) : Option Char :=
  if c = 'n' then some '\n'
  else if c ∈ ['\\', '\'', '"', '$', ' '] then some c
  else none

/-- What the end of a line leaves. -/
def ValueState.close? : ValueState → Option (List Piece)
  | text true | strong | escape true | name true _ | braced _ _ => none
  | text false | escape false | done => some []
  | name false letters => some [.valueOf letters]

/-- The value that a line holds, read from a state. -/
def valueFrom? : ValueState → List Char → Option (List Piece)
  | s, [] => s.close?
  | .done, c :: cs =>
    if c = ' ' ∨ c = '\t' then valueFrom? .done cs
    else if c = '#' then some []
    else none
  | .escape isQuoted, c :: cs => do return .char (← unescape? c) :: (← valueFrom? (.text isQuoted) cs)
  | .strong, c :: cs =>
    if c = '\'' then valueFrom? (.text false) cs
    else (valueFrom? .strong cs).map (.char c :: ·)
  | .braced isQuoted letters, c :: cs =>
    if c = '}' then (valueFrom? (.text isQuoted) cs).map (.valueOf letters :: ·)
    else valueFrom? (.braced isQuoted (letters ++ [c])) cs
  | .name isQuoted letters, c :: cs =>
    if Text.isAlphanumeric c then valueFrom? (.name isQuoted (letters ++ [c])) cs
    else if c = '{' ∧ letters = [] then valueFrom? (.braced isQuoted []) cs
    else if c = '$' then (valueFrom? (.name isQuoted []) cs).map (.valueOf letters :: ·)
    else (valueFrom? (.text isQuoted) cs).map ([.valueOf letters, .char c] ++ ·)
  | .text isQuoted, c :: cs =>
    if c = '$' then valueFrom? (.name isQuoted []) cs
    else if c = '\\' then valueFrom? (.escape isQuoted) cs
    else if c = '"' then valueFrom? (.text !isQuoted) cs
    else if c = '\'' ∧ !isQuoted then valueFrom? .strong cs
    else if (c = ' ' ∨ c = '\t') ∧ !isQuoted then valueFrom? .done cs
    else (valueFrom? (.text isQuoted) cs).map (.char c :: ·)

/-- The value of an assignment, from what stands behind the equals sign. -/
def value? (cs : List Char) : Option (List Piece) :=
  if cs = [] ∨ cs.head? = some '#' then some [] else valueFrom? (.text false) cs

/-! ## Lines -/

/-- Whether a name may start with a character. -/
def isNameStart (c : Char) : Bool := c.isAlpha || c == '_'

/-- Whether a name may go on with a character. -/
def isNameRest (c : Char) : Bool := c.isAlphanum || c == '_' || c == '.'

/-- The name that a line starts with, and what comes after it and the blanks behind it. -/
def name? : List Char → Option (List Char × List Char)
  | [] => none
  | c :: cs =>
    if isNameStart c then some (c :: cs.takeWhile isNameRest, Text.trimStart (cs.dropWhile isNameRest)) else none

/-- The rest of a line behind an equals sign. -/
def afterEquals? : List Char → Option (List Char)
  | '=' :: cs => some cs
  | _ => none

/-- The name and the value of an assignment; a name may have the word `export` before it. -/
def sides? (cs : List Char) : Option (List Char × List Char) := do
  let (name, rest) ← name? cs
  match afterEquals? rest with
  | some value => return (name, value)
  | none =>
    if name = "export".toList then
      let (name, rest) ← name? rest
      return (name, ← afterEquals? rest)
    else none

/-- The assignment of a logical line, if it has one; `none` is a line that is neither an assignment nor empty. -/
def lineOf? (line : List Char) : Option (Option Assignment) :=
  let cs := Text.trimStart (Text.trimEnd line)
  if cs = [] ∨ cs.head? = some '#' then some none
  else do
    let (name, value) ← sides? cs
    return some ⟨String.ofList name, ← value? (Text.trimStart value)⟩

/-- The assignments of some lines, up to the first line in error. -/
def assignmentsOf : List (List Char) → List Assignment
  | [] => []
  | line :: lines =>
    match lineOf? line with
    | none => []
    | some a => a.toList ++ assignmentsOf lines

/-- The assignments of an environment file. -/
def ofBytes (content : ByteArray) : List Assignment := assignmentsOf (linesOf content)

/-- The variables that assignments set or look at; a reference may go on behind the name of its variable. -/
def mentioned (as : List Assignment) : List String :=
  as.flatMap fun a => a.name :: a.value.filterMap fun
    | .char _ => none
    | .valueOf reference => some (String.ofList (reference.takeWhile (· != '=')))

end EnvFile

namespace Environment

open EnvFile

/-- The text of a value; references without a value stand for nothing. -/
def expand (env : Environment) (value : List Piece) : String :=
  "".intercalate (value.map fun
    | .char c => String.singleton c
    | .valueOf reference => (env.valueOf? (String.ofList reference)).getD "")

/-- The environment after an assignment, or the name of a variable that cannot have the value: a variable that has a
value keeps it, and no variable can have a value with a null character. -/
def assign (env : Environment) (a : Assignment) : Except String Environment :=
  if (env.text? a.name).isSome then .ok env
  else
    let value := env.expand a.value
    if value.toList.contains '\x00' then .error a.name else .ok (env.set a.name value)

/-- The environment after assignments, each of which sees those before it. -/
def assignAll (env : Environment) (as : List Assignment) : Except String Environment := as.foldlM assign env

end Environment
end JoinShapes
