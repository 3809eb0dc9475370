/-!
# Environments

The variables that a run sees. Values are bytes: a variable whose value is no text counts as unset everywhere.
-/

namespace JoinShapes

/-- The variables of an environment and their values; of two of one name the first holds. -/
structure Environment where
  entries : List (String × ByteArray)

namespace Environment

/-- The environment without variables. -/
def empty : Environment := ⟨[]⟩

/-- The value of a variable, if it is a text. -/
def text? (env : Environment) (name : String) : Option String :=
  (env.entries.find? (·.1 == name)).bind fun (_, value) => String.fromUTF8? value

/-- The value that a reference stands for. An environment is looked through as lines `NAME=value` for one that starts
with the reference and an equals sign, so that a reference may go on into the value: in `A=b=c`, `A` stands for `b=c`
and `A=b` for `c`. -/
def valueOf? (env : Environment) (reference : String) : Option String :=
  let name := reference.toList.takeWhile (· != '=')
  match reference.toList.dropWhile (· != '=') with
  | [] => env.text? reference
  | _ :: start => do
    let value ← env.text? (String.ofList name)
    String.ofList <$> (start ++ ['=']).isPrefixOf? value.toList

/-- The environment with a variable set. -/
def set (env : Environment) (name value : String) : Environment :=
  ⟨(name, value.toUTF8) :: env.entries⟩

end Environment
end JoinShapes
