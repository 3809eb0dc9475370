/-!
# JSON values

A JSON value with the fields of objects in the order of the text. Natural numbers are kept apart from all other
numerals, which stay the text they were written as.
-/

namespace JoinShapes

/-- A JSON value. -/
inductive Json
  | null
  | bool (b : Bool)
  | nat (n : Nat)
  /-- A number that is not written as a plain natural number. -/
  | numeral (text : String)
  | str (s : String)
  | arr (items : List Json)
  | obj (fields : List (String × Json))
deriving Inhabited

namespace Json

/-- The value of the first field of this name, for an object. -/
def get? (v : Json) (name : String) : Option Json :=
  match v with
  | obj fields => (fields.find? (·.1 == name)).map (·.2)
  | _ => none

end Json
end JoinShapes
