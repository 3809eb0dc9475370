import JoinShapes.Json.Basic

/-!
# Records in JSON documents

A record stands in a document as an object, with fields in any order and unknown ones ignored, or as the list of its
fields in order of declaration. `Json.slots?` finds the fields; `Slot.required`, `Slot.orElse` and `Slot.optional` read
one.
-/

namespace JoinShapes
namespace Json

/-- Where a field of a record was looked for. -/
inductive Slot
  | given (v : Json)
  /-- The object has no such field. -/
  | absent
  /-- The list ends before this field. -/
  | pastEnd

/-- The only field of this name; two fields of one name are refused. -/
def soleField? (fields : List (String × Json)) (name : String) : Option Slot :=
  match fields.filter (·.1 == name) with
  | [] => some .absent
  | [(_, v)] => some (.given v)
  | _ => none

/-- The fields of these names, from an object or a list. -/
def slots? (names : List String) : Json → Option (List Slot)
  | obj fields => names.mapM (soleField? fields)
  | arr items =>
    if names.length < items.length then none
    else some (items.map .given ++ List.replicate (names.length - items.length) .pastEnd)
  | _ => none

namespace Slot

variable {α : Type}

/-- A field that has to be there. -/
def required (read : Json → Option α) : Slot → Option α
  | given v => read v
  | _ => none

/-- A field with a value of its own when it is left out. -/
def orElse (default : α) (read : Json → Option α) : Slot → Option α
  | given v => read v
  | _ => some default

/-- A field that may be `null` or missing from an object. -/
def optional (read : Json → Option α) : Slot → Option (Option α)
  | given null => some none
  | given v => some <$> read v
  | absent => some none
  | pastEnd => none

end Slot

/-- A text. -/
def text? : Json → Option String
  | str s => some s
  | _ => none

/-- A truth value. -/
def bool? : Json → Option Bool
  | bool b => some b
  | _ => none

/-- The first number that is too large for a field, `2 ^ 64`. -/
def wordLimit : Nat := 18446744073709551616

/-- A natural number of at most 64 bits. -/
def word? : Json → Option Nat
  | nat n => if n < wordLimit then some n else none
  | _ => none

/-- A list of values of one kind. -/
def list? {α : Type} (read : Json → Option α) : Json → Option (List α)
  | arr items => items.mapM read
  | _ => none

end Json
end JoinShapes
