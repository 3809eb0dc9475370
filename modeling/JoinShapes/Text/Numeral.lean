/-!
# Natural numbers as text

Reading a natural number of at most 64 bits, digit by digit from the left, with an optional plus sign in front. The
first digit that cannot be taken decides the error.
-/

namespace JoinShapes

/-- Why a text is no number. -/
inductive NumeralError
  | empty
  | invalidDigit
  | tooLarge
deriving DecidableEq, Repr

/-- The fault in words. -/
def NumeralError.message : NumeralError → String
  | empty => "cannot parse integer from empty string"
  | invalidDigit => "invalid digit found in string"
  | tooLarge => "number too large to fit in target type"

namespace Numeral

/-- The first number that does not fit into a word, `2 ^ 64`. -/
def limit : Nat := 18446744073709551616

/-- The value of a digit in bases up to sixteen. -/
def digit? (base : Nat) (c : Char) : Option Nat :=
  let value? :=
    if c.isDigit then some (c.toNat - 48)
    else if 'a' ≤ c ∧ c ≤ 'f' then some (c.toNat - 87)
    else if 'A' ≤ c ∧ c ≤ 'F' then some (c.toNat - 55)
    else none
  value?.filter (· < base)

/-- Takes one more digit. -/
def push (base value : Nat) (c : Char) : Except NumeralError Nat :=
  match digit? base c with
  | none => .error .invalidDigit
  | some d => if value * base + d < limit then .ok (value * base + d) else .error .tooLarge

/-- The number with these digits. -/
def ofDigits (base : Nat) (cs : List Char) : Except NumeralError Nat :=
  if cs.isEmpty then .error .empty else cs.foldlM (push base) 0

/-- The number that a text spells in decimal digits. -/
def ofText (text : String) : Except NumeralError Nat :=
  match text.toList with
  | ['+'] => .error .invalidDigit
  | '+' :: cs => ofDigits 10 cs
  | cs => ofDigits 10 cs

end Numeral
end JoinShapes
