/-!
# Fingerprints of index sets

The fingerprint of an ascending list of positions `i₀ < i₁ < …` in a schema of `n` tables is the number with the
digits `iⱼ` in base `n`, reduced modulo `2 ^ 63 - 1`. As long as the number stays below the modulus the digits can be
read back (`decode`); `maxExactWidth n` is the widest set for which that is certain.
-/

namespace JoinShapes

/-- The stable number of a set of table positions. -/
structure Fingerprint where
  value : Nat
deriving DecidableEq, Hashable

namespace Fingerprint

/-- Fingerprints are residues modulo `2 ^ 63 - 1`. -/
def modulus : Nat := 9223372036854775807

/-- The running sum of a positional number and the weight of its next digit, both reduced. -/
structure RunningSum where
  total : Nat
  weight : Nat

namespace RunningSum

/-- Before the first digit. -/
def start : RunningSum := ⟨0, 1⟩

/-- Takes one more digit. -/
def push (base : Nat) (p : RunningSum) (digit : Nat) : RunningSum :=
  ⟨(p.total + digit * p.weight) % modulus, p.weight * base % modulus⟩

end RunningSum

/-- The fingerprint of positions given in ascending order. -/
def ofAscending (tableNum : Nat) (members : List Nat) : Fingerprint :=
  ⟨(members.foldl (RunningSum.push (tableNum % modulus)) .start).total⟩

/-- The fingerprint of positions given in any order. -/
def ofMembers (tableNum : Nat) (members : List Nat) : Fingerprint :=
  ofAscending tableNum (members.mergeSort fun i j => decide (i ≤ j))

/-- The digits of a number, the lowest first, without leading zeros. -/
def digits (base value : Nat) : List Nat :=
  if value = 0 ∨ base < 2 then [] else value % base :: digits base (value / base)
termination_by value
decreasing_by exact Nat.div_lt_self (by omega) (by omega)

/-- The positions that a fingerprint spells in base `tableNum`; a fingerprint without digits stands for itself. -/
def decode (tableNum : Nat) (f : Fingerprint) : List Nat :=
  if f.value = 0 ∨ tableNum < 2 then [f.value] else digits tableNum f.value

/-- Raises `power` by factors of `base` while it stays below the modulus, and counts them. -/
def widthFrom (base power width : Nat) : Nat :=
  if 2 ≤ base ∧ 0 < power ∧ power * base < modulus then widthFrom base (power * base) (width + 1) else width
termination_by modulus - power
decreasing_by
  have h : power * 2 ≤ power * base := Nat.mul_le_mul_left power (by omega)
  omega

/-- The greatest number that a 64-bit word holds, `2 ^ 64 - 1`. -/
def widthLimit : Nat := 18446744073709551615

/-- The widest sets whose fingerprints are certain to be exact; no limit applies below two tables. -/
def maxExactWidth (tableNum : Nat) : Nat := if tableNum < 2 then widthLimit else widthFrom tableNum 1 0

/-- Lower-case hexadecimal after `0x`. -/
def render (f : Fingerprint) : String := "0x" ++ String.ofList (Nat.toDigits 16 f.value)

end Fingerprint
end JoinShapes
