import JoinShapes.Proofs.Fingerprint.Words

/-!
# The greatest exact width

The loop behind `maxExactWidth n` comes by the powers of `n` below the modulus, one after the other, and ends at the
last of them (`visits_iff`). None of its products reaches `2 ^ 128`. So the greatest exact width is the one exponent at
which the powers of `n` pass the modulus (`eq_maxExactWidth_iff`), it can only shrink when there are more tables
(`maxExactWidth_antitone`), and up to it no fingerprint is reduced (`Positions.value_eq_number`). All this together is
`maxExactWidth_exact`.
-/

namespace JoinShapes
namespace Fingerprint

open RunningSum (unreduced)

variable {n p w : Nat} {ms : List Nat}

/-! ## The loop -/

/-- The loop for `n` tables, which raises a power by factors of `n` and counts them, comes to the power `p` at the count
`w`. -/
inductive Visits (n : Nat) : Nat → Nat → Prop
  | start : Visits n 1 0
  | round {p w : Nat} : Visits n p w → p * n < modulus → Visits n (p * n) (w + 1)

namespace Visits

theorem eq_pow (h : Visits n p w) : p = n ^ w := by
  induction h with
  | start => rfl
  | round _ _ ih => rw [ih, Nat.pow_succ]

theorem lt_modulus (h : Visits n p w) : p < modulus := by
  cases h with
  | start => decide
  | round _ hlt => exact hlt

/-- From every state on, the loop has the same result. -/
theorem widthFrom_eq (hn : 2 ≤ n) (h : Visits n p w) : widthFrom n p w = maxExactWidth n := by
  induction h with
  | start => rw [maxExactWidth, if_neg (Nat.not_lt.2 hn)]
  | round hp hlt ih =>
    rename_i q v
    have hpos : 0 < q := hp.eq_pow ▸ Nat.pow_pos (by omega)
    rwa [widthFrom, if_pos ⟨hn, hpos, hlt⟩] at ih

/-- No product of the loop overflows. -/
theorem mul_lt (h : Visits n p w) (hword : n < 2 ^ 64) : p * n < 2 ^ 128 := by
  have hp : p < 2 ^ 63 := h.lt_modulus.trans (by decide)
  calc p * n
    _ ≤ 2 ^ 63 * 2 ^ 64 := Nat.mul_le_mul hp.le hword.le
    _ < 2 ^ 128 := by decide

end Visits

/-- **The loop comes by exactly the powers up to the greatest exact width.** -/
theorem visits_iff (hn : 2 ≤ n) : Visits n p w ↔ p = n ^ w ∧ w ≤ maxExactWidth n := by
  constructor
  · intro h
    exact ⟨h.eq_pow, le_maxExactWidth hn (h.eq_pow ▸ h.lt_modulus)⟩
  · rintro ⟨rfl, hw⟩
    induction w with
    | zero => exact .start
    | succ w ih =>
      refine (ih (by omega)).round ?_
      rw [← Nat.pow_succ]
      exact Nat.lt_of_le_of_lt (Nat.pow_le_pow_right (by omega) hw) (maxExactWidth_spec hn).1

/-! ## The result -/

/-- **The powers of `n` pass the modulus once**, after the greatest exact width. -/
theorem eq_maxExactWidth_iff (hn : 2 ≤ n) : n ^ w < modulus ∧ modulus ≤ n ^ (w + 1) ↔ w = maxExactWidth n := by
  constructor
  · rintro ⟨hlt, hle⟩
    refine Nat.le_antisymm (le_maxExactWidth hn hlt) (Nat.le_of_not_lt fun hless => ?_)
    have hpow : n ^ (w + 1) ≤ n ^ maxExactWidth n := Nat.pow_le_pow_right (by omega) hless
    have hspec := (maxExactWidth_spec hn).1
    omega
  · rintro rfl
    exact maxExactWidth_spec hn

theorem maxExactWidth_le_widthLimit (n : Nat) : maxExactWidth n ≤ widthLimit := by
  rcases Nat.lt_or_ge n 2 with hn | hn
  · rw [maxExactWidth, if_pos hn]
  · have hpow : 2 ^ maxExactWidth n < 2 ^ 63 :=
      calc 2 ^ maxExactWidth n
        _ ≤ n ^ maxExactWidth n := Nat.pow_le_pow_left hn _
        _ < modulus := (maxExactWidth_spec hn).1
        _ < 2 ^ 63 := by decide
    have hlt : maxExactWidth n < 63 := (Nat.pow_lt_pow_iff_right (by decide)).1 hpow
    exact hlt.le.trans (by decide)

/-- **More tables leave no more width.** -/
theorem maxExactWidth_antitone : Antitone maxExactWidth := by
  intro m n hmn
  rcases Nat.lt_or_ge m 2 with hm | hm
  · have hlimit : maxExactWidth m = widthLimit := if_pos hm
    rw [hlimit]
    exact maxExactWidth_le_widthLimit n
  · refine le_maxExactWidth hm (Nat.lt_of_le_of_lt (Nat.pow_le_pow_left hmn _) ?_)
    exact (maxExactWidth_spec (hm.trans hmn)).1

/-- Up to the greatest exact width the power of the width is below the modulus. -/
theorem Positions.pow_lt_modulus (h : Positions n ms) (hw : ms.length ≤ maxExactWidth n) : n ^ ms.length < modulus := by
  rcases Nat.lt_or_ge n 2 with hn | hn
  · -- A position needs a table, so there is exactly one.
    obtain ⟨i, hi⟩ := List.exists_mem_of_ne_nil ms h.ne_nil
    have hlt := h.lt i hi
    obtain rfl : n = 1 := by omega
    rw [Nat.one_pow]
    decide
  · exact Nat.lt_of_le_of_lt (Nat.pow_le_pow_right (by omega) hw) (maxExactWidth_spec hn).1

/-- **Up to the greatest exact width a fingerprint is a number**, and no round of its sum reduces anything. -/
theorem Positions.value_eq_number (h : Positions n ms) (hw : ms.length ≤ maxExactWidth n) :
    (ofMembers n ms).value = number n ms ∧ n % modulus = n ∧
      ∀ p d, Meets n (ascending ms) p d → ∀ x ∈ unreduced (n % modulus) p d, x < modulus := by
  have hlength := (ascending_perm ms).length_eq
  have hlt : ∀ i ∈ ascending ms, i < n := fun i hi => h.lt i ((ascending_perm ms).mem_iff.1 hi)
  have hpow : n ^ (ascending ms).length < modulus := hlength ▸ h.pow_lt_modulus hw
  refine ⟨?_, mod_modulus h.ascending_ne_nil hpow, fun p d hmeets => hmeets.unreduced_lt_modulus hlt hpow⟩
  have hvalue : (ofMembers n ms).value = Nat.ofDigits n (ascending ms) % modulus := value_ofAscending n _
  rw [hvalue, Nat.mod_eq_of_lt ((ofDigits_lt_pow hlt).trans hpow), number_eq_ofDigits]

/-- **The greatest exact width is exact.** For `n` tables, at least two, the loop ends without overflow at the one
exponent where the powers of `n` pass the modulus. There is no limit below two tables, and more tables leave no more
width. The fingerprint of a set up to that width is its number, and no round of the sum reduces anything. -/
theorem maxExactWidth_exact :
    (∀ n, 2 ≤ n → n < 2 ^ 64 →
      (∀ p w, Visits n p w → widthFrom n p w = maxExactWidth n ∧ p * n < 2 ^ 128) ∧
      (∃ p, Visits n p (maxExactWidth n) ∧ modulus ≤ p * n) ∧
      ∀ w, n ^ w < modulus ∧ modulus ≤ n ^ (w + 1) ↔ w = maxExactWidth n) ∧
    (∀ n < 2, maxExactWidth n = widthLimit) ∧ Antitone maxExactWidth ∧
    ∀ n ms, Positions n ms → ms.length ≤ maxExactWidth n → (ofMembers n ms).value = number n ms ∧
      n % modulus = n ∧ ∀ p d, Meets n (ascending ms) p d → ∀ x ∈ unreduced (n % modulus) p d, x < modulus := by
  refine ⟨fun n hn hword => ⟨fun p w h => ?_, ?_, fun w => eq_maxExactWidth_iff hn⟩, fun n hn => if_pos hn,
    maxExactWidth_antitone, fun n ms h hw => h.value_eq_number hw⟩
  · exact ⟨h.widthFrom_eq hn, h.mul_lt hword⟩
  · refine ⟨_, (visits_iff hn).2 ⟨rfl, le_rfl⟩, ?_⟩
    rw [← Nat.pow_succ]
    exact (maxExactWidth_spec hn).2

/-- With `2 ^ 21` tables the width of three is just past the modulus, with one table less just below it; there the last
three tables have their number as fingerprint. -/
theorem maxExactWidth_boundary :
    (2 ≤ 2 ^ 21 ∧ 2 ^ 21 < 2 ^ 64 ∧ maxExactWidth (2 ^ 21) = 2) ∧ maxExactWidth (2 ^ 21 - 1) = 3 ∧
    Positions (2 ^ 21 - 1) [2097150, 2097148, 2097149] ∧
    (ofMembers (2 ^ 21 - 1) [2097150, 2097148, 2097149]).value = number (2 ^ 21 - 1) [2097150, 2097148, 2097149] := by
  obtain ⟨hloop, _, _, hexact⟩ := maxExactWidth_exact
  have htwo : 2 = maxExactWidth (2 ^ 21) := ((hloop (2 ^ 21) (by decide) (by decide)).2.2 2).1 (by decide)
  have hthree : 3 = maxExactWidth (2 ^ 21 - 1) := ((hloop (2 ^ 21 - 1) (by decide) (by decide)).2.2 3).1 (by decide)
  have hpositions : Positions (2 ^ 21 - 1) [2097150, 2097148, 2097149] := ⟨by decide, by decide, by decide⟩
  exact ⟨⟨by decide, by decide, htwo.symm⟩, hthree.symm, hpositions, (hexact _ _ hpositions hthree.le).1⟩

end Fingerprint
end JoinShapes
