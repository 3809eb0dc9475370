import Mathlib.Data.List.Sort
import Mathlib.Data.Nat.Digits.Lemmas
import Mathlib.Data.Nat.ModEq
import JoinShapes.Fingerprint
import JoinShapes.Proofs.IndexSet

/-!
# Fingerprints as numbers in base `n`

The fingerprint of an ascending list is the number that has it as digits, lowest first, reduced modulo `2 ^ 63 - 1`
(`value_ofAscending`). Decoding spells the digits of a fingerprint. It gives the positions back exactly where their
number is below the modulus, in whatever order they were given, and there different sets have different fingerprints
(`decode_ofAscending_iff`, `decode_ofMembers_iff`). No set up to `maxExactWidth n` is reduced
(`value_ofAscending_of_length_le`, `eq_of_ofAscending_eq`).
-/

namespace JoinShapes
namespace Fingerprint

/-! ## The running sum -/

/-- **The loop adds the number of the digits that are left**, at the weight of the next one. -/
theorem total_foldl_push (n : Nat) : ∀ (ms : List Nat) (p : RunningSum), p.total < modulus →
    (ms.foldl (RunningSum.push (n % modulus)) p).total = (p.total + p.weight * Nat.ofDigits n ms) % modulus
  | [], p, hp => by simp [Nat.ofDigits, Nat.mod_eq_of_lt hp]
  | d :: ms, p, _ => by
    have hlt : (RunningSum.push (n % modulus) p d).total < modulus := Nat.mod_lt _ (by decide)
    rw [List.foldl_cons, total_foldl_push n ms _ hlt]
    have htotal : (p.total + d * p.weight) % modulus ≡ p.total + d * p.weight [MOD modulus] := Nat.mod_modEq _ _
    have hbase : p.weight * (n % modulus) % modulus ≡ p.weight * n [MOD modulus] :=
      (Nat.mod_modEq _ _).trans ((Nat.mod_modEq n modulus).mul_left _)
    calc (p.total + d * p.weight) % modulus + p.weight * (n % modulus) % modulus * Nat.ofDigits n ms
      _ ≡ p.total + d * p.weight + p.weight * n * Nat.ofDigits n ms [MOD modulus] :=
          htotal.add (hbase.mul_right _)
      _ = p.total + p.weight * Nat.ofDigits n (d :: ms) := by
          rw [Nat.ofDigits_cons]
          ring

/-- **The fingerprint is the number with these digits, reduced.** -/
theorem value_ofAscending (n : Nat) (ms : List Nat) : (ofAscending n ms).value = Nat.ofDigits n ms % modulus := by
  have h := total_foldl_push n ms .start (by decide)
  simpa [ofAscending, RunningSum.start] using h

/-! ## Exact widths -/

/-- From a power below the modulus, `widthFrom` stops at the last power below it. -/
theorem widthFrom_spec (b : Nat) (hb : 2 ≤ b) (p w : Nat) (hp : p = b ^ w) (hlt : p < modulus) :
    b ^ widthFrom b p w < modulus ∧ modulus ≤ b ^ (widthFrom b p w + 1) := by
  fun_induction widthFrom b p w with
  | case1 p w h ih => exact ih (by rw [hp, Nat.pow_succ]) h.2.2
  | case2 p w h =>
    have hpos : 0 < p := by rw [hp]; exact Nat.pow_pos (by omega)
    have hstop : ¬ p * b < modulus := fun hlt' => h ⟨hb, hpos, hlt'⟩
    rw [Nat.pow_succ, ← hp]
    exact ⟨hlt, Nat.le_of_not_lt hstop⟩

/-- The greatest exact width is the last exponent whose power is below the modulus. -/
theorem maxExactWidth_spec {n : Nat} (hn : 2 ≤ n) :
    n ^ maxExactWidth n < modulus ∧ modulus ≤ n ^ (maxExactWidth n + 1) := by
  rw [maxExactWidth, if_neg (by omega)]
  exact widthFrom_spec n hn 1 0 rfl (by decide)

variable {n : Nat}

/-- A width whose power is below the modulus is exact. -/
theorem le_maxExactWidth (hn : 2 ≤ n) {w : Nat} (h : n ^ w < modulus) : w ≤ maxExactWidth n := by
  by_contra hlt
  have hpow : n ^ (maxExactWidth n + 1) ≤ n ^ w := Nat.pow_le_pow_right (by omega) (by omega)
  have hspec := (maxExactWidth_spec hn).2
  omega

theorem ofDigits_lt_modulus (hn : 2 ≤ n) {ms : List Nat} (hms : ∀ i ∈ ms, i < n)
    (hw : ms.length ≤ maxExactWidth n) : Nat.ofDigits n ms < modulus :=
  calc Nat.ofDigits n ms
    _ < n ^ ms.length := Nat.ofDigits_lt_base_pow_length hn hms
    _ ≤ n ^ maxExactWidth n := Nat.pow_le_pow_right (by omega) hw
    _ < modulus := (maxExactWidth_spec hn).1

/-- Up to the greatest exact width nothing is reduced. -/
theorem value_ofAscending_of_length_le (hn : 2 ≤ n) {ms : List Nat} (hms : ∀ i ∈ ms, i < n)
    (hw : ms.length ≤ maxExactWidth n) : (ofAscending n ms).value = Nat.ofDigits n ms := by
  rw [value_ofAscending, Nat.mod_eq_of_lt (ofDigits_lt_modulus hn hms hw)]

/-! ## Reading the positions back -/

/-- Only the set of position zero ends in a zero digit. -/
theorem getLast_ne_zero {ms : List Nat} (hasc : ms.Pairwise (· < ·)) (hne : ms ≠ []) (h0 : ms ≠ [0]) :
    ms.getLast hne ≠ 0 := by
  intro hlast
  obtain ⟨ds, d, rfl⟩ := List.eq_nil_or_concat ms |>.resolve_left hne
  simp only [List.concat_eq_append, List.getLast_append_singleton] at *
  subst hlast
  cases ds with
  | nil => exact h0 rfl
  | cons e ds => exact Nat.not_lt_zero e (List.pairwise_append.1 hasc |>.2.2 e (by simp) 0 (by simp))

/-- The digits of the number of an ascending list are the list again. -/
theorem digits_ofDigits (hn : 2 ≤ n) {ms : List Nat} (hasc : ms.Pairwise (· < ·)) (hms : ∀ i ∈ ms, i < n)
    (h0 : ms ≠ [0]) : Nat.digits n (Nat.ofDigits n ms) = ms :=
  Nat.digits_ofDigits n hn ms hms fun hne => getLast_ne_zero hasc hne h0

/-- From base two on the digits are those of the number. -/
theorem digits_eq (hn : 2 ≤ n) (v : Nat) : digits n v = Nat.digits n v := by
  fun_induction digits n v with
  | case1 v h =>
    obtain rfl : v = 0 := h.resolve_right (Nat.not_lt.2 hn)
    exact (Nat.digits_zero n).symm
  | case2 v h ih => rw [ih, Nat.digits_def' hn (Nat.pos_of_ne_zero fun hv => h (.inl hv))]

/-- **The decoded positions spell the fingerprint.** -/
theorem ofDigits_decode (n : Nat) (f : Fingerprint) : Nat.ofDigits n (decode n f) = f.value := by
  unfold decode
  split
  · exact Nat.ofDigits_singleton
  · rename_i h
    rw [digits_eq (by omega), Nat.ofDigits_digits]

section

variable {ms : List Nat}

/-- **Ascending positions are decoded from their number.** -/
theorem decode_ofDigits (hasc : ms.Pairwise (· < ·)) (hne : ms ≠ []) (hms : ∀ i ∈ ms, i < n) :
    decode n ⟨Nat.ofDigits n ms⟩ = ms := by
  by_cases h0 : ms = [0]
  · -- The number of position zero alone is zero, which has no digits.
    subst h0
    simp [decode]
  · have hn : 2 ≤ n := by
      have hlast := getLast_ne_zero hasc hne h0
      have hlt := hms _ (List.getLast_mem hne)
      omega
    have hdigits := digits_ofDigits hn hasc hms h0
    have hvalue : Nat.ofDigits n ms ≠ 0 := by
      intro hzero
      rw [hzero, Nat.digits_zero] at hdigits
      exact hne hdigits.symm
    rw [decode, if_neg (not_or.2 ⟨hvalue, Nat.not_lt.2 hn⟩), digits_eq hn, hdigits]

/-- **Decoding gives the positions back exactly where nothing was reduced.** -/
theorem decode_ofAscending_iff (hasc : ms.Pairwise (· < ·)) (hne : ms ≠ []) (hms : ∀ i ∈ ms, i < n) :
    decode n (ofAscending n ms) = ms ↔ Nat.ofDigits n ms < modulus := by
  constructor
  · intro h
    calc Nat.ofDigits n ms
      _ = Nat.ofDigits n (decode n (ofAscending n ms)) := by rw [h]
      _ = Nat.ofDigits n ms % modulus := by rw [ofDigits_decode, value_ofAscending]
      _ < modulus := Nat.mod_lt _ (by decide)
  · intro h
    have hvalue : (ofAscending n ms).value = Nat.ofDigits n ms := by rw [value_ofAscending, Nat.mod_eq_of_lt h]
    have hnumber : ofAscending n ms = ⟨Nat.ofDigits n ms⟩ := congrArg Fingerprint.mk hvalue
    rw [hnumber, decode_ofDigits hasc hne hms]

end

/-! ## Different sets -/

/-- Different sets stand for different numbers. -/
theorem eq_of_ofDigits_eq {s t : List Nat} (hs : s.Pairwise (· < ·)) (ht : t.Pairwise (· < ·))
    (hsn : ∀ i ∈ s, i < n) (htn : ∀ i ∈ t, i < n) (hs' : s ≠ []) (ht' : t ≠ [])
    (h : Nat.ofDigits n s = Nat.ofDigits n t) : s = t := by
  rw [← decode_ofDigits hs hs' hsn, h, decode_ofDigits ht ht' htn]

/-- **Up to the greatest exact width, different sets have different fingerprints.** -/
theorem eq_of_ofAscending_eq {s t : IndexSet} (hs : ∀ i ∈ s, i < n) (ht : ∀ i ∈ t, i < n) (hs' : 0 < s.size)
    (ht' : 0 < t.size) (hsw : s.size ≤ maxExactWidth n) (htw : t.size ≤ maxExactWidth n)
    (h : ofAscending n s.toList = ofAscending n t.toList) : s = t := by
  have hval : (ofAscending n s.toList).value = (ofAscending n t.toList).value := by rw [h]
  rcases Nat.lt_or_ge n 2 with hn | hn
  · -- Below two tables there is at most the set of position zero.
    obtain ⟨i, hi⟩ := IndexSet.size_pos_iff.1 hs'
    obtain ⟨j, hj⟩ := IndexSet.size_pos_iff.1 ht'
    have hi0 := hs i hi
    have hj0 := ht j hj
    refine IndexSet.ext fun k => ⟨fun hk => ?_, fun hk => ?_⟩
    · have hk0 := hs k hk
      have hkj : k = j := by omega
      exact hkj ▸ hj
    · have hk0 := ht k hk
      have hki : k = i := by omega
      exact hki ▸ hi
  · rw [value_ofAscending_of_length_le hn hs hsw, value_ofAscending_of_length_le hn ht htw] at hval
    exact IndexSet.eq_of_toList_eq (eq_of_ofDigits_eq s.ascending t.ascending hs ht
      (List.ne_nil_of_length_pos hs') (List.ne_nil_of_length_pos ht') hval)

/-! ## Positions in any order -/

variable {ms : List Nat}

/-- Positions in ascending order. -/
def ascending (ms : List Nat) : List Nat := ms.mergeSort fun i j => decide (i ≤ j)

/-- Different positions of `n` tables, and at least one. -/
structure Positions (n : Nat) (ms : List Nat) : Prop where
  ne_nil : ms ≠ []
  nodup : ms.Nodup
  lt : ∀ i ∈ ms, i < n

/-- The number of some positions: in ascending order, each times the power of `n` that its place asks for. -/
def number (n : Nat) (ms : List Nat) : Nat := ((ascending ms).mapIdx fun j i => i * n ^ j).sum

theorem ascending_perm (ms : List Nat) : (ascending ms).Perm ms := List.mergeSort_perm _ _

theorem pairwise_ascending (h : ms.Nodup) : (ascending ms).Pairwise (· < ·) := by
  have hsorted : (ascending ms).Pairwise (· ≤ ·) := List.pairwise_mergeSort' (· ≤ ·) ms
  have hdistinct : (ascending ms).Nodup := (ascending_perm ms).nodup_iff.2 h
  exact (hsorted.and hdistinct).imp fun h => Nat.lt_of_le_of_ne h.1 h.2

theorem number_eq_ofDigits (n : Nat) (ms : List Nat) : number n ms = Nat.ofDigits n (ascending ms) :=
  (Nat.ofDigits_eq_sum_mapIdx n _).symm

namespace Positions

theorem ascending_ne_nil (h : Positions n ms) : ascending ms ≠ [] := fun hnil =>
  h.ne_nil (List.perm_nil.1 (hnil ▸ (ascending_perm ms).symm))

/-- Decoding gives the positions back, in ascending order, exactly where their number is below the modulus. -/
theorem decode_iff (h : Positions n ms) : decode n (ofMembers n ms) = ascending ms ↔ number n ms < modulus := by
  rw [number_eq_ofDigits]
  exact decode_ofAscending_iff (pairwise_ascending h.nodup) h.ascending_ne_nil fun i hi =>
    h.lt i ((ascending_perm ms).mem_iff.1 hi)

end Positions

/-- **Fingerprints are read back exactly where they were not reduced**: there decoding gives the positions in ascending
order, and sets of positions, of whatever sizes, have one fingerprint only if they are one set. -/
theorem decode_ofMembers_iff (n : Nat) :
    (∀ ms, Positions n ms → (decode n (ofMembers n ms) = ascending ms ↔ number n ms < modulus)) ∧
    ∀ ms ms', Positions n ms → Positions n ms' → number n ms < modulus → number n ms' < modulus →
      (ofMembers n ms = ofMembers n ms' ↔ ∀ i, i ∈ ms ↔ i ∈ ms') := by
  refine ⟨fun ms h => h.decode_iff, fun ms ms' h h' hlt hlt' => ⟨fun heq i => ?_, fun hmem => ?_⟩⟩
  · have hsame : ascending ms = ascending ms' := by
      rw [← h.decode_iff.2 hlt, heq, h'.decode_iff.2 hlt']
    rw [← (ascending_perm ms).mem_iff, hsame, (ascending_perm ms').mem_iff]
  · have hsame : ascending ms = ascending ms' := by
      refine IndexSet.ascending_eq_of_mem_iff (pairwise_ascending h.nodup) (pairwise_ascending h'.nodup) fun i => ?_
      rw [(ascending_perm ms).mem_iff, (ascending_perm ms').mem_iff, hmem]
    exact congrArg (ofAscending n) hsame

/-- Three positions of `2 ^ 21` tables with the last two among them are past the greatest exact width; still they are
read back, and the last two alone have another fingerprint. -/
theorem decode_lastPositions :
    Positions (2 ^ 21) [2097151, 0, 2097150] ∧ number (2 ^ 21) [2097151, 0, 2097150] < modulus ∧
    maxExactWidth (2 ^ 21) < [2097151, 0, 2097150].length ∧
    decode (2 ^ 21) (ofMembers (2 ^ 21) [2097151, 0, 2097150]) = [0, 2097150, 2097151] ∧
    ofMembers (2 ^ 21) [2097151, 0, 2097150] ≠ ofMembers (2 ^ 21) [2097150, 2097151] := by
  have hthree : Positions (2 ^ 21) [2097151, 0, 2097150] := ⟨by decide, by decide, by decide⟩
  have htwo : Positions (2 ^ 21) [2097150, 2097151] := ⟨by decide, by decide, by decide⟩
  have hascending : ascending [2097151, 0, 2097150] = [0, 2097150, 2097151] := by
    refine IndexSet.ascending_eq_of_mem_iff (pairwise_ascending hthree.nodup) (by decide) fun i => ?_
    rw [(ascending_perm _).mem_iff]
    simp only [List.mem_cons, List.not_mem_nil, or_false]
    omega
  have hascending' : ascending [2097150, 2097151] = [2097150, 2097151] := by
    refine IndexSet.ascending_eq_of_mem_iff (pairwise_ascending htwo.nodup) (by decide) fun i => ?_
    rw [(ascending_perm _).mem_iff]
  have hlt : number (2 ^ 21) [2097151, 0, 2097150] < modulus := by
    rw [number, hascending]
    decide
  have hlt' : number (2 ^ 21) [2097150, 2097151] < modulus := by
    rw [number, hascending']
    decide
  have hwidth : maxExactWidth (2 ^ 21) < 3 := by
    by_contra hge
    have hpow : (2 ^ 21) ^ 3 ≤ (2 ^ 21) ^ maxExactWidth (2 ^ 21) :=
      Nat.pow_le_pow_right (by decide) (Nat.le_of_not_lt hge)
    have hbelow : (2 ^ 21) ^ maxExactWidth (2 ^ 21) < modulus := (maxExactWidth_spec (by decide)).1
    exact absurd (Nat.lt_of_le_of_lt hpow hbelow) (by decide)
  obtain ⟨hdecode, hsame⟩ := decode_ofMembers_iff (2 ^ 21)
  refine ⟨hthree, hlt, hwidth, ?_, fun heq => ?_⟩
  · rw [(hdecode _ hthree).2 hlt, hascending]
  · have hzero := (hsame _ _ hthree htwo hlt hlt').1 heq 0
    simp at hzero

end Fingerprint
end JoinShapes
