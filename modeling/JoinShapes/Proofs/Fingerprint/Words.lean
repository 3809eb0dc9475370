import JoinShapes.Proofs.Fingerprint

/-!
# Running sums in machine words

A round of the running sum computes a few numbers and reduces them (`RunningSum.unreduced`). Before and after each
round both parts are residues (`RunningSum.Reduced`), so that with digits of 64 bits none of these numbers reaches
`2 ^ 128` (`Reduced.unreduced_lt`). Hence fingerprints computed in machine words are what they are as numbers: the sum
of the positions times powers of the number of tables, reduced once (`ofAscending_fits_words`).

Where the power of the width is below the modulus, no round reduces anything (`Meets.unreduced_lt_modulus`).
-/

namespace JoinShapes
namespace Fingerprint

variable {b d n : Nat} {p : RunningSum} {ms : List Nat}

namespace RunningSum

/-- What a round computes before it reduces: the digit times the weight, the next total, the next weight. -/
def unreduced (base : Nat) (p : RunningSum) (digit : Nat) : List Nat :=
  [digit * p.weight, p.total + digit * p.weight, p.weight * base]

/-- Both parts are residues. -/
structure Reduced (p : RunningSum) : Prop where
  total : p.total < modulus
  weight : p.weight < modulus

theorem reduced_start : start.Reduced := ⟨by decide, by decide⟩

theorem reduced_push (b d : Nat) (p : RunningSum) : (push b p d).Reduced :=
  ⟨Nat.mod_lt _ (by decide), Nat.mod_lt _ (by decide)⟩

/-- **Every sum on the way is reduced.** -/
theorem Reduced.foldl_push (hp : p.Reduced) (b : Nat) (ms : List Nat) : (ms.foldl (push b) p).Reduced := by
  induction ms generalizing p with
  | nil => exact hp
  | cons d ms ih => exact ih (reduced_push b d p)

/-- **No round overflows**: a residue times a digit of 64 bits and another residue stay below `2 ^ 128`. -/
theorem Reduced.unreduced_lt (hp : p.Reduced) (hb : b < modulus) (hd : d < 2 ^ 64) :
    ∀ x ∈ p.unreduced b d, x < 2 ^ 128 := by
  have hmodulus : modulus < 2 ^ 63 := by decide
  have htotal := hp.total
  have hdigit : d * p.weight ≤ 2 ^ 64 * 2 ^ 63 := Nat.mul_le_mul hd.le (hp.weight.trans hmodulus).le
  have hweight : p.weight * b ≤ 2 ^ 63 * 2 ^ 63 :=
    Nat.mul_le_mul (hp.weight.trans hmodulus).le (hb.trans hmodulus).le
  intro x hx
  simp only [unreduced, List.mem_cons, List.not_mem_nil, or_false] at hx
  rcases hx with rfl | rfl | rfl <;> omega

/-- Where all that a round computes is below the modulus, nothing is reduced. -/
theorem push_of_unreduced_lt (h : ∀ x ∈ p.unreduced b d, x < modulus) :
    push b p d = ⟨p.total + d * p.weight, p.weight * b⟩ := by
  rw [push, Nat.mod_eq_of_lt (h _ (by simp [unreduced])), Nat.mod_eq_of_lt (h _ (by simp [unreduced]))]

end RunningSum

open RunningSum (unreduced Reduced)

/-- On the way through the positions `ms` of `n` tables, the running sum is `p` when `d` has its turn. -/
def Meets (n : Nat) (ms : List Nat) (p : RunningSum) (d : Nat) : Prop :=
  ∃ before after, ms = before ++ d :: after ∧ p = before.foldl (RunningSum.push (n % modulus)) .start

theorem Meets.reduced (h : Meets n ms p d) : p.Reduced := by
  obtain ⟨before, _, _, rfl⟩ := h
  exact RunningSum.reduced_start.foldl_push _ before

theorem Meets.mem (h : Meets n ms p d) : d ∈ ms := by
  obtain ⟨before, after, rfl, _⟩ := h
  exact List.mem_append_right before List.mem_cons_self

/-! ## Without reduction -/

/-- The number of some digits is below the power of their count, in base one and zero as well. -/
theorem ofDigits_lt_pow (hms : ∀ i ∈ ms, i < n) : Nat.ofDigits n ms < n ^ ms.length := by
  induction ms with
  | nil => exact Nat.one_pos
  | cons d ms ih =>
    obtain ⟨hd, hrest⟩ := List.forall_mem_cons.1 hms
    calc Nat.ofDigits n (d :: ms)
      _ = d + n * Nat.ofDigits n ms := Nat.ofDigits_cons ..
      _ < n + n * Nat.ofDigits n ms := Nat.add_lt_add_right hd _
      _ = n * (Nat.ofDigits n ms + 1) := by ring
      _ ≤ n * n ^ ms.length := Nat.mul_le_mul_left n (ih hrest)
      _ = n ^ (d :: ms).length := by rw [List.length_cons, Nat.pow_succ']

/-- A round on exact numbers stays below the modulus, as long as the power of the width does. -/
theorem unreduced_exact_lt (hms : ∀ i ∈ ms ++ [d], i < n) (hpow : n ^ (ms.length + 1) < modulus) :
    ∀ x ∈ unreduced n ⟨Nat.ofDigits n ms, n ^ ms.length⟩ d, x < modulus := by
  have hlt := ofDigits_lt_pow hms
  rw [Nat.ofDigits_append, Nat.ofDigits_singleton, Nat.mul_comm, List.length_append, List.length_singleton] at hlt
  intro x hx
  simp only [unreduced, List.mem_cons, List.not_mem_nil, or_false] at hx
  rcases hx with rfl | rfl | rfl
  · omega
  · omega
  · rwa [← Nat.pow_succ]

/-- With at least one position the number of tables itself is not reduced. -/
theorem mod_modulus (hne : ms ≠ []) (hpow : n ^ ms.length < modulus) : n % modulus = n := by
  have hlength := List.length_pos_iff.2 hne
  rcases Nat.eq_zero_or_pos n with rfl | hn
  · rfl
  · refine Nat.mod_eq_of_lt (Nat.lt_of_le_of_lt ?_ hpow)
    exact Nat.le_self_pow (by omega) n

/-- **The running sum is exact** as long as the power of the width is below the modulus. -/
theorem foldl_push_eq (hms : ∀ i ∈ ms, i < n) (hpow : n ^ ms.length < modulus) :
    ms.foldl (RunningSum.push (n % modulus)) .start = ⟨Nat.ofDigits n ms, n ^ ms.length⟩ := by
  induction ms using List.reverseRecOn with
  | nil => rfl
  | append_singleton ms d ih =>
    have hn : n % modulus = n := mod_modulus (by simp) hpow
    rw [List.length_append, List.length_singleton] at hpow
    have hle : n ^ ms.length ≤ n ^ (ms.length + 1) := by
      refine Nat.pow_le_pow_right ?_ (Nat.le_succ _)
      exact Nat.zero_lt_of_lt (hms d (by simp))
    have hbefore := ih (fun i hi => hms i (List.mem_append_left _ hi)) (Nat.lt_of_le_of_lt hle hpow)
    rw [List.foldl_append, hbefore, hn, List.foldl_cons, List.foldl_nil,
      RunningSum.push_of_unreduced_lt (unreduced_exact_lt hms hpow), Nat.ofDigits_append, Nat.ofDigits_singleton,
      Nat.mul_comm d, List.length_append, List.length_singleton, Nat.pow_succ]

/-- **Nothing is reduced on the way** through positions whose power of the width is below the modulus. -/
theorem Meets.unreduced_lt_modulus (h : Meets n ms p d) (hms : ∀ i ∈ ms, i < n) (hpow : n ^ ms.length < modulus) :
    ∀ x ∈ unreduced (n % modulus) p d, x < modulus := by
  have hn := mod_modulus (List.ne_nil_of_mem h.mem) hpow
  obtain ⟨before, after, rfl, rfl⟩ := h
  have hpos : 0 < n := Nat.zero_lt_of_lt (hms d (by simp))
  have hlast : n ^ (before.length + 1) < modulus := by
    refine Nat.lt_of_le_of_lt (Nat.pow_le_pow_right hpos ?_) hpow
    simp
  have hfirst : n ^ before.length < modulus :=
    Nat.lt_of_le_of_lt (Nat.pow_le_pow_right hpos (Nat.le_succ _)) hlast
  rw [foldl_push_eq (fun i hi => hms i (List.mem_append_left _ hi)) hfirst, hn]
  refine unreduced_exact_lt (fun i hi => hms i ?_) hlast
  rcases List.mem_append.1 hi with hi | hi
  · exact List.mem_append_left _ hi
  · rw [List.mem_singleton.1 hi]
    exact List.mem_append_right _ List.mem_cons_self

/-! ## Within words -/

/-- In ascending order already, positions are taken as they are. -/
theorem ofMembers_eq_of_perm (hasc : ms.Pairwise (· < ·)) {ms' : List Nat} (h : ms'.Perm ms) (n : Nat) :
    ofMembers n ms' = ofAscending n ms := by
  have hperm := (ascending_perm ms').trans h
  have hsame : ascending ms' = ms := by
    refine IndexSet.ascending_eq_of_mem_iff (pairwise_ascending ?_) hasc fun i => hperm.mem_iff
    exact h.nodup_iff.2 (hasc.imp Nat.ne_of_lt)
  exact congrArg (ofAscending n) hsame

/-- **Fingerprints are computed without overflow**, for any number of tables and positions of 64 bits: no round reaches
`2 ^ 128`, and the result is the sum of the positions times powers of the number of tables, reduced once. Positions in
another order have the same fingerprint. -/
theorem ofAscending_fits_words (n : Nat) (hasc : ms.Pairwise (· < ·)) (hword : ∀ i ∈ ms, i < 2 ^ 64) :
    (ofAscending n ms).value = (ms.mapIdx fun j i => i * n ^ j).sum % modulus ∧
    (∀ p d, Meets n ms p d → ∀ x ∈ unreduced (n % modulus) p d, x < 2 ^ 128) ∧
    (ofAscending n ms).value < modulus ∧
    ∀ ms', ms'.Perm ms → ofMembers n ms' = ofAscending n ms := by
  have hvalue := value_ofAscending n ms
  refine ⟨by rw [hvalue, Nat.ofDigits_eq_sum_mapIdx], fun p d h => ?_, ?_, fun ms' h => ofMembers_eq_of_perm hasc h n⟩
  · exact h.reduced.unreduced_lt (Nat.mod_lt n (by decide)) (hword d h.mem)
  · rw [hvalue]
    exact Nat.mod_lt _ (by decide)

/-- The greatest positions and the greatest number of tables that a word holds: the sum is a multiple of the modulus. -/
theorem ofAscending_greatestWords :
    [0, 2 ^ 63 - 2, 2 ^ 63 - 1, 2 ^ 64 - 1].Pairwise (· < ·) ∧
    (∀ i ∈ [0, 2 ^ 63 - 2, 2 ^ 63 - 1, 2 ^ 64 - 1], i < 2 ^ 64) ∧
    (ofAscending (2 ^ 64 - 1) [0, 2 ^ 63 - 2, 2 ^ 63 - 1, 2 ^ 64 - 1]).value = 0 ∧
    ofMembers (2 ^ 64 - 1) [2 ^ 64 - 1, 2 ^ 63 - 1, 0, 2 ^ 63 - 2] =
      ofAscending (2 ^ 64 - 1) [0, 2 ^ 63 - 2, 2 ^ 63 - 1, 2 ^ 64 - 1] := by
  have hasc : [0, 2 ^ 63 - 2, 2 ^ 63 - 1, 2 ^ 64 - 1].Pairwise (· < ·) := by decide
  have hword : ∀ i ∈ [0, 2 ^ 63 - 2, 2 ^ 63 - 1, 2 ^ 64 - 1], i < 2 ^ 64 := by decide
  obtain ⟨hvalue, _, _, hperm⟩ := ofAscending_fits_words (2 ^ 64 - 1) hasc hword
  refine ⟨hasc, hword, ?_, hperm _ (by decide)⟩
  rw [hvalue]
  decide

end Fingerprint
end JoinShapes
