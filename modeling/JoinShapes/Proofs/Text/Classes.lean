import Mathlib.Computability.Language

/-!
# Words over classes of characters

Letters and digits are given by their ranges; no other letters than those of ASCII are meant (`isAlpha_iff`,
`isAlphanum_iff`). `oneOf P` is the language of the single characters with `P`, from which the languages of names are
put together: what repeats it are the words over `P` (`mem_kstar_oneOf`).
-/

namespace JoinShapes
namespace Text

open Computability

variable {P : Char → Prop} {L : Language Char} {c : Char} {v w : List Char}

/-! ## Classes -/

/-- A letter from `A` to `Z` or from `a` to `z`. -/
def IsLetter (c : Char) : Prop := 'A' ≤ c ∧ c ≤ 'Z' ∨ 'a' ≤ c ∧ c ≤ 'z'

/-- A letter or a digit from `0` to `9`. -/
def IsAlphanumeric (c : Char) : Prop := IsLetter c ∨ '0' ≤ c ∧ c ≤ '9'

theorem isAlpha_iff : c.isAlpha = true ↔ IsLetter c := by
  show (decide ('A' ≤ c ∧ c ≤ 'Z') || (decide ('a' ≤ c) && decide (c ≤ 'z'))) = true ↔ IsLetter c
  simp only [Bool.or_eq_true, Bool.and_eq_true, decide_eq_true_eq]
  rfl

theorem isAlphanum_iff : c.isAlphanum = true ↔ IsAlphanumeric c := by
  show (c.isAlpha || (decide ('0' ≤ c) && decide (c ≤ '9'))) = true ↔ IsAlphanumeric c
  simp only [Bool.or_eq_true, Bool.and_eq_true, decide_eq_true_eq, isAlpha_iff]
  rfl

theorem IsAlphanumeric.ne_underscore (h : IsAlphanumeric c) : c ≠ '_' := by
  rintro rfl
  rw [← isAlphanum_iff] at h
  cases h

/-! ## Languages -/

/-- The words of one character, which has `P`. -/
def oneOf (P : Char → Prop) : Language Char := {w | ∃ c, P c ∧ w = [c]}

/-- A character with `P` and a word after it. -/
theorem mem_oneOf_mul : w ∈ oneOf P * L ↔ ∃ c v, P c ∧ v ∈ L ∧ w = c :: v := by
  rw [Language.mem_mul]
  constructor
  · rintro ⟨_, ⟨c, hc, rfl⟩, v, hv, rfl⟩
    exact ⟨c, v, hc, hv, rfl⟩
  · rintro ⟨c, v, hc, hv, rfl⟩
    exact ⟨[c], ⟨c, hc, rfl⟩, v, hv, rfl⟩

/-- One more word in front of a repetition. -/
theorem append_mem_kstar (hv : v ∈ L) (hw : w ∈ L∗) : v ++ w ∈ L∗ := by
  obtain ⟨vs, rfl, hvs⟩ := Language.mem_kstar.1 hw
  rw [← List.flatten_cons]
  refine Language.join_mem_kstar fun u hu => ?_
  rcases List.mem_cons.1 hu with rfl | hu
  · exact hv
  · exact hvs u hu

/-- **Repeating a class** gives the words over it. -/
theorem mem_kstar_oneOf : w ∈ (oneOf P)∗ ↔ ∀ c ∈ w, P c := by
  constructor
  · intro h
    obtain ⟨vs, rfl, hvs⟩ := Language.mem_kstar.1 h
    intro c hc
    obtain ⟨v, hv, hcv⟩ := List.mem_flatten.1 hc
    obtain ⟨d, hd, rfl⟩ := hvs v hv
    exact List.mem_singleton.1 hcv ▸ hd
  · intro h
    induction w with
    | nil => exact Language.nil_mem_kstar _
    | cons c w ih =>
      have hrest := ih fun d hd => h d (List.mem_cons_of_mem _ hd)
      exact append_mem_kstar (v := [c]) ⟨c, h c List.mem_cons_self, rfl⟩ hrest

end Text
end JoinShapes
