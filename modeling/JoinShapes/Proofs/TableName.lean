import JoinShapes.Proofs.JoinedName.Reading
import JoinShapes.Proofs.Text.Classes

/-!
# The language of table names

The rule for table names looks for letters, double underscores and a last underscore one after the other. Together this
is a grammar: a letter, then letters and digits, then segments of letters and digits, each after one underscore
(`TableName.grammar`, `isValid_iff_mem_grammar`). What may stand after the first letter is a tidy word, and those are
the words of the rest of the grammar (`tidy_iff_mem_ending`).
-/

namespace JoinShapes
namespace TableName

open Computability
open JoinedName (Separable separable_nil hasDoubleUnderscore_cons)
open Text (IsLetter IsAlphanumeric oneOf isAlpha_iff isAlphanum_iff mem_oneOf_mul mem_kstar_oneOf append_mem_kstar)

variable {c : Char} {v w : List Char} {name : String}

/-! ## The grammar -/

/-- At least one letter or digit after an underscore. -/
def segment : Language Char := oneOf (· = '_') * (oneOf IsAlphanumeric * (oneOf IsAlphanumeric)∗)

/-- Letters and digits, and then segments. -/
def ending : Language Char := (oneOf IsAlphanumeric)∗ * segment∗

/-- A letter and what may stand after it: `[A-Za-z][A-Za-z0-9]*(_[A-Za-z0-9]+)*`. -/
def grammar : Language Char := oneOf IsLetter * ending

theorem mem_segment : w ∈ segment ↔ ∃ c v, IsAlphanumeric c ∧ (∀ d ∈ v, IsAlphanumeric d) ∧ w = '_' :: c :: v := by
  simp only [segment, mem_oneOf_mul, mem_kstar_oneOf]
  constructor
  · rintro ⟨_, _, rfl, ⟨c, v, hc, hv, rfl⟩, rfl⟩
    exact ⟨c, v, hc, hv, rfl⟩
  · rintro ⟨c, v, hc, hv, rfl⟩
    exact ⟨'_', c :: v, rfl, ⟨c, v, hc, hv, rfl⟩, rfl⟩

theorem mem_ending : w ∈ ending ↔ ∃ u v, (∀ c ∈ u, IsAlphanumeric c) ∧ v ∈ segment∗ ∧ w = u ++ v := by
  simp only [ending, Language.mem_mul, mem_kstar_oneOf]
  constructor
  · rintro ⟨u, hu, v, hv, rfl⟩
    exact ⟨u, v, hu, hv, rfl⟩
  · rintro ⟨u, v, hu, hv, rfl⟩
    exact ⟨u, hu, v, hv, rfl⟩

/-! ## Tidy words -/

/-- Letters, digits and underscores, no two of which stand together and none at the end. -/
structure Tidy (w : List Char) : Prop where
  chars : ∀ c ∈ w, isNameChar c = true
  separable : Separable w

theorem isNameChar_iff : isNameChar c = true ↔ IsAlphanumeric c ∨ c = '_' := by
  rw [isNameChar, Bool.or_eq_true, isAlphanum_iff, beq_iff_eq]

theorem tidy_nil : Tidy [] := ⟨by simp, separable_nil⟩

theorem Tidy.tail (h : Tidy (c :: w)) : Tidy w where
  chars d hd := h.chars d (List.mem_cons_of_mem _ hd)
  separable := h.separable.tail

/-- One more letter or digit in front. -/
theorem Tidy.cons (h : Tidy w) (hc : IsAlphanumeric c) : Tidy (c :: w) where
  chars d hd := by
    rcases List.mem_cons.1 hd with rfl | hd
    · exact isNameChar_iff.2 (.inl hc)
    · exact h.chars d hd
  separable := h.separable.cons fun hunderscore => absurd hunderscore hc.ne_underscore

/-- Letters and digits in front. -/
theorem Tidy.append (h : Tidy w) (hv : ∀ c ∈ v, IsAlphanumeric c) : Tidy (v ++ w) := by
  induction v with
  | nil => exact h
  | cons c v ih =>
    have hrest := ih fun d hd => hv d (List.mem_cons_of_mem _ hd)
    exact hrest.cons (hv c List.mem_cons_self)

/-- An underscore in front of a letter or digit. -/
theorem Tidy.underscore (h : Tidy w) (hc : IsAlphanumeric c) : Tidy ('_' :: c :: w) where
  chars d hd := by
    rcases List.mem_cons.1 hd with rfl | hd
    · exact isNameChar_iff.2 (.inr rfl)
    · exact (h.cons hc).chars d hd
  separable := by
    refine (h.cons hc).separable.cons fun _ => ⟨List.cons_ne_nil _ _, ?_⟩
    intro hhead
    exact hc.ne_underscore (Option.some.inj hhead)

/-- Segments one after the other are tidy. -/
theorem tidy_of_mem_kstar (h : w ∈ segment∗) : Tidy w := by
  obtain ⟨vs, rfl, hvs⟩ := Language.mem_kstar.1 h
  clear h
  induction vs with
  | nil => exact tidy_nil
  | cons v vs ih =>
    have hrest := ih fun u hu => hvs u (List.mem_cons_of_mem _ hu)
    obtain ⟨c, u, hc, hu, rfl⟩ := mem_segment.1 (hvs v List.mem_cons_self)
    exact (hrest.append hu).underscore hc

/-- A tidy word goes on to its first underscore, and from there it is made of segments. The induction is on the length
because an underscore is taken together with the character after it. -/
theorem Tidy.mem_ending {w : List Char} (h : Tidy w) : w ∈ ending := by
  match w, h with
  | [], _ => exact TableName.mem_ending.2 ⟨[], [], by simp, Language.nil_mem_kstar _, rfl⟩
  | c :: w, h =>
    by_cases hc : c = '_'
    · obtain ⟨d, v, rfl, hd⟩ := h.separable.ne_underscore hc
      obtain ⟨u, rest, hu, hrest, rfl⟩ := TableName.mem_ending.1 h.tail.tail.mem_ending
      have hdigit : IsAlphanumeric d := (isNameChar_iff.1 (h.tail.chars d List.mem_cons_self)).resolve_right hd
      have hsegment : '_' :: d :: u ∈ segment := mem_segment.2 ⟨d, u, hdigit, hu, rfl⟩
      subst hc
      exact TableName.mem_ending.2 ⟨[], _, by simp, append_mem_kstar hsegment hrest, rfl⟩
    · obtain ⟨u, rest, hu, hrest, rfl⟩ := TableName.mem_ending.1 h.tail.mem_ending
      have hfirst : IsAlphanumeric c := (isNameChar_iff.1 (h.chars c List.mem_cons_self)).resolve_right hc
      refine TableName.mem_ending.2 ⟨c :: u, rest, ?_, hrest, rfl⟩
      intro d hd
      rcases List.mem_cons.1 hd with rfl | hd
      · exact hfirst
      · exact hu d hd
termination_by w.length

theorem tidy_iff_mem_ending : Tidy w ↔ w ∈ ending := by
  refine ⟨Tidy.mem_ending, fun h => ?_⟩
  obtain ⟨u, v, hu, hv, rfl⟩ := mem_ending.1 h
  exact (tidy_of_mem_kstar hv).append hu

/-! ## Names -/

/-- A valid name is a letter with a tidy word after it. -/
theorem isValid_iff : isValid name = true ↔ ∃ c w, IsLetter c ∧ Tidy w ∧ name.toList = c :: w := by
  unfold isValid
  cases hname : name.toList with
  | nil => simp
  | cons c w =>
    simp only [Bool.and_eq_true, Bool.not_eq_true', bne_iff_ne, List.all_eq_true, List.cons.injEq]
    constructor
    · rintro ⟨⟨⟨hletter, hchars⟩, hinside⟩, hlast⟩
      have hseparable : Separable (c :: w) := ⟨hinside, hlast⟩
      exact ⟨c, w, isAlpha_iff.1 hletter, ⟨hchars, hseparable.tail⟩, rfl, rfl⟩
    · rintro ⟨_, _, hletter, htidy, rfl, rfl⟩
      have hall := htidy.cons (.inl hletter)
      exact ⟨⟨⟨isAlpha_iff.2 hletter, htidy.chars⟩, hall.separable.inside⟩, hall.separable.last⟩

/-- **The valid names are the words of the grammar.** -/
theorem isValid_iff_mem_grammar (name : String) : isValid name = true ↔ name.toList ∈ grammar := by
  rw [isValid_iff, grammar, mem_oneOf_mul]
  simp only [tidy_iff_mem_ending]

end TableName
end JoinShapes
