import Mathlib.Data.Nat.Digits.Lemmas
import JoinShapes.Text.Numeral

/-!
# Texts that are numbers

A text is read as a number exactly if it spells one: decimal digits, at least one of them, perhaps after a plus sign,
whose number fits into a word (`Numeral.Spells`, `ofText_eq_ok_iff`). The digits are taken from the left, and no digit
makes the number smaller, so that a number which outgrows a word on the way is too large in the end as well.
-/

namespace JoinShapes
namespace Numeral

variable {c : Char} {cs : List Char} {ds : List Nat} {d n v : Nat} {text : String}

/-- The text spells the number, which fits into a word. -/
def Spells (text : String) (n : Nat) : Prop :=
  ∃ ds : List Nat, ds ≠ [] ∧ (∀ d ∈ ds, d < 10) ∧
    (text.toList = ds.map Nat.digitChar ∨ text.toList = '+' :: ds.map Nat.digitChar) ∧
    n = Nat.ofDigits 10 ds.reverse ∧ n < 2 ^ 64

/-! ## Digits -/

theorem digit?_digitChar : ∀ d < 10, digit? 10 (Nat.digitChar d) = some d := by decide

/-- **A decimal digit is read** as the number that it is written for. -/
theorem digit?_eq_some_iff : digit? 10 c = some d ↔ d < 10 ∧ c = Nat.digitChar d := by
  constructor
  · intro h
    obtain ⟨hvalue, hlt⟩ := Option.filter_eq_some_iff.1 h
    have hd : d < 10 := of_decide_eq_true hlt
    refine ⟨hd, Char.toNat_inj.1 ?_⟩
    rw [Nat.toNat_digitChar_of_lt_ten hd]
    split at hvalue
    · rename_i hdigit
      have hle : 48 ≤ c.toNat := (Char.isDigit_iff_toNat.1 hdigit).1
      have heq := Option.some.inj hvalue
      omega
    · -- The values of letters are ten and more.
      split at hvalue
      · rename_i hletter
        have hle : 97 ≤ c.toNat := hletter.1
        have heq := Option.some.inj hvalue
        omega
      · split at hvalue
        · rename_i hletter
          have hle : 65 ≤ c.toNat := hletter.1
          have heq := Option.some.inj hvalue
          omega
        · cases hvalue
  · rintro ⟨hd, rfl⟩
    exact digit?_digitChar d hd

/-! ## Numbers -/

/-- The number with one more digit. -/
def shift (n d : Nat) : Nat := n * 10 + d

theorem foldl_shift (ds : List Nat) : ds.foldl shift 0 = Nat.ofDigits 10 ds.reverse := by
  rw [Nat.ofDigits_eq_foldr, List.foldr_reverse]
  congr 1
  funext n d
  rw [shift, Nat.cast_id]
  omega

theorem le_foldl_shift (ds : List Nat) (n : Nat) : n ≤ ds.foldl shift n := by
  induction ds generalizing n with
  | nil => exact Nat.le_refl n
  | cons d ds ih =>
    have hle := ih (shift n d)
    rw [shift] at hle
    rw [List.foldl_cons, shift]
    omega

/-- **Reading digits** from the left, after some that made `v`. -/
theorem foldlM_push_eq_ok_iff (hv : v < limit) : cs.foldlM (push 10) v = .ok n ↔
    ∃ ds : List Nat, (∀ d ∈ ds, d < 10) ∧ cs = ds.map Nat.digitChar ∧ n = ds.foldl shift v ∧ n < limit := by
  induction cs generalizing v with
  | nil =>
    constructor
    · rintro ⟨⟩
      exact ⟨[], by simp, rfl, rfl, hv⟩
    · rintro ⟨ds, _, hnil, rfl, _⟩
      rw [List.map_eq_nil_iff.1 hnil.symm]
      rfl
  | cons c cs ih =>
    rw [List.foldlM_cons]
    constructor
    · intro h
      cases hdigit : digit? 10 c with
      | none =>
        rw [push, hdigit] at h
        cases h
      | some d =>
        by_cases hfits : v * 10 + d < limit
        · simp only [push, hdigit, if_pos hfits] at h
          obtain ⟨ds, hds, rfl, rfl, hn⟩ := (ih hfits).1 h
          obtain ⟨hd, rfl⟩ := digit?_eq_some_iff.1 hdigit
          exact ⟨d :: ds, List.forall_mem_cons.2 ⟨hd, hds⟩, rfl, rfl, hn⟩
        · simp only [push, hdigit, if_neg hfits] at h
          cases h
    · rintro ⟨ds, hds, hcs, rfl, hn⟩
      cases ds with
      | nil => cases hcs
      | cons d ds =>
        obtain ⟨rfl, rfl⟩ := List.cons.inj hcs
        obtain ⟨hd, hds⟩ := List.forall_mem_cons.1 hds
        have hfits : v * 10 + d < limit := Nat.lt_of_le_of_lt (le_foldl_shift ds (shift v d)) hn
        simp only [push, digit?_digitChar d hd, if_pos hfits]
        exact (ih hfits).2 ⟨ds, hds, rfl, rfl, hn⟩

/-- Digits without a sign. -/
theorem ofDigits_eq_ok_iff : ofDigits 10 cs = .ok n ↔ ∃ ds : List Nat, ds ≠ [] ∧ (∀ d ∈ ds, d < 10) ∧
    cs = ds.map Nat.digitChar ∧ n = Nat.ofDigits 10 ds.reverse ∧ n < 2 ^ 64 := by
  have hzero : 0 < limit := by decide
  unfold ofDigits
  cases cs with
  | nil =>
    constructor
    · nofun
    · rintro ⟨ds, hne, _, hnil, _⟩
      exact absurd (List.map_eq_nil_iff.1 hnil.symm) hne
  | cons c cs =>
    rw [if_neg (by simp), foldlM_push_eq_ok_iff hzero]
    simp only [foldl_shift]
    constructor
    · rintro ⟨ds, hds, hcs, hn, hlt⟩
      refine ⟨ds, ?_, hds, hcs, hn, hlt⟩
      rintro rfl
      cases hcs
    · rintro ⟨ds, _, hds, hcs, hn, hlt⟩
      exact ⟨ds, hds, hcs, hn, hlt⟩

theorem ofDigits_plus (cs : List Char) : ofDigits 10 ('+' :: cs) = .error .invalidDigit := rfl

/-- **A text is read as a number** exactly if it spells it. -/
theorem ofText_eq_ok_iff : ofText text = .ok n ↔ Spells text n := by
  have hsign : ofText text = .ok n ↔
      ofDigits 10 text.toList = .ok n ∨ ∃ cs, text.toList = '+' :: cs ∧ ofDigits 10 cs = .ok n := by
    unfold ofText
    split
    · rename_i heq
      rw [heq, ofDigits_plus]
      simp [ofDigits]
    · rename_i cs _ heq
      rw [heq, ofDigits_plus]
      simp
    · rename_i hplus
      constructor
      · exact .inl
      · rintro (h | ⟨cs, heq, _⟩)
        · exact h
        · exact absurd heq (hplus cs)
  rw [hsign]
  simp only [ofDigits_eq_ok_iff, Spells]
  constructor
  · rintro (⟨ds, hne, hds, hcs, hn⟩ | ⟨_, hcs, ds, hne, hds, rfl, hn⟩)
    · exact ⟨ds, hne, hds, .inl hcs, hn⟩
    · exact ⟨ds, hne, hds, .inr hcs, hn⟩
  · rintro ⟨ds, hne, hds, hcs | hcs, hn⟩
    · exact .inl ⟨ds, hne, hds, hcs, hn⟩
    · exact .inr ⟨_, hcs, ds, hne, hds, rfl, hn⟩

end Numeral
end JoinShapes
