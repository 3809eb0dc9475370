import JoinShapes.Json.Token

/-!
# Scanning what was written

Text is `Spaced` when it is a list of tokens with blanks anywhere between them and a break after each word. The scanner
takes a text in quotes back one escape at a time (`run_escape`, `run_quote`), a word up to the break (`run_word`), and
so all of a spaced text (`scan_of_spaced`).
-/

namespace JoinShapes
namespace Json
namespace Token

/-- The tokens that a reader has at the end of a text, if it can take all of it. -/
def run (s : Scan) (cs : List Char) : Option (List Token) := cs.foldlM Scan.step s >>= Scan.finish

variable {ts acc : List Token} {t : Token} {c d : Char} {cs w r : List Char} {s : Scan}

theorem run_cons (s' : Scan) (h : s.step c = some s') : run s (c :: cs) = run s' cs := by
  simp only [run, List.foldlM_cons, h, Option.bind_eq_bind, Option.bind_some]

/-! ## Words -/

/-- A character that no word holds: a blank, a quote or a token of its own. -/
def isBreak (c : Char) : Bool := isBlank c || c == '"' || (punctuation? c).isSome

/-- The text is at its end or goes on with a break. -/
def Ends (cs : List Char) : Prop := ∀ c ∈ cs.head?, isBreak c = true

/-- A number, `true`, `false` or `null`. -/
def isWord : Token → Bool
  | natural _ | numeral _ | bool _ | null => true
  | _ => false

/-- A token whose word is read as the token and holds no break. -/
structure Spelled (t : Token) : Prop where
  reads : ofWord? t.spell = some t
  unbroken : ∀ c ∈ t.spell, isBreak c = false

/-- A token that can be read again. Only a numeral can fail to be, as its text may be any. -/
def Legible : Token → Prop
  | numeral s => Spelled (numeral s)
  | _ => True

theorem isBreak_of_isDigit (h : c.isDigit = true) : isBreak c = false := by
  have hne : ∀ b : Char, b.isDigit = false → c ≠ b := by
    rintro b hb rfl
    rw [h] at hb
    cases hb
  simp [isBreak, isBlank, punctuation?, hne]

/-- Only the number zero starts with a zero. -/
theorem head?_toDigits_ne (n : Nat) (hn : 0 < n) : (Nat.toDigits 10 n).head? ≠ some '0' := by
  induction n using Nat.strongRecOn with
  | ind n ih =>
    by_cases hlt : n < 10
    · have hdigit : ∀ d < 10, 0 < d → Nat.digitChar d ≠ '0' := by decide
      rw [Nat.toDigits_of_lt_base hlt]
      intro h
      exact hdigit n hlt hn (Option.some.inj h)
    · have hhigh : (Nat.toDigits 10 (n / 10)).head? ≠ some '0' := ih (n / 10) (by omega) (by omega)
      rw [Nat.toDigits_of_base_le (by decide) (by omega)]
      cases hcs : Nat.toDigits 10 (n / 10) with
      | nil => exact absurd hcs Nat.toDigits_ne_nil
      | cons c cs =>
        rw [hcs] at hhigh
        exact hhigh

theorem isInteger_toDigits (n : Nat) : isInteger (Nat.toDigits 10 n) = true := by
  rcases Nat.eq_zero_or_pos n with rfl | hn
  · rfl
  · have hdigits : (Nat.toDigits 10 n).all Char.isDigit = true := by
      rw [List.all_eq_true]
      intro c hc
      exact Nat.isDigit_of_mem_toDigits (by decide) (by decide) hc
    have hhead := head?_toDigits_ne n hn
    cases hcs : Nat.toDigits 10 n with
    | nil => exact absurd hcs Nat.toDigits_ne_nil
    | cons c cs =>
      rw [hcs] at hdigits hhead
      have hc : c ≠ '0' := fun h => hhead (congrArg some h)
      unfold isInteger
      split
      · rfl
      · rename_i heq
        cases heq
        simp [hc, hdigits]
      · contradiction

theorem spelled_natural (n : Nat) : Spelled (natural n) where
  reads := by
    simp only [ofWord?, spell, isInteger_toDigits, if_true]
    rw [Nat.ofDigitChars_toDigits (by decide) (by decide)]
  unbroken c hc := isBreak_of_isDigit (Nat.isDigit_of_mem_toDigits (by decide) (by decide) hc)

/-- **The word of a legible token is read as the token.** -/
theorem Legible.spelled (h : t.Legible) (hw : t.isWord = true) : Spelled t := by
  cases t with
  | natural n => exact spelled_natural n
  | numeral s => exact h
  | bool b => cases b <;> exact ⟨by decide, by simp [spell, isBreak, isBlank, punctuation?]⟩
  | null => exact ⟨by decide, by simp [spell, isBreak, isBlank, punctuation?]⟩
  | openObject | closeObject | openArray | closeArray | colon | comma | text s => cases hw

/-- Characters that are no breaks go into the word. -/
theorem run_unbroken (hw : ∀ c ∈ w, isBreak c = false) :
    run ⟨acc, .word r⟩ (w ++ cs) = run ⟨acc, .word (w.reverse ++ r)⟩ cs := by
  induction w generalizing r with
  | nil => rfl
  | cons c w ih =>
    have hc : isBreak c = false := hw c List.mem_cons_self
    have hstep : Scan.step ⟨acc, .word r⟩ c = some ⟨acc, .word (c :: r)⟩ :=
      if_neg (by rw [← isBreak, hc]; decide)
    rw [List.cons_append, run_cons _ hstep, ih fun d hd => hw d (List.mem_cons_of_mem c hd)]
    simp

/-- A break or the end of the text completes the word. -/
theorem run_ends (h : ofWord? r.reverse = some t) (hcs : Ends cs) :
    run ⟨acc, .word r⟩ cs = run ⟨t :: acc, .between⟩ cs := by
  cases cs with
  | nil => simp [run, Scan.finish, h]
  | cons c cs =>
    have hc : isBreak c = true := hcs c rfl
    have hstep : Scan.step ⟨acc, .word r⟩ c = some (startToken (t :: acc) c) :=
      (if_pos hc).trans (by rw [h, Option.map_some])
    rw [run_cons _ hstep, run_cons (startToken (t :: acc) c) rfl]

theorem run_word (h : Spelled t) (hcs : Ends cs) :
    run ⟨acc, .between⟩ (t.spell ++ cs) = run ⟨t :: acc, .between⟩ cs := by
  cases hw : t.spell with
  | nil =>
    have hnone : ofWord? [] = none := rfl
    have hreads := h.reads
    rw [hw, hnone] at hreads
    cases hreads
  | cons c w =>
    have hunbroken := h.unbroken
    rw [hw] at hunbroken
    have hc : isBreak c = false := hunbroken c List.mem_cons_self
    have hstep : Scan.step ⟨acc, .between⟩ c = some ⟨acc, .word [c]⟩ := by
      simp only [isBreak, Bool.or_eq_false_iff, beq_eq_false_iff_ne, Option.isSome_eq_false_iff,
        Option.isNone_iff_eq_none] at hc
      simp [Scan.step, startToken, hc]
    rw [List.cons_append, run_cons _ hstep, run_unbroken fun d hd => hunbroken d (List.mem_cons_of_mem c hd)]
    refine run_ends ?_ hcs
    rw [List.reverse_append, List.reverse_reverse]
    show ofWord? (c :: w) = some t
    rw [← hw, h.reads]

/-! ## Texts -/

theorem hexValue?_digitChar : ∀ n < 16, hexValue? (Nat.digitChar n) = some n := by decide

/-- A control character comes back from its number. -/
theorem run_number (hc : c.toNat < 32) :
    run ⟨acc, .quoted r⟩
        ('\\' :: 'u' :: '0' :: '0' :: Nat.digitChar (c.toNat / 16) :: Nat.digitChar (c.toNat % 16) :: cs) =
      run ⟨acc, .quoted (c :: r)⟩ cs := by
  have hhigh := hexValue?_digitChar (c.toNat / 16) (by omega)
  have hlow := hexValue?_digitChar (c.toNat % 16) (by omega)
  have hzero : hexValue? '0' = some 0 := rfl
  have hvalue : c.toNat / 16 * 16 + c.toNat % 16 = c.toNat := by omega
  have hfinish : finishNumber r none c.toNat = some (.quoted (c :: r)) := by
    rw [finishNumber, if_neg (by omega), if_neg (by omega), Char.ofNat_toNat]
  rw [run_cons ⟨acc, .escaped r⟩ rfl, run_cons ⟨acc, .number r none 0 0⟩ rfl,
    run_cons ⟨acc, .number r none 1 0⟩ (by simp [Scan.step, hzero]),
    run_cons ⟨acc, .number r none 2 0⟩ (by simp [Scan.step, hzero]),
    run_cons ⟨acc, .number r none 3 (c.toNat / 16)⟩ (by simp [Scan.step, hhigh]),
    run_cons ⟨acc, .quoted (c :: r)⟩ (by simp [Scan.step, hlow, hvalue, hfinish])]

/-- A backslash and a letter stand for one character. -/
theorem run_letter (hd : d ≠ 'u') (h : unescape? d = some c) :
    run ⟨acc, .quoted r⟩ ('\\' :: d :: cs) = run ⟨acc, .quoted (c :: r)⟩ cs := by
  rw [run_cons ⟨acc, .escaped r⟩ rfl, run_cons ⟨acc, .quoted (c :: r)⟩ (by simp [Scan.step, hd, h])]

/-- **Every escape is taken back**, whatever the character. -/
theorem run_escape (c : Char) : run ⟨acc, .quoted r⟩ (escape c ++ cs) = run ⟨acc, .quoted (c :: r)⟩ cs := by
  unfold escape
  -- the characters with a letter of their own
  iterate 7
    split
    · rename_i h
      exact run_letter (by decide) (by subst h; rfl)
  split
  · rename_i h
    exact run_number h
  · rename_i hquote hbackslash _ _ _ _ _ hcontrol
    exact run_cons _ (by simp [Scan.step, hquote, hbackslash, hcontrol])

theorem run_quote (s : String) : run ⟨acc, .between⟩ (quote s ++ cs) = run ⟨text s :: acc, .between⟩ cs := by
  have hbody : ∀ (l r : List Char), run ⟨acc, .quoted r⟩ (l.flatMap escape ++ '"' :: cs) =
      run ⟨text (String.ofList (r.reverse ++ l)) :: acc, .between⟩ cs := by
    intro l
    induction l with
    | nil =>
      intro r
      rw [List.append_nil]
      exact run_cons _ rfl
    | cons c l ih =>
      intro r
      rw [List.flatMap_cons, List.append_assoc, run_escape, ih, List.reverse_cons, List.append_assoc]
      rfl
  rw [quote, List.cons_append, run_cons ⟨acc, .quoted []⟩ rfl, List.append_assoc]
  exact (hbody s.toList []).trans (by rw [List.reverse_nil, List.nil_append, String.ofList_toList])

/-! ## Spaced text -/

/-- **Tokens with blanks between them.** A word ends before a break or the end of the text. -/
inductive Spaced : List Token → List Char → Prop
  | nil : Spaced [] []
  | blank {ts : List Token} {c : Char} {cs : List Char} : isBlank c = true → Spaced ts cs → Spaced ts (c :: cs)
  | token {ts : List Token} {cs : List Char} (t : Token) :
      (t.isWord = true → Ends cs) → Spaced ts cs → Spaced (t :: ts) (t.spell ++ cs)

/-- One legible token is read whole. -/
theorem run_spell (ht : t.Legible) (hcs : t.isWord = true → Ends cs) :
    run ⟨acc, .between⟩ (t.spell ++ cs) = run ⟨t :: acc, .between⟩ cs := by
  cases hw : t.isWord with
  | true => exact run_word (ht.spelled hw) (hcs hw)
  | false =>
    cases t with
    | text s => exact run_quote s
    | openObject | closeObject | openArray | closeArray | colon | comma => exact run_cons _ rfl
    | natural n | numeral s | bool b | null => cases hw

/-- **A spaced text has its tokens**, after those of the reader. -/
theorem run_of_spaced (h : Spaced ts cs) (hts : ∀ t ∈ ts, t.Legible) (acc : List Token) :
    run ⟨acc, .between⟩ cs = some (acc.reverse ++ ts) := by
  induction h generalizing acc with
  | nil => simp [run, Scan.finish]
  | blank hc _ ih =>
    rw [run_cons ⟨acc, .between⟩ (by simp [Scan.step, startToken, hc])]
    exact ih hts acc
  | @token ts cs t hcs _ ih =>
    rw [run_spell (hts t List.mem_cons_self) hcs, ih fun u hu => hts u (List.mem_cons_of_mem t hu)]
    simp

/-- **Scanning a spaced text** gives the tokens that it was made of. -/
theorem scan_of_spaced (h : Spaced ts cs) (hts : ∀ t ∈ ts, t.Legible) : scan cs = some ts :=
  run_of_spaced h hts []

end Token
end Json
end JoinShapes
