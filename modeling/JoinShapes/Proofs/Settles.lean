import Mathlib.Data.List.Forall2

/-!
# Results and errors at once

`Settles E x Q` says what is to be known of a computation that may fail: its error, if there is one, has `E`, and its
result has `Q`. The rules follow the program: a sequence (`Settles.bind`), a loop that keeps an invariant and leaves
something done for every element (`Settles.foldlM`), and a loop that collects results (`Settles.mapM`).

`Decides E C x Q` says more: there is a result just when `C` holds. The conditions of the parts of a program add up to
that of the whole (`Decides.bind`, `Decides.mapM`).
-/

namespace JoinShapes

variable {ε α β σ : Type} {E : ε → Prop} {Q : α → Prop}

/-- A result of the computation has `Q` and an error of it has `E`. -/
def Settles (E : ε → Prop) (x : Except ε α) (Q : α → Prop) : Prop :=
  match x with
  | .ok a => Q a
  | .error e => E e

namespace Settles

@[simp] theorem ok_iff {a : α} : Settles E (.ok a) Q ↔ Q a := Iff.rfl

@[simp] theorem pure_iff {a : α} : Settles E (pure a) Q ↔ Q a := Iff.rfl

@[simp] theorem error_iff {e : ε} : Settles E (.error e) Q ↔ E e := Iff.rfl

@[simp] theorem ok_bind_iff {b : β} {f : β → Except ε α} : Settles E (Except.ok b >>= f) Q ↔ Settles E (f b) Q :=
  Iff.rfl

theorem of_ok {x : Except ε α} {a : α} (h : Settles E x Q) (hx : x = .ok a) : Q a := by
  subst hx; exact h

theorem of_error {x : Except ε α} {e : ε} (h : Settles E x Q) (hx : x = .error e) : E e := by
  subst hx; exact h

/-- A computation whose errors cannot be has a result. -/
theorem exists_ok_of_not {x : Except ε α} (h : Settles E x Q) (hE : ∀ e, ¬ E e) : ∃ a, x = .ok a ∧ Q a := by
  cases x with
  | error e => exact absurd h (hE e)
  | ok a => exact ⟨a, rfl, h⟩

/-- A computation without possible errors has a result. -/
theorem exists_ok {x : Except ε α} (h : Settles (fun _ => False) x Q) : ∃ a, x = .ok a ∧ Q a :=
  h.exists_ok_of_not fun _ => id

theorem mono {P : α → Prop} {x : Except ε α} (h : Settles E x P) (hPQ : ∀ a, P a → Q a) : Settles E x Q := by
  cases x with
  | error e => exact h
  | ok a => exact hPQ a h

theorem weaken {E' : ε → Prop} {x : Except ε α} (h : Settles E x Q) (hE : ∀ e, E e → E' e) : Settles E' x Q := by
  cases x with
  | error e => exact hE e h
  | ok a => exact h

theorem bind {P : β → Prop} {x : Except ε β} {f : β → Except ε α} (hx : Settles E x P)
    (hf : ∀ b, P b → Settles E (f b) Q) : Settles E (x >>= f) Q := by
  cases x with
  | error e => exact hx
  | ok b => exact hf b hx

theorem map {x : Except ε β} {f : β → α} (hx : Settles E x fun b => Q (f b)) : Settles E (f <$> x) Q := by
  cases x with
  | error e => exact hx
  | ok b => exact hx

/-- An error that is passed on under another name. -/
theorem mapError {δ : Type} {f : δ → ε} (hf : ∀ e, E (f e)) (x : Except δ α) :
    Settles E (x.mapError f) fun _ => True := by
  cases x with
  | error e => exact hf e
  | ok a => trivial

/-- **A loop over a list.** Each round keeps the invariant, goes forward along `R`, and leaves its element done; what is
done stays done along `R`. -/
theorem foldlM {f : σ → β → Except ε σ} {I : σ → Prop} {R : σ → σ → Prop} {D : β → σ → Prop}
    (hrefl : ∀ s, R s s) (htrans : ∀ {s t u}, R s t → R t u → R s u)
    (hdone : ∀ {b s t}, D b s → R s t → D b t) : ∀ {bs : List β} {s : σ},
    (∀ b ∈ bs, ∀ s, I s → Settles E (f s b) fun t => I t ∧ R s t ∧ D b t) → I s →
      Settles E (bs.foldlM f s) fun t => I t ∧ R s t ∧ ∀ b ∈ bs, D b t
  | [], s, _, hs => ⟨hs, hrefl s, by simp⟩
  | b :: bs, s, hf, hs => by
    rw [List.foldlM_cons]
    refine (hf b List.mem_cons_self s hs).bind fun t ht => ?_
    obtain ⟨hinv, hst, hb⟩ := ht
    refine (foldlM (D := D) hrefl htrans hdone (fun c hc => hf c (List.mem_cons_of_mem _ hc)) hinv).mono fun u hu => ?_
    obtain ⟨hinv', htu, hbs⟩ := hu
    refine ⟨hinv', htrans hst htu, fun c hc => ?_⟩
    rcases List.mem_cons.1 hc with rfl | hc
    · exact hdone hb htu
    · exact hbs c hc

/-- A loop that keeps an invariant. -/
theorem foldlM_keeps {f : σ → β → Except ε σ} {I : σ → Prop} {bs : List β} {s : σ}
    (hf : ∀ b ∈ bs, ∀ s, I s → Settles E (f s b) I) (hs : I s) : Settles E (bs.foldlM f s) I := by
  refine (foldlM (R := fun _ _ => True) (D := fun _ _ => True) (fun _ => trivial) (fun _ _ => trivial)
    (fun _ _ => trivial) (fun b hb s hs => (hf b hb s hs).mono fun t ht => ⟨ht, trivial, trivial⟩) hs).mono ?_
  exact fun t ht => ht.1

/-- A loop that collects one result for each element. -/
theorem mapM {f : β → Except ε α} {P : β → α → Prop} : ∀ {bs : List β},
    (∀ b ∈ bs, Settles E (f b) (P b)) → Settles E (bs.mapM f) fun as => List.Forall₂ P bs as
  | [], _ => List.Forall₂.nil
  | b :: bs, hf => by
    rw [List.mapM_cons]
    refine (hf b List.mem_cons_self).bind fun a ha => ?_
    exact (mapM fun c hc => hf c (List.mem_cons_of_mem _ hc)).bind fun as has => .cons ha has

end Settles

/-! ## Exact conditions -/

/-- The computation has a result just under the condition `C`; the result has `Q`, and an error has `E`. -/
def Decides (E : ε → Prop) (C : Prop) (x : Except ε α) (Q : α → Prop) : Prop :=
  Settles (fun e => ¬ C ∧ E e) x fun a => C ∧ Q a

namespace Decides

variable {C D : Prop} {P : β → Prop} {x : Except ε α} {y : Except ε β} {a : α} {e : ε}

theorem pure (h : Q a) : Decides E True (.ok a) Q := ⟨trivial, h⟩

theorem congr (hx : Decides E C x Q) (h : C ↔ D) : Decides E D x Q := propext h ▸ hx

/-- Under the condition there is a result. -/
theorem exists_ok (hx : Decides E C x Q) (hC : C) : ∃ a, x = .ok a ∧ Q a := by
  cases x with
  | error e => exact absurd hC hx.1
  | ok a => exact ⟨a, rfl, hx.2⟩

/-- Without the condition there is an error. -/
theorem exists_error (hx : Decides E C x Q) (hC : ¬ C) : ∃ e, x = .error e ∧ E e := by
  cases x with
  | error e => exact ⟨e, rfl, hx.2⟩
  | ok a => exact absurd hx.1 hC

/-- **The condition of a sequence** is that of both parts; that of the second part may presuppose the first. -/
theorem bind {f : β → Except ε α} (hy : Decides E C y P) (hf : ∀ b, C → P b → Decides E D (f b) Q) :
    Decides E (C ∧ D) (y >>= f) Q := by
  cases y with
  | error e => exact ⟨fun h => hy.1 h.1, hy.2⟩
  | ok b => exact (hf b hy.1 hy.2).congr (and_iff_right hy.1).symm

/-- A last step that cannot fail. -/
theorem bind_pure {f : β → α} (hy : Decides E C y P) (hf : ∀ b, C → P b → Q (f b)) :
    Decides E C (y >>= fun b => .ok (f b)) Q :=
  (hy.bind fun b hC hb => pure (hf b hC hb)).congr (and_iff_left trivial)

theorem map {f : β → α} (hy : Decides E C y fun b => Q (f b)) : Decides E C (f <$> y) Q := by
  cases y with
  | error e => exact hy
  | ok b => exact hy

theorem mono {R : α → Prop} (hx : Decides E C x R) (h : ∀ a, C → R a → Q a) : Decides E C x Q := by
  cases x with
  | error e => exact hx
  | ok a => exact ⟨hx.1, h a hx.1 hx.2⟩

/-- A refusal of what fails the condition. -/
theorem guard {c : Prop} [Decidable c] (hC : C ↔ ¬ c) (he : E e) (hx : C → Decides E D x Q) :
    Decides E (C ∧ D) (if c then .error e else x) Q := by
  by_cases hc : c
  · rw [if_pos hc]
    exact ⟨fun h => hC.1 h.1 hc, he⟩
  · rw [if_neg hc]
    exact (hx (hC.2 hc)).congr (and_iff_right (hC.2 hc)).symm

/-- **A loop that collects results** has the conditions of all rounds. -/
theorem mapM {f : β → Except ε α} {g : β → α} {C : β → Prop} : ∀ {bs : List β},
    (∀ b ∈ bs, Decides E (C b) (f b) (· = g b)) → Decides E (∀ b ∈ bs, C b) (bs.mapM f) (· = bs.map g)
  | [], _ => ⟨by simp, rfl⟩
  | b :: bs, hf => by
    rw [List.mapM_cons, List.forall_mem_cons, List.map_cons]
    refine (hf b List.mem_cons_self).bind fun a _ ha => ?_
    exact (mapM fun c hc => hf c (List.mem_cons_of_mem _ hc)).bind_pure fun as _ has => by rw [ha, has]

end Decides

/-- After a result the sequence goes on with it. -/
theorem ok_bind (b : β) (f : β → Except ε α) : (Except.ok b >>= f) = f b := rfl

/-- A check and what comes after it succeed together. -/
theorem check_bind_eq_ok_iff {x : Except ε Unit} {y : Except ε β} {b : β} :
    (x >>= fun _ => y) = .ok b ↔ x = .ok () ∧ y = .ok b := by
  cases x with
  | error e => exact iff_of_false (fun h => by cases h) (fun h => by cases h.1)
  | ok u => exact (and_iff_right rfl).symm

/-- A loop whose rounds all succeed collects what they give. -/
theorem mapM_eq_ok {f : α → Except ε β} {g : α → β} : ∀ {as : List α}, (∀ a ∈ as, f a = .ok (g a)) →
    as.mapM f = .ok (as.map g)
  | [], _ => rfl
  | a :: as, h => by
    rw [List.mapM_cons, h a List.mem_cons_self, mapM_eq_ok fun b hb => h b (List.mem_cons_of_mem _ hb)]
    rfl

/-- A loop that only checks is passed if every element is. -/
theorem forM_eq_ok_iff {f : α → Except ε Unit} {as : List α} : as.forM f = .ok () ↔ ∀ a ∈ as, f a = .ok () := by
  induction as with
  | nil => exact iff_of_true rfl (by simp)
  | cons a as ih =>
    rw [List.forall_mem_cons, ← ih]
    exact check_bind_eq_ok_iff

theorem forM_congr {f : α → Except ε Unit} {g : β → Except ε Unit} {h : α → β} {as : List α}
    (hfg : ∀ a ∈ as, f a = g (h a)) : as.forM f = (as.map h).forM g := by
  induction as with
  | nil => rfl
  | cons a as ih =>
    obtain ⟨ha, has⟩ := List.forall_mem_cons.1 hfg
    show (f a >>= fun _ => as.forM f) = (g (h a) >>= fun _ => (as.map h).forM g)
    rw [ha, ih has]

/-- It fails where the first element does. -/
theorem forM_eq_error_iff {f : α → Except ε Unit} {as : List α} {e : ε} : as.forM f = .error e ↔
    ∃ pre a post, as = pre ++ a :: post ∧ (∀ b ∈ pre, f b = .ok ()) ∧ f a = .error e := by
  induction as with
  | nil =>
    refine iff_of_false (fun h => ?_) (by simp)
    cases h
  | cons a as ih =>
    show (f a >>= fun _ => as.forM f) = .error e ↔ _
    cases ha : f a with
    | error e' =>
      constructor
      · rintro ⟨⟩
        exact ⟨[], a, as, rfl, by simp, ha⟩
      · rintro ⟨pre, b, post, heq, hpre, hb⟩
        cases pre with
        | nil =>
          obtain ⟨rfl, rfl⟩ := List.cons.inj heq
          exact ha.symm.trans hb
        | cons c pre =>
          obtain ⟨rfl, rfl⟩ := List.cons.inj heq
          rw [hpre a List.mem_cons_self] at ha
          cases ha
    | ok u =>
      rw [ok_bind, ih]
      constructor
      · rintro ⟨pre, b, post, rfl, hpre, hb⟩
        exact ⟨a :: pre, b, post, rfl, List.forall_mem_cons.2 ⟨ha, hpre⟩, hb⟩
      · rintro ⟨pre, b, post, heq, hpre, hb⟩
        cases pre with
        | nil =>
          obtain ⟨rfl, rfl⟩ := List.cons.inj heq
          rw [ha] at hb
          cases hb
        | cons c pre =>
          obtain ⟨rfl, rfl⟩ := List.cons.inj heq
          exact ⟨pre, b, post, rfl, (List.forall_mem_cons.1 hpre).2, hb⟩

/-! ## Lists related element by element -/

variable {R : α → β → Prop} {as : List α} {bs : List β} {a : α} {b : β}

theorem exists_getElem?_of_forall₂ {i : Nat} (h : List.Forall₂ R as bs) (ha : as[i]? = some a) :
    ∃ b, bs[i]? = some b ∧ R a b := by
  induction h generalizing i with
  | nil => simp at ha
  | cons hab _ ih =>
    cases i with
    | zero =>
      cases ha
      exact ⟨_, rfl, hab⟩
    | succ i => exact ih ha

theorem exists_mem_right_of_forall₂ (h : List.Forall₂ R as bs) (ha : a ∈ as) : ∃ b ∈ bs, R a b := by
  obtain ⟨i, hi⟩ := List.mem_iff_getElem?.1 ha
  obtain ⟨b, hb, hab⟩ := exists_getElem?_of_forall₂ h hi
  exact ⟨b, List.mem_of_getElem? hb, hab⟩

theorem exists_mem_left_of_forall₂ (h : List.Forall₂ R as bs) (hb : b ∈ bs) : ∃ a ∈ as, R a b :=
  exists_mem_right_of_forall₂ (R := flip R) h.flip hb

/-- If something is related to each element, a list of such things is related to the list. -/
theorem exists_forall₂ (h : ∀ a ∈ as, ∃ b, R a b) : ∃ bs, List.Forall₂ R as bs := by
  induction as with
  | nil => exact ⟨[], .nil⟩
  | cons a as ih =>
    obtain ⟨b, hab⟩ := h a List.mem_cons_self
    obtain ⟨bs, hbs⟩ := ih fun c hc => h c (List.mem_cons_of_mem _ hc)
    exact ⟨b :: bs, .cons hab hbs⟩

end JoinShapes
