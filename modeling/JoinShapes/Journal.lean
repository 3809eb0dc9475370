/-!
# Journals

A `Journaled ε α` is the outcome of a computation together with the entries it wrote on the way, in order. Entries
written before a failure are kept. `outcome_bind` says that the outcome of a sequence is the sequence of the outcomes,
so that a statement about results never has to mention entries. A `JournaledT m ε α` has effects on the way, too.
-/

namespace JoinShapes

/-- How much a journal entry matters. -/
inductive Severity
  | debug
  | info
  | warn
deriving DecidableEq, Repr

/-- One line of a journal. -/
structure Entry where
  severity : Severity
  text : String
deriving DecidableEq, Repr

/-- A result or an error, and the entries written on the way to it. -/
structure Journaled (ε α : Type) where
  entries : List Entry
  outcome : Except ε α

namespace Journaled

variable {ε α β : Type}

/-- An outcome without entries. -/
def ofExcept (x : Except ε α) : Journaled ε α := ⟨[], x⟩

/-- Writes one entry. -/
def note (severity : Severity) (text : String) : Journaled ε Unit := ⟨[⟨severity, text⟩], .ok ()⟩

/-- Writes the given entries. -/
def notes (entries : List Entry) : Journaled ε Unit := ⟨entries, .ok ()⟩

/-- Goes on with the result, if there is one. -/
def bind (x : Journaled ε α) (f : α → Journaled ε β) : Journaled ε β :=
  match x.outcome with
  | .ok a => let y := f a; ⟨x.entries ++ y.entries, y.outcome⟩
  | .error e => ⟨x.entries, .error e⟩

instance : Monad (Journaled ε) where
  pure a := ofExcept (.ok a)
  bind := bind

/-- Restates the error. -/
def mapError {δ : Type} (f : ε → δ) (x : Journaled ε α) : Journaled δ α := ⟨x.entries, x.outcome.mapError f⟩

@[simp] theorem outcome_ofExcept (x : Except ε α) : (ofExcept x).outcome = x := rfl

@[simp] theorem outcome_pure (a : α) : (pure a : Journaled ε α).outcome = .ok a := rfl

@[simp] theorem outcome_note (s : Severity) (t : String) : (note s t : Journaled ε Unit).outcome = .ok () := rfl

@[simp] theorem outcome_notes (es : List Entry) : (notes es : Journaled ε Unit).outcome = .ok () := rfl

@[simp] theorem outcome_mapError {δ : Type} (f : ε → δ) (x : Journaled ε α) :
    (x.mapError f).outcome = x.outcome.mapError f := rfl

/-- **The outcome of a sequence is the sequence of the outcomes.** -/
@[simp] theorem outcome_bind (x : Journaled ε α) (f : α → Journaled ε β) :
    (x >>= f).outcome = x.outcome >>= fun a => (f a).outcome := by
  show (bind x f).outcome = _
  unfold bind
  cases x.outcome <;> rfl

@[simp] theorem outcome_forM {γ : Type} (as : List γ) (f : γ → Journaled ε Unit) :
    (as.forM f).outcome = as.forM fun a => (f a).outcome := by
  induction as with
  | nil => rfl
  | cons a as ih =>
    show (f a >>= fun _ => as.forM f).outcome = (f a).outcome >>= fun _ => as.forM fun a => (f a).outcome
    rw [outcome_bind, ih]

end Journaled

/-- A computation that keeps a journal and has effects. An effect that fails ends it; what was done before stays. -/
def JournaledT (m : Type → Type) (ε α : Type) : Type := m (Journaled ε α)

namespace JournaledT

variable {m : Type → Type} {ε α β : Type}

/-- The effects, and what they result in. -/
def run (x : JournaledT m ε α) : m (Journaled ε α) := x

variable [Monad m]

/-- A computation without effects. -/
def lift (x : Journaled ε α) : JournaledT m ε α := (pure x : m (Journaled ε α))

/-- An effect without entries. -/
def ofEffect (x : m (Except ε α)) : JournaledT m ε α := (Journaled.ofExcept <$> x : m (Journaled ε α))

/-- Goes on from what has come of the first part. -/
def goOn (f : α → JournaledT m ε β) (r : Journaled ε α) : JournaledT m ε β :=
  (match r.outcome with
    | .error e => return ⟨r.entries, .error e⟩
    | .ok a => do
      let r' ← (f a).run
      return ⟨r.entries ++ r'.entries, r'.outcome⟩ : m (Journaled ε β))

/-- Goes on with the result, if there is one. -/
def bind (x : JournaledT m ε α) (f : α → JournaledT m ε β) : JournaledT m ε β :=
  (do goOn f (← x.run) : m (Journaled ε β))

instance : Monad (JournaledT m ε) where
  pure a := lift (pure a)
  bind := bind

end JournaledT
end JoinShapes
