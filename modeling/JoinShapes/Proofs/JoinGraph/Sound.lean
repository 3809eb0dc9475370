import JoinShapes.Proofs.Settles
import JoinShapes.Proofs.Shape
import JoinShapes.Proofs.Store

/-!
# Stores of shapes

During a run over the given nodes the store is sound: it is coherent and all its combinations are faithful
(`Store.Sound`). Adding a faithful combination keeps it sound, and fails only where two shapes have one fingerprint
(`Sound.add`, `Clash`). `Sound.foldlM` is the rule for the loops of a run.
-/

namespace JoinShapes

open TableNode (Placed)

variable {nodes : List TableNode} {k : Nat} {s t u : Store} {c : Combination} {m : IndexSet} {id w : Nat}

/-- The fault that two shapes of at most `k` tables have one fingerprint. -/
def Clash (nodes : List TableNode) (k : Nat) (e : PlanError) : Prop :=
  ∃ a b : IndexSet, a ≠ b ∧ (IsShape nodes a ∧ a.size ≤ k) ∧ (IsShape nodes b ∧ b.size ≤ k) ∧
    Fingerprint.ofAscending nodes.length a.toList = .ofAscending nodes.length b.toList ∧
    e = .collision (.ofAscending nodes.length a.toList) a.toList b.toList

namespace Store

/-- A coherent store of faithful combinations, for the given tables and widths up to `k`. -/
structure Sound (nodes : List TableNode) (k : Nat) (s : Store) : Prop where
  coherent : s.Coherent
  tableNum : s.tableNum = nodes.length
  joinNum : s.joinNum = k
  faithful : ∀ {id : Nat} {c : Combination}, s.combinations[id]? = some c → c.Faithful nodes

/-- All shapes of at most `w` tables are stored. -/
def Complete (nodes : List TableNode) (w : Nat) (s : Store) : Prop := ∀ m, IsShape nodes m → m.size ≤ w → s.Holds m

theorem Complete.mono {P : Combination → Prop} (h : s.Complete nodes w) (hst : Extends P s t) : t.Complete nodes w :=
  fun m hm hw => hst.holds_mono (h m hm hw)

theorem Complete.of_le {v : Nat} (h : s.Complete nodes w) (hv : v ≤ w) : s.Complete nodes v :=
  fun m hm hw => h m hm (hw.trans hv)

theorem sound_empty (nodes : List TableNode) (k : Nat) : (empty nodes.length k).Sound nodes k where
  coherent := coherent_empty _ _
  tableNum := rfl
  joinNum := rfl
  faithful h := by simp [empty] at h

theorem get_eq_ok (phase : Phase) (h : s.combinations[id]? = some c) : s.get phase id = .ok c := get_eq_ok_iff.2 h

namespace Sound

theorem shape (hs : s.Sound nodes k) (h : s.At id m) : IsShape nodes m := by
  obtain ⟨c, hc, rfl⟩ := h
  exact (hs.faithful hc).shape

theorem size_le (hs : s.Sound nodes k) (h : s.At id m) : m.size ≤ k := hs.joinNum ▸ (hs.coherent.width h).2

/-- What comes after all shapes of at most `w` tables is wider. -/
theorem lt_size_of_complete {P : Combination → Prop} (ht : t.Sound nodes k) (hst : Extends P s t)
    (hc : s.Complete nodes w) (hm : t.At id m) (hid : s.size ≤ id) : w < m.size := by
  by_contra hle
  exact hst.not_holds ht.coherent hm hid (hc m (ht.shape hm) (Nat.not_lt.1 hle))

/-- **What adding a faithful combination does**: it finds the members, appends the combination, or clashes. -/
theorem add_cases (hs : s.Sound nodes k) (hc : c.Faithful nodes) (hmemo : c.memo = none) (hw : c.width ≤ k)
    (phase : Phase) :
    (∃ id, s.At id c.members ∧ s.add phase c = .ok (s, id, false)) ∨
    (¬ s.Holds c.members ∧ ∃ t, s.Pushes t (c.fingerprinted nodes.length) ∧ t.Sound nodes k ∧
      s.add phase c = .ok (t, s.size, true)) ∨
    ∃ e, Clash nodes k e ∧ s.add phase c = .error e := by
  have hin : ∀ i ∈ c.members, i < s.tableNum := hs.tableNum ▸ hc.shape.inside
  have hle : c.width ≤ s.joinNum := hs.joinNum ▸ hw
  have hfp := Combination.fingerprint_of_memo hmemo s.tableNum
  rcases hs.coherent.insert_cases phase hfp hin hc.shape.size_pos hle with
    ⟨id, hid, heq⟩ | ⟨hnew, t, hpush, ht, heq⟩ | ⟨id, m, hm, hne, hf, heq⟩
  · exact .inl ⟨id, hid, by simp [Store.add, heq]⟩
  · rw [hs.tableNum] at hpush
    refine .inr (.inl ⟨hnew, t, hpush, ?_, by simp [Store.add, heq]⟩)
    refine ⟨ht, hpush.tableNum.trans hs.tableNum, hpush.joinNum.trans hs.joinNum, fun {id d} hd => ?_⟩
    rcases hpush.extends.getElem?_cases hd with hd | ⟨_, rfl⟩
    · exact hs.faithful hd
    · exact ⟨hc.shape, hc.mem_extensions⟩
  · rw [hs.tableNum] at hf heq
    refine .inr (.inr ⟨_, ⟨m, c.members, hne, ⟨hs.shape hm, hs.size_le hm⟩, ⟨hc.shape, hw⟩, hf, rfl⟩, ?_⟩)
    simp [Store.add, heq, hf]

/-- **Adding a faithful combination keeps the store sound and stores its members.** -/
theorem add (hs : s.Sound nodes k) (hc : c.Faithful nodes) (hmemo : c.memo = none) (hw : c.width ≤ k) (phase : Phase) :
    Settles (Clash nodes k) (s.add phase c) fun r =>
      r.1.Sound nodes k ∧ Extends (·.members = c.members) s r.1 ∧ r.1.At r.2.1 c.members := by
  rcases hs.add_cases hc hmemo hw phase with ⟨id, hid, heq⟩ | ⟨_, t, hpush, ht, heq⟩ | ⟨e, he, heq⟩
  · rw [heq]
    exact ⟨hs, .refl _ s, hid⟩
  · rw [heq]
    exact ⟨ht, hpush.extends.mono fun d hd => by simp [hd], hpush.at_iff.2 (.inr ⟨rfl, rfl⟩)⟩
  · rw [heq]
    exact he

/-- **A loop over a list in a run.** Each round keeps the store sound, appends combinations with `P` only, and leaves
its element done; what is done stays done. -/
theorem foldlM {α : Type} {f : Store → α → Except PlanError Store} {P : Combination → Prop} {D : α → Store → Prop}
    {as : List α} (hs : s.Sound nodes k) (hD : ∀ {a t u}, D a t → Extends P t u → D a u)
    (hf : ∀ a ∈ as, ∀ t : Store, t.Sound nodes k → Extends P s t →
      Settles (Clash nodes k) (f t a) fun u => u.Sound nodes k ∧ Extends P t u ∧ D a u) :
    Settles (Clash nodes k) (as.foldlM f s) fun u => u.Sound nodes k ∧ Extends P s u ∧ ∀ a ∈ as, D a u := by
  refine (Settles.foldlM (I := fun t => t.Sound nodes k ∧ Extends P s t) (R := Extends P) (D := D) (.refl P) .trans hD
    (fun a ha t ht => (hf a ha t ht.1 ht.2).mono fun u hu => ?_) ⟨hs, .refl P s⟩).mono fun u hu => ?_
  · exact ⟨⟨hu.1, ht.2.trans hu.2.1⟩, hu.2.1, hu.2.2⟩
  · exact ⟨hu.1.1, hu.2.1, hu.2.2⟩

end Sound
end Store
end JoinShapes
