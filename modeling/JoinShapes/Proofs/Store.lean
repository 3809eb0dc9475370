import Std.Data.HashMap.Lemmas
import JoinShapes.Store
import JoinShapes.Proofs.IndexSet

/-!
# The store keeps its indexes in step

In a coherent store the positions that a look-up by fingerprint or by table and width gives are exactly those of the
combinations that it asks for (`Store.Coherent`). Inserting a combination whose fingerprint belongs to the store's
number of tables does one of three things (`Coherent.insert_cases`): it finds the combination of the same members, it
appends the combination and stays coherent, or it reports another combination of the same fingerprint. Positions never
change their combination (`Store.Extends`).
-/

namespace JoinShapes
namespace Store

variable {s t u : Store} {c : Combination} {m m' : IndexSet} {id id' : Nat}

/-- The combination at a position has the members `m`. -/
def At (s : Store) (id : Nat) (m : IndexSet) : Prop := ∃ c, s.combinations[id]? = some c ∧ c.members = m

/-- A combination of the members `m` is stored. -/
def Holds (s : Store) (m : IndexSet) : Prop := ∃ id, s.At id m

/-- The indexes of the store and the remembered fingerprints fit its combinations. -/
structure Coherent (s : Store) : Prop where
  memo : ∀ {id : Nat} {c : Combination}, s.combinations[id]? = some c →
    c.memo = some (.ofAscending s.tableNum c.members.toList)
  inside : ∀ {id m}, s.At id m → ∀ i ∈ m, i < s.tableNum
  width : ∀ {id m}, s.At id m → 0 < m.size ∧ m.size ≤ s.joinNum
  lookup : ∀ {f id}, s.lookup f = some id ↔ ∃ m, s.At id m ∧ .ofAscending s.tableNum m.toList = f
  cached : ∀ {i w id}, id ∈ s.cached i w ↔ ∃ m, s.At id m ∧ m.size = w ∧ i ∈ m

/-! ## Positions -/

theorem At.unique (h : s.At id m) (h' : s.At id m') : m = m' := by
  obtain ⟨c, hc, rfl⟩ := h
  obtain ⟨d, hd, rfl⟩ := h'
  rw [hc] at hd
  cases hd
  rfl

theorem At.lt_size (h : s.At id m) : id < s.size := by
  obtain ⟨c, hc, _⟩ := h
  exact (Array.getElem?_eq_some_iff.1 hc).1

theorem at_iff : s.At id m ↔ (s.combinations.toList.map (·.members))[id]? = some m := by
  simp [At]

/-- Every position below the size has a combination. -/
theorem exists_at_of_lt_size (h : id < s.size) : ∃ m, s.At id m :=
  ⟨_, _, Array.getElem?_eq_getElem h, rfl⟩

theorem get_eq_ok_iff {phase : Phase} : s.get phase id = .ok c ↔ s.combinations[id]? = some c := by
  rw [get]
  cases s.combinations[id]? <;> simp

/-- **Positions with one fingerprint are one position.** -/
theorem Coherent.eq_of_fingerprint_eq (hs : s.Coherent) (h : s.At id m) (h' : s.At id' m')
    (hf : Fingerprint.ofAscending s.tableNum m.toList = .ofAscending s.tableNum m'.toList) : id = id' := by
  have h1 := hs.lookup.2 ⟨m, h, rfl⟩
  have h2 := hs.lookup.2 ⟨m', h', hf.symm⟩
  rw [h1] at h2
  exact Option.some.inj h2

/-- **A set of members is stored at one position only.** -/
theorem Coherent.at_inj (hs : s.Coherent) (h : s.At id m) (h' : s.At id' m) : id = id' :=
  hs.eq_of_fingerprint_eq h h' rfl

theorem Coherent.nodup_members (hs : s.Coherent) : (s.combinations.toList.map (·.members)).Nodup := by
  rw [List.nodup_iff_getElem?_ne_getElem?]
  intro i j hij hj heq
  obtain ⟨m, hm⟩ : ∃ m, (s.combinations.toList.map (·.members))[j]? = some m := ⟨_, List.getElem?_eq_getElem hj⟩
  have hsame := hs.at_inj (at_iff.2 (heq.trans hm)) (at_iff.2 hm)
  omega

theorem Coherent.mem_cachedUpTo (hs : s.Coherent) {i w : Nat} :
    id ∈ s.cachedUpTo i w ↔ ∃ m, s.At id m ∧ m.size ≤ w ∧ i ∈ m := by
  simp only [cachedUpTo, List.mem_flatMap, List.mem_range'_1]
  constructor
  · rintro ⟨v, hv, hid⟩
    obtain ⟨m, hm, rfl, hi⟩ := hs.cached.1 hid
    exact ⟨m, hm, by omega, hi⟩
  · rintro ⟨m, hm, hw, hi⟩
    obtain ⟨hpos, hle⟩ := hs.width hm
    exact ⟨m.size, by omega, hs.cached.2 ⟨m, hm, rfl, hi⟩⟩

/-- A store without combinations is coherent. -/
theorem coherent_empty (tableNum joinNum : Nat) : (empty tableNum joinNum).Coherent where
  memo h := by simp [empty] at h
  inside h := by simp [At, empty] at h
  width h := by simp [At, empty] at h
  lookup := by simp [lookup, empty, At]
  cached := by simp [cached, empty, At]

/-- **There is no room** if the lists for the widths, or for the tables, take more than `2 ^ 63 - 1` bytes, at 24 bytes
each. -/
theorem not_hasRoom_iff {tableNum joinNum : Nat} : ¬ HasRoom tableNum joinNum ↔
    9223372036854775807 < 24 * joinNum ∨ 9223372036854775807 < 24 * tableNum := by
  rw [HasRoom, maxSlots]
  omega

/-- **Where there is room a run starts with no combinations.** -/
theorem new_eq_ok_iff {tableNum joinNum : Nat} :
    new tableNum joinNum = .ok s ↔ HasRoom tableNum joinNum ∧ s = empty tableNum joinNum := by
  rw [new]
  split <;> simp_all [eq_comm]

/-- Where there is none, it does not start. -/
theorem new_eq_error_iff {tableNum joinNum : Nat} {e : PlanError} :
    new tableNum joinNum = .error e ↔ e = .capacityOverflow ∧ ¬ HasRoom tableNum joinNum := by
  rw [new]
  split <;> simp_all [eq_comm]

/-! ## Listing -/

theorem mem_cached_list {w i v j : Nat} :
    id' ∈ (s.list w id i).cached j v ↔ id' ∈ s.cached j v ∨ id' = id ∧ v = w ∧ j = i := by
  simp only [cached, list, Std.HashMap.getElem?_alter, beq_iff_eq, Prod.mk.injEq]
  by_cases h : i = j ∧ w = v
  · obtain ⟨rfl, rfl⟩ := h
    cases s.byWidth[(i, w)]? <;> simp [IndexSet.mem_toList, or_comm]
  · have h' : ¬ (v = w ∧ j = i) := fun he => h ⟨he.2.symm, he.1.symm⟩
    simp [h, h']

theorem mem_cached_foldl_list {w v j : Nat} (is : List Nat) :
    id' ∈ (is.foldl (list · w id) s).cached j v ↔ id' ∈ s.cached j v ∨ id' = id ∧ v = w ∧ j ∈ is := by
  induction is generalizing s with
  | nil => simp
  | cons i is ih =>
    rw [List.foldl_cons, ih, mem_cached_list, List.mem_cons]
    tauto

/-- Listing touches only the index by width. -/
theorem foldl_list_frame (w id : Nat) (is : List Nat) :
    (is.foldl (list · w id) s).tableNum = s.tableNum ∧ (is.foldl (list · w id) s).joinNum = s.joinNum ∧
      (is.foldl (list · w id) s).combinations = s.combinations ∧
      (is.foldl (list · w id) s).byFingerprint = s.byFingerprint := by
  induction is generalizing s with
  | nil => exact ⟨rfl, rfl, rfl, rfl⟩
  | cons i is ih => exact ih

/-- Members of the schema are all listed. -/
theorem listMembers_of_lt (phase : Phase) (w id : Nat) {is : List Nat} (h : ∀ i ∈ is, i < s.tableNum) :
    s.listMembers phase w id is = (is.foldl (list · w id) s, .ok ()) := by
  induction is generalizing s with
  | nil => rfl
  | cons i is ih =>
    rw [listMembers, if_pos (h i List.mem_cons_self), List.foldl_cons]
    exact ih fun j hj => h j (List.mem_cons_of_mem _ hj)

/-! ## Insertion -/

/-- `t` is `s` with the combination `c` at the next position. -/
structure Pushes (s t : Store) (c : Combination) : Prop where
  tableNum : t.tableNum = s.tableNum
  joinNum : t.joinNum = s.joinNum
  combinations : t.combinations = s.combinations.push c

theorem Pushes.at_iff (h : s.Pushes t c) : t.At id m ↔ s.At id m ∨ id = s.size ∧ m = c.members := by
  have hsize : s.combinations.size = s.size := rfl
  simp only [At, h.combinations, Array.getElem?_push, hsize]
  by_cases hid : id = s.size
  · subst hid
    have hnone : s.combinations[s.size]? = none := Array.getElem?_eq_none (Nat.le_refl _)
    simp [hnone, eq_comm]
  · simp [hid]

/-- Listing the appended combination under its members keeps the index by width in step. -/
theorem Pushes.mem_cached (hpush : s.Pushes t c)
    (hwidth : t.byWidth = (c.members.toList.foldl (list · c.width s.size) s).byWidth)
    (hs : ∀ {i w id}, id ∈ s.cached i w ↔ ∃ m, s.At id m ∧ m.size = w ∧ i ∈ m) {i w : Nat} :
    id ∈ t.cached i w ↔ ∃ m, t.At id m ∧ m.size = w ∧ i ∈ m := by
  have hlist : id ∈ t.cached i w ↔ id ∈ (c.members.toList.foldl (list · c.width s.size) s).cached i w := by
    simp only [Store.cached, hwidth]
  rw [hlist, mem_cached_foldl_list, hs]
  simp only [hpush.at_iff]
  constructor
  · rintro (⟨m, h, hw, hi⟩ | ⟨rfl, rfl, hi⟩)
    · exact ⟨m, .inl h, hw, hi⟩
    · exact ⟨c.members, .inr ⟨rfl, rfl⟩, rfl, hi⟩
  · rintro ⟨m, h | ⟨rfl, rfl⟩, hw, hi⟩
    · exact .inl ⟨m, h, hw, hi⟩
    · exact .inr ⟨rfl, hw.symm, hi⟩

/-- Appending a combination with a fingerprint of its own keeps the store coherent. -/
theorem Coherent.push (hs : s.Coherent) (hpush : s.Pushes t (c.fingerprinted s.tableNum))
    (hmemo : c.fingerprint s.tableNum = .ofAscending s.tableNum c.members.toList)
    (hin : ∀ i ∈ c.members, i < s.tableNum) (hpos : 0 < c.width) (hle : c.width ≤ s.joinNum)
    (hnew : s.lookup (c.fingerprint s.tableNum) = none)
    (hfp : t.byFingerprint = s.byFingerprint.insert (c.fingerprint s.tableNum) s.size)
    (hwidth : t.byWidth = (c.members.toList.foldl (list · c.width s.size) s).byWidth) : t.Coherent where
  memo {id d} hd := by
    rw [hpush.combinations, Array.getElem?_push] at hd
    rw [hpush.tableNum]
    split at hd
    · cases hd
      simp [Combination.fingerprinted, hmemo]
    · exact hs.memo hd
  inside {id m} hm := by
    rw [hpush.tableNum]
    rcases hpush.at_iff.1 hm with h | ⟨_, rfl⟩
    · exact hs.inside h
    · exact hin
  width {id m} hm := by
    rw [hpush.joinNum]
    rcases hpush.at_iff.1 hm with h | ⟨_, rfl⟩
    · exact hs.width h
    · exact ⟨hpos, hle⟩
  lookup {f id} := by
    simp only [hpush.at_iff, hpush.tableNum, Store.lookup, hfp, Std.HashMap.getElem?_insert, beq_iff_eq]
    have hold : s.byFingerprint[f]? = some id ↔ _ := hs.lookup
    by_cases hf : c.fingerprint s.tableNum = f
    · have hno : ¬ ∃ m, s.At id m ∧ .ofAscending s.tableNum m.toList = f := fun h => by
        rw [← hs.lookup, ← hf, hnew] at h
        cases h
      rw [if_pos hf]
      constructor
      · rintro ⟨⟩
        exact ⟨c.members, .inr ⟨rfl, rfl⟩, by rw [← hmemo, hf]⟩
      · rintro ⟨m, h | ⟨rfl, _⟩, hm⟩
        · exact absurd ⟨m, h, hm⟩ hno
        · rfl
    · rw [if_neg hf, hold]
      constructor
      · rintro ⟨m, h, hm⟩
        exact ⟨m, .inl h, hm⟩
      · rintro ⟨m, h | ⟨_, rfl⟩, hm⟩
        · exact ⟨m, h, hm⟩
        · exact absurd (hmemo.trans hm) hf
  cached := hpush.mem_cached hwidth hs.cached

/-- A combination of tables with a width within the bound and a new fingerprint is appended. -/
theorem insert_of_lt (phase : Phase) (hwidth : ¬ (c.width = 0 ∨ s.joinNum < c.width))
    (hlook : s.lookup (c.fingerprint s.tableNum) = none) (hin : ∀ i ∈ c.members, i < s.tableNum) :
    ∃ t, s.Pushes t (c.fingerprinted s.tableNum) ∧
      t.byFingerprint = s.byFingerprint.insert (c.fingerprint s.tableNum) s.size ∧
      t.byWidth = (c.members.toList.foldl (list · c.width s.size) s).byWidth ∧
      s.insert phase c = (t, .ok (s.size, true)) := by
  have hlist := listMembers_of_lt phase c.width s.size hin
  obtain ⟨hn, hk, hc, hf⟩ := foldl_list_frame (s := s) c.width s.size c.members.toList
  generalize hl : c.members.toList.foldl (list · c.width s.size) s = l at hlist hn hk hc hf
  let t : Store := { l with
    combinations := l.combinations.push (c.fingerprinted l.tableNum)
    byFingerprint := l.byFingerprint.insert (c.fingerprint s.tableNum) s.size }
  refine ⟨t, ⟨hn, hk, by simp only [t, hc, hn]⟩, by simp only [t, hf], rfl, ?_⟩
  simp [Store.insert, hwidth, hlook, hlist, t]

/-- **What an insertion does**: it finds the members, appends the combination, or reports a collision. -/
theorem Coherent.insert_cases (hs : s.Coherent) (phase : Phase)
    (hmemo : c.fingerprint s.tableNum = .ofAscending s.tableNum c.members.toList)
    (hin : ∀ i ∈ c.members, i < s.tableNum) (hpos : 0 < c.width) (hle : c.width ≤ s.joinNum) :
    (∃ id, s.At id c.members ∧ s.insert phase c = (s, .ok (id, false))) ∨
    (¬ s.Holds c.members ∧ ∃ t, s.Pushes t (c.fingerprinted s.tableNum) ∧ t.Coherent ∧
      s.insert phase c = (t, .ok (s.size, true))) ∨
    (∃ id m, s.At id m ∧ m ≠ c.members ∧
      Fingerprint.ofAscending s.tableNum m.toList = .ofAscending s.tableNum c.members.toList ∧
      s.insert phase c = (s, .error (.collision (.ofAscending s.tableNum c.members.toList) m.toList
        c.members.toList))) := by
  have hwidth : ¬ (c.width = 0 ∨ s.joinNum < c.width) := by omega
  cases hlook : s.lookup (c.fingerprint s.tableNum) with
  | some id =>
    obtain ⟨m, ⟨d, hd, rfl⟩, hf⟩ := hs.lookup.1 hlook
    have hget : s.get phase id = .ok d := get_eq_ok_iff.2 hd
    by_cases hsame : d.members = c.members
    · exact .inl ⟨id, ⟨d, hd, hsame⟩, by simp [Store.insert, hwidth, hlook, hget, hsame]⟩
    · refine .inr (.inr ⟨id, d.members, ⟨d, hd, rfl⟩, hsame, by rw [hf, hmemo], ?_⟩)
      simp [Store.insert, hwidth, hlook, hget, hsame, ← hmemo]
  | none =>
    refine .inr (.inl ⟨fun ⟨id, hid⟩ => ?_, ?_⟩)
    · rw [hs.lookup.2 ⟨c.members, hid, hmemo.symm⟩] at hlook
      cases hlook
    · obtain ⟨t, hpush, hfp, hlisted, hins⟩ := insert_of_lt phase hwidth hlook hin
      exact ⟨t, hpush, hs.push hpush hmemo hin hpos hle hlook hfp hlisted, hins⟩

/-! ## Extension -/

/-- `t` has the combinations of `s` at their positions, and after them only such as have `P`. -/
structure Extends (P : Combination → Prop) (s t : Store) : Prop where
  tableNum : t.tableNum = s.tableNum
  joinNum : t.joinNum = s.joinNum
  appended : ∃ new : List Combination, t.combinations.toList = s.combinations.toList ++ new ∧ ∀ c ∈ new, P c

namespace Extends

variable {P Q : Combination → Prop}

theorem refl (P : Combination → Prop) (s : Store) : Extends P s s := ⟨rfl, rfl, [], by simp, by simp⟩

theorem trans (h : Extends P s t) (h' : Extends P t u) : Extends P s u := by
  obtain ⟨new, hnew, hP⟩ := h.appended
  obtain ⟨new', hnew', hP'⟩ := h'.appended
  refine ⟨h'.tableNum.trans h.tableNum, h'.joinNum.trans h.joinNum, new ++ new', by simp [hnew', hnew], ?_⟩
  intro c hc
  rcases List.mem_append.1 hc with hc | hc
  · exact hP c hc
  · exact hP' c hc

theorem mono (h : Extends P s t) (hPQ : ∀ c, P c → Q c) : Extends Q s t := by
  obtain ⟨new, hnew, hP⟩ := h.appended
  exact ⟨h.tableNum, h.joinNum, new, hnew, fun c hc => hPQ c (hP c hc)⟩

/-- A combination of `t` is one of `s`, or it comes after them and has `P`. -/
theorem getElem?_cases (h : Extends P s t) (hc : t.combinations[id]? = some c) :
    s.combinations[id]? = some c ∨ s.size ≤ id ∧ P c := by
  obtain ⟨new, hnew, hP⟩ := h.appended
  rw [← Array.getElem?_toList, hnew, List.getElem?_append] at hc
  split at hc
  · exact .inl (by rwa [Array.getElem?_toList] at hc)
  · exact .inr ⟨by simpa [size] using ‹¬ id < _›, hP c (List.mem_of_getElem? hc)⟩

theorem getElem?_mono (h : Extends P s t) (hc : s.combinations[id]? = some c) : t.combinations[id]? = some c := by
  obtain ⟨new, hnew, _⟩ := h.appended
  have hlt : id < s.combinations.toList.length := by simpa using (Array.getElem?_eq_some_iff.1 hc).1
  rw [← Array.getElem?_toList, hnew, List.getElem?_append_left hlt, Array.getElem?_toList, hc]

theorem at_mono (h : Extends P s t) (hm : s.At id m) : t.At id m := by
  obtain ⟨c, hc, rfl⟩ := hm
  exact ⟨c, h.getElem?_mono hc, rfl⟩

theorem holds_mono (h : Extends P s t) (hm : s.Holds m) : t.Holds m :=
  hm.imp fun _ => h.at_mono

/-- More can be known of the appended combinations by where they stand. -/
theorem appends (h : Extends P s t) (hQ : ∀ id c, s.size ≤ id → t.combinations[id]? = some c → Q c) :
    Extends Q s t := by
  obtain ⟨new, hnew, _⟩ := h.appended
  refine ⟨h.tableNum, h.joinNum, new, hnew, fun c hc => ?_⟩
  obtain ⟨i, hi⟩ := List.mem_iff_getElem?.1 hc
  refine hQ (s.combinations.toList.length + i) c (Nat.le_add_right _ _) ?_
  rw [← Array.getElem?_toList, hnew, List.getElem?_append_right (Nat.le_add_right _ _), Nat.add_sub_cancel_left, hi]

/-- **What is appended was not stored before.** -/
theorem not_holds (h : Extends P s t) (ht : t.Coherent) (hm : t.At id m) (hid : s.size ≤ id) : ¬ s.Holds m := by
  rintro ⟨id', hid'⟩
  have hsame := ht.at_inj hm (h.at_mono hid')
  have hlt := hid'.lt_size
  omega

/-- A store that cannot be extended stays the same. -/
theorem combinations_eq (h : Extends (fun _ => False) s t) : t.combinations = s.combinations := by
  obtain ⟨new, hnew, hnone⟩ := h.appended
  rw [List.eq_nil_iff_forall_not_mem.2 hnone, List.append_nil] at hnew
  exact Array.toList_inj.1 hnew

end Extends

theorem Pushes.extends (h : s.Pushes t c) : Extends (· = c) s t :=
  ⟨h.tableNum, h.joinNum, [c], by simp [h.combinations], by simp⟩

end Store
end JoinShapes
