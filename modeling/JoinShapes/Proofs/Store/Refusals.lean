import JoinShapes.Proofs.Store.Insertions

/-!
# Insertions that fail

An insertion ends before its members are looked at (`Store.Stops`), appends the combination, or fails at the first
member that is no table (`insert_cases`). In the last case the members before that one are already listed under the next
position. So a failure leaves no trace exactly if it comes early or if these listings were there before
(`alike_iff_of_insert_eq_error`). In a run whose combinations never straddle the bound of the schema every failure is
without a trace, and what is listed is what is stored (`insertAll_atomic_iff`). Otherwise the position that is left
behind goes to the next combination, which need not hold the table (`straddling_misleads`).
-/

namespace JoinShapes

/-- Some of the members are among `n` tables and some are not. -/
def Combination.Straddles (c : Combination) (n : Nat) : Prop := (∃ i ∈ c.members, i < n) ∧ ∃ j ∈ c.members, n ≤ j

namespace Store

variable {s t : Store} {c : Combination} {calls : List (Phase × Combination)} {id n k i w : Nat} {is : List Nat}
variable {phase : Phase} {e : PlanError}

/-- The queries of both stores answer alike. -/
structure Alike (s t : Store) : Prop where
  size : t.size = s.size
  get : ∀ phase id, t.get phase id = s.get phase id
  lookup : ∀ f, t.lookup f = s.lookup f
  cached : ∀ i w, t.cached i w = s.cached i w
  cachedUpTo : ∀ i w, t.cachedUpTo i w = s.cachedUpTo i w

/-- An insertion of `c` ends before its members are looked at: its width is outside the bound, or its fingerprint is
known. -/
def Stops (s : Store) (c : Combination) : Prop :=
  (c.width = 0 ∨ s.joinNum < c.width) ∨ s.lookup (c.fingerprint s.tableNum) ≠ none

/-- The combinations listed under a table and a width are those stored that are so wide and hold the table. -/
structure InStep (s : Store) : Prop where
  mem_cached : ∀ {i w id}, id ∈ s.cached i w ↔ ∃ m, s.At id m ∧ m.size = w ∧ i ∈ m

/-! ## Listing some members -/

/-- The store after `id` was listed under all tables of `is` that come before the first that is none. -/
def listSome (s : Store) (w id : Nat) (is : List Nat) : Store :=
  (is.takeWhile (· < s.tableNum)).foldl (list · w id) s

/-- A member that is no table ends the listing, and those before it stay listed. -/
theorem listMembers_of_le (phase : Phase) (w id : Nat) (h : ∃ j ∈ is, s.tableNum ≤ j) :
    ∃ e, s.listMembers phase w id is = (s.listSome w id is, .error e) := by
  induction is generalizing s with
  | nil => simp at h
  | cons i is ih =>
    rw [listMembers, listSome, List.takeWhile_cons]
    by_cases hi : i < s.tableNum
    · rw [if_pos hi, if_pos (decide_eq_true hi)]
      obtain ⟨j, hj, hle⟩ := h
      have hmem : j ∈ is := by
        rcases List.mem_cons.1 hj with rfl | hj
        · omega
        · exact hj
      exact ih (s := s.list w id i) ⟨j, hmem, hle⟩
    · rw [if_neg hi, if_neg (by simpa using hi)]
      exact ⟨_, rfl⟩

/-- In ascending order the tables come before what is none. -/
theorem mem_takeWhile_lt (h : is.Pairwise (· < ·)) : i ∈ is.takeWhile (· < n) ↔ i ∈ is ∧ i < n := by
  induction is with
  | nil => simp
  | cons j is ih =>
    obtain ⟨hj, his⟩ := List.pairwise_cons.1 h
    rw [List.takeWhile_cons]
    by_cases hlt : j < n
    · rw [if_pos (decide_eq_true hlt), List.mem_cons, List.mem_cons, ih his]
      constructor
      · rintro (rfl | ⟨hi, hin⟩)
        · exact ⟨.inl rfl, hlt⟩
        · exact ⟨.inr hi, hin⟩
      · rintro ⟨rfl | hi, hin⟩
        · exact .inl rfl
        · exact .inr ⟨hi, hin⟩
    · rw [if_neg (by simpa using hlt)]
      constructor
      · intro hi
        cases hi
      · rintro ⟨hi, hin⟩
        rcases List.mem_cons.1 hi with rfl | hi
        · exact absurd hin hlt
        · have := hj i hi
          omega

theorem listSome_frame (s : Store) (w id : Nat) (is : List Nat) :
    (s.listSome w id is).tableNum = s.tableNum ∧ (s.listSome w id is).combinations = s.combinations ∧
      (s.listSome w id is).byFingerprint = s.byFingerprint := by
  obtain ⟨hn, _, hc, hf⟩ := foldl_list_frame (s := s) w id (is.takeWhile (· < s.tableNum))
  exact ⟨hn, hc, hf⟩

/-- **Listing changes what the queries answer**, unless all was listed before. -/
theorem alike_listSome_iff : Alike s (s.listSome w id is) ↔ ∀ i ∈ is.takeWhile (· < s.tableNum), id ∈ s.cached i w := by
  obtain ⟨_, hc, hf⟩ := s.listSome_frame w id is
  constructor
  · intro h i hi
    rw [← h.cached, listSome, mem_cached_foldl_list]
    exact .inr ⟨rfl, rfl, hi⟩
  · intro h
    have hcached : ∀ i v, (s.listSome w id is).cached i v = s.cached i v := by
      intro i v
      refine IndexSet.ascending_eq_of_mem_iff (cached_ascending _ i v) (cached_ascending s i v) ?_
      intro id'
      rw [listSome, mem_cached_foldl_list]
      constructor
      · rintro (hid | ⟨rfl, rfl, hi⟩)
        · exact hid
        · exact h i hi
      · exact .inl
    have hk : (s.listSome w id is).joinNum = s.joinNum := (foldl_list_frame w id _).2.1
    refine ⟨?_, ?_, ?_, hcached, ?_⟩
    · rw [size, size, hc]
    · intro phase id'
      rw [get, get, hc]
    · intro f
      rw [lookup, lookup, hf]
    · intro i v
      rw [cachedUpTo, cachedUpTo, hk, funext (hcached i)]

/-! ## One insertion -/

/-- **What one insertion can do to a store**, whatever the store and the combination. -/
theorem insert_cases (s : Store) (phase : Phase) (c : Combination) :
    (s.Stops c ∧ ∃ r, s.insert phase c = (s, r)) ∨
    (¬ s.Stops c ∧ (∀ i ∈ c.members, i < s.tableNum) ∧ ∃ t, s.Pushes t (c.fingerprinted s.tableNum) ∧
      t.byWidth = (c.members.toList.foldl (list · c.width s.size) s).byWidth ∧
      s.insert phase c = (t, .ok (s.size, true))) ∨
    (¬ s.Stops c ∧ (∃ j ∈ c.members, s.tableNum ≤ j) ∧
      ∃ e, s.insert phase c = (s.listSome c.width s.size c.members.toList, .error e)) := by
  by_cases hwidth : c.width = 0 ∨ s.joinNum < c.width
  · exact .inl ⟨.inl hwidth, _, by rw [insert, if_pos hwidth]⟩
  cases hlook : s.lookup (c.fingerprint s.tableNum) with
  | some id =>
    refine .inl ⟨.inr (by simp [hlook]), ?_⟩
    rw [insert, if_neg hwidth]
    simp only [hlook]
    split
    · exact ⟨_, rfl⟩
    · split <;> exact ⟨_, rfl⟩
  | none =>
    have hgo : ¬ s.Stops c := by
      rintro (h | h)
      · exact hwidth h
      · exact h hlook
    by_cases hin : ∀ i ∈ c.members, i < s.tableNum
    · obtain ⟨t, hpush, _, hlisted, hins⟩ := insert_of_lt phase hwidth hlook hin
      exact .inr (.inl ⟨hgo, hin, t, hpush, hlisted, hins⟩)
    · push Not at hin
      obtain ⟨e, he⟩ := listMembers_of_le phase c.width s.size hin
      refine .inr (.inr ⟨hgo, hin, e, ?_⟩)
      rw [insert, if_neg hwidth]
      simp only [hlook, he]

/-- **A failed insertion** stopped early, or it met a member that is no table and left those before it listed. -/
theorem insert_eq_error (h : s.insert phase c = (t, .error e)) :
    s.Stops c ∧ t = s ∨
    ¬ s.Stops c ∧ (∃ j ∈ c.members, s.tableNum ≤ j) ∧ t = s.listSome c.width s.size c.members.toList := by
  rcases s.insert_cases phase c with ⟨hstop, r, hins⟩ | ⟨_, _, _, _, _, hins⟩ | ⟨hgo, hout, _, hins⟩ <;>
    rw [hins] at h <;> cases h
  · exact .inl ⟨hstop, rfl⟩
  · exact .inr ⟨hgo, hout, rfl⟩

/-- **A failed insertion leaves no trace** if it stopped early, or if its tables are listed under the next position
already, and in no other case. -/
theorem alike_iff_of_insert_eq_error (h : s.insert phase c = (t, .error e)) :
    Alike s t ↔ s.Stops c ∨ ∀ i ∈ c.members, i < s.tableNum → s.size ∈ s.cached i c.width := by
  rcases insert_eq_error h with ⟨hstop, rfl⟩ | ⟨hgo, _, rfl⟩
  · exact iff_of_true ⟨rfl, fun _ _ => rfl, fun _ => rfl, fun _ _ => rfl, fun _ _ => rfl⟩ (.inl hstop)
  · rw [alike_listSome_iff, or_iff_right hgo]
    simp only [mem_takeWhile_lt c.members.ascending, IndexSet.mem_toList, and_imp]

theorem tableNum_insert (s : Store) (phase : Phase) (c : Combination) : (s.insert phase c).1.tableNum = s.tableNum := by
  rcases s.insert_cases phase c with ⟨_, _, hins⟩ | ⟨_, _, _, hpush, _, hins⟩ | ⟨_, _, _, hins⟩ <;> rw [hins]
  · exact hpush.tableNum
  · exact (s.listSome_frame _ _ _).1

/-! ## Runs -/

theorem tableNum_insertAll (s : Store) (calls : List (Phase × Combination)) :
    (s.insertAll calls).tableNum = s.tableNum := by
  induction calls generalizing s with
  | nil => rfl
  | cons call calls ih => exact (ih _).trans (s.tableNum_insert call.1 call.2)

namespace InStep

/-- The next position is not listed. -/
theorem size_notMem_cached (hs : s.InStep) : s.size ∉ s.cached i w := by
  intro h
  obtain ⟨_, hm, _⟩ := hs.mem_cached.1 h
  exact lt_irrefl _ hm.lt_size

/-- **A failed insertion leaves no trace** exactly if it stopped early or its members do not straddle the bound. -/
theorem eq_iff_of_insert_eq_error (hs : s.InStep) (h : s.insert phase c = (t, .error e)) :
    t = s ↔ s.Stops c ∨ ¬ c.Straddles s.tableNum := by
  rcases insert_eq_error h with ⟨hstop, rfl⟩ | ⟨hgo, hout, rfl⟩
  · exact iff_of_true rfl (.inl hstop)
  · rw [or_iff_right hgo]
    constructor
    · rintro heq ⟨⟨i, hi, hlt⟩, _⟩
      have hlisted : s.size ∈ (s.listSome c.width s.size c.members.toList).cached i c.width := by
        rw [listSome, mem_cached_foldl_list]
        exact .inr ⟨rfl, rfl, (mem_takeWhile_lt c.members.ascending).2 ⟨hi, hlt⟩⟩
      rw [heq] at hlisted
      exact hs.size_notMem_cached hlisted
    · intro hno
      have hnil : c.members.toList.takeWhile (· < s.tableNum) = [] := by
        refine List.eq_nil_iff_forall_not_mem.2 fun i hi => ?_
        obtain ⟨hmem, hlt⟩ := (mem_takeWhile_lt c.members.ascending).1 hi
        exact hno ⟨⟨i, hmem, hlt⟩, hout⟩
      rw [listSome, hnil, List.foldl_nil]

/-- **One insertion keeps the lists in step**, if the members do not straddle the bound. -/
theorem insert (hs : s.InStep) (phase : Phase) (hc : ¬ c.Straddles s.tableNum) : (s.insert phase c).1.InStep := by
  rcases s.insert_cases phase c with ⟨_, _, hins⟩ | ⟨_, _, t, hpush, hlisted, hins⟩ | ⟨_, _, e, hins⟩
  · rw [hins]
    exact hs
  · rw [hins]
    exact ⟨hpush.mem_cached hlisted hs.mem_cached⟩
  · have hsame := (hs.eq_iff_of_insert_eq_error hins).2 (.inr hc)
    rw [hins]
    exact hsame.symm ▸ hs

/-- **A run of insertions keeps the lists in step**, if no combination straddles the bound. -/
theorem insertAll (hs : s.InStep) (hcalls : ∀ call ∈ calls, ¬ call.2.Straddles s.tableNum) :
    (s.insertAll calls).InStep := by
  induction calls generalizing s with
  | nil => exact hs
  | cons call calls ih =>
    obtain ⟨hcall, hrest⟩ := List.forall_mem_cons.1 hcalls
    refine ih (hs.insert call.1 hcall) ?_
    rwa [tableNum_insert]

end InStep

/-- **When a failed insertion leaves no trace.** In every store that insertions lead to, whichever of them failed, a
failure keeps the combinations and the index by fingerprint. What the queries answer stays the same exactly if the
insertion stopped early or its tables were listed under the next position before. In a run without straddling
combinations that is so exactly if the failed one does not straddle either, or stopped early, and then all that is
listed is stored and holds the table. -/
theorem insertAll_atomic_iff (hs : (empty n k).insertAll calls = s) :
    (∀ phase c t e, s.insert phase c = (t, .error e) →
      t.combinations = s.combinations ∧ t.byFingerprint = s.byFingerprint ∧
      (Alike s t ↔ s.Stops c ∨ ∀ i ∈ c.members, i < n → s.size ∈ s.cached i c.width)) ∧
    ((∀ call ∈ calls, ¬ call.2.Straddles n) →
      (∀ phase c t e, s.insert phase c = (t, .error e) → (t = s ↔ s.Stops c ∨ ¬ c.Straddles n)) ∧
      ∀ i w id, id ∈ s.cached i w ↔ ∃ c, s.combinations[id]? = some c ∧ c.width = w ∧ i ∈ c.members) := by
  have hn : s.tableNum = n := hs ▸ tableNum_insertAll (empty n k) calls
  constructor
  · intro phase c t e h
    refine ⟨?_, ?_, hn ▸ alike_iff_of_insert_eq_error h⟩
    · rcases insert_eq_error h with ⟨_, rfl⟩ | ⟨_, _, rfl⟩
      · rfl
      · exact (s.listSome_frame _ _ _).2.1
    · rcases insert_eq_error h with ⟨_, rfl⟩ | ⟨_, _, rfl⟩
      · rfl
      · exact (s.listSome_frame _ _ _).2.2
  · intro hcalls
    have hstart : (empty n k).InStep := ⟨(coherent_empty n k).cached⟩
    have hstep : s.InStep := hs ▸ hstart.insertAll hcalls
    refine ⟨fun phase c t e h => hn ▸ hstep.eq_iff_of_insert_eq_error h, ?_⟩
    intro i w id
    exact hstep.mem_cached.trans exists_at_iff

/-! ## What a trace does -/

/-- One table of three, and a position outside. -/
def straddling : Combination := .ofParts ⟨[0, 3], by decide⟩ .empty

/-- The two other tables of the three. -/
def others : Combination := .ofParts ⟨[1, 2], by decide⟩ .empty

theorem straddling_insert {s : Store} (hn : s.tableNum = 3) (hk : s.joinNum = 2)
    (hlook : s.lookup (straddling.fingerprint 3) = none) :
    ∃ e, s.insert .growth straddling = (s.list 2 s.size 0, .error e) := by
  have hgo : ¬ s.Stops straddling := by
    rw [Stops, hk, hn, hlook]
    simp [straddling, Combination.ofParts, Combination.width, IndexSet.size]
  have hsome : s.listSome straddling.width s.size straddling.members.toList = s.list 2 s.size 0 := by
    rw [listSome, hn]
    rfl
  rcases s.insert_cases .growth straddling with ⟨hstop, _⟩ | ⟨_, hin, _⟩ | ⟨_, _, e, hins⟩
  · exact absurd hstop hgo
  · have hlt : 3 < s.tableNum := hin 3 (by decide)
    omega
  · exact ⟨e, hsome ▸ hins⟩

/-- **A trace misleads.** The table that a failed insertion left listed is listed for the next combination, which does
not hold it. -/
theorem straddling_misleads : ∃ t e u, (empty 3 2).insert .growth straddling = (t, .error e) ∧
    ¬ Alike (empty 3 2) t ∧ t.insert .growth others = (u, .ok (0, true)) ∧ 0 ∈ u.cached 0 2 ∧
    ∀ c, u.combinations[0]? = some c → 0 ∉ c.members := by
  obtain ⟨e, he⟩ := straddling_insert (s := empty 3 2) rfl rfl (by simp [lookup, empty])
  have hlisted : 0 ∈ ((empty 3 2).list 2 0 0).cached 0 2 := mem_cached_list.2 (.inr ⟨rfl, rfl, rfl⟩)
  have hbefore : 0 ∉ (empty 3 2).cached 0 2 := by simp [cached, empty]
  obtain ⟨u, hpush, _, hwidth, hins⟩ := insert_of_lt (s := (empty 3 2).list 2 0 0) (c := others) .growth (by decide)
    (by simp [lookup, list, empty]) (by decide)
  refine ⟨_, e, u, he, fun h => hbefore (h.cached 0 2 ▸ hlisted), hins, ?_, ?_⟩
  · have hmem : 0 ∈ (others.members.toList.foldl (list · others.width 0) ((empty 3 2).list 2 0 0)).cached 0 2 :=
      (mem_cached_foldl_list _).2 (.inl hlisted)
    rw [cached, hwidth]
    exact hmem
  · intro c hc
    rw [hpush.combinations] at hc
    cases hc
    decide

/-- When the same insertion fails again, it leaves nothing that was not there. -/
theorem straddling_again : ∃ s, (empty 3 2).insertAll [(.growth, straddling)] = s ∧
    ∃ t e, s.insert .growth straddling = (t, .error e) ∧ straddling.Straddles 3 ∧ Alike s t := by
  obtain ⟨e, he⟩ := straddling_insert (s := empty 3 2) rfl rfl (by simp [lookup, empty])
  have hs : (empty 3 2).insertAll [(.growth, straddling)] = (empty 3 2).list 2 0 0 := by
    rw [insertAll, List.foldl_cons, he]
    rfl
  obtain ⟨e', he'⟩ := straddling_insert (s := (empty 3 2).list 2 0 0) rfl rfl (by simp [lookup, list, empty])
  refine ⟨_, hs, _, e', he', ⟨⟨0, by decide, by decide⟩, 3, by decide, by decide⟩, ?_⟩
  refine ((insertAll_atomic_iff hs).1 _ _ _ _ he').2.2.2 (.inr fun i hi hlt => ?_)
  have hi0 : i = 0 := by
    rcases List.mem_cons.1 hi with rfl | hi
    · rfl
    · simp at hi
      omega
  subst hi0
  exact mem_cached_list.2 (.inr ⟨rfl, rfl, rfl⟩)

end Store
end JoinShapes
