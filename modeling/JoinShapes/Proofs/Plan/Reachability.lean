import JoinShapes.Proofs.Plan.Contents

/-!
# Following the entries of a plan

An entry of a table or of a joined table names a wider joined table, which has entries of its own. One or more such
steps lead to exactly the joined tables that hold the tables of the start and others besides (`reaches_iff`). A single
table is enough for each step: the set of the goal is connected, so one of the tables that are still missing is next to
those already there (`PlanFor.reaches_of_ssubset`). As every step widens the set, no chain of steps goes on for ever.
-/

namespace JoinShapes
namespace Plan

variable {s : Schema} {k : Nat} {p : Plan} {i j j' : JoinedTable} {rs : List RefJoinedTable} {S O H : Finset String}

/-- One of the entries names the joined table `j` of the plan. -/
def Names (p : Plan) (rs : List RefJoinedTable) (j : JoinedTable) : Prop :=
  ∃ r ∈ rs, p.joinedTable? r.joinedTable = some j

/-- The entries lead to the joined table `j` in one or more steps. -/
inductive Reaches (p : Plan) : List RefJoinedTable → JoinedTable → Prop
  /-- To a joined table that an entry names. -/
  | step {rs : List RefJoinedTable} {j : JoinedTable} : p.Names rs j → Reaches p rs j
  /-- To one that is reached from there. -/
  | onward {rs : List RefJoinedTable} {i j : JoinedTable} :
    p.Names rs i → Reaches p i.refJoinedTables j → Reaches p rs j

/-! ## Sets on the way -/

theorem isJoinable_singleton {a : String} (ha : ∃ t ∈ s.tables, t.name = a) : s.IsJoinable {a} where
  named b hb := Finset.mem_singleton.1 hb ▸ ha
  connected := by
    rw [Finset.coe_singleton]
    exact connectedBy_singleton a

/-- **Joining a group gives a set with a record.** -/
theorem CanJoin.recorded (h : CanJoin s k O H) (hO : s.IsJoinable O) : Recorded s k (O ∪ H) := by
  obtain ⟨a, ha, b, hb, hab⟩ := h.adjacent
  have hcard : (O ∪ H).card = O.card + H.card := Finset.card_union_of_disjoint h.disjoint
  have hOpos := Finset.card_pos.2 ⟨a, ha⟩
  have hHpos := Finset.card_pos.2 ⟨b, hb⟩
  refine ⟨⟨fun c hc => ?_, ?_⟩, by omega, hcard ▸ h.fits⟩
  · exact (Finset.mem_union.1 hc).elim (hO.named c) (h.joinable.named c)
  · rw [Finset.coe_union]
    exact hO.connected.union h.joinable.connected ha hb hab

/-- Joining a group widens the owner. -/
theorem CanJoin.ssubset_union (h : CanJoin s k O H) : O ⊂ O ∪ H := by
  obtain ⟨_, _, b, hb, _⟩ := h.adjacent
  refine Finset.ssubset_iff_subset_ne.2 ⟨Finset.subset_union_left, fun he => ?_⟩
  have hbO : b ∈ O := he ▸ Finset.mem_union_right O hb
  exact Finset.disjoint_left.1 h.disjoint hbO hb

/-- **A single missing table can be joined** on the way to a wider joinable set. -/
theorem exists_canJoin_singleton (hS : Recorded s k S) (hO : O.Nonempty) (hOS : O ⊂ S) :
    ∃ b ∈ S, CanJoin s k O {b} := by
  obtain ⟨a, ha, b, ⟨hbS, hbO⟩, hab⟩ :=
    hS.joinable.connected.exists_crossing (Finset.coe_nonempty.2 hO) (Finset.coe_ssubset.2 hOS)
  have hlt := Finset.card_lt_card hOS
  have hle := hS.le
  refine ⟨b, hbS, isJoinable_singleton (hS.joinable.named b hbS), ?_, ⟨a, ha, b, Finset.mem_singleton_self b, hab⟩, ?_⟩
  · exact Finset.disjoint_singleton_right.2 hbO
  · rw [Finset.card_singleton]
    omega

theorem Recorded.nonempty (h : Recorded s k S) : S.Nonempty :=
  Finset.card_pos.1 (Nat.lt_of_lt_of_le Nat.two_pos h.two_le)

namespace PlanFor

/-! ## Names -/

/-- **A set is recorded under its own name.** -/
theorem joinedTableFor_of_name (hp : PlanFor s k p) (hS : Recorded s k S) (hj : j ∈ p.joinedTables)
    (hname : j.name = JoinedName.ofTables S.sort) : JoinedTableFor s k S j := by
  obtain ⟨T, hT, hrecord⟩ := hp.sound hj
  have hsame : T = S := Schema.eq_of_ofTables_sort_eq hT.joinable.named hS.joinable.named hT.nonempty hS.nonempty
    (hrecord.name.symm.trans hname)
  rwa [hsame] at hrecord

/-- **A joined table is found by its name.** -/
theorem joinedTable?_eq_some_iff (hp : PlanFor s k p) (hS : Recorded s k S) :
    p.joinedTable? (JoinedName.ofTables S.sort) = some j ↔ j ∈ p.joinedTables ∧ JoinedTableFor s k S j := by
  constructor
  · intro h
    have hj := List.mem_of_find?_eq_some h
    have hname : j.name = JoinedName.ofTables S.sort := by simpa using List.find?_some h
    exact ⟨hj, hp.joinedTableFor_of_name hS hj hname⟩
  · rintro ⟨hj, hrecord⟩
    obtain ⟨j', hj', hfound, hname⟩ := exists_find?_eq_some (f := JoinedTable.name) hj
    have hrecord' := hp.joinedTableFor_of_name hS hj' (hname.trans hrecord.name)
    rw [joinedTable?, ← hrecord.name, hfound, hrecord'.unique hrecord]

/-- **The joined tables that an owner names** are those of the groups that can be joined to it. -/
theorem names_iff (hp : PlanFor s k p) (hO : s.IsJoinable O) (hrs : EntriesFor s k O rs) :
    p.Names rs j ↔ ∃ H, CanJoin s k O H ∧ j ∈ p.joinedTables ∧ JoinedTableFor s k (O ∪ H) j := by
  constructor
  · rintro ⟨r, hr, hfound⟩
    obtain ⟨H, hH, rfl⟩ := hrs.mem_iff.1 hr
    exact ⟨H, hH, (hp.joinedTable?_eq_some_iff (hH.recorded hO)).1 hfound⟩
  · rintro ⟨H, hH, hj⟩
    exact ⟨groupEntry O H, hrs.mem_iff.2 ⟨H, hH, rfl⟩, (hp.joinedTable?_eq_some_iff (hH.recorded hO)).2 hj⟩

/-! ## Steps -/

/-- **One step leads to a wider set.** -/
theorem ssubset_of_names (hp : PlanFor s k p) (hO : s.IsJoinable O) (hrs : EntriesFor s k O rs) (h : p.Names rs j) :
    ∃ S, Recorded s k S ∧ JoinedTableFor s k S j ∧ O ⊂ S := by
  obtain ⟨H, hH, _, hrecord⟩ := (hp.names_iff hO hrs).1 h
  exact ⟨O ∪ H, hH.recorded hO, hrecord, hH.ssubset_union⟩

/-- **Several steps lead to a wider set.** -/
theorem ssubset_of_reaches (hp : PlanFor s k p) (h : p.Reaches rs j) (hO : s.IsJoinable O)
    (hrs : EntriesFor s k O rs) : O ⊂ j.tables.toFinset := by
  induction h generalizing O with
  | step hnames =>
    obtain ⟨S, _, hrecord, hOS⟩ := hp.ssubset_of_names hO hrs hnames
    rwa [hrecord.toFinset_tables]
  | onward hnames _ ih =>
    obtain ⟨S, hS, hrecord, hOS⟩ := hp.ssubset_of_names hO hrs hnames
    exact hOS.trans (ih hS.joinable hrecord.refJoinedTables)

/-- **Every wider set is reached**, one table after the other. -/
theorem reaches_of_ssubset (hp : PlanFor s k p) (hS : Recorded s k S) (hrecord : JoinedTableFor s k S j)
    (hO : s.IsJoinable O) (hne : O.Nonempty) (hrs : EntriesFor s k O rs) (hOS : O ⊂ S) : p.Reaches rs j := by
  -- The induction is on the number of tables that are missing.
  induction hn : S.card - O.card generalizing O rs with
  | zero =>
    have hlt := Finset.card_lt_card hOS
    omega
  | succ n ih =>
    obtain ⟨b, hb, hjoin⟩ := exists_canJoin_singleton hS hne hOS
    have hnext := hjoin.recorded hO
    obtain ⟨i, hi, hirecord⟩ := hp.complete hnext
    have hnames : p.Names rs i := (hp.names_iff hO hrs).2 ⟨{b}, hjoin, hi, hirecord⟩
    have hsub : O ∪ {b} ⊆ S := Finset.union_subset hOS.subset (Finset.singleton_subset_iff.2 hb)
    rcases eq_or_ssubset_of_subset hsub with hall | hmore
    · rw [hall] at hirecord
      rw [hrecord.unique hirecord]
      exact .step hnames
    · have hcard : (O ∪ {b}).card = O.card + 1 := by
        rw [Finset.card_union_of_disjoint hjoin.disjoint, Finset.card_singleton]
      exact .onward hnames (ih hnext.joinable hnext.nonempty hirecord.refJoinedTables hmore (by omega))

/-- **Wider sets are what is reached.** -/
theorem reaches_iff_ssubset (hp : PlanFor s k p) (hj : j ∈ p.joinedTables) (hO : s.IsJoinable O) (hne : O.Nonempty)
    (hrs : EntriesFor s k O rs) : p.Reaches rs j ↔ O ⊂ j.tables.toFinset := by
  obtain ⟨S, hS, hrecord⟩ := hp.sound hj
  refine ⟨fun h => hp.ssubset_of_reaches h hO hrs, fun h => ?_⟩
  rw [hrecord.toFinset_tables] at h
  exact hp.reaches_of_ssubset hS hrecord hO hne hrs h

/-- From a table its own joined tables are reached. -/
theorem reaches_iff_mem (hp : PlanFor s k p) {r : PlannedTable} (hr : r ∈ p.tables) (hj : j ∈ p.joinedTables) :
    p.Reaches r.refJoinedTables j ↔ r.name ∈ j.tables := by
  obtain ⟨t, ht, htable⟩ := exists_mem_left_of_forall₂ hp.tables hr
  obtain ⟨S, hS, hrecord⟩ := hp.sound hj
  rw [hp.reaches_iff_ssubset hj (isJoinable_singleton ⟨t, ht, rfl⟩) (Finset.singleton_nonempty _)
    htable.refJoinedTables, htable.name, ← List.mem_toFinset, hrecord.toFinset_tables]
  constructor
  · intro h
    exact h.subset (Finset.mem_singleton_self _)
  · intro h
    refine Finset.ssubset_iff_subset_ne.2 ⟨Finset.singleton_subset_iff.2 h, fun he => ?_⟩
    have hwidth := hS.two_le
    rw [← he, Finset.card_singleton] at hwidth
    omega

/-- Along a chain of steps the sets grow with its length. -/
theorem le_card_of_chain (hp : PlanFor s k p) {chain : Nat → JoinedTable}
    (h : ∀ n, p.Names (chain n).refJoinedTables (chain (n + 1))) (n : Nat) :
    ∃ S, Recorded s k S ∧ JoinedTableFor s k S (chain (n + 1)) ∧ n ≤ S.card := by
  induction n with
  | zero =>
    obtain ⟨r, _, hfound⟩ := h 0
    obtain ⟨S, hS, hrecord⟩ := hp.sound (List.mem_of_find?_eq_some hfound)
    exact ⟨S, hS, hrecord, Nat.zero_le _⟩
  | succ n ih =>
    obtain ⟨O, hO, hrecord, hn⟩ := ih
    obtain ⟨S, hS, hrecord', hOS⟩ := hp.ssubset_of_names hO.joinable hrecord.refJoinedTables (h (n + 1))
    have hlt := Finset.card_lt_card hOS
    exact ⟨S, hS, hrecord', by omega⟩

end PlanFor

/-- **What is reached by following entries**: from a table the joined tables that it is a member of, and from a joined
table those that hold its members and others besides. Hence each joined table is reached from all of its members, and
no chain of entries goes on for ever. -/
theorem reaches_iff (hk : 1 ≤ k) (hp : (ofSchema s k).outcome = .ok p) :
    (∀ t ∈ p.tables, ∀ j ∈ p.joinedTables, p.Reaches t.refJoinedTables j ↔ t.name ∈ j.tables) ∧
    (∀ g ∈ p.joinedTables, ∀ j ∈ p.joinedTables,
      p.Reaches g.refJoinedTables j ↔ g.tables.toFinset ⊂ j.tables.toFinset) ∧
    (∀ j ∈ p.joinedTables, ∀ a ∈ j.tables, ∃ t ∈ p.tables, t.name = a ∧ p.Reaches t.refJoinedTables j) ∧
    ∀ chain : Nat → JoinedTable, ∃ n, ¬ p.Names (chain n).refJoinedTables (chain (n + 1)) := by
  have hplan := planFor_of_ofSchema_eq_ok hk hp
  refine ⟨fun t ht j hj => hplan.reaches_iff_mem ht hj, fun g hg j hj => ?_, fun j hj a ha => ?_, fun chain => ?_⟩
  · obtain ⟨O, hO, hrecord⟩ := hplan.sound hg
    rw [hplan.reaches_iff_ssubset hj hO.joinable hO.nonempty hrecord.refJoinedTables, hrecord.toFinset_tables]
  · obtain ⟨S, hS, hrecord⟩ := hplan.sound hj
    rw [← List.mem_toFinset, hrecord.toFinset_tables] at ha
    obtain ⟨t, ht, rfl⟩ := hS.joinable.named a ha
    obtain ⟨r, hr, htable⟩ := exists_mem_right_of_forall₂ hplan.tables ht
    refine ⟨r, hr, htable.name, (hplan.reaches_iff_mem hr hj).2 ?_⟩
    rwa [htable.name, ← List.mem_toFinset, hrecord.toFinset_tables]
  · by_contra hall
    push Not at hall
    obtain ⟨S, hS, _, hn⟩ := hplan.le_card_of_chain hall (k + 1)
    have hle := hS.le
    omega

/-- From books all three tables of the library are reached, though without books the others are not connected. -/
theorem library_reaches : 1 ≤ 3 ∧ ∃ p, (ofSchema library 3).outcome = .ok p ∧ ∃ j ∈ p.joinedTables,
    j.tables = ({"author", "book", "loan"} : Finset String).sort ∧
    ∃ t ∈ p.tables, t.name = "book" ∧ p.Reaches t.refJoinedTables j := by
  obtain ⟨p, hp⟩ := library_eq_ok
  obtain ⟨j, hj, hrecord⟩ := (planFor_of_ofSchema_eq_ok (by decide) hp).complete
    ⟨library_isJoinable_three, by decide, by decide⟩
  refine ⟨by decide, p, hp, j, hj, hrecord.tables, ?_⟩
  refine (reaches_iff (by decide) hp).2.2.1 j hj "book" ?_
  rw [hrecord.tables, Finset.mem_sort]
  decide

end Plan
end JoinShapes
