import JoinShapes.Proofs.Plan.Contents

/-!
# Narrower plans

A plan for joins of up to `k` tables is what a wider plan says about up to `k` tables (`Plan.truncate`,
`ofSchema_truncate`). As records and entries are ordered by width first, what is left out stands at the end of its list.
The narrower run has a result whenever the wider one has, because sets that collide within the narrower bound collide
within the wider one, too.
-/

namespace JoinShapes

/-- The entries that lead to at most `k` tables. -/
def RefJoinedTable.upTo (k : Nat) (rs : List RefJoinedTable) : List RefJoinedTable := rs.filter (·.width ≤ k)

/-- The record with the entries that lead to at most `k` tables. -/
def PlannedTable.upTo (k : Nat) (r : PlannedTable) : PlannedTable :=
  { r with refJoinedTables := RefJoinedTable.upTo k r.refJoinedTables }

/-- The record with the entries that lead to at most `k` tables. -/
def JoinedTable.upTo (k : Nat) (j : JoinedTable) : JoinedTable :=
  { j with refJoinedTables := RefJoinedTable.upTo k j.refJoinedTables }

namespace Plan

/-- What a plan says about joins of up to `k` tables. -/
def truncate (k : Nat) (p : Plan) : Plan where
  name := p.name
  joinNum := k
  tables := p.tables.map (·.upTo k)
  joinedTables := (p.joinedTables.filter (·.width ≤ k)).map (·.upTo k)

variable {s : Schema} {k l : Nat} {p : Plan} {j : JoinedTable} {r : PlannedTable} {rs : List RefJoinedTable}
variable {a b m : IndexSet} {S O H : Finset String} {t : TableSchema}

/-! ## Bounds -/

theorem JoinableAt.mono (h : JoinableAt s k m) (hkl : k ≤ l) : JoinableAt s l m :=
  ⟨h.inside, h.joinable, h.fits.trans hkl⟩

theorem Collision.mono (h : Collision s k a b) (hkl : k ≤ l) : Collision s l a b :=
  ⟨h.ne, h.left.mono hkl, h.right.mono hkl, h.fingerprint⟩

/-- **A run within a bound that worked has a result.** -/
theorem exists_ofSchema_eq_ok (hk : 1 ≤ k) (hkl : k ≤ l) (hp : (ofSchema s l).outcome = .ok p) :
    ∃ q, (ofSchema s k).outcome = .ok q := by
  have hroom := hasRoom_of_ofSchema_eq_ok (hk.trans hkl) hp
  rcases ofSchema_cases s hk ⟨hkl.trans hroom.1, hroom.2⟩ with ⟨hok, _⟩ | ⟨a, b, hab, _⟩
  · exact hok
  · rcases ofSchema_cases s (hk.trans hkl) hroom with ⟨_, hno⟩ | ⟨_, _, _, herror⟩
    · exact absurd ⟨a, b, hab.mono hkl⟩ hno
    · rw [hp] at herror
      cases herror

theorem recorded_iff_of_le (hkl : k ≤ l) : Recorded s k S ↔ Recorded s l S ∧ S.card ≤ k :=
  ⟨fun h => ⟨⟨h.joinable, h.two_le, h.le.trans hkl⟩, h.le⟩, fun h => ⟨h.1.joinable, h.1.two_le, h.2⟩⟩

/-- The groups that can be joined within the narrower bound are those whose union with the owner is within it. -/
theorem canJoin_iff_of_le (hkl : k ≤ l) : CanJoin s k O H ↔ CanJoin s l O H ∧ (groupEntry O H).width ≤ k := by
  constructor
  · intro h
    refine ⟨⟨h.joinable, h.disjoint, h.adjacent, h.fits.trans hkl⟩, ?_⟩
    rw [groupEntry, Finset.card_union_of_disjoint h.disjoint]
    exact h.fits
  · rintro ⟨h, hle⟩
    rw [groupEntry, Finset.card_union_of_disjoint h.disjoint] at hle
    exact ⟨h.joinable, h.disjoint, h.adjacent, hle⟩

/-! ## Entries and records -/

theorem EntriesFor.upTo (h : EntriesFor s l O rs) (hkl : k ≤ l) : EntriesFor s k O (RefJoinedTable.upTo k rs) where
  mem_iff {e} := by
    rw [RefJoinedTable.upTo, List.mem_filter, h.mem_iff, decide_eq_true_iff]
    constructor
    · rintro ⟨⟨H, hH, rfl⟩, hle⟩
      exact ⟨H, (canJoin_iff_of_le hkl).2 ⟨hH, hle⟩, rfl⟩
    · rintro ⟨H, hH, rfl⟩
      obtain ⟨hH, hle⟩ := (canJoin_iff_of_le hkl).1 hH
      exact ⟨⟨H, hH, rfl⟩, hle⟩
  ascending := h.ascending.filter _

/-- **What is left out of a list of entries stands at its end.** -/
theorem EntriesFor.upTo_prefix (h : EntriesFor s l O rs) (k : Nat) : RefJoinedTable.upTo k rs <+: rs :=
  filter_width_prefix (w := RefJoinedTable.width) (t := fun r => r.joinedTable :: r.tables) h.ascending

theorem PlannedTableFor.upTo (h : PlannedTableFor s l t r) (hkl : k ≤ l) : PlannedTableFor s k t (r.upTo k) :=
  ⟨h.name, h.columns, h.primaryKey, h.foreignKeys, h.refTables, h.refJoinedTables.upTo hkl⟩

theorem JoinedTableFor.upTo (h : JoinedTableFor s l S j) (hkl : k ≤ l) : JoinedTableFor s k S (j.upTo k) :=
  ⟨h.name, h.tables, h.refTables, h.refJoinedTables.upTo hkl⟩

namespace PlanFor

/-- **Truncating a plan gives the plan for the narrower bound.** -/
theorem truncate (hp : PlanFor s l p) (hkl : k ≤ l) : PlanFor s k (p.truncate k) where
  name := hp.name
  joinNum := rfl
  tables := List.forall₂_map_right_iff.2 (hp.tables.imp fun _ _ h => h.upTo hkl)
  complete {S} hS := by
    obtain ⟨hS', hle⟩ := (recorded_iff_of_le hkl).1 hS
    obtain ⟨j, hj, hrecord⟩ := hp.complete hS'
    refine ⟨j.upTo k, List.mem_map.2 ⟨j, List.mem_filter.2 ⟨hj, ?_⟩, rfl⟩, hrecord.upTo hkl⟩
    simpa [hrecord.width] using hle
  sound {j'} hj' := by
    obtain ⟨j, hj, rfl⟩ := List.mem_map.1 hj'
    obtain ⟨hj, hle⟩ := List.mem_filter.1 hj
    obtain ⟨S, hS, hrecord⟩ := hp.sound hj
    have hcard : S.card ≤ k := by simpa [hrecord.width] using hle
    exact ⟨S, (recorded_iff_of_le hkl).2 ⟨hS, hcard⟩, hrecord.upTo hkl⟩
  ascending := List.pairwise_map.2 (hp.ascending.filter _)

theorem joinedTables_prefix (hp : PlanFor s l p) (k : Nat) :
    p.joinedTables.filter (·.width ≤ k) <+: p.joinedTables :=
  filter_width_prefix (w := JoinedTable.width) (t := JoinedTable.tables) hp.ascending

end PlanFor

/-- **A narrower plan is the start of a wider one**: if the run for `l` tables has a result, so has the run for any
fewer, and that is the wider plan without what joins more than `k` tables. In each list what is left out stands at the
end. -/
theorem ofSchema_truncate (hk : 1 ≤ k) (hkl : k ≤ l) (hp : (ofSchema s l).outcome = .ok p) :
    (ofSchema s k).outcome = .ok (p.truncate k) ∧
    (∀ r ∈ p.tables, RefJoinedTable.upTo k r.refJoinedTables <+: r.refJoinedTables) ∧
    (∀ j ∈ p.joinedTables, RefJoinedTable.upTo k j.refJoinedTables <+: j.refJoinedTables) ∧
    p.joinedTables.filter (·.width ≤ k) <+: p.joinedTables := by
  have hwide := planFor_of_ofSchema_eq_ok (hk.trans hkl) hp
  obtain ⟨q, hq⟩ := exists_ofSchema_eq_ok hk hkl hp
  have hsame : q = p.truncate k := (planFor_of_ofSchema_eq_ok hk hq).unique (hwide.truncate hkl)
  refine ⟨hsame ▸ hq, fun r hr => ?_, fun j hj => ?_, hwide.joinedTables_prefix k⟩
  · obtain ⟨t, _, hrecord⟩ := exists_mem_left_of_forall₂ hwide.tables hr
    exact hrecord.refJoinedTables.upTo_prefix k
  · obtain ⟨S, _, hrecord⟩ := hwide.sound hj
    exact hrecord.refJoinedTables.upTo_prefix k

/-- Joins of two tables of the library are those of its plan for three. -/
theorem library_truncate : 1 ≤ 2 ∧ 2 ≤ 3 ∧ ∃ p, (ofSchema library 3).outcome = .ok p ∧
    (ofSchema library 2).outcome = .ok (p.truncate 2) ∧ p.joinedTables.filter (·.width ≤ 2) <+: p.joinedTables := by
  obtain ⟨p, hp⟩ := library_eq_ok
  obtain ⟨hnarrow, _, _, hstart⟩ := ofSchema_truncate (k := 2) (by decide) (by decide) hp
  exact ⟨by decide, by decide, p, hp, hnarrow, hstart⟩

end Plan
end JoinShapes
