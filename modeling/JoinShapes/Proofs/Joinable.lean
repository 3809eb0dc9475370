import JoinShapes.Proofs.Adjacency
import JoinShapes.Proofs.JoinedName

/-!
# Joinable sets of tables

A set of table names is joinable if foreign keys connect it, whichever of two tables declares one
(`Schema.IsJoinable`). Sets of names and sets of positions are the same thing (`Schema.exists_namesOf`,
`Schema.namesOf_inj`), and the shapes of the schema's nodes are the joinable sets (`Schema.isJoinable_namesOf`).
-/

namespace JoinShapes
namespace Schema

open TableNode (Adjacent Placed Notes)

variable {s : Schema} {m o p : IndexSet} {nodes : List TableNode} {S : Finset String} {i j k : Nat}

/-- A set of tables that foreign keys connect. -/
structure IsJoinable (s : Schema) (S : Finset String) : Prop where
  named : ∀ a ∈ S, ∃ t ∈ s.tables, t.name = a
  connected : ConnectedBy s.Refers (S : Set String)

/-- All elements are positions of the schema. -/
def Inside (s : Schema) (m : IndexSet) : Prop := ∀ i ∈ m, i < s.size

/-- The names of the tables at these positions. -/
def namesOf (s : Schema) (m : IndexSet) : Finset String := m.toFinset.image s.nameAt

theorem Inside.union (ho : s.Inside o) (hp : s.Inside p) : s.Inside (o.union p) :=
  fun i hi => (IndexSet.mem_union.1 hi).elim (ho i) (hp i)

theorem inside_singleton (hi : i < s.size) : s.Inside (.singleton i) := by
  intro j hj
  rwa [IndexSet.mem_singleton.1 hj]

theorem nameAt_injOn (hm : s.Inside m) : Set.InjOn s.nameAt m.toFinset := by
  intro i hi j hj h
  rw [Finset.mem_coe, IndexSet.mem_toFinset] at hi hj
  exact (nameAt_inj (hm i hi) (hm j hj)).1 h

theorem mem_namesOf {a : String} : a ∈ s.namesOf m ↔ ∃ i ∈ m, s.nameAt i = a := by
  simp [namesOf]

theorem nameAt_mem_namesOf (hm : s.Inside m) (hi : i < s.size) : s.nameAt i ∈ s.namesOf m ↔ i ∈ m := by
  rw [mem_namesOf]
  constructor
  · rintro ⟨j, hj, h⟩
    rwa [← (nameAt_inj (hm j hj) hi).1 h]
  · exact fun h => ⟨i, h, rfl⟩

/-- **Different sets of positions have different names.** -/
theorem namesOf_inj (ho : s.Inside o) (hp : s.Inside p) (h : s.namesOf o = s.namesOf p) : o = p := by
  refine IndexSet.ext fun i => ⟨fun hi => ?_, fun hi => ?_⟩
  · rwa [← nameAt_mem_namesOf hp (ho i hi), ← h, nameAt_mem_namesOf ho (ho i hi)]
  · rwa [← nameAt_mem_namesOf ho (hp i hi), h, nameAt_mem_namesOf hp (hp i hi)]

theorem card_namesOf (hm : s.Inside m) : (s.namesOf m).card = m.size := by
  rw [namesOf, Finset.card_image_of_injOn (nameAt_injOn hm), IndexSet.card_toFinset]

@[simp] theorem namesOf_singleton : s.namesOf (.singleton i) = {s.nameAt i} := by
  ext a
  simp [mem_namesOf, eq_comm]

@[simp] theorem namesOf_union : s.namesOf (o.union p) = s.namesOf o ∪ s.namesOf p := by
  ext a
  simp only [mem_namesOf, IndexSet.mem_union, Finset.mem_union, or_and_right, exists_or]

theorem disjoint_namesOf (ho : s.Inside o) (hp : s.Inside p) :
    Disjoint (s.namesOf o) (s.namesOf p) ↔ ∀ i, i ∈ o → i ∉ p := by
  rw [Finset.disjoint_left]
  constructor
  · intro h i hio hip
    exact h ((nameAt_mem_namesOf ho (ho i hio)).2 hio) ((nameAt_mem_namesOf hp (ho i hio)).2 hip)
  · intro h a hao hap
    obtain ⟨i, hi, rfl⟩ := mem_namesOf.1 hao
    exact h i hi ((nameAt_mem_namesOf hp (ho i hi)).1 hap)

/-- **Every set of table names is that of some positions.** -/
theorem exists_namesOf (h : ∀ a ∈ S, ∃ t ∈ s.tables, t.name = a) : ∃ m, s.Inside m ∧ s.namesOf m = S := by
  refine ⟨.ofList ((List.range s.size).filter (s.nameAt · ∈ S)), fun i hi => ?_, ?_⟩
  · rw [IndexSet.mem_ofList, List.mem_filter, List.mem_range] at hi
    exact hi.1
  · ext a
    simp only [mem_namesOf, IndexSet.mem_ofList, List.mem_filter, List.mem_range, decide_eq_true_eq]
    constructor
    · rintro ⟨i, ⟨_, hi⟩, rfl⟩
      exact hi
    · intro ha
      obtain ⟨i, hi, rfl⟩ := exists_nameAt_iff.1 (h a ha)
      exact ⟨i, ⟨hi, ha⟩, rfl⟩

theorem inside_of_isShape (h : Notes s.size s.RefersAt nodes) (hm : IsShape nodes m) : s.Inside m :=
  fun i hi => h.length ▸ hm.inside i hi

/-- **The shapes of the nodes are the joinable sets.** -/
theorem isJoinable_namesOf (h : Notes s.size s.RefersAt nodes) (hm : s.Inside m) :
    s.IsJoinable (s.namesOf m) ↔ IsShape nodes m := by
  have himage : (s.namesOf m : Set String) = s.nameAt '' m.carrier := by
    rw [namesOf, Finset.coe_image, IndexSet.coe_toFinset]
  have hinj : Set.InjOn s.nameAt m.carrier := IndexSet.coe_toFinset m ▸ nameAt_injOn hm
  have hconn : ConnectedBy s.Refers (s.namesOf m : Set String) ↔ ConnectedBy (Adjacent nodes) m.carrier := by
    rw [himage]
    refine connectedBy_image_iff hinj fun i hi j hj hij => ?_
    rw [h.adjacent_iff (hm i hi) (hm j hj), h.adjacent_iff (hm j hj) (hm i hi)]
    tauto
  constructor
  · intro hS
    exact ⟨fun i hi => h.length ▸ hm i hi, hconn.1 hS.connected⟩
  · intro hshape
    refine ⟨fun a ha => ?_, hconn.2 hshape.connected⟩
    obtain ⟨i, hi, rfl⟩ := mem_namesOf.1 ha
    exact exists_nameAt_iff.2 ⟨i, hm i hi, rfl⟩

/-! ## Lists of names -/

/-- The names of a set of positions in order. -/
theorem sorted_names (hm : s.Inside m) : JoinedName.sorted (m.toList.map s.nameAt) = (s.namesOf m).sort := by
  have hnodup : (m.toList.map s.nameAt).Nodup := by
    refine List.Nodup.map_on (fun i hi j hj h => ?_) m.nodup_toList
    exact (nameAt_inj (hm i hi) (hm j hj)).1 h
  rw [JoinedName.sorted_eq_sort hnodup]
  congr 1
  ext a
  simp [mem_namesOf, IndexSet.mem_toList]

/-- **The list of names determines the positions.** -/
theorem eq_of_sort_namesOf_eq (ho : s.Inside o) (hp : s.Inside p) (h : (s.namesOf o).sort = (s.namesOf p).sort) :
    o = p := by
  refine namesOf_inj ho hp ?_
  rw [← Finset.sort_toFinset (s.namesOf o) (· ≤ ·), h, Finset.sort_toFinset]

/-- **Groups with one joined name are one group.** -/
theorem eq_of_ofTables_sort_eq {S T : Finset String} (hS : ∀ a ∈ S, ∃ t ∈ s.tables, t.name = a)
    (hT : ∀ a ∈ T, ∃ t ∈ s.tables, t.name = a) (hne : S.Nonempty) (hne' : T.Nonempty)
    (h : JoinedName.ofTables S.sort = JoinedName.ofTables T.sort) : S = T := by
  have hvalid : ∀ {U : Finset String}, (∀ a ∈ U, ∃ t ∈ s.tables, t.name = a) →
      ∀ a ∈ U.sort, TableName.isValid a = true := by
    intro U hU a ha
    obtain ⟨t, ht, rfl⟩ := hU a (by simpa using ha)
    exact isValid_name ht
  have hsort : ∀ {U : Finset String}, U.Nonempty → U.sort ≠ [] := by
    intro U ⟨a, ha⟩ hnil
    have hmem : a ∈ U.sort := by simpa using ha
    simp [hnil] at hmem
  have hsorted := JoinedName.sorted_eq_of_ofTables_eq (hvalid hS) (hvalid hT) (hsort hne) (hsort hne') h
  have hperm : S.sort.Perm T.sort :=
    (JoinedName.sorted_perm _).symm.trans (hsorted ▸ JoinedName.sorted_perm _)
  rw [← Finset.sort_toFinset S (· ≤ ·), ← Finset.sort_toFinset T (· ≤ ·)]
  exact List.toFinset_eq_of_perm _ _ hperm

/-- So the joined name of some tables determines their positions. -/
theorem eq_of_ofTables_namesOf_eq (ho : s.Inside o) (hp : s.Inside p) (hne : 0 < o.size) (hne' : 0 < p.size)
    (h : JoinedName.ofTables (s.namesOf o).sort = JoinedName.ofTables (s.namesOf p).sort) : o = p := by
  have hnamed : ∀ {m}, s.Inside m → ∀ a ∈ s.namesOf m, ∃ t ∈ s.tables, t.name = a := by
    intro m hm a ha
    obtain ⟨i, hi, rfl⟩ := mem_namesOf.1 ha
    exact exists_nameAt_iff.2 ⟨i, hm i hi, rfl⟩
  have hnonempty : ∀ {m}, s.Inside m → 0 < m.size → (s.namesOf m).Nonempty := by
    intro m hm hpos
    rwa [← Finset.card_pos, card_namesOf hm]
  exact namesOf_inj ho hp (eq_of_ofTables_sort_eq (hnamed ho) (hnamed hp) (hnonempty ho hne) (hnonempty hp hne') h)

end Schema
end JoinShapes
