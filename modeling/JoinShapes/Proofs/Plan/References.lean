import JoinShapes.Plan.Assembly
import JoinShapes.Proofs.Joinable
import JoinShapes.Proofs.Plan.Order

/-!
# References across a boundary

The references of a joined table are those across the boundary of its members: one for each foreign key that has one
end among them and the other outside, to the table outside (`crossings`). They are looked for in two loops, over the
keys of the members and over those of the extensions. As the extensions are all tables next to a member, the loops meet
every such key, and none twice (`combinationReferences_eq`).
-/

namespace JoinShapes

/-- What contributes nothing may be left out of a list of different elements. -/
theorem flatMap_perm_of_subset {α β : Type} [DecidableEq α] {f : α → List β} {xs ys : List α} (hx : xs.Nodup)
    (hy : ys.Nodup) (hsub : ∀ a ∈ xs, a ∈ ys) (hrest : ∀ a ∈ ys, a ∉ xs → f a = []) :
    (xs.flatMap f).Perm (ys.flatMap f) := by
  have hinside : (ys.filter (· ∈ xs)).Perm xs := by
    refine (List.perm_ext_iff_of_nodup (hy.filter _) hx).2 fun a => ?_
    simpa using hsub a
  have houtside : (ys.filter fun a => !decide (a ∈ xs)).flatMap f = [] := by
    refine List.flatMap_eq_nil_iff.2 fun a ha => ?_
    obtain ⟨hay, hax⟩ := List.mem_filter.1 ha
    exact hrest a hay (by simpa using hax)
  have hsplit := (List.filter_append_perm (· ∈ xs) ys).flatMap_right f
  rw [List.flatMap_append, houtside, List.append_nil] at hsplit
  exact (hinside.flatMap_right f).symm.trans hsplit

namespace Plan

open TableNode (Adjacent Notes)

variable {s : Schema} {nodes : List TableNode} {c : Combination} {i j : Nat} {t : TableSchema} {fk : ForeignKey}
variable {S : Finset String}

/-- The reference that a foreign key of `t` makes across the boundary of `S`, to the table at its end outside. -/
def crossing? (S : Finset String) (t : TableSchema) (fk : ForeignKey) : Option RefTable :=
  if t.name ∈ S then if fk.refTable ∈ S then none else some (reference t.name fk fk.refTable)
  else if fk.refTable ∈ S then some (reference t.name fk t.name) else none

/-- The references that the foreign keys of one table make across the boundary of `S`. -/
def crossingsOf (S : Finset String) (t : TableSchema) : List RefTable := t.foreignKeys.filterMap (crossing? S t)

/-- The references across the boundary of `S`, one for each foreign key with one end inside. -/
def crossings (ts : List TableSchema) (S : Finset String) : List RefTable := ts.flatMap (crossingsOf S)

/-- The references that the table at a position makes across the boundary of `S`. -/
def crossingsAt (s : Schema) (S : Finset String) (i : Nat) : List RefTable := (s.tables[i]?.map (crossingsOf S)).getD []

/-- At a member the keys count that lead outside. -/
theorem crossingsOf_of_mem (h : t.name ∈ S) :
    crossingsOf S t = (t.foreignKeys.filter (·.refTable ∉ S)).map fun fk => reference t.name fk fk.refTable := by
  rw [crossingsOf, ← List.filterMap_eq_map, List.filterMap_filter]
  refine List.filterMap_congr fun fk _ => ?_
  by_cases hfk : fk.refTable ∈ S <;> simp [crossing?, h, hfk]

/-- At a table outside the keys count that lead to a member. -/
theorem crossingsOf_of_notMem (h : t.name ∉ S) :
    crossingsOf S t = (t.foreignKeys.filter (·.refTable ∈ S)).map fun fk => reference t.name fk t.name := by
  rw [crossingsOf, ← List.filterMap_eq_map, List.filterMap_filter]
  refine List.filterMap_congr fun fk _ => ?_
  by_cases hfk : fk.refTable ∈ S <;> simp [crossing?, h, hfk]

theorem crossingsAt_eq (ht : s.tables[i]? = some t) : crossingsAt s S i = crossingsOf S t := by
  simp [crossingsAt, ht]

theorem flatMap_crossingsAt (s : Schema) (S : Finset String) :
    (List.range s.size).flatMap (crossingsAt s S) = crossings s.tables S := by
  have hmap : (List.range s.size).map (crossingsAt s S) = s.tables.map (crossingsOf S) := by
    refine List.ext_getElem (by simp [Schema.size]) fun i hi hi' => ?_
    rw [List.getElem_map, List.getElem_map, List.getElem_range]
    exact crossingsAt_eq (List.getElem?_eq_getElem (by simpa using hi'))
  rw [crossings, List.flatMap_def, List.flatMap_def, hmap]

/-! ## Ends of a key -/

theorem tableAt_eq_ok (hi : i < s.size) : ∃ t, s.tables[i]? = some t ∧ tableAt s i = .ok t := by
  have ht := List.getElem?_eq_getElem hi
  exact ⟨_, ht, by rw [tableAt, ht]⟩

/-- A table is a member where its name is one of the members' names. -/
theorem mem_names_iff {m : IndexSet} (hm : s.Inside m) (ht : s.tables[i]? = some t) :
    t.name ∈ s.namesOf m ↔ i ∈ m := by
  rw [← Schema.nameAt_eq ht]
  exact Schema.nameAt_mem_namesOf hm (List.getElem?_eq_some_iff.1 ht).1

/-- The target of a foreign key of the table at `i` is the table at `j`. -/
structure Targets (s : Schema) (nodes : List TableNode) (i : Nat) (fk : ForeignKey) (j : Nat) : Prop where
  index : s.indexOf? fk.refTable = some j
  mem_names : ∀ {m}, s.Inside m → (fk.refTable ∈ s.namesOf m ↔ j ∈ m)
  own : ∀ {t}, s.tables[i]? = some t → (fk.refTable = t.name ↔ i = j)
  adjacent : i ≠ j → Adjacent nodes i j ∧ Adjacent nodes j i

/-- **Every foreign key has a target**, and the tables at its ends are adjacent if they are two. -/
theorem exists_targets (hnodes : Notes s.size s.RefersAt nodes) (ht : s.tables[i]? = some t)
    (hfk : fk ∈ t.foreignKeys) : ∃ j, Targets s nodes i fk j := by
  have hmem := List.mem_of_getElem? ht
  have hi : i < s.size := (List.getElem?_eq_some_iff.1 ht).1
  obtain ⟨j, hj, hname⟩ := Schema.exists_nameAt_iff.1 (Schema.exists_target hmem hfk)
  have hrefers : s.Refers (s.nameAt i) (s.nameAt j) :=
    ⟨t, hmem, (Schema.nameAt_eq ht).symm, fk, hfk, hname.symm⟩
  refine ⟨j, Schema.indexOf?_eq_some_iff.2 ⟨hj, hname⟩, fun hm => ?_, fun {u} hu => ?_, fun hij => ?_⟩
  · rw [← hname]
    exact Schema.nameAt_mem_namesOf hm hj
  · rw [← hname, ← Schema.nameAt_eq hu, Schema.nameAt_inj hj hi]
    exact eq_comm
  · exact ⟨(hnodes.adjacent_iff hi hj).2 ⟨hij, .inl hrefers⟩, (hnodes.adjacent_iff hj hi).2 ⟨hij.symm, .inr hrefers⟩⟩

/-! ## The two loops -/

/-- **The keys of a member**: those that lead to an extension are those that lead outside. -/
theorem referencesOut_eq (hnodes : Notes s.size s.RefersAt nodes) (hc : c.Faithful nodes) (hi : i ∈ c.members) :
    referencesOut s c i = .ok (crossingsAt s (s.namesOf c.members) i) := by
  have hm := Schema.inside_of_isShape hnodes hc.shape
  obtain ⟨t, ht, hok⟩ := tableAt_eq_ok (hm i hi)
  have hinside : t.name ∈ s.namesOf c.members := (mem_names_iff hm ht).2 hi
  have hkeys : t.foreignKeys.filter (·.refTable ∉ s.namesOf c.members) =
      t.outgoing.filter fun fk => (s.indexOf? fk.refTable).getD 0 ∈ c.extensions := by
    rw [TableSchema.outgoing, List.filter_filter]
    refine List.filter_congr fun fk hfk => ?_
    obtain ⟨j, hj⟩ := exists_targets hnodes ht hfk
    by_cases hij : i = j
    · have hown := (hj.own ht).2 hij
      simp [hown, hinside]
    · have hother : fk.refTable ≠ t.name := fun h => hij ((hj.own ht).1 h)
      have hnext : j ∈ c.extensions ↔ j ∉ c.members :=
        hc.mem_extensions.trans (and_iff_right ⟨i, hi, (hj.adjacent hij).1⟩)
      simp [hj.index, hj.mem_names hm, hother, hnext]
  rw [referencesOut, hok, ok_bind, mapM_eq_ok (g := fun fk => (fk, (s.indexOf? fk.refTable).getD 0))]
  · rw [ok_bind, crossingsAt_eq ht, crossingsOf_of_mem hinside, hkeys, List.filter_map, List.map_map]
    rfl
  · intro fk hfk
    obtain ⟨j, hj⟩ := Schema.exists_indexOf?_of_outgoing (List.mem_of_getElem? ht) hfk
    simp [hj]

/-- **The keys of an extension**: those that lead to a member. -/
theorem referencesIn_eq (hnodes : Notes s.size s.RefersAt nodes) (hc : c.Faithful nodes) (hi : i ∈ c.extensions) :
    referencesIn s c i = .ok (crossingsAt s (s.namesOf c.members) i) := by
  have hm := Schema.inside_of_isShape hnodes hc.shape
  obtain ⟨⟨a, _, ha⟩, hout⟩ := hc.mem_extensions.1 hi
  obtain ⟨t, ht, hok⟩ := tableAt_eq_ok (hnodes.length ▸ hnodes.placed.adjacent_lt ha)
  have houtside : t.name ∉ s.namesOf c.members := fun h => hout ((mem_names_iff hm ht).1 h)
  have hkeys : t.foreignKeys.filter (·.refTable ∈ s.namesOf c.members) =
      t.outgoing.filter fun fk => (s.indexOf? fk.refTable).any (· ∈ c.members) := by
    rw [TableSchema.outgoing, List.filter_filter]
    refine List.filter_congr fun fk hfk => ?_
    obtain ⟨j, hj⟩ := exists_targets hnodes ht hfk
    by_cases hij : i = j
    · have hown := (hj.own ht).2 hij
      simp [hown, houtside]
    · have hother : fk.refTable ≠ t.name := fun h => hij ((hj.own ht).1 h)
      simp [hj.index, hj.mem_names hm, hother]
  rw [referencesIn, hok, ok_bind, crossingsAt_eq ht, crossingsOf_of_notMem houtside, hkeys]
  rfl

/-- A table that is neither a member nor an extension has no key across the boundary. -/
theorem crossingsAt_eq_nil (hnodes : Notes s.size s.RefersAt nodes) (hc : c.Faithful nodes) (hlt : i < s.size)
    (hi : i ∉ c.members) (hi' : i ∉ c.extensions) : crossingsAt s (s.namesOf c.members) i = [] := by
  have hm := Schema.inside_of_isShape hnodes hc.shape
  obtain ⟨t, ht, _⟩ := tableAt_eq_ok hlt
  have houtside : t.name ∉ s.namesOf c.members := fun h => hi ((mem_names_iff hm ht).1 h)
  have hkeys : t.foreignKeys.filter (·.refTable ∈ s.namesOf c.members) = [] := by
    refine List.filter_eq_nil_iff.2 fun fk hfk hmem => ?_
    obtain ⟨j, hj⟩ := exists_targets hnodes ht hfk
    have hjm : j ∈ c.members := (hj.mem_names hm).1 (of_decide_eq_true hmem)
    have hij : i ≠ j := fun h => hi (h ▸ hjm)
    exact hi' (hc.mem_extensions.2 ⟨⟨j, hjm, (hj.adjacent hij).2⟩, hi⟩)
  rw [crossingsAt_eq ht, crossingsOf_of_notMem houtside, hkeys]
  rfl

/-- **The references of a combination are those across the boundary of its members**, in order. -/
theorem combinationReferences_eq (hnodes : Notes s.size s.RefersAt nodes) (hc : c.Faithful nodes) :
    combinationReferences s c = .ok (RefTable.sorted (crossings s.tables (s.namesOf c.members))) := by
  have hout : c.members.toList.mapM (referencesOut s c) = .ok _ :=
    mapM_eq_ok fun i hi => referencesOut_eq hnodes hc hi
  have hback : c.extensions.toList.mapM (referencesIn s c) = .ok _ :=
    mapM_eq_ok fun i hi => referencesIn_eq hnodes hc hi
  have hperm : ((c.members.toList ++ c.extensions.toList).flatMap (crossingsAt s (s.namesOf c.members))).Perm
      (crossings s.tables (s.namesOf c.members)) := by
    rw [← flatMap_crossingsAt]
    refine flatMap_perm_of_subset ?_ List.nodup_range ?_ ?_
    · refine List.nodup_append'.2 ⟨c.members.nodup_toList, c.extensions.nodup_toList, fun i hi hi' => ?_⟩
      exact (hc.mem_extensions.1 hi').2 hi
    · intro i hi
      rw [List.mem_range, ← hnodes.length]
      rcases List.mem_append.1 hi with hi | hi
      · exact hc.shape.inside i hi
      · obtain ⟨⟨a, _, ha⟩, _⟩ := hc.mem_extensions.1 hi
        exact hnodes.placed.adjacent_lt ha
    · intro i hi hnot
      rw [List.mem_append, not_or] at hnot
      exact crossingsAt_eq_nil hnodes hc (List.mem_range.1 hi) hnot.1 hnot.2
  rw [combinationReferences, hout, ok_bind, hback, ok_bind, ← RefTable.sorted_eq_of_perm hperm, List.flatMap_append,
    List.flatMap_def, List.flatMap_def]
  rfl

end Plan
end JoinShapes
