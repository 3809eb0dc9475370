import JoinShapes.Proofs.Plan.Run

/-!
# The records of a plan are exact

The joined tables of a plan are the joinable sets of several tables, each once and in order of width and members
(`Describes.exists_record`, `Describes.exists_shape`, `Describes.pairwise_lt`). The entries of a table or joined table
are the joinable groups apart from it that a foreign key joins to it and that fit into the bound, each once and in
order (`CanJoin`, `Lists.entriesExact`).
-/

namespace JoinShapes
namespace Plan

open JoinGraph (Partner Fits)
open TableNode (Adjacent Notes)

variable {s : Schema} {nodes : List TableNode} {k i : Nat} {m o q : IndexSet} {p : Plan} {j : JoinedTable}
variable {r : RefJoinedTable} {rs : List RefJoinedTable} {S O H : Finset String}

/-- In a list without repetition what is there is at one position. -/
theorem existsUnique_getElem? {α β : Type} {xs : List α} {f : α → β} {x : α} (h : (xs.map f).Nodup) (hx : x ∈ xs) :
    ∃! i : Nat, ∃ y, xs[i]? = some y ∧ f y = f x := by
  obtain ⟨i, hi⟩ := List.mem_iff_getElem?.1 hx
  refine ⟨i, ⟨x, hi, rfl⟩, ?_⟩
  rintro j ⟨y, hj, hyx⟩
  have hlt : i < (xs.map f).length := by
    rw [List.length_map]
    exact (List.getElem?_eq_some_iff.1 hi).1
  refine ((List.getElem?_inj hlt h).1 ?_).symm
  simp [hi, hj, hyx]

/-! ## Joined tables -/

namespace Describes

/-- Every joinable set of several tables has a record. -/
theorem exists_record (hd : Describes s nodes k p) (hnodes : Notes s.size s.RefersAt nodes) (hS : s.IsJoinable S)
    (hw : 2 ≤ S.card) (hk : S.card ≤ k) :
    ∃ m, s.namesOf m = S ∧ ∃ j ∈ p.joinedTables, CombinationRecord s nodes k m j := by
  obtain ⟨m, hin, rfl⟩ := Schema.exists_namesOf hS.named
  obtain ⟨ms, js, _, hms, hrecords, heq⟩ := hd.joinedTables
  rw [Schema.card_namesOf hin] at hw hk
  have hm : m ∈ ms := (hms m).2 ⟨(Schema.isJoinable_namesOf hnodes hin).1 hS, hw, hk⟩
  obtain ⟨j, hj, hrecord⟩ := exists_mem_right_of_forall₂ hrecords hm
  exact ⟨m, rfl, j, heq ▸ JoinedTable.mem_sorted.2 hj, hrecord⟩

/-- Every record is that of a joinable set of several tables. -/
theorem exists_shape (hd : Describes s nodes k p) (hj : j ∈ p.joinedTables) :
    ∃ m, (IsShape nodes m ∧ 2 ≤ m.size ∧ m.size ≤ k) ∧ CombinationRecord s nodes k m j := by
  obtain ⟨ms, js, _, hms, hrecords, heq⟩ := hd.joinedTables
  rw [heq, JoinedTable.mem_sorted] at hj
  obtain ⟨m, hm, hrecord⟩ := exists_mem_left_of_forall₂ hrecords hj
  exact ⟨m, (hms m).1 hm, hrecord⟩

/-- No two records have the same members. -/
theorem nodup_tables (hd : Describes s nodes k p) (hnodes : Notes s.size s.RefersAt nodes) :
    (p.joinedTables.map (·.tables)).Nodup := by
  obtain ⟨ms, js, hnodup, hms, hrecords, heq⟩ := hd.joinedTables
  have hmap : ms.map (fun m => (s.namesOf m).sort) = js.map (·.tables) := by
    rw [← List.forall₂_eq_eq_eq, List.forall₂_map_left_iff, List.forall₂_map_right_iff]
    exact hrecords.imp fun m j h => h.tables.symm
  rw [heq, JoinedTable.sorted, ((List.mergeSort_perm js _).map (·.tables)).nodup_iff, ← hmap]
  refine List.Nodup.map_on (fun m hm m' hm' h => ?_) hnodup
  exact Schema.eq_of_sort_namesOf_eq (Schema.inside_of_isShape hnodes ((hms m).1 hm).1)
    (Schema.inside_of_isShape hnodes ((hms m').1 hm').1) h

/-- The records are in strictly ascending order. -/
theorem pairwise_lt (hd : Describes s nodes k p) (hnodes : Notes s.size s.RefersAt nodes) :
    p.joinedTables.Pairwise fun a b => a.key < b.key := by
  have hnodup := hd.nodup_tables hnodes
  obtain ⟨_, js, _, _, _, heq⟩ := hd.joinedTables
  rw [heq, JoinedTable.sorted, ((List.mergeSort_perm js _).map (·.tables)).nodup_iff] at hnodup
  rw [heq]
  refine JoinedTable.pairwise_lt_sorted (List.Nodup.of_map (fun key => (ofLex key).2) ?_)
  rwa [List.map_map]

end Describes

/-! ## Entries -/

/-- The group `H` of tables can be joined to the owner `O` within `k` tables. -/
structure CanJoin (s : Schema) (k : Nat) (O H : Finset String) : Prop where
  joinable : s.IsJoinable H
  disjoint : Disjoint O H
  adjacent : ∃ a ∈ O, ∃ b ∈ H, s.Refers a b ∨ s.Refers b a
  fits : O.card + H.card ≤ k

/-- **The groups that can be joined are the partners.** -/
theorem canJoin_namesOf (hnodes : Notes s.size s.RefersAt nodes) (ho : s.Inside o) (hq : s.Inside q) :
    CanJoin s k (s.namesOf o) (s.namesOf q) ↔ Partner nodes k o q := by
  have hfits : (Disjoint (s.namesOf o) (s.namesOf q) ∧ (s.namesOf o).card + (s.namesOf q).card ≤ k) ↔ Fits k o q := by
    rw [Schema.disjoint_namesOf ho hq, Schema.card_namesOf ho, Schema.card_namesOf hq, Fits]
  have hadjacent : ∀ i ∈ o, ∀ j ∈ q, i ≠ j → (Adjacent nodes i j ↔
      s.Refers (s.nameAt i) (s.nameAt j) ∨ s.Refers (s.nameAt j) (s.nameAt i)) := by
    intro i hi j hj hij
    rw [hnodes.adjacent_iff (ho i hi) (hq j hj)]
    exact and_iff_right hij
  constructor
  · rintro ⟨hjoin, hdisj, ⟨a, ha, b, hb, hab⟩, hle⟩
    obtain ⟨i, hi, rfl⟩ := Schema.mem_namesOf.1 ha
    obtain ⟨j, hj, rfl⟩ := Schema.mem_namesOf.1 hb
    have hf := hfits.1 ⟨hdisj, hle⟩
    have hij : i ≠ j := fun h => hf.1 i hi (h ▸ hj)
    exact ⟨(Schema.isJoinable_namesOf hnodes hq).1 hjoin, hf, i, hi, j, hj, (hadjacent i hi j hj hij).2 hab⟩
  · rintro ⟨hshape, hf, i, hi, j, hj, hij⟩
    obtain ⟨hdisj, hle⟩ := hfits.2 hf
    have hne : i ≠ j := fun h => hf.1 i hi (h ▸ hj)
    exact ⟨(Schema.isJoinable_namesOf hnodes hq).2 hshape, hdisj, ⟨_, Schema.mem_namesOf.2 ⟨i, hi, rfl⟩, _,
      Schema.mem_namesOf.2 ⟨j, hj, rfl⟩, (hadjacent i hi j hj hne).1 hij⟩, hle⟩

/-- The single table of a group, if it is one. -/
theorem viaRefTable_entry {a : String} (hq : s.Inside q) : (entry s o q).viaRefTable = some a ↔ s.namesOf q = {a} := by
  rw [entry, ← Schema.card_namesOf hq]
  constructor
  · intro h
    split at h
    · rename_i hone
      obtain ⟨b, hb⟩ := Finset.card_eq_one.1 hone
      rw [hb, Finset.sort_singleton] at h
      cases h
      exact hb
    · cases h
  · intro h
    rw [h, if_pos (Finset.card_singleton a), Finset.sort_singleton]
    rfl

/-- The entries `rs` of the owner `O` in the plan `p` are exact. -/
structure EntriesExact (s : Schema) (k : Nat) (p : Plan) (O : Finset String) (rs : List RefJoinedTable) : Prop where
  /-- Each group that can be joined has one entry. -/
  complete : ∀ H, CanJoin s k O H → ∃! i : Nat, ∃ r, rs[i]? = some r ∧ r.tables = H.sort
  /-- Each entry is that of a group that can be joined. -/
  sound : ∀ r ∈ rs, ∃ H, CanJoin s k O H ∧ r.tables = H.sort ∧ r.width = O.card + H.card ∧
    (∃ j ∈ p.joinedTables, j.name = r.joinedTable ∧ j.tables = (O ∪ H).sort) ∧
    r.accessor = JoinedName.accessor r.tables ∧ ∀ a, r.viaRefTable = some a ↔ H = {a}
  ascending : rs.Pairwise fun a b => a.width < b.width ∨ a.width = b.width ∧
    (a.joinedTable < b.joinedTable ∨ a.joinedTable = b.joinedTable ∧ a.tables < b.tables)
  accessors : (rs.map (·.accessor)).Nodup

namespace Lists

/-- No two entries lead through the same group. -/
theorem nodup_tables (hl : Lists s nodes k o rs) (hnodes : Notes s.size s.RefersAt nodes) :
    (rs.map (·.tables)).Nodup := by
  obtain ⟨ps, hnodup, hps, rfl⟩ := hl
  rw [((RefJoinedTable.sorted_perm _).map (·.tables)).nodup_iff, List.map_map]
  refine List.Nodup.map_on (fun a ha b hb h => ?_) hnodup
  exact Schema.eq_of_sort_namesOf_eq (Schema.inside_of_isShape hnodes ((hps a).1 ha).shape)
    (Schema.inside_of_isShape hnodes ((hps b).1 hb).shape) h

/-- No two entries have the same method. -/
theorem nodup_accessors (hl : Lists s nodes k o rs) (hnodes : Notes s.size s.RefersAt nodes) :
    (rs.map (·.accessor)).Nodup := by
  obtain ⟨ps, hnodup, hps, rfl⟩ := hl
  rw [((RefJoinedTable.sorted_perm _).map (·.accessor)).nodup_iff, List.map_map]
  refine List.Nodup.map_on (fun a ha b hb h => ?_) hnodup
  exact partner_eq_of_accessor_eq hnodes ((hps a).1 ha).shape ((hps b).1 hb).shape h

theorem pairwise_lt (hl : Lists s nodes k o rs) (hnodes : Notes s.size s.RefersAt nodes) :
    rs.Pairwise fun a b => a.key < b.key := by
  have hnodup := hl.nodup_tables hnodes
  obtain ⟨ps, _, _, rfl⟩ := hl
  rw [((RefJoinedTable.sorted_perm _).map (·.tables)).nodup_iff] at hnodup
  refine RefJoinedTable.pairwise_lt_sorted (List.Nodup.of_map (fun key => (ofLex key).2.tail) ?_)
  rwa [List.map_map]

theorem mem_iff (hl : Lists s nodes k o rs) : r ∈ rs ↔ ∃ q, Partner nodes k o q ∧ r = entry s o q := by
  obtain ⟨ps, _, hps, rfl⟩ := hl
  rw [RefJoinedTable.mem_sorted, List.mem_map]
  constructor
  · rintro ⟨q, hq, rfl⟩
    exact ⟨q, (hps q).1 hq, rfl⟩
  · rintro ⟨q, hq, rfl⟩
    exact ⟨q, (hps q).2 hq, rfl⟩

/-- **A list of an owner's partners is exact** in a plan that is described by the same nodes. -/
theorem entriesExact (hl : Lists s nodes k o rs) (hnodes : Notes s.size s.RefersAt nodes) (hd : Describes s nodes k p)
    (ho : IsShape nodes o) : EntriesExact s k p (s.namesOf o) rs := by
  have hoi := Schema.inside_of_isShape hnodes ho
  constructor
  · intro H hH
    obtain ⟨q, hqi, rfl⟩ := Schema.exists_namesOf hH.joinable.named
    have hr : entry s o q ∈ rs := hl.mem_iff.2 ⟨q, (canJoin_namesOf hnodes hoi hqi).1 hH, rfl⟩
    exact existsUnique_getElem? (hl.nodup_tables hnodes) hr
  · intro r hr
    obtain ⟨q, hq, rfl⟩ := hl.mem_iff.1 hr
    have hqi := Schema.inside_of_isShape hnodes hq.shape
    refine ⟨s.namesOf q, (canJoin_namesOf hnodes hoi hqi).2 hq, rfl, ?_, ?_, rfl, fun a => viaRefTable_entry hqi⟩
    · rw [Schema.card_namesOf hoi, Schema.card_namesOf hqi, ← IndexSet.size_union hq.fits.1]
      rfl
    · obtain ⟨i, hi, j, hj, hij⟩ := hq.adjacent
      have hunion := ho.union hq.shape hi hj (.inl hij)
      have hui := Schema.inside_of_isShape hnodes hunion
      have hsize : (o.union q).size ≤ k := by
        rw [IndexSet.size_union hq.fits.1]
        exact hq.fits.2
      obtain ⟨m, hm, j, hj, hrecord⟩ := hd.exists_record hnodes ((Schema.isJoinable_namesOf hnodes hui).2 hunion)
        (by rw [Schema.card_namesOf hui]; exact hq.two_le_size_union) (by rwa [Schema.card_namesOf hui])
      refine ⟨j, hj, ?_, ?_⟩
      · rw [hrecord.name, hm]
        rfl
      · rw [hrecord.tables, hm, Schema.namesOf_union]
  · exact (hl.pairwise_lt hnodes).imp RefJoinedTable.key_lt_iff.1
  · exact hl.nodup_accessors hnodes

end Lists

/-! ## The plan of a run -/

/-- **The joined tables of a plan are the joinable sets** of two to `k` tables, each once, by width and members. -/
theorem joinedTables_exact (hk : 1 ≤ k) (hp : (ofSchema s k).outcome = .ok p) :
    (∀ S : Finset String, s.IsJoinable S → 2 ≤ S.card → S.card ≤ k →
      ∃! i : Nat, ∃ j, p.joinedTables[i]? = some j ∧ j.tables = S.sort) ∧
    (∀ j ∈ p.joinedTables, ∃ S : Finset String, s.IsJoinable S ∧ 2 ≤ S.card ∧ S.card ≤ k ∧
      j.tables = S.sort ∧ j.name = JoinedName.ofTables j.tables) ∧
    p.joinedTables.Pairwise fun a b => a.width < b.width ∨ a.width = b.width ∧ a.tables < b.tables := by
  obtain ⟨nodes, hnodes, hrun⟩ := ofSchema_settles s hk
  obtain ⟨hd, _⟩ := hrun.of_ok hp
  refine ⟨fun S hS hw hk => ?_, fun j hj => ?_, (hd.pairwise_lt hnodes).imp JoinedTable.key_lt_iff.1⟩
  · obtain ⟨m, rfl, j, hj, hrecord⟩ := hd.exists_record hnodes hS hw hk
    rw [← hrecord.tables]
    exact existsUnique_getElem? (hd.nodup_tables hnodes) hj
  · obtain ⟨m, ⟨hshape, hw, hk⟩, hrecord⟩ := hd.exists_shape hj
    have hin := Schema.inside_of_isShape hnodes hshape
    rw [← Schema.card_namesOf hin] at hw hk
    exact ⟨s.namesOf m, (Schema.isJoinable_namesOf hnodes hin).2 hshape, hw, hk, hrecord.tables,
      hrecord.tables ▸ hrecord.name⟩

/-- Books by authors, and loans of books. -/
def library : Schema := .ofWellFormed "library"
  [⟨"author", [], ["id"], []⟩, ⟨"book", [], ["id"], [⟨"author_id", "author", "id"⟩]⟩,
    ⟨"loan", [], ["id"], [⟨"book_id", "book", "id"⟩]⟩] (by decide)

theorem library_refers : library.Refers "book" "author" ∧ library.Refers "loan" "book" := by
  simp [library, Schema.Refers]

theorem library_isJoinable_two : library.IsJoinable {"book", "loan"} where
  named := by simp [library]
  connected := by
    rw [Finset.coe_insert, Finset.coe_singleton]
    exact (connectedBy_singleton "loan").insert rfl (.inl library_refers.2)

theorem library_isJoinable_three : library.IsJoinable {"author", "book", "loan"} where
  named := by simp [library]
  connected := by
    rw [Finset.coe_insert]
    exact library_isJoinable_two.connected.insert (a := "book") (by simp) (.inl library_refers.1)

theorem library_eq_ok : ∃ p, (ofSchema library 3).outcome = .ok p :=
  ofSchema_eq_ok (by decide) (by decide) (Fingerprint.le_maxExactWidth (by decide) (by decide))

/-- The three tables of the library are joined once. -/
theorem library_joinedTables : 1 ≤ 3 ∧ ∃ p, (ofSchema library 3).outcome = .ok p ∧
    ∃! i : Nat, ∃ j, p.joinedTables[i]? = some j ∧ j.tables = ({"author", "book", "loan"} : Finset String).sort := by
  obtain ⟨p, hp⟩ := library_eq_ok
  exact ⟨by decide, p, hp, (joinedTables_exact (by decide) hp).1 _ library_isJoinable_three (by decide) (by decide)⟩

/-- **The entries of a plan are the groups that can be joined**, for its tables, which are those of the schema, and for
its joined tables. -/
theorem refJoinedTables_exact (hk : 1 ≤ k) (hp : (ofSchema s k).outcome = .ok p) :
    p.tables.map (·.name) = s.tables.map (·.name) ∧
    (∀ t ∈ p.tables, EntriesExact s k p {t.name} t.refJoinedTables) ∧
    ∀ j ∈ p.joinedTables, EntriesExact s k p j.tables.toFinset j.refJoinedTables := by
  obtain ⟨nodes, hnodes, hrun⟩ := ofSchema_settles s hk
  obtain ⟨hd, _⟩ := hrun.of_ok hp
  refine ⟨?_, fun r hr => ?_, fun j hj => ?_⟩
  · have hnames : s.tables.zipIdx.map (·.1.name) = p.tables.map (·.name) := by
      rw [← List.forall₂_eq_eq_eq, List.forall₂_map_left_iff, List.forall₂_map_right_iff]
      exact hd.tables.imp fun t r h => h.name.symm
    rw [← hnames, ← List.zipIdx_map_fst 0 s.tables, List.map_map, List.zipIdx_map_fst]
    rfl
  · obtain ⟨⟨t, i⟩, hti, hrecord⟩ := exists_mem_left_of_forall₂ hd.tables hr
    have ht := List.mk_mem_zipIdx_iff_getElem?.1 hti
    have hi : i < s.size := (List.getElem?_eq_some_iff.1 ht).1
    have hexact := hrecord.refJoinedTables.entriesExact hnodes hd (IsShape.singleton (hnodes.length ▸ hi))
    rwa [Schema.namesOf_singleton, Schema.nameAt_eq ht, ← hrecord.name] at hexact
  · obtain ⟨m, ⟨hshape, _⟩, hrecord⟩ := hd.exists_shape hj
    rw [hrecord.tables, Finset.sort_toFinset]
    exact hrecord.refJoinedTables.entriesExact hnodes hd hshape

/-- From authors one entry leads through books and loans together. -/
theorem library_refJoinedTables : 1 ≤ 3 ∧ ∃ p, (ofSchema library 3).outcome = .ok p ∧
    p.tables.map (·.name) = ["author", "book", "loan"] ∧ ∀ t ∈ p.tables, t.name = "author" →
      ∃! i : Nat, ∃ r, t.refJoinedTables[i]? = some r ∧ r.tables = ({"book", "loan"} : Finset String).sort := by
  obtain ⟨p, hp⟩ := library_eq_ok
  obtain ⟨hnames, htables, _⟩ := refJoinedTables_exact (by decide) hp
  refine ⟨by decide, p, hp, hnames, fun t ht hname => (htables t ht).complete _ ?_⟩
  rw [hname]
  exact ⟨library_isJoinable_two, by decide, ⟨"author", by simp, "book", by simp, .inr library_refers.1⟩, by decide⟩

end Plan
end JoinShapes
