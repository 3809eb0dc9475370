import JoinShapes.Proofs.Plan.Records

/-!
# The contents of a plan

What a plan of a schema says can be told without positions, phases and the order of discovery: which entries an owner
has (`EntriesFor`), what the records of a joined table and of a table hold (`JoinedTableFor`, `PlannedTableFor`), and
which joined tables there are (`PlanFor`). Every run with a result gives such a plan (`planFor_of_ofSchema_eq_ok`), and
a schema and a width bound have only one (`PlanFor.unique`). So two runs are compared by what their plans have to say.
-/

namespace JoinShapes
namespace Plan

open TableNode (Notes)

variable {s s' : Schema} {nodes : List TableNode} {k : Nat} {m o q : IndexSet} {p p' : Plan} {j j' : JoinedTable}
variable {r r' : PlannedTable} {rs rs' : List RefJoinedTable} {S O H : Finset String} {t : TableSchema}

/-! ## Entries -/

/-- The entries `rs` of the owner `O`: one for each group that can be joined to it, in order. -/
structure EntriesFor (s : Schema) (k : Nat) (O : Finset String) (rs : List RefJoinedTable) : Prop where
  mem_iff : ∀ {e}, e ∈ rs ↔ ∃ H, CanJoin s k O H ∧ e = groupEntry O H
  ascending : rs.Pairwise fun a b => a.key < b.key

/-- **An owner has one list of entries.** -/
theorem EntriesFor.unique (h : EntriesFor s k O rs) (h' : EntriesFor s k O rs') : rs = rs' :=
  eq_of_pairwise_lt h.ascending h'.ascending fun _ => h.mem_iff.trans h'.mem_iff.symm

theorem Lists.entriesFor (hl : Lists s nodes k o rs) (hnodes : Notes s.size s.RefersAt nodes) (ho : s.Inside o) :
    EntriesFor s k (s.namesOf o) rs where
  mem_iff {e} := by
    rw [hl.mem_iff]
    constructor
    · rintro ⟨q, hq, rfl⟩
      have hqi := Schema.inside_of_isShape hnodes hq.shape
      exact ⟨s.namesOf q, (canJoin_namesOf hnodes ho hqi).2 hq, entry_eq_groupEntry ho hqi⟩
    · rintro ⟨H, hH, rfl⟩
      obtain ⟨q, hqi, rfl⟩ := Schema.exists_namesOf hH.joinable.named
      exact ⟨q, (canJoin_namesOf hnodes ho hqi).1 hH, (entry_eq_groupEntry ho hqi).symm⟩
  ascending := hl.pairwise_lt hnodes

/-! ## Records -/

/-- The set `S` is joinable and has two to `k` tables. -/
structure Recorded (s : Schema) (k : Nat) (S : Finset String) : Prop where
  joinable : s.IsJoinable S
  two_le : 2 ≤ S.card
  le : S.card ≤ k

/-- What the joined table of `S` holds. -/
structure JoinedTableFor (s : Schema) (k : Nat) (S : Finset String) (j : JoinedTable) : Prop where
  name : j.name = JoinedName.ofTables S.sort
  tables : j.tables = S.sort
  refTables : j.refTables = RefTable.sorted (crossings s.tables S)
  refJoinedTables : EntriesFor s k S j.refJoinedTables

/-- What the record of the table `t` holds. -/
structure PlannedTableFor (s : Schema) (k : Nat) (t : TableSchema) (r : PlannedTable) : Prop where
  name : r.name = t.name
  columns : r.columns = t.columns
  primaryKey : r.primaryKey = t.primaryKey
  foreignKeys : r.foreignKeys = t.foreignKeys
  refTables : r.refTables = tableReferences t
  refJoinedTables : EntriesFor s k {t.name} r.refJoinedTables

theorem JoinedTableFor.toFinset_tables (h : JoinedTableFor s k S j) : j.tables.toFinset = S := by
  rw [h.tables, Finset.sort_toFinset]

theorem JoinedTableFor.width (h : JoinedTableFor s k S j) : j.width = S.card := by
  rw [JoinedTable.width, h.tables, Finset.length_sort]

/-- **A set has one record.** -/
theorem JoinedTableFor.unique (h : JoinedTableFor s k S j) (h' : JoinedTableFor s k S j') : j = j' := by
  obtain ⟨name, tables, refTables, entries⟩ := j
  obtain ⟨name', tables', refTables', entries'⟩ := j'
  obtain ⟨rfl, rfl, rfl, hentries⟩ := h
  obtain ⟨rfl, rfl, rfl, hentries'⟩ := h'
  have hsame : entries = entries' := hentries.unique hentries'
  rw [hsame]

/-- **A table has one record.** -/
theorem PlannedTableFor.unique (h : PlannedTableFor s k t r) (h' : PlannedTableFor s k t r') : r = r' := by
  obtain ⟨name, columns, primaryKey, foreignKeys, refTables, entries⟩ := r
  obtain ⟨name', columns', primaryKey', foreignKeys', refTables', entries'⟩ := r'
  obtain ⟨rfl, rfl, rfl, rfl, rfl, hentries⟩ := h
  obtain ⟨rfl, rfl, rfl, rfl, rfl, hentries'⟩ := h'
  have hsame : entries = entries' := hentries.unique hentries'
  rw [hsame]

theorem CombinationRecord.joinedTableFor (h : CombinationRecord s nodes k m j) (hnodes : Notes s.size s.RefersAt nodes)
    (hm : s.Inside m) : JoinedTableFor s k (s.namesOf m) j where
  name := h.name
  tables := h.tables
  refTables := by
    obtain ⟨c, hc, rfl, hrefs⟩ := h.refTables
    rw [combinationReferences_eq hnodes hc] at hrefs
    exact (Except.ok.inj hrefs).symm
  refJoinedTables := h.refJoinedTables.entriesFor hnodes hm

/-! ## Plans -/

/-- The name of an element finds an element of that name. -/
theorem exists_find?_eq_some {α : Type} {f : α → String} {xs : List α} {x : α} (hx : x ∈ xs) :
    ∃ y ∈ xs, xs.find? (f · == f x) = some y ∧ f y = f x := by
  have hsome : (xs.find? (f · == f x)).isSome = true := List.find?_isSome.2 ⟨x, hx, beq_self_eq_true _⟩
  obtain ⟨y, hy⟩ := Option.isSome_iff_exists.1 hsome
  exact ⟨y, List.mem_of_find?_eq_some hy, hy, by simpa using List.find?_some hy⟩

/-- A plan of the schema `s` for joins of up to `k` tables. -/
structure PlanFor (s : Schema) (k : Nat) (p : Plan) : Prop where
  name : p.name = s.name
  joinNum : p.joinNum = k
  tables : List.Forall₂ (PlannedTableFor s k) s.tables p.tables
  /-- Each set that can be joined has its record. -/
  complete : ∀ {S}, Recorded s k S → ∃ j ∈ p.joinedTables, JoinedTableFor s k S j
  /-- There are no other records. -/
  sound : ∀ {j}, j ∈ p.joinedTables → ∃ S, Recorded s k S ∧ JoinedTableFor s k S j
  ascending : p.joinedTables.Pairwise fun a b => a.key < b.key

theorem TableRecord.plannedTableFor {i : Nat} (h : TableRecord s nodes k t i r) (hnodes : Notes s.size s.RefersAt nodes)
    (ht : s.tables[i]? = some t) : PlannedTableFor s k t r where
  name := h.name
  columns := h.columns
  primaryKey := h.primaryKey
  foreignKeys := h.foreignKeys
  refTables := h.refTables
  refJoinedTables := by
    have hi : i < s.size := (List.getElem?_eq_some_iff.1 ht).1
    have hentries := h.refJoinedTables.entriesFor hnodes (Schema.inside_singleton hi)
    rwa [Schema.namesOf_singleton, Schema.nameAt_eq ht] at hentries

namespace Describes

theorem forall₂_plannedTableFor (hd : Describes s nodes k p) (hnodes : Notes s.size s.RefersAt nodes) :
    List.Forall₂ (PlannedTableFor s k) s.tables p.tables := by
  obtain ⟨hlength, hrecords⟩ := List.forall₂_iff_zip.1 hd.tables
  rw [← List.zipIdx_map_fst 0 s.tables, List.forall₂_map_left_iff]
  refine List.forall₂_iff_zip.2 ⟨hlength, fun {t r} htr => ?_⟩
  have ht := List.mk_mem_zipIdx_iff_getElem?.1 (List.of_mem_zip htr).1
  exact (hrecords htr).plannedTableFor hnodes ht

theorem exists_recorded (hd : Describes s nodes k p) (hnodes : Notes s.size s.RefersAt nodes)
    (hj : j ∈ p.joinedTables) : ∃ S, Recorded s k S ∧ JoinedTableFor s k S j := by
  obtain ⟨m, ⟨hshape, hw, hk⟩, hrecord⟩ := hd.exists_shape hj
  have hin := Schema.inside_of_isShape hnodes hshape
  rw [← Schema.card_namesOf hin] at hw hk
  exact ⟨s.namesOf m, ⟨(Schema.isJoinable_namesOf hnodes hin).2 hshape, hw, hk⟩, hrecord.joinedTableFor hnodes hin⟩

/-- **The plan of a finished run says what it has to.** -/
theorem planFor (hd : Describes s nodes k p) (hnodes : Notes s.size s.RefersAt nodes) : PlanFor s k p where
  name := hd.name
  joinNum := hd.joinNum
  tables := hd.forall₂_plannedTableFor hnodes
  complete {S} hS := by
    obtain ⟨m, rfl, j, hj, hrecord⟩ := hd.exists_record hnodes hS.joinable hS.two_le hS.le
    obtain ⟨T, _, hT⟩ := hd.exists_recorded hnodes hj
    have hsame : T = s.namesOf m := by rw [← hT.toFinset_tables, hrecord.tables, Finset.sort_toFinset]
    exact ⟨j, hj, hsame ▸ hT⟩
  sound hj := hd.exists_recorded hnodes hj
  ascending := hd.pairwise_lt hnodes

end Describes

theorem planFor_of_ofSchema_eq_ok (hk : 1 ≤ k) (hp : (ofSchema s k).outcome = .ok p) : PlanFor s k p := by
  obtain ⟨nodes, hnodes, hrun⟩ := ofSchema_settles s hk
  exact (hrun.of_ok hp).1.planFor hnodes

namespace PlanFor

/-- Plans that record the same sets, and the same about them, have the same joined tables. -/
theorem joinedTables_eq (hp : PlanFor s k p) (hp' : PlanFor s' k p') (hS : ∀ S, Recorded s k S ↔ Recorded s' k S)
    (hj : ∀ S j, JoinedTableFor s k S j ↔ JoinedTableFor s' k S j) : p.joinedTables = p'.joinedTables := by
  refine eq_of_pairwise_lt hp.ascending hp'.ascending fun j => ⟨fun hmem => ?_, fun hmem => ?_⟩
  · obtain ⟨S, hrec, hrecord⟩ := hp.sound hmem
    obtain ⟨j', hmem', hrecord'⟩ := hp'.complete ((hS S).1 hrec)
    rwa [((hj S j).1 hrecord).unique hrecord']
  · obtain ⟨S, hrec, hrecord⟩ := hp'.sound hmem
    obtain ⟨j', hmem', hrecord'⟩ := hp.complete ((hS S).2 hrec)
    rwa [((hj S j).2 hrecord).unique hrecord']

/-- **A schema and a width bound have one plan.** -/
theorem unique (hp : PlanFor s k p) (hp' : PlanFor s k p') : p = p' := by
  have hjoined := hp.joinedTables_eq hp' (fun _ => Iff.rfl) fun _ _ => Iff.rfl
  have htables : p.tables = p'.tables :=
    List.right_unique_forall₂' (fun _ _ _ h h' => h.unique h') hp.tables hp'.tables
  obtain ⟨name, joinNum, tables, joinedTables⟩ := p
  obtain ⟨name', joinNum', tables', joinedTables'⟩ := p'
  obtain ⟨rfl, rfl, _⟩ := hp
  obtain ⟨rfl, rfl, _⟩ := hp'
  obtain rfl : tables = tables' := htables
  obtain rfl : joinedTables = joinedTables' := hjoined
  rfl

end PlanFor
end Plan
end JoinShapes
