import JoinShapes.Proofs.Plan.Contents
import JoinShapes.Proofs.Schema.Build

/-!
# The order of the input

The tables of a schema may be declared in any order, and so may the foreign keys of a table (`Reorders`). The tables
declared in another order are a schema again (`Reorders.build_eq_ok`). Its positions are others, and nothing that a run
does with them is the same. But the names refer to each other as before (`Reorders.refers`), and a plan is determined by
that: the two plans say the same (`Plan.ofSchema_reorders`). The input's order is left only where a plan copies the
input, in its list of tables and in their foreign keys.
-/

namespace JoinShapes

/-- The table `u` is declared as `t` is, but for the order of the foreign keys. -/
structure TableSchema.Rekeys (u t : TableSchema) : Prop where
  name : u.name = t.name
  columns : u.columns = t.columns
  primaryKey : u.primaryKey = t.primaryKey
  foreignKeys : u.foreignKeys.Perm t.foreignKeys

/-- The tables `us` are the tables `ts` in some order, with their foreign keys in some order. -/
def Reorders (us ts : List TableSchema) : Prop := ∃ vs, List.Forall₂ TableSchema.Rekeys us vs ∧ vs.Perm ts

/-- The record but for the foreign keys. -/
def PlannedTable.withoutKeys (r : PlannedTable) : PlannedTable := { r with foreignKeys := [] }

theorem TableSchema.Rekeys.symm {t u : TableSchema} (h : u.Rekeys t) : t.Rekeys u :=
  ⟨h.name.symm, h.columns.symm, h.primaryKey.symm, h.foreignKeys.symm⟩

namespace Reorders

variable {ts us : List TableSchema} {t : TableSchema} {s s' : Schema} {S : Finset String}

theorem symm (h : Reorders us ts) : Reorders ts us := by
  obtain ⟨vs, hkeys, hperm⟩ := h
  obtain ⟨ws, hkeys', hperm'⟩ := List.perm_comp_forall₂ hperm.symm hkeys.flip
  exact ⟨ws, hkeys'.imp fun _ _ h => h.symm, hperm'⟩

theorem length_eq (h : Reorders us ts) : us.length = ts.length := by
  obtain ⟨vs, hkeys, hperm⟩ := h
  exact hkeys.length_eq.trans hperm.length_eq

theorem exists_mem (h : Reorders us ts) (ht : t ∈ ts) : ∃ u ∈ us, u.Rekeys t := by
  obtain ⟨vs, hkeys, hperm⟩ := h
  exact exists_mem_left_of_forall₂ hkeys (hperm.mem_iff.2 ht)

theorem names_perm (h : Reorders us ts) : (us.map (·.name)).Perm (ts.map (·.name)) := by
  obtain ⟨vs, hkeys, hperm⟩ := h
  have hnames : us.map (·.name) = vs.map (·.name) := by
    rw [← List.forall₂_eq_eq_eq, List.forall₂_map_left_iff, List.forall₂_map_right_iff]
    exact hkeys.imp fun _ _ h => h.name
  rw [hnames]
  exact hperm.map _

/-! ## The schema -/

/-- **In another order there is no fault either.** -/
theorem wellFormed (h : Reorders us ts) (hts : Schema.WellFormed ts) : Schema.WellFormed us := by
  obtain ⟨hnamed, htargets⟩ := hts
  refine ⟨⟨fun n hn => hnamed.valid n (h.names_perm.mem_iff.1 hn), h.names_perm.nodup_iff.2 hnamed.distinct⟩, ?_⟩
  intro u hu fk hfk
  obtain ⟨t, ht, htu⟩ := h.symm.exists_mem hu
  obtain ⟨t', ht', htarget⟩ := htargets t ht fk (htu.foreignKeys.mem_iff.2 hfk)
  obtain ⟨u', hu', hu't'⟩ := h.exists_mem ht'
  exact ⟨u', hu', hu't'.name.trans htarget⟩

/-- **In another order the tables make a schema**, too. -/
theorem build_eq_ok (h : Reorders us s.tables) (name : String) :
    ∃ s', (Schema.build name us).outcome = .ok s' ∧ s'.name = name ∧ s'.tables = us := by
  obtain ⟨s', hs'⟩ := Schema.exists_build_eq_ok_iff.2 (h.wellFormed s.wellFormed)
  exact ⟨s', hs', Schema.build_eq_ok_iff.1 hs'⟩

theorem refers_of_refers (h : Reorders s'.tables s.tables) {a b : String} (hab : s.Refers a b) : s'.Refers a b := by
  obtain ⟨t, ht, rfl, fk, hfk, rfl⟩ := hab
  obtain ⟨u, hu, hut⟩ := h.exists_mem ht
  exact ⟨u, hu, hut.name, fk, hut.foreignKeys.mem_iff.2 hfk, rfl⟩

/-- **The names refer to each other as before.** -/
theorem refers (h : Reorders s'.tables s.tables) : s'.Refers = s.Refers := by
  funext a b
  exact propext ⟨h.symm.refers_of_refers, h.refers_of_refers⟩

theorem isJoinable (h : Reorders s'.tables s.tables) (hS : s.IsJoinable S) : s'.IsJoinable S where
  named a ha := by
    obtain ⟨t, ht, rfl⟩ := hS.named a ha
    obtain ⟨u, hu, hut⟩ := h.exists_mem ht
    exact ⟨u, hu, hut.name⟩
  connected := h.refers ▸ hS.connected

end Reorders

namespace Plan

variable {ts us : List TableSchema} {t u : TableSchema} {s s' : Schema} {k : Nat} {S O H : Finset String}
variable {rs : List RefJoinedTable} {j : JoinedTable} {r r' : PlannedTable} {p p' : Plan} {a : String}

/-! ## References -/

theorem tableReferences_eq (h : u.Rekeys t) : tableReferences u = tableReferences t := by
  rw [tableReferences, tableReferences, h.name]
  exact RefTable.sorted_eq_of_perm (h.foreignKeys.map _)

theorem crossingsOf_perm (h : u.Rekeys t) : (crossingsOf S u).Perm (crossingsOf S t) := by
  have hkeys : crossing? S u = crossing? S t := by
    funext fk
    rw [crossing?, crossing?, h.name]
  rw [crossingsOf, crossingsOf, hkeys]
  exact h.foreignKeys.filterMap _

/-- **The references across a boundary are as before**, in some order. -/
theorem crossings_perm (h : Reorders us ts) : (crossings us S).Perm (crossings ts S) := by
  obtain ⟨vs, hkeys, hperm⟩ := h
  refine List.Perm.trans ?_ (hperm.flatMap_right (crossingsOf S))
  clear hperm
  induction hkeys with
  | nil => exact .nil
  | cons hfirst _ ih =>
    rw [crossings, List.flatMap_cons, List.flatMap_cons]
    exact (crossingsOf_perm hfirst).append ih

/-! ## Contents -/

theorem CanJoin.reorder (hO : CanJoin s k O H) (h : Reorders s'.tables s.tables) : CanJoin s' k O H :=
  ⟨h.isJoinable hO.joinable, hO.disjoint, h.refers ▸ hO.adjacent, hO.fits⟩

theorem Recorded.reorder (hS : Recorded s k S) (h : Reorders s'.tables s.tables) : Recorded s' k S :=
  ⟨h.isJoinable hS.joinable, hS.two_le, hS.le⟩

theorem EntriesFor.reorder (hrs : EntriesFor s k O rs) (h : Reorders s'.tables s.tables) : EntriesFor s' k O rs where
  mem_iff {e} := by
    rw [hrs.mem_iff]
    constructor
    · rintro ⟨H, hH, rfl⟩
      exact ⟨H, hH.reorder h, rfl⟩
    · rintro ⟨H, hH, rfl⟩
      exact ⟨H, hH.reorder h.symm, rfl⟩
  ascending := hrs.ascending

theorem JoinedTableFor.reorder (hj : JoinedTableFor s k S j) (h : Reorders s'.tables s.tables) :
    JoinedTableFor s' k S j where
  name := hj.name
  tables := hj.tables
  refTables := by rw [hj.refTables, RefTable.sorted_eq_of_perm (crossings_perm h)]
  refJoinedTables := hj.refJoinedTables.reorder h

/-! ## Plans -/

/-- The plans say the same about the same tables, which they may list in different orders. -/
structure SaysSame (p p' : Plan) : Prop where
  name : p'.name = p.name
  joinNum : p'.joinNum = p.joinNum
  joinedTables : p'.joinedTables = p.joinedTables
  tables : ∀ a, (p'.table? a).map (·.withoutKeys) = (p.table? a).map (·.withoutKeys)

/-- The tables of a plan and their foreign keys stand as they are declared in `ts`. -/
def ListedAs (p : Plan) (ts : List TableSchema) : Prop :=
  p.tables.map (fun r => (r.name, r.foreignKeys)) = ts.map fun t => (t.name, t.foreignKeys)

/-- The records of a table declared in two orders differ in the foreign keys at most. -/
theorem PlannedTableFor.withoutKeys_eq (hr : PlannedTableFor s k t r) (hr' : PlannedTableFor s' k u r')
    (hut : u.Rekeys t) (h : Reorders s'.tables s.tables) : r'.withoutKeys = r.withoutKeys := by
  have hname : r'.name = r.name := by rw [hr'.name, hut.name, hr.name]
  have hcolumns : r'.columns = r.columns := by rw [hr'.columns, hut.columns, hr.columns]
  have hprimary : r'.primaryKey = r.primaryKey := by rw [hr'.primaryKey, hut.primaryKey, hr.primaryKey]
  have hrefs : r'.refTables = r.refTables := by rw [hr'.refTables, tableReferences_eq hut, hr.refTables]
  have hentries : r'.refJoinedTables = r.refJoinedTables := by
    refine hr'.refJoinedTables.unique ?_
    rw [hut.name]
    exact hr.refJoinedTables.reorder h
  simp [PlannedTable.withoutKeys, hname, hcolumns, hprimary, hrefs, hentries]

namespace PlanFor

theorem listedAs (hp : PlanFor s k p) : p.ListedAs s.tables := by
  rw [ListedAs, ← List.forall₂_eq_eq_eq, List.forall₂_map_left_iff, List.forall₂_map_right_iff]
  exact hp.tables.flip.imp fun r t h => by rw [h.name, h.foreignKeys]

/-- **A table's record is found by its name.** -/
theorem exists_table? (hp : PlanFor s k p) (ht : t ∈ s.tables) :
    ∃ r, p.table? t.name = some r ∧ PlannedTableFor s k t r := by
  obtain ⟨r, hr, hrecord⟩ := exists_mem_right_of_forall₂ hp.tables ht
  obtain ⟨r', hr', hfound, hname⟩ := exists_find?_eq_some (f := PlannedTable.name) hr
  rw [hrecord.name] at hfound hname
  -- Records of one name are records of one table.
  obtain ⟨t', ht', hrecord'⟩ := exists_mem_left_of_forall₂ hp.tables hr'
  have hsame : t' = t := List.inj_on_of_nodup_map s.nodup_names ht' ht (hrecord'.name.symm.trans hname)
  exact ⟨r', hfound, hsame ▸ hrecord'⟩

/-- No record is found by another name. -/
theorem table?_eq_none (hp : PlanFor s k p) (ha : ∀ t ∈ s.tables, t.name ≠ a) : p.table? a = none := by
  refine List.find?_eq_none.2 fun r hr => ?_
  obtain ⟨t, ht, hrecord⟩ := exists_mem_left_of_forall₂ hp.tables hr
  simpa [hrecord.name] using ha t ht

/-- **Plans of one declaration in two orders say the same.** -/
theorem saysSame (hp : PlanFor s k p) (hp' : PlanFor s' k p') (h : Reorders s'.tables s.tables)
    (hname : s'.name = s.name) : p.SaysSame p' where
  name := by rw [hp'.name, hp.name, hname]
  joinNum := by rw [hp'.joinNum, hp.joinNum]
  joinedTables := hp'.joinedTables_eq hp (fun _ => ⟨fun hS => hS.reorder h.symm, fun hS => hS.reorder h⟩)
    fun _ _ => ⟨fun hj => hj.reorder h.symm, fun hj => hj.reorder h⟩
  tables a := by
    by_cases ha : ∃ t ∈ s.tables, t.name = a
    · obtain ⟨t, ht, rfl⟩ := ha
      obtain ⟨u, hu, hut⟩ := h.exists_mem ht
      obtain ⟨r, hr, hrecord⟩ := hp.exists_table? ht
      obtain ⟨r', hr', hrecord'⟩ := hp'.exists_table? hu
      rw [hut.name] at hr'
      rw [hr, hr', Option.map_some, Option.map_some, hrecord.withoutKeys_eq hrecord' hut h]
    · have hnone : ∀ t ∈ s.tables, t.name ≠ a := fun t ht he => ha ⟨t, ht, he⟩
      have hnone' : ∀ u ∈ s'.tables, u.name ≠ a := by
        intro u hu he
        obtain ⟨t, ht, htu⟩ := h.symm.exists_mem hu
        exact hnone t ht (htu.name.trans he)
      rw [hp.table?_eq_none hnone, hp'.table?_eq_none hnone']

end PlanFor

/-- **The order of the input does not matter**: in any order its tables make a schema. Within the exact widths runs for
both have results if there is room for their stores, and neither has one if not. Whenever both have results, the two
plans say the same, and each lists the tables and their foreign keys as its own input does. -/
theorem ofSchema_reorders (hk : 1 ≤ k) (hus : Reorders us s.tables) :
    ∃ s', (Schema.build s.name us).outcome = .ok s' ∧ s'.tables = us ∧
      (k ≤ Fingerprint.maxExactWidth s.size →
        (Store.HasRoom s.size k → (∃ p, (ofSchema s k).outcome = .ok p) ∧ ∃ p', (ofSchema s' k).outcome = .ok p') ∧
        (¬ Store.HasRoom s.size k →
          (ofSchema s k).outcome = .error .capacityOverflow ∧ (ofSchema s' k).outcome = .error .capacityOverflow)) ∧
      ∀ p p', (ofSchema s k).outcome = .ok p → (ofSchema s' k).outcome = .ok p' →
        p.SaysSame p' ∧ p.ListedAs s.tables ∧ p'.ListedAs us := by
  obtain ⟨s', hbuild, hname, rfl⟩ := hus.build_eq_ok s.name
  have hsize : s'.size = s.size := hus.length_eq
  refine ⟨s', hbuild, rfl, fun hexact => ⟨fun hroom => ?_, fun hroom => ?_⟩, fun p p' hp hp' => ?_⟩
  · exact ⟨ofSchema_eq_ok hk hroom hexact, ofSchema_eq_ok hk (hsize ▸ hroom) (hsize ▸ hexact)⟩
  · exact ⟨ofSchema_of_not_hasRoom hk hroom, ofSchema_of_not_hasRoom hk (hsize ▸ hroom)⟩
  · have hplan := planFor_of_ofSchema_eq_ok hk hp
    have hplan' := planFor_of_ofSchema_eq_ok hk hp'
    exact ⟨hplan.saysSame hplan' hus hname, hplan.listedAs, hplan'.listedAs⟩

/-- Orders of users at stores. -/
def shop : Schema := .ofWellFormed "shop"
  [⟨"user", [], ["id"], []⟩, ⟨"store", [], ["id"], []⟩,
    ⟨"order", [], ["id"], [⟨"user_id", "user", "id"⟩, ⟨"store_id", "store", "id"⟩]⟩] (by decide)

/-- The tables of the shop from the last to the first, and the keys of orders likewise. -/
def shopBackwards : List TableSchema :=
  [⟨"order", [], ["id"], [⟨"store_id", "store", "id"⟩, ⟨"user_id", "user", "id"⟩]⟩, ⟨"store", [], ["id"], []⟩,
    ⟨"user", [], ["id"], []⟩]

theorem shopBackwards_reorders : Reorders shopBackwards shop.tables := by
  refine ⟨shop.tables.reverse, ?_, List.reverse_perm _⟩
  refine .cons ⟨rfl, rfl, rfl, .swap _ _ _⟩ (.cons ⟨rfl, rfl, rfl, .rfl⟩ (.cons ⟨rfl, rfl, rfl, .rfl⟩ .nil))

/-- The shop has the same joined tables when it is declared backwards. -/
theorem shop_sameBackwards : 1 ≤ 3 ∧ Reorders shopBackwards shop.tables ∧
    ∃ s', (Schema.build "shop" shopBackwards).outcome = .ok s' ∧ ∃ p p', (ofSchema shop 3).outcome = .ok p ∧
      (ofSchema s' 3).outcome = .ok p' ∧ p.SaysSame p' := by
  obtain ⟨s', hbuild, _, hok, hsame⟩ := ofSchema_reorders (k := 3) (by decide) shopBackwards_reorders
  obtain ⟨⟨p, hp⟩, p', hp'⟩ := (hok (Fingerprint.le_maxExactWidth (by decide) (by decide))).1 (by decide)
  exact ⟨by decide, shopBackwards_reorders, s', hbuild, p, p', hp, hp', (hsame p p' hp hp').1⟩

end Plan
end JoinShapes
