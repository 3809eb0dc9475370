import JoinShapes.Proofs.Schema

/-!
# Making a schema

A list of tables makes a schema exactly if their names are usable and distinct and every foreign key points at one of
them (`WellFormed`). If not, the fault that is told is the first one (`FirstFault`): names come before foreign keys, and
each of them in order. A schema keeps its tables, and finds a name at the position where it stands
(`build_tells_firstFault`). It is determined by its name and its tables (`build_eq_ok_iff`), and made of them where they
are without fault (`ofWellFormed`).
-/

namespace JoinShapes
namespace Schema

variable {ts : List TableSchema} {e : SchemaError} {name : String} {s : Schema}

/-- The names are usable and distinct, and the foreign keys have targets. -/
def WellFormed (ts : List TableSchema) : Prop :=
  WellNamed (ts.map (·.name)) ∧ ∀ t ∈ ts, Targeted ts t.foreignKeys

instance (names : List String) : Decidable (WellNamed names) :=
  decidable_of_iff ((∀ n ∈ names, TableName.isValid n = true) ∧ names.Nodup)
    ⟨fun h => ⟨h.1, h.2⟩, fun h => ⟨h.valid, h.distinct⟩⟩

instance (ts : List TableSchema) (fks : List ForeignKey) : Decidable (Targeted ts fks) :=
  inferInstanceAs (Decidable (∀ fk ∈ fks, ∃ u ∈ ts, u.name = fk.refTable))

instance (ts : List TableSchema) : Decidable (WellFormed ts) :=
  inferInstanceAs (Decidable (WellNamed (ts.map (·.name)) ∧ ∀ t ∈ ts, Targeted ts t.foreignKeys))

/-- The fault of a list of tables that comes first. -/
inductive FirstFault (ts : List TableSchema) : SchemaError → Prop
  /-- Of a name, after names without fault. -/
  | name {pre post : List TableSchema} {t : TableSchema} {e : SchemaError} : ts = pre ++ t :: post →
    WellNamed (pre.map (·.name)) → NameFault (pre.map (·.name)) t.name e → FirstFault ts e
  /-- Of a foreign key after others without fault, if no name is at fault. -/
  | target {pre post : List TableSchema} {t : TableSchema} {fk : ForeignKey} : WellNamed (ts.map (·.name)) →
    ts = pre ++ t :: post → (∀ u ∈ pre, Targeted ts u.foreignKeys) → Dangles ts t fk →
    FirstFault ts (.unknownTarget t.name fk.column fk.refTable)

/-! ## Outcomes -/

/-- **What making a schema comes to**: the first pass over the tables, then the second, and then the schema. -/
theorem build_cases (name : String) (ts : List TableSchema) :
    (∃ e, indexTables ts = .error e ∧ (build name ts).outcome = .error e) ∨
    ∃ index, indexTables ts = .ok index ∧
      ((∃ e, (checkKeys index ts).outcome = .error e ∧ (build name ts).outcome = .error e) ∨
      (checkKeys index ts).outcome = .ok () ∧
        ∃ s, (build name ts).outcome = .ok s ∧ s.name = name ∧ s.tables = ts) := by
  unfold build
  split
  · rename_i e hindex
    exact .inl ⟨e, hindex, rfl⟩
  · rename_i index hindex
    refine .inr ⟨index, hindex, ?_⟩
    split
    · rename_i entries e hkeys
      exact .inl ⟨e, by rw [hkeys], rfl⟩
    · rename_i entries hkeys
      exact .inr ⟨by rw [hkeys], _, rfl, rfl, rfl⟩

/-- The index of a schema is determined by its tables. -/
theorem eq_of_tables_eq {s' : Schema} (hname : s.name = s'.name) (htables : s.tables = s'.tables) : s = s' := by
  obtain ⟨name, tables, index, hindex, hkeys⟩ := s
  obtain ⟨name', tables', index', hindex', hkeys'⟩ := s'
  obtain rfl : name = name' := hname
  obtain rfl : tables = tables' := htables
  obtain rfl : index = index' := Except.ok.inj (hindex.symm.trans hindex')
  rfl

/-- **A schema is made of its own tables**, and of no others. -/
theorem build_eq_ok_iff : (build name ts).outcome = .ok s ↔ s.name = name ∧ s.tables = ts := by
  constructor
  · intro h
    rcases build_cases name ts with ⟨e, _, he⟩ | ⟨_, _, ⟨e, _, he⟩ | ⟨_, s', hs', hname, htables⟩⟩
    · rw [h] at he
      cases he
    · rw [h] at he
      cases he
    · rw [h] at hs'
      cases hs'
      exact ⟨hname, htables⟩
  · rintro ⟨rfl, rfl⟩
    rcases build_cases s.name s.tables with ⟨e, he, _⟩ | ⟨index, hindex, ⟨e, he, _⟩ | ⟨_, s', hs', hname, htables⟩⟩
    · rw [s.indexed] at he
      cases he
    · obtain rfl : index = s.index := Except.ok.inj (hindex.symm.trans s.indexed)
      rw [s.targeted] at he
      cases he
    · rwa [eq_of_tables_eq hname htables] at hs'

theorem wellFormed (s : Schema) : WellFormed s.tables :=
  ⟨s.filled.wellNamed, (checkKeys_eq_ok_iff s.filled).1 s.targeted⟩

/-- Tables without fault have no first one. -/
theorem FirstFault.not_wellFormed (h : FirstFault ts e) : ¬ WellFormed ts := by
  rintro ⟨hnamed, htargeted⟩
  cases h with
  | name hsplit _ hfault =>
    rw [hsplit, List.map_append, List.map_cons] at hnamed
    exact hfault.not_wellNamed hnamed
  | @target _ _ t fk _ hsplit _ hfk =>
    obtain ⟨done, rest, hkeys, _⟩ := hfk.first
    obtain ⟨u, hu, hname⟩ := htargeted t (by simp [hsplit]) fk (by simp [hkeys])
    exact hfk.missing u hu hname

/-- **The fault that is told is the first one.** -/
theorem build_eq_error_iff : (build name ts).outcome = .error e ↔ FirstFault ts e := by
  constructor
  · intro h
    rcases build_cases name ts with ⟨e', hfirst, he⟩ | ⟨index, hindex, ⟨e', hsecond, he⟩ | ⟨_, s, hs, _⟩⟩
    · obtain rfl : e' = e := Except.error.inj (he.symm.trans h)
      obtain ⟨pre, t, post, hsplit, hnamed, hfault⟩ := indexTables_eq_error_iff.1 hfirst
      exact .name hsplit hnamed hfault
    · obtain rfl : e' = e := Except.error.inj (he.symm.trans h)
      have hfilled := filled_of_indexTables hindex
      obtain ⟨pre, t, post, fk, hsplit, hpre, hfk, rfl⟩ := (checkKeys_eq_error_iff hfilled).1 hsecond
      exact .target hfilled.wellNamed hsplit hpre hfk
    · rw [h] at hs
      cases hs
  · intro hfault
    rcases build_cases name ts with ⟨e', hfirst, he⟩ | ⟨index, hindex, hrest⟩
    · cases hfault with
      | name hsplit hnamed hname =>
        have hsame := hfirst.symm.trans (indexTables_eq_error_iff.2 ⟨_, _, _, hsplit, hnamed, hname⟩)
        rw [he, Except.error.inj hsame]
      | target hnamed =>
        obtain ⟨index, hindex⟩ := exists_indexTables_iff.2 hnamed
        rw [hindex] at hfirst
        cases hfirst
    · have hfilled := filled_of_indexTables hindex
      rcases hrest with ⟨e', hsecond, he⟩ | ⟨_, s, _, _, rfl⟩
      · cases hfault with
        | name hsplit hnamed hname =>
          rw [indexTables_eq_error_iff.2 ⟨_, _, _, hsplit, hnamed, hname⟩] at hindex
          cases hindex
        | target _ hsplit hpre hfk =>
          have hsame := hsecond.symm.trans
            ((checkKeys_eq_error_iff hfilled).2 ⟨_, _, _, _, hsplit, hpre, hfk, rfl⟩)
          rw [he, Except.error.inj hsame]
      · exact absurd s.wellFormed hfault.not_wellFormed

/-- **Tables without fault make a schema.** -/
theorem exists_build_eq_ok_iff : (∃ s, (build name ts).outcome = .ok s) ↔ WellFormed ts := by
  constructor
  · rintro ⟨s, hs⟩
    obtain ⟨_, rfl⟩ := build_eq_ok_iff.1 hs
    exact s.wellFormed
  · intro h
    cases hout : (build name ts).outcome with
    | ok s => exact ⟨s, rfl⟩
    | error e => exact absurd h (build_eq_error_iff.1 hout).not_wellFormed

/-! ## The schema -/

/-- The schema of tables without fault. -/
def ofWellFormed (name : String) (ts : List TableSchema) (h : WellFormed ts) : Schema where
  name := name
  tables := ts
  index := (indexTables ts).toOption.getD ∅
  indexed := by
    obtain ⟨index, hindex⟩ := exists_indexTables_iff.2 h.1
    rw [hindex]
    rfl
  targeted := by
    obtain ⟨index, hindex⟩ := exists_indexTables_iff.2 h.1
    rw [hindex]
    exact (checkKeys_eq_ok_iff (filled_of_indexTables hindex)).2 h.2

@[simp] theorem tables_ofWellFormed {h : WellFormed ts} : (ofWellFormed name ts h).tables = ts := rfl

/-- **Making a schema.** It succeeds exactly if the names are usable and distinct and every foreign key points at one of
the tables. Otherwise it tells the first fault. The schema has the tables as they were given, and finds a name exactly
at the position of the table that has it. -/
theorem build_tells_firstFault (name : String) (ts : List TableSchema) :
    ((∃ s, (build name ts).outcome = .ok s) ↔
      WellNamed (ts.map (·.name)) ∧ ∀ t ∈ ts, Targeted ts t.foreignKeys) ∧
    (∀ e, (build name ts).outcome = .error e ↔ FirstFault ts e) ∧
    ∀ s, (build name ts).outcome = .ok s → s.name = name ∧ s.tables = ts ∧
      ∀ x i, s.indexOf? x = some i ↔ ∃ t, s.tables[i]? = some t ∧ t.name = x := by
  refine ⟨exists_build_eq_ok_iff, fun e => build_eq_error_iff, fun s hs => ?_⟩
  obtain ⟨hname, htables⟩ := build_eq_ok_iff.1 hs
  exact ⟨hname, htables, fun x i => indexOf?_eq_some_iff_getElem?⟩

/-- Orders of users for items. -/
def orderTable : TableSchema := ⟨"order", [], [], [⟨"item_id", "item", "id"⟩, ⟨"user_id", "user", "id"⟩]⟩

/-- Items on shelves. -/
def itemTable : TableSchema := ⟨"item", [], [], [⟨"shelf_id", "shelf", "id"⟩]⟩

/-- Without users and shelves, it is the users that are missed first. -/
theorem orders_miss_users :
    (build "shop" [orderTable, itemTable]).outcome = .error (.unknownTarget "order" "user_id" "user") := by
  have hnamed : WellNamed ([orderTable, itemTable].map (·.name)) := by decide
  have hitem : Targeted [orderTable, itemTable] [⟨"item_id", "item", "id"⟩] := by
    simp [Targeted, itemTable]
  have huser : Dangles [orderTable, itemTable] orderTable ⟨"user_id", "user", "id"⟩ :=
    ⟨by decide, _, _, rfl, hitem⟩
  have hsplit : [orderTable, itemTable] = [] ++ orderTable :: [itemTable] := rfl
  refine ((build_tells_firstFault "shop" _).2.1 _).2 (.target hnamed hsplit ?_ huser)
  intro u hu
  cases hu

end Schema
end JoinShapes
