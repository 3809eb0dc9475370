import JoinShapes.Declaration.Basic
import JoinShapes.Proofs.Schema.Build

/-!
# Checking a declaration

A declaration passes its check exactly if it is consistent (`Consistent`, `validate_eq_ok_iff`). Its tables are looked
at twice: by that check, and when a schema is made of what they are converted to. The first check goes through the
columns of a table before it comes to the name of the next one, and through those of a foreign key before it comes to
the next; it keeps the names that it has seen, and searches the tables for targets. The second knows no columns, and has
an index. So the second asks for less, and never fails after the first (`Consistent.wellFormed`). Where no table lists
columns, both ask for the same in the same order (`Bare.validateTables_eq_error_iff`, `Bare.forM_validateKey`). Together
this is `validate_agrees`.
-/

namespace JoinShapes

open Schema (WellNamed NameFault Filled Index exists_nameFault_or)

variable {t : TableDefinition} {ts : List TableDefinition} {fk : KeyDefinition} {d : Declaration}
variable {seen names : List String} {e : SchemaError} {c x : String}

namespace TableDefinition

/-- The table lists the column `c`, if it lists any. -/
def Allows (t : TableDefinition) (c : String) : Prop := t.columns ≠ [] → ∃ column ∈ t.columns, column.name = c

theorem allows_of_columns_eq_nil (h : t.columns = []) (c : String) : t.Allows c := fun hne => absurd h hne

theorem declares_iff : t.declares c = true ↔ t.Allows c := by
  rw [declares, Bool.or_eq_true, List.isEmpty_iff, List.any_eq_true, Allows]
  simp only [beq_iff_eq]
  tauto

theorem repeated?_eq_none_iff : repeated? seen names = none ↔ (∀ n ∈ names, n ∉ seen) ∧ names.Nodup := by
  induction names generalizing seen with
  | nil => simp [repeated?]
  | cons n names ih =>
    rw [repeated?]
    split
    · rename_i hseen
      simp [hseen]
    · rename_i hnew
      rw [ih]
      simp only [List.mem_cons, not_or, List.nodup_cons]
      grind

/-- **Columns pass** if they are distinct and allow the primary key. -/
theorem validateColumns_eq_ok_iff : t.validateColumns = .ok () ↔
    (t.columns.map (·.name)).Nodup ∧ ∀ c ∈ t.primaryKey, t.Allows c := by
  have hdistinct : repeated? [] (t.columns.map (·.name)) = none ↔ (t.columns.map (·.name)).Nodup := by
    rw [repeated?_eq_none_iff]
    exact and_iff_right fun _ _ => List.not_mem_nil
  rw [validateColumns, ← hdistinct]
  split
  · rename_i hrepeated
    simp [hrepeated]
  · rename_i hnone
    rw [forM_eq_ok_iff]
    simp [hnone, declares_iff]

theorem validateColumns_of_columns_eq_nil (h : t.columns = []) : t.validateColumns = .ok () :=
  validateColumns_eq_ok_iff.2 ⟨by simp [h], fun c _ => allows_of_columns_eq_nil h c⟩

end TableDefinition

namespace Declaration

open TableDefinition (allows_of_columns_eq_nil)

/-- There are tables, all names can be told apart, and the keys use columns that the tables allow. -/
structure Consistent (d : Declaration) : Prop where
  ne_nil : d.tables ≠ []
  wellNamed : WellNamed (d.tables.map (·.name))
  columns : ∀ t ∈ d.tables, (t.columns.map (·.name)).Nodup
  primaryKey : ∀ t ∈ d.tables, ∀ c ∈ t.primaryKey, t.Allows c
  foreignKeys : ∀ t ∈ d.tables, ∀ fk ∈ t.foreignKeys,
    ∃ u ∈ d.tables, u.name = fk.references ∧ t.Allows fk.column ∧ u.Allows fk.referencedColumn

/-! ## Tables -/

/-- The loop over tables ends at a name at fault. -/
theorem validateTables_cons_of_nameFault (h : NameFault seen t.name e) (ts : List TableDefinition) :
    validateTables seen (t :: ts) = .error e := by
  cases h with
  | invalid hinvalid =>
    rw [validateTables, hinvalid]
    rfl
  | duplicate hvalid hseen =>
    rw [validateTables, hvalid, if_neg (by simp), if_pos hseen]
    rfl

/-- After another name it looks at the columns, and then goes on. -/
theorem validateTables_cons (hvalid : TableName.isValid t.name = true) (hnew : t.name ∉ seen)
    (ts : List TableDefinition) : validateTables seen (t :: ts) =
      t.validateColumns >>= fun _ => validateTables (t.name :: seen) ts := by
  rw [validateTables, hvalid, if_neg (by simp), if_neg hnew]

/-- **Tables pass** with usable new names that are distinct, and columns that pass. -/
theorem validateTables_eq_ok_iff : validateTables seen ts = .ok () ↔
    (∀ t ∈ ts, TableName.isValid t.name = true) ∧ (∀ t ∈ ts, t.name ∉ seen) ∧ (ts.map (·.name)).Nodup ∧
      ∀ t ∈ ts, t.validateColumns = .ok () := by
  induction ts generalizing seen with
  | nil => simp [validateTables]
  | cons t ts ih =>
    simp only [List.forall_mem_cons, List.map_cons, List.nodup_cons, List.mem_map, not_exists, not_and]
    rcases exists_nameFault_or seen t.name with ⟨e, he⟩ | ⟨hvalid, hnew⟩
    · rw [validateTables_cons_of_nameFault he]
      cases he <;> simp_all
    · rw [validateTables_cons hvalid hnew, check_bind_eq_ok_iff, ih]
      simp only [List.mem_cons, not_or]
      grind

/-! ## Foreign keys -/

/-- Among distinct names each finds the table that has it. -/
theorem find?_eq_some_iff (h : WellNamed (ts.map (·.name))) :
    ts.find? (·.name == x) = some t ↔ t ∈ ts ∧ t.name = x := by
  constructor
  · intro hfind
    exact ⟨List.mem_of_find?_eq_some hfind, by simpa using List.find?_some hfind⟩
  · rintro ⟨ht, rfl⟩
    have hsome : (ts.find? (·.name == t.name)).isSome = true := List.find?_isSome.2 ⟨t, ht, beq_self_eq_true _⟩
    obtain ⟨u, hu⟩ := Option.isSome_iff_exists.1 hsome
    have hname : u.name = t.name := by simpa using List.find?_some hu
    rw [hu, List.inj_on_of_nodup_map h.distinct (List.mem_of_find?_eq_some hu) ht hname]

/-- **A foreign key passes** if it has a target, and both sides allow its columns. -/
theorem validateKey_eq_ok_iff (h : WellNamed (ts.map (·.name))) : validateKey ts t fk = .ok () ↔
    ∃ u ∈ ts, u.name = fk.references ∧ t.Allows fk.column ∧ u.Allows fk.referencedColumn := by
  have htarget : validateKey ts t fk = .ok () ↔
      ∃ u, ts.find? (·.name == fk.references) = some u ∧ t.Allows fk.column ∧ u.Allows fk.referencedColumn := by
    unfold validateKey
    split
    · rename_i hnone
      simp [hnone]
    · rename_i u hu
      simp only [hu, Option.some.injEq, exists_eq_left', ← TableDefinition.declares_iff]
      cases t.declares fk.column <;> cases u.declares fk.referencedColumn <;> simp
  rw [htarget]
  simp only [find?_eq_some_iff h, and_assoc]

/-! ## Declarations -/

/-- The check goes through the tables and then through their foreign keys. -/
theorem validate_eq (h : d.tables ≠ []) : d.validate =
    validateTables [] d.tables >>= fun _ => d.tables.forM fun t => t.foreignKeys.forM (validateKey d.tables t) := by
  rw [validate, if_neg (by simpa using h)]

/-- **Declarations that pass are the consistent ones.** -/
theorem validate_eq_ok_iff : d.validate = .ok () ↔ d.Consistent := by
  by_cases hnil : d.tables = []
  · refine iff_of_false (fun h => ?_) fun h => h.ne_nil hnil
    rw [validate, if_pos (by simp [hnil])] at h
    cases h
  rw [validate_eq hnil, check_bind_eq_ok_iff, validateTables_eq_ok_iff]
  simp only [forM_eq_ok_iff, TableDefinition.validateColumns_eq_ok_iff]
  constructor
  · rintro ⟨⟨hvalid, _, hdistinct, hcolumns⟩, hkeys⟩
    have hnamed : WellNamed (d.tables.map (·.name)) := ⟨List.forall_mem_map.2 hvalid, hdistinct⟩
    exact ⟨hnil, hnamed, fun t ht => (hcolumns t ht).1, fun t ht => (hcolumns t ht).2,
      fun t ht fk hfk => (validateKey_eq_ok_iff hnamed).1 (hkeys t ht fk hfk)⟩
  · intro h
    refine ⟨⟨List.forall_mem_map.1 h.wellNamed.valid, fun _ _ => List.not_mem_nil, h.wellNamed.distinct, ?_⟩, ?_⟩
    · exact fun t ht => ⟨h.columns t ht, h.primaryKey t ht⟩
    · exact fun t ht fk hfk => (validateKey_eq_ok_iff h.wellNamed).2 (h.foreignKeys t ht fk hfk)

theorem names_tableSchemas (ts : List TableDefinition) :
    (ts.map (·.toTableSchema)).map (·.name) = ts.map (·.name) := by
  rw [List.map_map]
  rfl

theorem exists_tableSchema_iff : (∃ u ∈ ts.map (·.toTableSchema), u.name = x) ↔ ∃ u ∈ ts, u.name = x := by
  simp [TableDefinition.toTableSchema]

/-- **The tables of a consistent declaration make a schema.** -/
theorem Consistent.wellFormed (h : d.Consistent) : Schema.WellFormed d.tableSchemas := by
  refine ⟨by rw [tableSchemas, names_tableSchemas]; exact h.wellNamed, List.forall_mem_map.2 fun t ht => ?_⟩
  refine List.forall_mem_map.2 fun fk hfk => ?_
  obtain ⟨u, hu, hname, _⟩ := h.foreignKeys t ht fk hfk
  exact exists_tableSchema_iff.2 ⟨u, hu, hname⟩

/-- After the check the tables go into a schema under the declared name. -/
theorem outcome_toSchema (d : Declaration) : d.toSchema.outcome =
    d.validate >>= fun _ => (Schema.build (d.name.getD defaultName) d.tableSchemas).outcome := by
  simp only [toSchema, Journaled.outcome_bind, Journaled.outcome_ofExcept]

/-! ## Tables without columns -/

/-- No table lists columns. -/
def Bare (ts : List TableDefinition) : Prop := ∀ t ∈ ts, t.columns = []

/-- Without columns only names are at fault in the loop over tables, and the pass that fills an index finds the same. -/
theorem Bare.validateTables_eq_error_iff {done : List TableSchema} {index : Index} (h : Bare ts)
    (hfilled : Filled index done) (hseen : ∀ x, x ∈ seen ↔ x ∈ done.map (·.name)) : validateTables seen ts = .error e ↔
      Schema.indexFrom index done.length (ts.map (·.toTableSchema)) = .error e := by
  induction ts generalizing seen index done with
  | nil => exact iff_of_false (fun h => by cases h) (fun h => by cases h)
  | cons t ts ih =>
    obtain ⟨ht, hts⟩ := List.forall_mem_cons.1 h
    rw [List.map_cons]
    rcases exists_nameFault_or seen t.name with ⟨e', he⟩ | ⟨hvalid, hnew⟩
    · rw [validateTables_cons_of_nameFault he,
        hfilled.indexFrom_cons_of_nameFault (t := t.toTableSchema) (he.congr hseen)]
      simp
    · rw [validateTables_cons hvalid hnew, TableDefinition.validateColumns_of_columns_eq_nil ht, ok_bind,
        hfilled.indexFrom_cons (t := t.toTableSchema) hvalid (fun hmem => hnew ((hseen _).2 hmem))]
      refine ih hts (hfilled.insert (t := t.toTableSchema) hvalid fun hmem => hnew ((hseen _).2 hmem)) fun x => ?_
      rw [List.mem_cons, hseen, List.map_append, List.mem_append, List.map_singleton, List.mem_singleton, or_comm]
      rfl

/-- Without columns a foreign key only needs a target, which a search finds where the index does. -/
theorem Bare.validateKey_eq {index : Index} (h : Bare ts) (hfilled : Filled index (ts.map (·.toTableSchema)))
    (ht : t ∈ ts) (fk : KeyDefinition) :
    validateKey ts t fk = (Schema.checkKey index t.toTableSchema fk.toForeignKey).outcome := by
  have htarget : fk.references ∈ index ↔ ∃ u ∈ ts, u.name = fk.references :=
    hfilled.mem_iff.trans exists_tableSchema_iff
  rw [Schema.outcome_checkKey]
  unfold validateKey
  split
  · rename_i hnone
    have hmissing : fk.references ∉ index := by
      rw [htarget]
      rintro ⟨u, hu, hname⟩
      exact absurd (List.find?_eq_none.1 hnone u hu) (by simp [hname])
    exact (if_neg hmissing).symm
  · rename_i u hu
    have hfound := List.mem_of_find?_eq_some hu
    have hpresent : fk.references ∈ index := htarget.2 ⟨u, hfound, by simpa using List.find?_some hu⟩
    have hcolumn := TableDefinition.declares_iff.2 (allows_of_columns_eq_nil (h t ht) fk.column)
    have hreferenced := TableDefinition.declares_iff.2 (allows_of_columns_eq_nil (h u hfound) fk.referencedColumn)
    rw [hcolumn, hreferenced]
    exact (if_pos hpresent).symm

/-- So both loops over foreign keys come to the same. -/
theorem Bare.forM_validateKey {index : Index} (h : Bare ts) (hfilled : Filled index (ts.map (·.toTableSchema))) :
    (ts.forM fun t => t.foreignKeys.forM (validateKey ts t)) =
      (Schema.checkKeys index (ts.map (·.toTableSchema))).outcome := by
  rw [Schema.checkKeys, Journaled.outcome_forM]
  refine forM_congr fun t ht => ?_
  rw [Journaled.outcome_forM]
  exact forM_congr fun fk _ => h.validateKey_eq hfilled ht fk

/-! ## Both checks -/

/-- **A declaration that passes its check makes a schema.** -/
theorem exists_toSchema_eq_ok (h : d.validate = .ok ()) :
    ∃ s, (Schema.build (d.name.getD defaultName) d.tableSchemas).outcome = .ok s ∧ d.toSchema.outcome = .ok s ∧
      s.name = d.name.getD defaultName ∧ s.tables = d.tableSchemas := by
  obtain ⟨s, hs⟩ := Schema.exists_build_eq_ok_iff.2 (validate_eq_ok_iff.1 h).wellFormed
  obtain ⟨hname, htables⟩ := Schema.build_eq_ok_iff.1 hs
  exact ⟨s, hs, by rw [outcome_toSchema, h, ok_bind, hs], hname, htables⟩

/-- **One that does not gives the error of the check.** -/
theorem toSchema_eq_error (h : d.validate = .error e) : d.toSchema.outcome = .error e := by
  rw [outcome_toSchema, h]
  rfl

/-- **Without columns both checks pass, or fail with one error.** -/
theorem build_cases_of_bare (hne : d.tables ≠ []) (h : Bare d.tables) (name : String) :
    ((∃ s, (Schema.build name d.tableSchemas).outcome = .ok s) ∧ d.validate = .ok ()) ∨
    ∃ e, (Schema.build name d.tableSchemas).outcome = .error e ∧ d.validate = .error e := by
  have hfirst : ∀ e, validateTables [] d.tables = .error e ↔ Schema.indexTables d.tableSchemas = .error e :=
    fun e => h.validateTables_eq_error_iff .empty (by simp)
  rw [validate_eq hne]
  rcases Schema.build_cases name d.tableSchemas with ⟨e, he, hbuild⟩ | ⟨index, hindex, hrest⟩
  · refine .inr ⟨e, hbuild, ?_⟩
    rw [(hfirst e).2 he]
    rfl
  · have hpassed : validateTables [] d.tables = .ok () := by
      cases hout : validateTables [] d.tables with
      | ok u => rfl
      | error e =>
        rw [(hfirst e).1 hout] at hindex
        cases hindex
    rw [hpassed, ok_bind, h.forM_validateKey (Schema.filled_of_indexTables hindex)]
    rcases hrest with ⟨e, he, hbuild⟩ | ⟨hchecked, s, hbuild, _⟩
    · exact .inr ⟨e, hbuild, he⟩
    · exact .inl ⟨⟨s, hbuild⟩, hchecked⟩

/-- **The two checks agree.** A declaration passes the first exactly if it is consistent. It makes a schema exactly if
it passes, and else the error is that of the first check, because the second never fails after it. Where no table lists
columns, the second gives the same answer as the first. -/
theorem validate_agrees (d : Declaration) :
    (d.validate = .ok () ↔ d.Consistent) ∧
    ((∃ s, d.toSchema.outcome = .ok s) ↔ d.validate = .ok ()) ∧
    (∀ e, d.toSchema.outcome = .error e ↔ d.validate = .error e) ∧
    (d.validate = .ok () → ∃ s, (Schema.build (d.name.getD defaultName) d.tableSchemas).outcome = .ok s ∧
      d.toSchema.outcome = .ok s ∧ s.name = d.name.getD defaultName ∧ s.tables = d.tableSchemas) ∧
    (d.tables ≠ [] → (∀ t ∈ d.tables, t.columns = []) → ∀ name,
      ((∃ s, (Schema.build name d.tableSchemas).outcome = .ok s) ∧ d.validate = .ok ()) ∨
      ∃ e, (Schema.build name d.tableSchemas).outcome = .error e ∧ d.validate = .error e) := by
  refine ⟨validate_eq_ok_iff, ?_, ?_, exists_toSchema_eq_ok, build_cases_of_bare⟩
  all_goals
    cases hvalid : d.validate with
    | ok =>
      obtain ⟨s, _, hs, _⟩ := exists_toSchema_eq_ok hvalid
      simp [hs]
    | error e => simp [toSchema_eq_error hvalid]

/-- Orders of users for items, and items on shelves, without columns, users and shelves. -/
def sketch : Declaration where
  name := none
  tables := [⟨"order", [], [], [⟨"item_id", "item", "id"⟩, ⟨"user_id", "user", "id"⟩]⟩,
    ⟨"item", [], [], [⟨"shelf_id", "shelf", "id"⟩]⟩]

/-- Both checks refuse the sketch for the same reason, and so it makes no schema. -/
theorem sketch_agrees : sketch.tables ≠ [] ∧ (∀ t ∈ sketch.tables, t.columns = []) ∧
    ∃ e, (Schema.build "sketch" sketch.tableSchemas).outcome = .error e ∧ sketch.validate = .error e ∧
      sketch.toSchema.outcome = .error e := by
  have hne : sketch.tables ≠ [] := by simp [sketch]
  have hbare : ∀ t ∈ sketch.tables, t.columns = [] := by simp [sketch]
  obtain ⟨hok, _, herror, _, hsame⟩ := validate_agrees sketch
  refine ⟨hne, hbare, ?_⟩
  rcases hsame hne hbare "sketch" with ⟨_, hvalid⟩ | ⟨e, hbuild, hvalid⟩
  · -- A consistent sketch would have users.
    have hmissing : ∀ u ∈ sketch.tables, u.name ≠ "user" := by decide
    obtain ⟨u, hu, huser, _⟩ := (hok.1 hvalid).foreignKeys _ List.mem_cons_self ⟨"user_id", "user", "id"⟩ (by simp)
    exact absurd huser (hmissing u hu)
  · exact ⟨e, hbuild, hvalid, (herror e).2 hvalid⟩

/-- With columns the first fault of a declaration may be one that a schema does not have. -/
example : validate ⟨none, [⟨"a", [⟨"x", "", true⟩, ⟨"x", "", true⟩], [], []⟩, ⟨"b_", [], [], []⟩]⟩ =
    .error (.duplicateColumn "a" "x") := by
  decide

end Declaration
end JoinShapes
