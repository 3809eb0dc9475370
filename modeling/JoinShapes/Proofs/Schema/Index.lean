import Std.Data.HashMap.Lemmas
import Mathlib.Data.List.Nodup
import JoinShapes.Schema.Basic
import JoinShapes.Proofs.Settles

/-!
# The two passes over the tables of a schema

The first pass fills the index. What it has done after some tables is one statement (`Filled`): their names are usable,
and the index finds each of them at its position and nothing else. From it follows what the index holds at the end,
which lists are accepted, and which name is at fault first (`indexFrom_settles`, `indexTables_eq_error_iff`).

The second pass looks up targets in the finished index, so that it refuses the first foreign key without a table
(`checkKeys_eq_error_iff`).
-/

namespace JoinShapes
namespace Schema

variable {ts done pre post : List TableSchema} {t : TableSchema} {fk : ForeignKey} {fks : List ForeignKey}
variable {names seen : List String} {index index' : Index} {e : SchemaError} {n x : String} {i : Nat}

/-- The names are usable, and no two are the same. -/
structure WellNamed (names : List String) : Prop where
  valid : ∀ n ∈ names, TableName.isValid n = true
  distinct : names.Nodup

/-- What is wrong with the name `n` after the names `seen`. -/
inductive NameFault (seen : List String) (n : String) : SchemaError → Prop
  | invalid : TableName.isValid n = false → NameFault seen n (.invalidTableName n)
  | duplicate : TableName.isValid n = true → n ∈ seen → NameFault seen n (.duplicateTable n)

theorem NameFault.congr {seen' : List String} (h : NameFault seen n e) (hseen : ∀ x, x ∈ seen ↔ x ∈ seen') :
    NameFault seen' n e := by
  cases h with
  | invalid hinvalid => exact .invalid hinvalid
  | duplicate hvalid hmem => exact .duplicate hvalid ((hseen _).1 hmem)

/-- A name without fault is usable and new. -/
theorem exists_nameFault_or (seen : List String) (n : String) :
    (∃ e, NameFault seen n e) ∨ TableName.isValid n = true ∧ n ∉ seen := by
  by_cases hvalid : TableName.isValid n = true
  · by_cases hseen : n ∈ seen
    · exact .inl ⟨_, .duplicate hvalid hseen⟩
    · exact .inr ⟨hvalid, hseen⟩
  · exact .inl ⟨_, .invalid (by simpa using hvalid)⟩

theorem NameFault.not_wellNamed {names' : List String} (h : NameFault names n e) :
    ¬ WellNamed (names ++ n :: names') := by
  intro hnamed
  have hmem : n ∈ names ++ n :: names' := List.mem_append_right _ List.mem_cons_self
  cases h with
  | invalid hinvalid => exact absurd (hnamed.valid n hmem) (by simp [hinvalid])
  | duplicate _ hseen => exact (List.nodup_append.1 hnamed.distinct).2.2 n hseen n List.mem_cons_self rfl

/-! ## The index -/

/-- The index after the tables `done`, whose names are usable: it finds each at its position, and nothing else. -/
structure Filled (index : Index) (done : List TableSchema) : Prop where
  valid : ∀ t ∈ done, TableName.isValid t.name = true
  lookup : ∀ {x : String} {i : Nat}, index[x]? = some i ↔ ∃ t, done[i]? = some t ∧ t.name = x

namespace Filled

theorem empty : Filled ∅ [] where
  valid := by simp
  lookup := by simp

theorem mem_iff (h : Filled index done) : x ∈ index ↔ ∃ t ∈ done, t.name = x := by
  rw [Std.HashMap.mem_iff_isSome_getElem?, Option.isSome_iff_exists]
  simp only [h.lookup, List.mem_iff_getElem?]
  tauto

/-- A name that stood at two positions would be found at both. -/
theorem distinct (h : Filled index done) : (done.map (·.name)).Nodup := by
  refine List.nodup_iff_getElem?_ne_getElem?.2 fun i j hij hj hsame => ?_
  have hj : j < done.length := by simpa using hj
  have hat : ∀ {a : Nat} (ha : a < done.length), index[done[a].name]? = some a :=
    fun ha => h.lookup.2 ⟨_, List.getElem?_eq_getElem ha, rfl⟩
  have hi := Nat.lt_trans hij hj
  have hname : done[i].name = done[j].name := by simpa [hi, hj] using hsame
  have hfound := (hat hi).symm.trans (hname ▸ hat hj)
  exact Nat.ne_of_lt hij (Option.some.inj hfound)

theorem wellNamed (h : Filled index done) : WellNamed (done.map (·.name)) :=
  ⟨fun _ hn => by
    obtain ⟨t, ht, rfl⟩ := List.mem_map.1 hn
    exact h.valid t ht, h.distinct⟩

/-- **Noting a usable new name at the next position** keeps the index in step. -/
theorem insert (h : Filled index done) (hvalid : TableName.isValid t.name = true) (hnew : t.name ∉ done.map (·.name)) :
    Filled (index.insert t.name done.length) (done ++ [t]) where
  valid u hu := by
    rcases List.mem_append.1 hu with hu | hu
    · exact h.valid u hu
    · rwa [List.mem_singleton.1 hu]
  lookup {x i} := by
    rw [Std.HashMap.getElem?_insert]
    split
    · rename_i hx
      obtain rfl : t.name = x := by simpa using hx
      -- The new name is at the end, and at no position before it.
      constructor
      · intro hi
        obtain rfl : done.length = i := by simpa using hi
        exact ⟨t, by simp, rfl⟩
      · rintro ⟨u, hu, hname⟩
        rcases Nat.lt_or_ge i done.length with hi | hi
        · rw [List.getElem?_append_left hi] at hu
          exact absurd (List.mem_map.2 ⟨u, List.mem_of_getElem? hu, hname⟩) hnew
        · have hlen := (List.getElem?_eq_some_iff.1 hu).1
          rw [List.length_append, List.length_singleton] at hlen
          rw [Nat.le_antisymm hi (Nat.le_of_lt_succ hlen)]
    · rename_i hx
      rw [h.lookup]
      constructor
      · rintro ⟨u, hu, hname⟩
        exact ⟨u, by rw [List.getElem?_append_left (List.getElem?_eq_some_iff.1 hu).1, hu], hname⟩
      · rintro ⟨u, hu, hname⟩
        rcases Nat.lt_or_ge i done.length with hi | hi
        · rw [List.getElem?_append_left hi] at hu
          exact ⟨u, hu, hname⟩
        · rw [List.getElem?_append_right hi, List.getElem?_singleton] at hu
          split at hu
          · cases hu
            exact absurd hname (by simpa using hx)
          · cases hu

/-- The pass goes on after a usable new name. -/
theorem indexFrom_cons (h : Filled index done) (hvalid : TableName.isValid t.name = true)
    (hnew : t.name ∉ done.map (·.name)) (ts : List TableSchema) : indexFrom index done.length (t :: ts) =
      indexFrom (index.insert t.name done.length) (done ++ [t]).length ts := by
  have habsent : index.contains t.name = false := by
    rw [← Bool.not_eq_true, ← Std.HashMap.mem_iff_contains, h.mem_iff]
    exact fun hmem => hnew (List.mem_map.2 hmem)
  rw [indexFrom, if_neg (by simp [hvalid]), List.length_append, List.length_singleton]
  have hinsert : index.containsThenInsert t.name done.length = (false, index.insert t.name done.length) :=
    Prod.ext (Std.HashMap.containsThenInsert_fst.trans habsent) Std.HashMap.containsThenInsert_snd
  rw [hinsert]

/-- It stops at any other. -/
theorem indexFrom_cons_of_nameFault (h : Filled index done) (hfault : NameFault (done.map (·.name)) t.name e)
    (ts : List TableSchema) : indexFrom index done.length (t :: ts) = .error e := by
  cases hfault with
  | invalid hinvalid => rw [indexFrom, if_pos (by simp [hinvalid])]
  | duplicate hvalid hseen =>
    have hpresent : index.contains t.name = true := Std.HashMap.mem_iff_contains.1 (h.mem_iff.2 (List.mem_map.1 hseen))
    have hinsert : index.containsThenInsert t.name done.length = (true, index.insert t.name done.length) :=
      Prod.ext (Std.HashMap.containsThenInsert_fst.trans hpresent) Std.HashMap.containsThenInsert_snd
    rw [indexFrom, if_neg (by simp [hvalid]), hinsert]

end Filled

/-- **The first pass** ends with the index of all tables, or at the first name at fault. -/
theorem indexFrom_settles (h : Filled index done) : Settles
    (fun e => ∃ pre t post, ts = pre ++ t :: post ∧ WellNamed ((done ++ pre).map (·.name)) ∧
      NameFault ((done ++ pre).map (·.name)) t.name e)
    (indexFrom index done.length ts) fun index' => Filled index' (done ++ ts) := by
  induction ts generalizing index done with
  | nil => simpa [indexFrom] using h
  | cons t ts ih =>
    rcases exists_nameFault_or (done.map (·.name)) t.name with ⟨e, he⟩ | ⟨hvalid, hnew⟩
    · rw [h.indexFrom_cons_of_nameFault he]
      exact ⟨[], t, ts, rfl, by simpa using h.wellNamed, by simpa using he⟩
    · have hrest := ih (h.insert hvalid hnew)
      rw [h.indexFrom_cons hvalid hnew]
      rw [← List.append_cons] at hrest
      refine hrest.weaken ?_
      rintro e ⟨pre, u, post, rfl, hnamed, hfault⟩
      rw [← List.append_cons] at hnamed hfault
      exact ⟨t :: pre, u, post, rfl, hnamed, hfault⟩

/-- A name at fault after names without fault is where the pass ends. -/
theorem indexFrom_eq_error (h : Filled index done) (hnamed : WellNamed ((done ++ pre).map (·.name)))
    (hfault : NameFault ((done ++ pre).map (·.name)) t.name e) :
    indexFrom index done.length (pre ++ t :: post) = .error e := by
  induction pre generalizing index done with
  | nil => exact h.indexFrom_cons_of_nameFault (by simpa using hfault) post
  | cons u pre ih =>
    have hvalid : TableName.isValid u.name = true := hnamed.valid _ (by simp)
    have hnew : u.name ∉ done.map (·.name) := by
      have hdistinct := hnamed.distinct
      rw [List.map_append, List.map_cons] at hdistinct
      exact fun hmem => (List.nodup_append.1 hdistinct).2.2 _ hmem _ List.mem_cons_self rfl
    rw [List.append_cons] at hnamed hfault
    rw [List.cons_append, h.indexFrom_cons hvalid hnew]
    exact ih (h.insert hvalid hnew) hnamed hfault

/-- The finished index finds each table at its position. -/
theorem filled_of_indexTables (h : indexTables ts = .ok index) : Filled index ts :=
  (indexFrom_settles .empty).of_ok h

/-- **The first pass accepts** usable and distinct names. -/
theorem exists_indexTables_iff : (∃ index, indexTables ts = .ok index) ↔ WellNamed (ts.map (·.name)) := by
  constructor
  · rintro ⟨index, h⟩
    exact (filled_of_indexTables h).wellNamed
  · intro hnamed
    cases hindex : indexTables ts with
    | ok index => exact ⟨index, rfl⟩
    | error e =>
      obtain ⟨pre, t, post, rfl, _, hfault⟩ := (indexFrom_settles .empty).of_error hindex
      rw [List.map_append, List.map_cons] at hnamed
      exact absurd hnamed hfault.not_wellNamed

/-- **The first pass refuses** the first name at fault. -/
theorem indexTables_eq_error_iff : indexTables ts = .error e ↔ ∃ pre t post, ts = pre ++ t :: post ∧
    WellNamed (pre.map (·.name)) ∧ NameFault (pre.map (·.name)) t.name e := by
  constructor
  · exact (indexFrom_settles .empty).of_error
  · rintro ⟨pre, t, post, rfl, hnamed, hfault⟩
    exact indexFrom_eq_error .empty hnamed hfault

/-! ## Targets -/

/-- The foreign keys `fks` point at tables of the list `ts`. -/
def Targeted (ts : List TableSchema) (fks : List ForeignKey) : Prop := ∀ fk ∈ fks, ∃ u ∈ ts, u.name = fk.refTable

/-- The foreign key `fk` points at no table of `ts`, and those that the table `t` declares before it do. -/
structure Dangles (ts : List TableSchema) (t : TableSchema) (fk : ForeignKey) : Prop where
  missing : ∀ u ∈ ts, u.name ≠ fk.refTable
  first : ∃ done rest, t.foreignKeys = done ++ fk :: rest ∧ Targeted ts done

/-- A foreign key is refused if its target is not in the index, and warnings do not matter to that. -/
theorem outcome_checkKey (index : Index) (t : TableSchema) (fk : ForeignKey) : (checkKey index t fk).outcome =
    if fk.refTable ∈ index then .ok () else .error (.unknownTarget t.name fk.column fk.refTable) := by
  by_cases hmem : fk.refTable ∈ index
  · rw [checkKey, Std.HashMap.mem_iff_contains.1 hmem, if_pos hmem]
    cases fk.refTable == t.name <;> rfl
  · rw [checkKey, Bool.eq_false_iff.2 fun h => hmem (Std.HashMap.mem_iff_contains.2 h), if_neg hmem]
    rfl

theorem checkKey_eq_ok_iff (h : Filled index ts) :
    (checkKey index t fk).outcome = .ok () ↔ ∃ u ∈ ts, u.name = fk.refTable := by
  rw [outcome_checkKey, ← h.mem_iff]
  split <;> simp_all

theorem checkKey_eq_error_iff (h : Filled index ts) : (checkKey index t fk).outcome = .error e ↔
    (∀ u ∈ ts, u.name ≠ fk.refTable) ∧ e = .unknownTarget t.name fk.column fk.refTable := by
  have hmissing : (∀ u ∈ ts, u.name ≠ fk.refTable) ↔ fk.refTable ∉ index := by
    rw [h.mem_iff]
    push Not
    rfl
  rw [outcome_checkKey, hmissing]
  split <;> simp_all [eq_comm]

/-- The foreign keys of one table are gone through up to the first that dangles. -/
theorem forM_checkKey_eq_error_iff (h : Filled index ts) :
    t.foreignKeys.forM (fun fk => (checkKey index t fk).outcome) = .error e ↔
      ∃ fk, Dangles ts t fk ∧ e = .unknownTarget t.name fk.column fk.refTable := by
  simp only [forM_eq_error_iff, checkKey_eq_ok_iff h, checkKey_eq_error_iff h]
  constructor
  · rintro ⟨done, fk, rest, hsplit, hdone, hmissing, rfl⟩
    exact ⟨fk, ⟨hmissing, done, rest, hsplit, hdone⟩, rfl⟩
  · rintro ⟨fk, ⟨hmissing, done, rest, hsplit, hdone⟩, rfl⟩
    exact ⟨done, fk, rest, hsplit, hdone, hmissing, rfl⟩

/-- **The second pass accepts** foreign keys with targets. -/
theorem checkKeys_eq_ok_iff (h : Filled index ts) :
    (checkKeys index ts).outcome = .ok () ↔ ∀ t ∈ ts, Targeted ts t.foreignKeys := by
  simp only [checkKeys, Journaled.outcome_forM, forM_eq_ok_iff, checkKey_eq_ok_iff h, Targeted]

/-- **The second pass refuses** the first foreign key without a target, by table and then by declaration. -/
theorem checkKeys_eq_error_iff (h : Filled index ts) : (checkKeys index ts).outcome = .error e ↔
    ∃ pre t post fk, ts = pre ++ t :: post ∧ (∀ u ∈ pre, Targeted ts u.foreignKeys) ∧ Dangles ts t fk ∧
      e = .unknownTarget t.name fk.column fk.refTable := by
  have hok : ∀ t : TableSchema, t.foreignKeys.forM (fun fk => (checkKey index t fk).outcome) = .ok () ↔
      Targeted ts t.foreignKeys := fun t => by
    simp only [forM_eq_ok_iff, checkKey_eq_ok_iff h, Targeted]
  rw [checkKeys, Journaled.outcome_forM, forM_eq_error_iff]
  simp only [Journaled.outcome_forM, hok, forM_checkKey_eq_error_iff h]
  constructor
  · rintro ⟨pre, t, post, hsplit, hpre, fk, hfk, rfl⟩
    exact ⟨pre, t, post, fk, hsplit, hpre, hfk, rfl⟩
  · rintro ⟨pre, t, post, fk, hsplit, hpre, hfk, rfl⟩
    exact ⟨pre, t, post, hsplit, hpre, fk, hfk, rfl⟩

end Schema
end JoinShapes
