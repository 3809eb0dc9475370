import Mathlib.Data.Finset.Sort
import Mathlib.Data.String.Basic
import JoinShapes.Schema.Basic
import JoinShapes.Proofs.Connectivity
import JoinShapes.Proofs.IndexSet
import JoinShapes.Proofs.Schema.Index

/-!
# Names and positions of a schema

The tables of a schema have usable and distinct names, and every foreign key has its target among them
(`Schema.isValid_name`, `Schema.nodup_names`, `Schema.exists_target`). So a table can be given by its position or by its
name, and a set of tables by a set of either (`Schema.namesOf`). A set of names is joinable if it is connected by
foreign keys (`Schema.IsJoinable`); this is what the sets of a plan are measured by.
-/

namespace JoinShapes
namespace Schema

variable {name : String} {i j : Nat} {s : Schema} {t : TableSchema} {fk : ForeignKey}

/-- The index of a schema finds its tables. -/
theorem filled (s : Schema) : Filled s.index s.tables := filled_of_indexTables s.indexed

theorem isValid_name (ht : t ∈ s.tables) : TableName.isValid t.name = true := s.filled.valid t ht

theorem nodup_names (s : Schema) : (s.tables.map (·.name)).Nodup := s.filled.distinct

theorem exists_target (ht : t ∈ s.tables) (hfk : fk ∈ t.foreignKeys) : ∃ u ∈ s.tables, u.name = fk.refTable :=
  (checkKeys_eq_ok_iff s.filled).1 s.targeted t ht fk hfk

/-! ## Positions -/

/-- The name of the table at a position. -/
def nameAt (s : Schema) (i : Nat) : String := (s.tables.map (·.name))[i]?.getD ""

theorem nameAt_eq (h : s.tables[i]? = some t) : s.nameAt i = t.name := by
  simp [nameAt, h]

theorem nameAt_inj (hi : i < s.size) (hj : j < s.size) : s.nameAt i = s.nameAt j ↔ i = j := by
  have hi' : i < (s.tables.map (·.name)).length := by simpa [size] using hi
  have hj' : j < (s.tables.map (·.name)).length := by simpa [size] using hj
  rw [nameAt, nameAt, List.getElem?_eq_getElem hi', List.getElem?_eq_getElem hj']
  exact s.nodup_names.getElem_inj_iff

/-- **A name is found where a table has it.** -/
theorem indexOf?_eq_some_iff_getElem? : s.indexOf? name = some i ↔ ∃ t, s.tables[i]? = some t ∧ t.name = name :=
  s.filled.lookup

/-- **A name is found at the position where it stands**, and at no other. -/
theorem indexOf?_eq_some_iff : s.indexOf? name = some i ↔ i < s.size ∧ s.nameAt i = name := by
  rw [indexOf?_eq_some_iff_getElem?]
  constructor
  · rintro ⟨t, ht, rfl⟩
    exact ⟨(List.getElem?_eq_some_iff.1 ht).1, nameAt_eq ht⟩
  · rintro ⟨hi, rfl⟩
    have ht := List.getElem?_eq_getElem hi
    exact ⟨_, ht, (nameAt_eq ht).symm⟩

theorem exists_nameAt_iff : (∃ t ∈ s.tables, t.name = name) ↔ ∃ i < s.size, s.nameAt i = name := by
  constructor
  · rintro ⟨t, ht, rfl⟩
    obtain ⟨i, hi⟩ := List.mem_iff_getElem?.1 ht
    exact ⟨i, (List.getElem?_eq_some_iff.1 hi).1, nameAt_eq hi⟩
  · rintro ⟨i, hi, rfl⟩
    have ht := List.getElem?_eq_getElem hi
    exact ⟨_, List.mem_of_getElem? ht, (nameAt_eq ht).symm⟩

/-! ## References -/

/-- The table named `a` declares a foreign key to the one named `b`. -/
def Refers (s : Schema) (a b : String) : Prop := ∃ t ∈ s.tables, t.name = a ∧ ∃ fk ∈ t.foreignKeys, fk.refTable = b

/-- The table at `i` declares a foreign key to another one, which is at `j`. -/
def RefersAt (s : Schema) (i j : Nat) : Prop :=
  ∃ t, s.tables[i]? = some t ∧ ∃ fk ∈ t.outgoing, s.indexOf? fk.refTable = some j

theorem exists_indexOf?_of_outgoing (ht : t ∈ s.tables) (hfk : fk ∈ t.outgoing) :
    ∃ j, s.indexOf? fk.refTable = some j := by
  obtain ⟨i, hi, hname⟩ := exists_nameAt_iff.1 (exists_target ht (List.mem_of_mem_filter hfk))
  exact ⟨i, indexOf?_eq_some_iff.2 ⟨hi, hname⟩⟩

/-- **References between positions are references between names**, but for those of a table to itself. -/
theorem refersAt_iff (hi : i < s.size) (hj : j < s.size) :
    s.RefersAt i j ↔ i ≠ j ∧ s.Refers (s.nameAt i) (s.nameAt j) := by
  constructor
  · rintro ⟨t, ht, fk, hfk, hindex⟩
    obtain ⟨hmem, hother⟩ := List.mem_filter.1 hfk
    obtain ⟨_, hname⟩ := indexOf?_eq_some_iff.1 hindex
    refine ⟨?_, t, List.mem_of_getElem? ht, (nameAt_eq ht).symm, fk, hmem, hname.symm⟩
    rintro rfl
    simp [← hname, nameAt_eq ht] at hother
  · rintro ⟨hij, t, ht, hname, fk, hfk, htarget⟩
    obtain ⟨a, ha⟩ := List.mem_iff_getElem?.1 ht
    have halt : a < s.size := (List.getElem?_eq_some_iff.1 ha).1
    have hai : a = i := (nameAt_inj halt hi).1 ((nameAt_eq ha).trans hname)
    subst hai
    refine ⟨t, ha, fk, List.mem_filter.2 ⟨hfk, ?_⟩, indexOf?_eq_some_iff.2 ⟨hj, htarget.symm⟩⟩
    have hne : s.nameAt j ≠ s.nameAt a := fun h => hij ((nameAt_inj hj hi).1 h).symm
    simpa [htarget, hname] using hne

end Schema
end JoinShapes
