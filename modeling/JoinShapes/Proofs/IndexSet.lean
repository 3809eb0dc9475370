import Mathlib.Data.Finset.Card
import Mathlib.Data.Set.Finite.Basic
import JoinShapes.IndexSet

/-!
# Index sets as finite sets

An `IndexSet` stands for the finite set of its elements (`toFinset`), and its size is the number of them. The sizes of
unions and of sets with one element more or less follow.
-/

namespace JoinShapes
namespace IndexSet

variable {i : Nat} {s t : IndexSet}

/-- The finite set of the elements. -/
def toFinset (s : IndexSet) : Finset Nat := s.toList.toFinset

/-- The elements as a set of numbers. -/
def carrier (s : IndexSet) : Set Nat := {i | i ∈ s}

@[simp] theorem mem_toFinset : i ∈ s.toFinset ↔ i ∈ s := List.mem_toFinset

@[simp] theorem mem_carrier : i ∈ s.carrier ↔ i ∈ s := Iff.rfl

theorem nodup_toList (s : IndexSet) : s.toList.Nodup := s.ascending.imp Nat.ne_of_lt

theorem card_toFinset (s : IndexSet) : s.toFinset.card = s.size := List.toFinset_card_of_nodup s.nodup_toList

theorem coe_toFinset (s : IndexSet) : (s.toFinset : Set Nat) = s.carrier := by
  ext i
  simp

theorem carrier_finite (s : IndexSet) : s.carrier.Finite := by
  rw [← coe_toFinset]
  exact Finset.finite_toSet _

@[simp] theorem carrier_singleton : (singleton i).carrier = {i} := by
  ext j
  simp

@[simp] theorem carrier_union : (s.union t).carrier = s.carrier ∪ t.carrier := by
  ext j
  simp

@[simp] theorem carrier_sdiff : (s.sdiff t).carrier = s.carrier \ t.carrier := by
  ext j
  simp

@[simp] theorem size_singleton : (singleton i).size = 1 := rfl

theorem singleton_union (i : Nat) (s : IndexSet) : (singleton i).union s = s.insert i := rfl

theorem union_comm (s t : IndexSet) : s.union t = t.union s := ext fun i => by simp [or_comm]

theorem union_assoc (s t u : IndexSet) : (s.union t).union u = s.union (t.union u) := ext fun i => by simp [or_assoc]

/-- Sets without a common element, said from either side. -/
theorem apart_comm : (∀ i, i ∈ s → i ∉ t) ↔ ∀ i, i ∈ t → i ∉ s := forall_congr' fun _ => imp_not_comm

theorem size_pos_iff : 0 < s.size ↔ ∃ i, i ∈ s := by
  rw [← card_toFinset, Finset.card_pos]
  simp [Finset.Nonempty]

theorem two_le_size_iff : 2 ≤ s.size ↔ s.carrier.Nontrivial := by
  rw [← card_toFinset, ← coe_toFinset]
  exact Finset.one_lt_card_iff_nontrivial

theorem size_union (h : ∀ i, i ∈ s → i ∉ t) : (s.union t).size = s.size + t.size := by
  simp only [← card_toFinset]
  have hd : Disjoint s.toFinset t.toFinset := Finset.disjoint_left.2 (by simpa using h)
  rw [← Finset.card_union_of_disjoint hd]
  congr 1
  exact Finset.ext fun i => by simp

theorem size_insert (h : i ∉ s) : (s.insert i).size = s.size + 1 := by
  rw [← singleton_union, size_union (by simpa using h), size_singleton, Nat.add_comm]

theorem insert_eq_self (h : i ∈ s) : s.insert i = s := by
  refine ext fun j => ?_
  by_cases hj : j = i <;> simp [hj, h]

theorem insert_sdiff_singleton (h : i ∈ s) : (s.sdiff (singleton i)).insert i = s := by
  refine ext fun j => ?_
  by_cases hj : j = i <;> simp [hj, h]

theorem size_sdiff_singleton (h : i ∈ s) : (s.sdiff (singleton i)).size + 1 = s.size := by
  conv_rhs => rw [← insert_sdiff_singleton h]
  exact (size_insert (by simp)).symm

/-- A set of one element is a singleton. -/
theorem eq_singleton_of_size (h : s.size = 1) : ∃ i, s = singleton i := by
  obtain ⟨i, hi⟩ := List.length_eq_one_iff.1 h
  exact ⟨i, eq_of_toList_eq hi⟩

end IndexSet
end JoinShapes
