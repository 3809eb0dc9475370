/-!
# Sets of table positions

An `IndexSet` is a finite set of natural numbers, kept as the strictly ascending list of its elements, so that equal
sets are equal values and the elements are always read in ascending order.

* `IndexSet.ext`: a set is determined by its members.
* `mem_insert`, `mem_union`, `mem_sdiff`, `mem_ofList`: every operation through membership.
-/

namespace JoinShapes

/-- A finite set of positions, as the ascending list of its elements. -/
structure IndexSet where
  toList : List Nat
  ascending : toList.Pairwise (· < ·)

namespace IndexSet

instance : Membership Nat IndexSet := ⟨fun s i => i ∈ s.toList⟩

instance (i : Nat) (s : IndexSet) : Decidable (i ∈ s) := inferInstanceAs (Decidable (i ∈ s.toList))

theorem mem_toList {i : Nat} {s : IndexSet} : i ∈ s.toList ↔ i ∈ s := Iff.rfl

theorem eq_of_toList_eq : ∀ {s t : IndexSet}, s.toList = t.toList → s = t
  | ⟨_, _⟩, ⟨_, _⟩, rfl => rfl

instance : DecidableEq IndexSet := fun s t =>
  decidable_of_iff (s.toList = t.toList) ⟨eq_of_toList_eq, fun h => h ▸ rfl⟩

/-- Two ascending lists with the same elements are the same list. -/
theorem ascending_eq_of_mem_iff : ∀ {xs ys : List Nat}, xs.Pairwise (· < ·) → ys.Pairwise (· < ·) →
    (∀ i, i ∈ xs ↔ i ∈ ys) → xs = ys
  | [], [], _, _, _ => rfl
  | [], y :: ys, _, _, h => by simpa using (h y).2 List.mem_cons_self
  | x :: xs, [], _, _, h => by simpa using (h x).1 List.mem_cons_self
  | x :: xs, y :: ys, hx, hy, h => by
    obtain ⟨hx0, hx1⟩ := List.pairwise_cons.1 hx
    obtain ⟨hy0, hy1⟩ := List.pairwise_cons.1 hy
    have hxy : x = y := by
      rcases List.mem_cons.1 ((h x).1 List.mem_cons_self) with hm | hm
      · exact hm
      rcases List.mem_cons.1 ((h y).2 List.mem_cons_self) with hn | hn
      · exact hn.symm
      · have h1 := hy0 x hm
        have h2 := hx0 y hn
        omega
    subst hxy
    refine congrArg _ (ascending_eq_of_mem_iff hx1 hy1 fun i => ⟨fun hi => ?_, fun hi => ?_⟩)
    · rcases List.mem_cons.1 ((h i).1 (List.mem_cons_of_mem _ hi)) with rfl | hm
      · exact absurd (hx0 i hi) (Nat.lt_irrefl i)
      · exact hm
    · rcases List.mem_cons.1 ((h i).2 (List.mem_cons_of_mem _ hi)) with rfl | hm
      · exact absurd (hy0 i hi) (Nat.lt_irrefl i)
      · exact hm

/-- **A set is determined by its members.** -/
theorem ext {s t : IndexSet} (h : ∀ i, i ∈ s ↔ i ∈ t) : s = t :=
  eq_of_toList_eq (ascending_eq_of_mem_iff s.ascending t.ascending h)

/-! ## Operations -/

/-- The set without elements. -/
def empty : IndexSet := ⟨[], .nil⟩

/-- The set of one element. -/
def singleton (i : Nat) : IndexSet := ⟨[i], List.pairwise_singleton _ i⟩

/-- The number of elements. -/
def size (s : IndexSet) : Nat := s.toList.length

def isEmpty (s : IndexSet) : Bool := s.toList.isEmpty

/-- The ascending merge of two ascending lists, each common element once. -/
def merge : List Nat → List Nat → List Nat
  | [], ys => ys
  | x :: xs, [] => x :: xs
  | x :: xs, y :: ys =>
    if x < y then x :: merge xs (y :: ys)
    else if y < x then y :: merge (x :: xs) ys
    else x :: merge xs ys
termination_by xs ys => xs.length + ys.length

theorem mem_merge {i : Nat} {xs ys : List Nat} : i ∈ merge xs ys ↔ i ∈ xs ∨ i ∈ ys := by
  fun_induction merge xs ys with
  | case1 ys => simp
  | case2 x xs => simp
  | case3 x xs y ys _ ih => simp [ih, or_assoc]
  | case4 x xs y ys _ _ ih => grind
  | case5 x xs y ys h1 h2 ih =>
    have hxy : x = y := by omega
    grind

theorem ascending_merge {xs ys : List Nat} (hx : xs.Pairwise (· < ·)) (hy : ys.Pairwise (· < ·)) :
    (merge xs ys).Pairwise (· < ·) := by
  fun_induction merge xs ys with
  | case1 ys => exact hy
  | case2 x xs => exact hx
  | case3 x xs y ys h ih =>
    obtain ⟨hx0, hx1⟩ := List.pairwise_cons.1 hx
    obtain ⟨hy0, _⟩ := List.pairwise_cons.1 hy
    refine List.pairwise_cons.2 ⟨fun i hi => ?_, ih hx1 hy⟩
    rcases mem_merge.1 hi with h1 | h1
    · exact hx0 i h1
    · rcases List.mem_cons.1 h1 with rfl | h2
      · exact h
      · exact Nat.lt_trans h (hy0 i h2)
  | case4 x xs y ys _ h ih =>
    obtain ⟨hx0, _⟩ := List.pairwise_cons.1 hx
    obtain ⟨hy0, hy1⟩ := List.pairwise_cons.1 hy
    refine List.pairwise_cons.2 ⟨fun i hi => ?_, ih hx hy1⟩
    rcases mem_merge.1 hi with h1 | h1
    · rcases List.mem_cons.1 h1 with rfl | h2
      · exact h
      · exact Nat.lt_trans h (hx0 i h2)
    · exact hy0 i h1
  | case5 x xs y ys h1 h2 ih =>
    obtain ⟨hx0, hx1⟩ := List.pairwise_cons.1 hx
    obtain ⟨hy0, hy1⟩ := List.pairwise_cons.1 hy
    have hxy : x = y := by omega
    subst hxy
    refine List.pairwise_cons.2 ⟨fun i hi => ?_, ih hx1 hy1⟩
    rcases mem_merge.1 hi with h | h
    · exact hx0 i h
    · exact hy0 i h

/-- The elements of either set. -/
def union (s t : IndexSet) : IndexSet := ⟨merge s.toList t.toList, ascending_merge s.ascending t.ascending⟩

/-- The set with one more element. -/
def insert (i : Nat) (s : IndexSet) : IndexSet := (singleton i).union s

/-- The elements of `s` that are not in `t`. -/
def sdiff (s t : IndexSet) : IndexSet :=
  ⟨s.toList.filter fun i => !decide (i ∈ t), s.ascending.filter _⟩

/-- The elements of a list, whatever their order and number. -/
def ofList (xs : List Nat) : IndexSet := xs.foldr insert empty

/-- Whether the sets share no element. -/
def isDisjoint (s t : IndexSet) : Bool := s.toList.all fun i => !decide (i ∈ t)

/-- The elements in braces, separated by commas. -/
def render (s : IndexSet) : String := "\x7b" ++ ", ".intercalate (s.toList.map toString) ++ "\x7d"

/-! ## Membership -/

@[simp] theorem not_mem_empty {i : Nat} : i ∉ empty := List.not_mem_nil

@[simp] theorem mem_singleton {i j : Nat} : i ∈ singleton j ↔ i = j := List.mem_singleton

@[simp] theorem mem_union {i : Nat} {s t : IndexSet} : i ∈ s.union t ↔ i ∈ s ∨ i ∈ t := mem_merge

@[simp] theorem mem_insert {i j : Nat} {s : IndexSet} : i ∈ s.insert j ↔ i = j ∨ i ∈ s := by
  simp [insert]

@[simp] theorem mem_sdiff {i : Nat} {s t : IndexSet} : i ∈ s.sdiff t ↔ i ∈ s ∧ i ∉ t := by
  simp [sdiff, ← mem_toList]

@[simp] theorem mem_ofList {i : Nat} {xs : List Nat} : i ∈ ofList xs ↔ i ∈ xs := by
  induction xs with
  | nil => simp [ofList]
  | cons x xs ih => simpa [ofList] using or_congr Iff.rfl ih

theorem isDisjoint_iff {s t : IndexSet} : s.isDisjoint t = true ↔ ∀ i, i ∈ s → i ∉ t := by
  simp [isDisjoint, ← mem_toList]

end IndexSet
end JoinShapes
