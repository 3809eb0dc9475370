import Mathlib.Data.List.Lex
import Mathlib.Data.Prod.Lex
import Mathlib.Data.String.Basic
import JoinShapes.Plan.Basic

/-!
# The order of a plan

The lists of a plan are sorted by keys: texts one after the other, or a width and then texts. Both orders are
lexicographic (`inOrder_iff`, `widthThenNames_iff`), so sorting records with different keys puts them in strictly
ascending order (`pairwise_lt_mergeSort`, and for the two kinds of records `RefJoinedTable.pairwise_lt_sorted` and
`JoinedTable.pairwise_lt_sorted`).

Such a list is determined by its elements (`eq_of_pairwise_lt`), and those up to a bound are a start of it
(`filter_le_prefix`, `filter_width_prefix`). References have no key but themselves: equal keys are equal references, so
their order, too, is the same however they were found (`RefTable.sorted_eq_of_perm`).
-/

namespace JoinShapes

/-- A list is in order before another unless that one is less. -/
theorem inOrder_iff_not_lt {ss ts : List String} : inOrder ss ts = true ↔ ¬ ts < ss := by
  induction ss generalizing ts with
  | nil => simp [inOrder]
  | cons s ss ih =>
    cases ts with
    | nil => simp [inOrder]
    | cons t ts =>
      rw [inOrder, List.cons_lt_cons_iff]
      by_cases h : s = t
      · simp [h, ih]
      · have h' : t ≠ s := Ne.symm h
        rw [if_neg h, decide_eq_true_iff]
        simp only [h', false_and, or_false, not_lt]

/-- **Lists are compared lexicographically.** -/
theorem inOrder_iff {ss ts : List String} : inOrder ss ts = true ↔ ss ≤ ts := inOrder_iff_not_lt.trans not_lt

/-- **The width decides, then the texts.** -/
theorem widthThenNames_iff {w w' : Nat} {ns ns' : List String} :
    widthThenNames w ns w' ns' = true ↔ toLex (w, ns) ≤ toLex (w', ns') := by
  simp [widthThenNames, Prod.Lex.le_iff, inOrder_iff]

section

variable {α κ : Type} [LinearOrder κ] {key : α → κ} {le : α → α → Bool} {xs : List α}

/-- Sorting puts the keys in ascending order. -/
theorem pairwise_le_mergeSort (hle : ∀ a b, le a b = true ↔ key a ≤ key b) (xs : List α) :
    (xs.mergeSort le).Pairwise fun a b => key a ≤ key b := by
  have hsorted : (xs.mergeSort le).Pairwise fun a b => le a b = true := by
    refine List.pairwise_mergeSort ?_ ?_ xs
    · intro a b c hab hbc
      exact (hle a c).2 (((hle a b).1 hab).trans ((hle b c).1 hbc))
    · intro a b
      rw [Bool.or_eq_true, hle, hle]
      exact le_total _ _
  exact hsorted.imp fun {a b} h => (hle a b).1 h

/-- **Sorting by different keys is strict.** -/
theorem pairwise_lt_mergeSort (hle : ∀ a b, le a b = true ↔ key a ≤ key b) (hkey : (xs.map key).Nodup) :
    (xs.mergeSort le).Pairwise fun a b => key a < key b := by
  have hdistinct : (xs.mergeSort le).Pairwise fun a b => key a ≠ key b :=
    List.pairwise_map.1 (((List.mergeSort_perm xs le).map key).nodup_iff.2 hkey)
  exact ((pairwise_le_mergeSort hle xs).and hdistinct).imp fun h => lt_of_le_of_ne h.1 h.2

/-- **An order of things without ties is one list**: sorting does not depend on how they were listed before. -/
theorem mergeSort_eq_of_perm {ys : List α} (hle : ∀ a b, le a b = true ↔ key a ≤ key b)
    (hkey : Function.Injective key) (h : xs.Perm ys) : xs.mergeSort le = ys.mergeSort le := by
  have hperm : (xs.mergeSort le).Perm (ys.mergeSort le) :=
    (List.mergeSort_perm xs le).trans (h.trans (List.mergeSort_perm ys le).symm)
  refine hperm.eq_of_pairwise ?_ (pairwise_le_mergeSort hle xs) (pairwise_le_mergeSort hle ys)
  intro a b _ _ hab hba
  exact hkey (le_antisymm hab hba)

/-- **Strictly ascending lists of the same elements are the same list.** -/
theorem eq_of_pairwise_lt {ys : List α} (hx : xs.Pairwise fun a b => key a < key b)
    (hy : ys.Pairwise fun a b => key a < key b) (h : ∀ a, a ∈ xs ↔ a ∈ ys) : xs = ys := by
  have hnodup : ∀ {zs : List α}, (zs.Pairwise fun a b => key a < key b) → zs.Nodup := by
    intro zs hz
    refine hz.imp fun {a b} hab he => ?_
    exact lt_irrefl _ (he ▸ hab)
  have hperm : xs.Perm ys := (List.perm_ext_iff_of_nodup (hnodup hx) (hnodup hy)).2 h
  refine hperm.eq_of_pairwise ?_ hx hy
  intro a b _ _ hab hba
  exact absurd hba (lt_asymm hab)

/-- **The elements up to a bound are a start of an ascending list.** -/
theorem filter_le_prefix {bound : κ} (h : xs.Pairwise fun a b => key a ≤ key b) :
    xs.filter (fun a => key a ≤ bound) <+: xs := by
  induction xs with
  | nil => exact List.prefix_rfl
  | cons a xs ih =>
    obtain ⟨hfirst, hrest⟩ := List.pairwise_cons.1 h
    by_cases ha : key a ≤ bound
    · rw [List.filter_cons_of_pos (by simpa using ha)]
      exact (List.prefix_cons_inj a).2 (ih hrest)
    · -- Past the bound nothing else is within it.
      have hnone : (a :: xs).filter (fun a => key a ≤ bound) = [] := by
        refine List.filter_eq_nil_iff.2 fun b hb => ?_
        rcases List.mem_cons.1 hb with rfl | hb
        · simpa using ha
        · simpa using lt_of_lt_of_le (not_le.1 ha) (hfirst b hb)
      rw [hnone]
      exact List.nil_prefix

/-- In the order of width and texts what is within a width stands at the start. -/
theorem filter_width_prefix {w : α → Nat} {t : α → List String} {k : Nat}
    (h : xs.Pairwise fun a b => toLex (w a, t a) < toLex (w b, t b)) : xs.filter (w · ≤ k) <+: xs := by
  refine filter_le_prefix (h.imp fun {a b} hab => ?_)
  rcases Prod.Lex.lt_iff.1 hab with hlt | ⟨heq, _⟩
  · exact hlt.le
  · exact heq.le

end

namespace RefTable

theorem sortKey_injective : Function.Injective sortKey := by
  rintro ⟨table, leftTable, leftColumn, rightTable, rightColumn⟩ ⟨table', leftTable', leftColumn', rightTable',
    rightColumn'⟩ h
  simp only [sortKey, List.cons.injEq, and_true] at h
  obtain ⟨rfl, rfl, rfl, rfl, rfl⟩ := h
  rfl

theorem sorted_perm (rs : List RefTable) : (sorted rs).Perm rs := List.mergeSort_perm _ _

theorem pairwise_sorted (rs : List RefTable) : (sorted rs).Pairwise fun a b => a.sortKey ≤ b.sortKey := by
  have hle (a b : RefTable) : inOrder a.sortKey b.sortKey = true ↔ a.sortKey ≤ b.sortKey := inOrder_iff
  exact pairwise_le_mergeSort hle rs

/-- **References are listed in one order**, however they were found. -/
theorem sorted_eq_of_perm {rs rs' : List RefTable} (h : rs.Perm rs') : sorted rs = sorted rs' :=
  mergeSort_eq_of_perm (fun _ _ => inOrder_iff) sortKey_injective h

end RefTable

namespace RefJoinedTable

/-- The key by which entries are sorted. -/
def key (r : RefJoinedTable) : Nat ×ₗ List String := toLex (r.width, r.joinedTable :: r.tables)

theorem mem_sorted {r : RefJoinedTable} {rs : List RefJoinedTable} : r ∈ sorted rs ↔ r ∈ rs := List.mem_mergeSort

theorem sorted_perm (rs : List RefJoinedTable) : (sorted rs).Perm rs := List.mergeSort_perm _ _

theorem pairwise_lt_sorted {rs : List RefJoinedTable} (h : (rs.map key).Nodup) :
    (sorted rs).Pairwise fun a b => a.key < b.key := pairwise_lt_mergeSort (fun _ _ => widthThenNames_iff) h

theorem key_lt_iff {a b : RefJoinedTable} : a.key < b.key ↔ a.width < b.width ∨ a.width = b.width ∧
    (a.joinedTable < b.joinedTable ∨ a.joinedTable = b.joinedTable ∧ a.tables < b.tables) := by
  rw [key, key, Prod.Lex.lt_iff]
  simp only [ofLex_toLex, List.cons_lt_cons_iff]

end RefJoinedTable

namespace JoinedTable

/-- The key by which joined tables are sorted. -/
def key (j : JoinedTable) : Nat ×ₗ List String := toLex (j.width, j.tables)

theorem mem_sorted {j : JoinedTable} {js : List JoinedTable} : j ∈ sorted js ↔ j ∈ js := List.mem_mergeSort

theorem pairwise_lt_sorted {js : List JoinedTable} (h : (js.map key).Nodup) :
    (sorted js).Pairwise fun a b => a.key < b.key := pairwise_lt_mergeSort (fun _ _ => widthThenNames_iff) h

theorem key_lt_iff {a b : JoinedTable} : a.key < b.key ↔ a.width < b.width ∨ a.width = b.width ∧ a.tables < b.tables :=
  Prod.Lex.lt_iff

end JoinedTable
end JoinShapes
