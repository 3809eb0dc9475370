import Mathlib.Data.Finset.Sort
import Mathlib.Data.String.Basic
import JoinShapes.JoinedName
import JoinShapes.TableName

/-!
# Joined names can be taken apart

Usable table names have no double underscore inside and no underscore at the end, so the double underscores of a joined
name are exactly its separators, and splitting there gives the names back (`splitWords_joinWords`). Hence two groups of
usable names that give one joined name are the same names (`ofTables_eq_iff`), and the names of a group can be read from
its joined name, if they are several (`tables?_ofTables`). Such a name holds a double underscore, so that no table can
have it (`isValid_ofTables`). All of this together says that the naming is faithful (`ofTables_faithful`).
-/

namespace JoinShapes
namespace JoinedName

open TableName (hasDoubleUnderscore)

variable {c : Char} {cs w : List Char} {ws : List (List Char)} {name : String} {xs ys : List String}

/-- A word that does not run into a separator after it. -/
structure Separable (w : List Char) : Prop where
  inside : hasDoubleUnderscore w = false
  last : w.getLast? ≠ some '_'

theorem separable_nil : Separable [] := ⟨rfl, by simp⟩

/-- A double underscore is at the start or in the rest. -/
theorem hasDoubleUnderscore_cons : hasDoubleUnderscore (c :: w) = false ↔
    (c = '_' → w.head? ≠ some '_') ∧ hasDoubleUnderscore w = false := by
  rw [TableName.hasDoubleUnderscore.eq_def]
  split
  · simp_all
  · rename_i hno heq
    cases heq
    rw [iff_and_self]
    rintro - rfl hhead
    obtain ⟨v, rfl⟩ := List.head?_eq_some_iff.1 hhead
    exact hno v rfl rfl
  · simp_all

theorem Separable.tail (h : Separable (c :: w)) : Separable w := by
  obtain ⟨hinside, hlast⟩ := h
  cases w with
  | nil => exact separable_nil
  | cons d w =>
    refine ⟨(hasDoubleUnderscore_cons.1 hinside).2, ?_⟩
    simpa [List.getLast?_cons_cons] using hlast

/-- After an underscore the word goes on, and not with another one. -/
theorem Separable.ne_underscore (h : Separable (c :: w)) (hc : c = '_') : ∃ d v, w = d :: v ∧ d ≠ '_' := by
  subst hc
  cases w with
  | nil => exact absurd rfl h.last
  | cons d v =>
    refine ⟨d, v, rfl, ?_⟩
    rintro rfl
    cases h.inside

/-- A character that does not start a separator belongs to the first word. -/
theorem splitWords_cons (h : c = '_' → cs.head? ≠ some '_') :
    splitWords (c :: cs) = (splitWords cs).modifyHead (c :: ·) := by
  refine splitWords.eq_3 c cs fun v hc hcs => ?_
  subst hcs
  exact h hc rfl

/-- **A word before a separator is the first word.** -/
theorem splitWords_append (h : Separable w) : splitWords (w ++ '_' :: '_' :: cs) = w :: splitWords cs := by
  induction w with
  | nil => rfl
  | cons c w ih =>
    rw [List.cons_append, splitWords_cons, ih h.tail, List.modifyHead_cons]
    intro hc
    obtain ⟨d, v, rfl, hd⟩ := h.ne_underscore hc
    exact fun heq => hd (Option.some.inj heq)

/-- A text without a separator is one word. -/
theorem splitWords_eq_singleton (h : hasDoubleUnderscore w = false) : splitWords w = [w] := by
  induction w with
  | nil => rfl
  | cons c w ih =>
    obtain ⟨hc, hw⟩ := hasDoubleUnderscore_cons.1 h
    rw [splitWords_cons hc, ih hw, List.modifyHead_cons]

/-- **Splitting gives joined words back.** -/
theorem splitWords_joinWords (hne : ws ≠ []) (h : ∀ w ∈ ws, Separable w) : splitWords (joinWords ws) = ws := by
  fun_induction joinWords ws with
  | case1 => exact absurd rfl hne
  | case2 w => exact splitWords_eq_singleton (h w List.mem_cons_self).inside
  | case3 w v ws ih =>
    rw [splitWords_append (h w List.mem_cons_self), ih (by simp) fun u hu => h u (List.mem_cons_of_mem _ hu)]

/-- A usable table name is separable. -/
theorem separable_of_isValid (h : TableName.isValid name = true) : Separable name.toList := by
  unfold TableName.isValid at h
  split at h
  · cases h
  · rename_i c cs heq
    simp only [Bool.and_eq_true, Bool.not_eq_true', bne_iff_ne] at h
    rw [heq]
    exact ⟨h.1.2, h.2⟩

theorem ne_nil_of_isValid (h : TableName.isValid name = true) : name.toList ≠ [] := by
  intro hnil
  simp [TableName.isValid, hnil] at h

/-! ## Order -/

theorem sorted_perm (xs : List String) : (sorted xs).Perm xs := List.mergeSort_perm _ _

theorem pairwise_sorted (xs : List String) : (sorted xs).Pairwise (· ≤ ·) := List.pairwise_mergeSort' (· ≤ ·) xs

/-- Without repetition, ordering a list is ordering its set. -/
theorem sorted_eq_sort (h : xs.Nodup) : sorted xs = xs.toFinset.sort := by
  have hperm := sorted_perm xs
  rw [← List.toFinset_eq_of_perm _ _ hperm]
  exact ((List.toFinset_sort (· ≤ ·) (hperm.nodup_iff.2 h)).2 (pairwise_sorted xs)).symm

/-- Ordering the same names gives one list. -/
theorem sorted_eq_of_perm (h : xs.Perm ys) : sorted xs = sorted ys := by
  have hperm : (sorted xs).Perm (sorted ys) := (sorted_perm xs).trans (h.trans (sorted_perm ys).symm)
  exact hperm.eq_of_pairwise (fun _ _ _ _ => le_antisymm) (pairwise_sorted xs) (pairwise_sorted ys)

theorem perm_of_sorted_eq (h : sorted xs = sorted ys) : xs.Perm ys :=
  (sorted_perm xs).symm.trans (h ▸ sorted_perm ys)

/-! ## Groups of tables -/

theorem toList_ofTables (xs : List String) :
    (ofTables xs).toList = opening ++ joinWords ((sorted xs).map String.toList) := String.toList_ofList

/-- **Splitting gives usable names back**, in order. -/
theorem splitWords_sorted (hxs : ∀ x ∈ xs, TableName.isValid x = true) (hx : xs ≠ []) :
    splitWords (joinWords ((sorted xs).map String.toList)) = (sorted xs).map String.toList := by
  have hperm := sorted_perm xs
  apply splitWords_joinWords
  · intro hnil
    rw [List.map_eq_nil_iff] at hnil
    exact hx (List.perm_nil.1 (hnil ▸ hperm.symm))
  · intro w hw
    obtain ⟨x, hx, rfl⟩ := List.mem_map.1 hw
    exact separable_of_isValid (hxs x (hperm.mem_iff.1 hx))

/-- **One joined name, one group**: usable names that are joined to one name are the same names. -/
theorem sorted_eq_of_ofTables_eq (hxs : ∀ x ∈ xs, TableName.isValid x = true)
    (hys : ∀ y ∈ ys, TableName.isValid y = true) (hx : xs ≠ []) (hy : ys ≠ [])
    (h : ofTables xs = ofTables ys) : sorted xs = sorted ys := by
  have hwords : joinWords ((sorted xs).map String.toList) = joinWords ((sorted ys).map String.toList) :=
    List.append_cancel_left (String.ofList_injective h)
  have hmap : (sorted xs).map String.toList = (sorted ys).map String.toList := by
    rw [← splitWords_sorted hxs hx, hwords, splitWords_sorted hys hy]
  exact List.map_injective_iff.2 (fun a b hab => String.toList_inj.1 hab) hmap

/-- Some usable names. -/
structure Usable (xs : List String) : Prop where
  ne_nil : xs ≠ []
  valid : ∀ x ∈ xs, TableName.isValid x = true

/-- **Groups have one joined name exactly if they are the same names**, in whatever order. -/
theorem ofTables_eq_iff (hxs : Usable xs) (hys : Usable ys) : ofTables xs = ofTables ys ↔ xs.Perm ys := by
  constructor
  · intro h
    exact perm_of_sorted_eq (sorted_eq_of_ofTables_eq hxs.valid hys.valid hxs.ne_nil hys.ne_nil h)
  · intro h
    rw [ofTables, ofTables, sorted_eq_of_perm h]

/-- **A joined name spells its group**, unless that is a single table. -/
theorem tables?_ofTables (hxs : Usable xs) :
    tables? (ofTables xs) = if xs.length < 2 then none else some (sorted xs) := by
  have hopening : opening.isPrefixOf (ofTables xs).toList = true := by
    rw [toList_ofTables, List.isPrefixOf_iff_prefix]
    exact List.prefix_append _ _
  have hwords : splitWords ((ofTables xs).toList.drop opening.length) = (sorted xs).map String.toList := by
    rw [toList_ofTables, List.drop_left, splitWords_sorted hxs.valid hxs.ne_nil]
  have hnonempty : ((sorted xs).map String.toList).any List.isEmpty = false := by
    rw [List.any_eq_false]
    intro w hw
    obtain ⟨x, hx, rfl⟩ := List.mem_map.1 hw
    have hvalid := hxs.valid x ((sorted_perm xs).mem_iff.1 hx)
    simpa using ne_nil_of_isValid hvalid
  have hlength : ((sorted xs).map String.toList).length = xs.length := by
    rw [List.length_map, (sorted_perm xs).length_eq]
  have hback : ((sorted xs).map String.toList).map String.ofList = sorted xs := by
    rw [List.map_map]
    simp [Function.comp_def]
  simp only [tables?, if_pos hopening, hwords, hnonempty, Bool.or_false, hlength, hback, decide_eq_true_eq]

/-! ## Names of tables and of groups -/

theorem Separable.drop (h : Separable w) (k : Nat) : Separable (w.drop k) := by
  induction k generalizing w with
  | zero => exact h
  | succ k ih =>
    cases w with
    | nil => exact h
    | cons c w => exact ih h.tail

/-- The name of a table spells no group. -/
theorem tables?_of_isValid (h : TableName.isValid name = true) : tables? name = none := by
  unfold tables?
  split
  · rw [splitWords_eq_singleton ((separable_of_isValid h).drop _).inside]
    rfl
  · rfl

/-- A separator is seen wherever it stands. -/
theorem hasDoubleUnderscore_append (w cs : List Char) : hasDoubleUnderscore (w ++ '_' :: '_' :: cs) = true := by
  induction w with
  | nil => rfl
  | cons c w ih =>
    rw [List.cons_append]
    unfold hasDoubleUnderscore
    split
    · rfl
    · rename_i heq
      cases heq
      exact ih
    · cases ‹_ = []›

/-- **No table has the name of a group of several.** -/
theorem isValid_ofTables (h : 2 ≤ xs.length) : TableName.isValid (ofTables xs) = false := by
  rw [Bool.eq_false_iff]
  intro hvalid
  have hnone := (separable_of_isValid hvalid).inside
  have hlength : 2 ≤ (sorted xs).length := by rwa [(sorted_perm xs).length_eq]
  rw [toList_ofTables] at hnone
  cases hxs : sorted xs with
  | nil => simp [hxs] at hlength
  | cons x xs =>
    cases xs with
    | nil => simp [hxs] at hlength
    | cons y ys =>
      rw [hxs, List.map_cons, List.map_cons, joinWords, ← List.append_assoc, hasDoubleUnderscore_append] at hnone
      cases hnone

/-- **Naming is faithful** on usable names: joined names and methods tell groups apart, whatever their order; the name
of several tables spells them in order and is the name of no table; and neither the joined name nor the name of a single
table spells a group. -/
theorem ofTables_faithful (hxs : Usable xs) :
    (∀ ys, Usable ys → (ofTables xs = ofTables ys ↔ xs.Perm ys) ∧ (accessor xs = accessor ys ↔ xs.Perm ys)) ∧
    (2 ≤ xs.length → tables? (ofTables xs) = some (sorted xs) ∧ (sorted xs).Perm xs ∧
      (sorted xs).Pairwise (· ≤ ·) ∧ TableName.isValid (ofTables xs) = false) ∧
    ∀ x, xs = [x] → tables? (ofTables [x]) = none ∧ tables? x = none := by
  have htables := tables?_ofTables hxs
  refine ⟨fun ys hys => ⟨ofTables_eq_iff hxs hys, ofTables_eq_iff hxs hys⟩, fun hlength => ?_, ?_⟩
  · rw [if_neg (Nat.not_lt.2 hlength)] at htables
    exact ⟨htables, sorted_perm xs, pairwise_sorted xs, isValid_ofTables hlength⟩
  · rintro x rfl
    exact ⟨htables, tables?_of_isValid (hxs.valid x List.mem_cons_self)⟩

/-- Three names of which one starts another are read back, and their words in other names make another group. -/
theorem orderNames_faithful :
    Usable ["users", "order_items", "order"] ∧ Usable ["users", "order", "items", "order"] ∧
    tables? (ofTables ["users", "order_items", "order"]) = some ["order", "order_items", "users"] ∧
    TableName.isValid (ofTables ["users", "order_items", "order"]) = false ∧
    ofTables ["users", "order_items", "order"] ≠ ofTables ["users", "order", "items", "order"] := by
  have hthree : Usable ["users", "order_items", "order"] := ⟨by decide, by decide⟩
  have hfour : Usable ["users", "order", "items", "order"] := ⟨by decide, by decide⟩
  have hperm : ["users", "order_items", "order"].Perm ["order", "order_items", "users"] := by decide
  have hsorted : sorted ["users", "order_items", "order"] = ["order", "order_items", "users"] := by
    rw [sorted_eq_of_perm hperm]
    exact List.mergeSort_of_pairwise (by decide)
  obtain ⟨hsame, hseveral, _⟩ := ofTables_faithful hthree
  obtain ⟨htables, _, _, hinvalid⟩ := hseveral (by decide)
  refine ⟨hthree, hfour, ?_, hinvalid, fun heq => ?_⟩
  · rw [htables, hsorted]
  · have hlength := ((hsame _ hfour).1.1 heq).length_eq
    cases hlength

end JoinedName
end JoinShapes
