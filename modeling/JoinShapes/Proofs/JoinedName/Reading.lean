import JoinShapes.Proofs.JoinedName

/-!
# What is read as a joined name

Splitting at double underscores gives the words that join to the text again and that are as splitting leaves them: none
runs into the separator after it, and the last holds none (`splitWords_eq_iff`). So exactly those texts are read as
joined names that are `join_` and at least two such words, none of them empty (`tables?_eq_some_iff`).

Every joined name of different tables is among these texts, and its tables are what is read. But neither the order of
the words nor the rule for table names is looked at, so that other texts are read as well (`tables?_misspelled`). What
is read in a text is right exactly if the words are usable names in ascending order (`tables?_exact_iff`).
-/

namespace JoinShapes
namespace JoinedName

open TableName (hasDoubleUnderscore)

variable {c : Char} {cs w v : List Char} {ws : List (List Char)} {name : String} {ts : List String}

/-! ## Words between separators -/

/-- The words of a text as splitting leaves them: none runs into the separator after it, and the last holds none. -/
inductive Cut : List (List Char) → Prop
  | last {w : List Char} : hasDoubleUnderscore w = false → Cut [w]
  | next {w v : List Char} {ws : List (List Char)} : Separable w → Cut (v :: ws) → Cut (w :: v :: ws)

/-- **Splitting gives the words back** that it could have left. -/
theorem splitWords_of_cut (h : Cut ws) : splitWords (joinWords ws) = ws := by
  induction h with
  | last hw => exact splitWords_eq_singleton hw
  | next hw _ ih => rw [joinWords, splitWords_append hw, ih]

/-- One more character before a separable word. -/
theorem Separable.cons (h : Separable w) (hc : c = '_' → w ≠ [] ∧ w.head? ≠ some '_') : Separable (c :: w) where
  inside := hasDoubleUnderscore_cons.2 ⟨fun h => (hc h).2, h.inside⟩
  last := by
    cases w with
    | nil =>
      rintro ⟨⟩
      exact (hc rfl).1 rfl
    | cons d v => simpa [List.getLast?_cons_cons] using h.last

/-- A character that does not start a separator makes the first word longer. -/
theorem Cut.cons (h : Cut (w :: ws)) (hc : c = '_' → (joinWords (w :: ws)).head? ≠ some '_') :
    Cut ((c :: w) :: ws) := by
  cases h with
  | last hw => exact .last (hasDoubleUnderscore_cons.2 ⟨hc, hw⟩)
  | next hw hws =>
    refine .next (hw.cons fun hc' => ?_) hws
    have hhead := hc hc'
    cases w with
    | nil => exact absurd rfl hhead
    | cons d v => exact ⟨by simp, hhead⟩

/-- **What splitting leaves**: words that join to the text again. -/
theorem cut_splitWords (cs : List Char) : Cut (splitWords cs) ∧ joinWords (splitWords cs) = cs := by
  fun_induction splitWords cs with
  | case1 => exact ⟨.last rfl, rfl⟩
  | case2 cs ih =>
    obtain ⟨hcut, hjoin⟩ := ih
    cases hws : splitWords cs with
    | nil =>
      rw [hws] at hcut
      cases hcut
    | cons w ws =>
      rw [hws] at hcut hjoin
      refine ⟨.next separable_nil hcut, ?_⟩
      rw [joinWords, hjoin, List.nil_append]
  | case3 c cs hno ih =>
    obtain ⟨hcut, hjoin⟩ := ih
    cases hws : splitWords cs with
    | nil =>
      rw [hws] at hcut
      cases hcut
    | cons w ws =>
      rw [hws] at hcut hjoin
      rw [List.modifyHead_cons]
      refine ⟨hcut.cons fun hc hhead => ?_, ?_⟩
      · rw [hjoin] at hhead
        obtain ⟨v, rfl⟩ := List.head?_eq_some_iff.1 hhead
        exact hno v hc rfl
      · rw [← hjoin]
        cases ws <;> rfl

/-- **Splitting, and nothing else, leaves these words.** -/
theorem splitWords_eq_iff : splitWords cs = ws ↔ cs = joinWords ws ∧ Cut ws := by
  constructor
  · rintro rfl
    exact ⟨(cut_splitWords cs).2.symm, (cut_splitWords cs).1⟩
  · rintro ⟨rfl, hcut⟩
    exact splitWords_of_cut hcut

/-! ## Texts that are read -/

theorem map_ofList_eq_iff : ws.map String.ofList = ts ↔ ws = ts.map String.toList := by
  constructor
  · rintro rfl
    simp [List.map_map, Function.comp_def]
  · rintro rfl
    simp [List.map_map, Function.comp_def]

/-- After the opening a text is split. -/
theorem tables?_of_opening (h : name.toList = opening ++ cs) : tables? name =
    if (splitWords cs).length < 2 || (splitWords cs).any List.isEmpty then none
    else some ((splitWords cs).map String.ofList) := by
  have hopening : opening.isPrefixOf name.toList = true := by
    rw [h, List.isPrefixOf_iff_prefix]
    exact List.prefix_append _ _
  rw [tables?, if_pos hopening, h, List.drop_left]

/-- **What is read in a text**: at least two words, none of them empty, that it consists of after the opening. -/
theorem tables?_eq_some_iff : tables? name = some ts ↔ name.toList = opening ++ joinWords (ts.map String.toList) ∧
    Cut (ts.map String.toList) ∧ 2 ≤ ts.length ∧ "" ∉ ts := by
  have hwords : ∀ cs, name.toList = opening ++ cs → (tables? name = some ts ↔
      cs = joinWords (ts.map String.toList) ∧ Cut (ts.map String.toList) ∧ 2 ≤ ts.length ∧ "" ∉ ts) := by
    intro cs hcs
    rw [tables?_of_opening hcs, Option.ite_none_left_eq_some, Option.some_inj, map_ofList_eq_iff, ← and_assoc,
      ← splitWords_eq_iff, and_comm]
    refine and_congr_right fun hsplit => ?_
    have hempty : (ts.map String.toList).any List.isEmpty = true ↔ "" ∈ ts := by simp
    rw [hsplit, Bool.or_eq_true, decide_eq_true_eq, List.length_map, hempty, not_or, Nat.not_lt]
  constructor
  · intro h
    by_cases hopening : opening <+: name.toList
    · obtain ⟨cs, hcs⟩ := hopening
      obtain ⟨rfl, hrest⟩ := (hwords cs hcs.symm).1 h
      exact ⟨hcs.symm, hrest⟩
    · rw [tables?, if_neg (by rwa [List.isPrefixOf_iff_prefix])] at h
      cases h
  · rintro ⟨hname, hrest⟩
    exact (hwords _ hname).2 ⟨rfl, hrest⟩

/-! ## Joined names -/

/-- The text is the joined name of several different tables, and in order these are `ts`. -/
def Spells (name : String) (ts : List String) : Prop :=
  ∃ group : List String, 2 ≤ group.length ∧ group.Nodup ∧ (∀ t ∈ group, TableName.isValid t = true) ∧
    name = ofTables group ∧ ts = sorted group

/-- Usable names in ascending order. -/
structure Proper (ts : List String) : Prop where
  valid : ∀ t ∈ ts, TableName.isValid t = true
  ascending : ts.Pairwise (· < ·)

instance (ts : List String) : Decidable (Proper ts) :=
  decidable_of_iff ((∀ t ∈ ts, TableName.isValid t = true) ∧ ts.Pairwise (· < ·))
    ⟨fun h => ⟨h.1, h.2⟩, fun h => ⟨h.valid, h.ascending⟩⟩

theorem Proper.sorted_eq (h : Proper ts) : sorted ts = ts :=
  List.mergeSort_of_pairwise (h.ascending.imp fun hlt => by simpa using hlt.le)

/-- The tables of a joined name are usable and in order. -/
theorem Spells.proper (h : Spells name ts) : Proper ts := by
  obtain ⟨group, _, hnodup, hvalid, _, rfl⟩ := h
  have hperm := sorted_perm group
  refine ⟨fun t ht => hvalid t (hperm.mem_iff.1 ht), ?_⟩
  have hdistinct := hperm.nodup_iff.2 hnodup
  exact ((pairwise_sorted group).and hdistinct).imp fun h => lt_of_le_of_ne h.1 h.2

/-- **The tables of a joined name are read in it**, and make the name again. -/
theorem Spells.read (h : Spells name ts) : tables? name = some ts ∧ ofTables ts = name := by
  obtain ⟨group, hseveral, _, hvalid, rfl, rfl⟩ := h
  have husable : Usable group := ⟨List.ne_nil_of_length_pos (by omega), hvalid⟩
  refine ⟨?_, ?_⟩
  · rw [tables?_ofTables husable, if_neg (by omega)]
  · rw [ofTables, ofTables, sorted_eq_of_perm (sorted_perm group)]

/-- **Usable names in order that are read in a text** are the tables of that joined name. -/
theorem spells_of_read (h : tables? name = some ts) (hts : Proper ts) : Spells name ts := by
  obtain ⟨hname, _, hseveral, _⟩ := tables?_eq_some_iff.1 h
  refine ⟨ts, hseveral, hts.ascending.imp fun hlt => hlt.ne, hts.valid, ?_, hts.sorted_eq.symm⟩
  rw [ofTables, hts.sorted_eq, ← hname, String.ofList_toList]

/-- Words that are no usable names in order are the tables of no joined name. -/
theorem not_spells_of_read (h : tables? name = some ts) (hts : ¬ Proper ts) (us : List String) : ¬ Spells name us := by
  intro hus
  rw [hus.read.1] at h
  cases h
  exact hts hus.proper

/-- **When reading is exact.** What is read are the words between the separators, at least two and none of them empty.
The tables of a joined name are always read, and make the name again. Nothing else is read in a text exactly if the
words are usable names in ascending order, where any are read. -/
theorem tables?_exact_iff (name : String) :
    (∀ ts, tables? name = some ts ↔ name.toList = opening ++ joinWords (ts.map String.toList) ∧
      Cut (ts.map String.toList) ∧ 2 ≤ ts.length ∧ "" ∉ ts) ∧
    (∀ ts, Spells name ts → tables? name = some ts ∧ ofTables ts = name) ∧
    ((∀ ts, tables? name = some ts ↔ Spells name ts) ↔ ∀ ts, tables? name = some ts → Proper ts) := by
  refine ⟨fun ts => tables?_eq_some_iff, fun ts => Spells.read, fun h ts hts => ((h ts).1 hts).proper, fun h ts => ?_⟩
  exact ⟨fun hts => spells_of_read hts (h ts hts), fun hts => hts.read.1⟩

/-- Two names in order are read, and no other text than theirs would give them. -/
theorem tables?_itemsOrders : (∀ ts, tables? "join_order_items__orders" = some ts → Proper ts) ∧
    Spells "join_order_items__orders" ["order_items", "orders"] ∧
    ∀ ts, tables? "join_order_items__orders" = some ts ↔ Spells "join_order_items__orders" ts := by
  have hread : tables? "join_order_items__orders" = some ["order_items", "orders"] := by decide
  have hproper : ∀ ts, tables? "join_order_items__orders" = some ts → Proper ts := by
    intro ts hts
    rw [hread] at hts
    cases hts
    decide
  have hexact := (tables?_exact_iff "join_order_items__orders").2.2.2 hproper
  exact ⟨hproper, (hexact _).1 hread, hexact⟩

/-- **Other texts are read as well**: words out of order, a word twice, a word that names no table, and one underscore
too many. None of them is a joined name. -/
theorem tables?_misspelled :
    (tables? "join_b__a" = some ["b", "a"] ∧ ∀ ts, ¬ Spells "join_b__a" ts) ∧
    (tables? "join_a__a" = some ["a", "a"] ∧ ∀ ts, ¬ Spells "join_a__a" ts) ∧
    (tables? "join_a__9" = some ["a", "9"] ∧ ∀ ts, ¬ Spells "join_a__9" ts) ∧
    tables? "join_a___b" = some ["a", "_b"] ∧ ∀ ts, ¬ Spells "join_a___b" ts := by
  have horder : tables? "join_b__a" = some ["b", "a"] := by decide
  have htwice : tables? "join_a__a" = some ["a", "a"] := by decide
  have hdigit : tables? "join_a__9" = some ["a", "9"] := by decide
  have hrun : tables? "join_a___b" = some ["a", "_b"] := by decide
  exact ⟨⟨horder, not_spells_of_read horder (by decide)⟩, ⟨htwice, not_spells_of_read htwice (by decide)⟩,
    ⟨hdigit, not_spells_of_read hdigit (by decide)⟩, hrun, not_spells_of_read hrun (by decide)⟩

end JoinedName
end JoinShapes
