import Mathlib.Data.List.Find
import JoinShapes.Proofs.Plan.Reachability

/-!
# Looking joined tables up

A joined table can be asked for by its members or by their joined name. Among the records of a plan the members decide
the name and the name decides the members (`PlanFor.name_eq_iff`), whatever usable names are asked for: also none, one,
one twice, or names of no table. So both ways find the same record, and they find one exactly if the names are those of
a joinable set of a width that the plan has, each once (`lookups_agree`).
-/

namespace JoinShapes
namespace JoinedName

variable {xs ys : List String}

/-- The opening alone spells no group. -/
theorem tables?_ofTables_nil : tables? (ofTables []) = none := by
  rw [ofTables, sorted, List.mergeSort_nil]
  decide

/-- **A group of several has the joined name of no other list** of usable names, be it empty. -/
theorem ofTables_eq_iff_of_two_le (hx : 2 ≤ xs.length) (hxs : ∀ x ∈ xs, TableName.isValid x = true)
    (hys : ∀ y ∈ ys, TableName.isValid y = true) : ofTables xs = ofTables ys ↔ xs.Perm ys := by
  have husable : Usable xs := ⟨List.ne_nil_of_length_pos (by omega), hxs⟩
  by_cases hnil : ys = []
  · subst hnil
    constructor
    · intro h
      have hread := tables?_ofTables husable
      rw [h, tables?_ofTables_nil, if_neg (by omega)] at hread
      cases hread
    · intro h
      rw [List.perm_nil.1 h]
  · exact ofTables_eq_iff husable ⟨hnil, hys⟩

end JoinedName

namespace Plan

variable {s : Schema} {k : Nat} {p : Plan} {j : JoinedTable} {ts : List String} {S : Finset String}

/-- The tables of a record have usable names. -/
theorem Recorded.isValid (h : Recorded s k S) : ∀ a ∈ S.sort, TableName.isValid a = true := by
  intro a ha
  obtain ⟨t, ht, rfl⟩ := h.joinable.named a ((Finset.mem_sort _).1 ha)
  exact Schema.isValid_name ht

namespace PlanFor

/-- **Among the records name and members go together.** -/
theorem name_eq_iff (hp : PlanFor s k p) (hj : j ∈ p.joinedTables) (hts : ∀ t ∈ ts, TableName.isValid t = true) :
    j.name = JoinedName.ofTables ts ↔ j.tables = JoinedName.sorted ts := by
  obtain ⟨S, hS, hrecord⟩ := hp.sound hj
  have hwidth : 2 ≤ S.sort.length := by
    rw [Finset.length_sort]
    exact hS.two_le
  have hordered : JoinedName.sorted S.sort = S.sort := by
    rw [JoinedName.sorted_eq_sort (S.sort_nodup _), Finset.sort_toFinset]
  rw [hrecord.name, hrecord.tables, JoinedName.ofTables_eq_iff_of_two_le hwidth hS.isValid hts]
  constructor
  · intro hperm
    rw [← hordered, JoinedName.sorted_eq_of_perm hperm]
  · intro hsame
    apply JoinedName.perm_of_sorted_eq
    rw [hordered, hsame]

/-- **Names find a record** exactly if they are those of a recorded set, each once. -/
theorem exists_tables_eq_iff (hp : PlanFor s k p) :
    (∃ j ∈ p.joinedTables, j.tables = JoinedName.sorted ts) ↔ ts.Nodup ∧ Recorded s k ts.toFinset := by
  constructor
  · rintro ⟨j, hj, htables⟩
    obtain ⟨S, hS, hrecord⟩ := hp.sound hj
    have hperm : S.sort.Perm ts := by
      rw [← hrecord.tables, htables]
      exact JoinedName.sorted_perm ts
    have hset : ts.toFinset = S := by
      rw [← List.toFinset_eq_of_perm _ _ hperm, Finset.sort_toFinset]
    exact ⟨hperm.nodup_iff.1 (S.sort_nodup _), hset ▸ hS⟩
  · rintro ⟨hnodup, hS⟩
    obtain ⟨j, hj, hrecord⟩ := hp.complete hS
    exact ⟨j, hj, by rw [hrecord.tables, JoinedName.sorted_eq_sort hnodup]⟩

end PlanFor

/-- **The two lookups agree.** Asked for any usable names, in any order and with repetitions or not, a plan finds the
same by members as by joined name. It finds a joined table, of these members, exactly if the names are different and
those of a joinable set of two to `k` tables. -/
theorem lookups_agree (hk : 1 ≤ k) (hp : (ofSchema s k).outcome = .ok p) (hts : ∀ t ∈ ts, TableName.isValid t = true) :
    p.joinedTableFor? ts = p.joinedTable? (JoinedName.ofTables ts) ∧
    ((∃ j, p.joinedTableFor? ts = some j) ↔
      ts.Nodup ∧ s.IsJoinable ts.toFinset ∧ 2 ≤ ts.length ∧ ts.length ≤ k) ∧
    ∀ j, p.joinedTableFor? ts = some j → j ∈ p.joinedTables ∧ j.tables = JoinedName.sorted ts := by
  have hplan := planFor_of_ofSchema_eq_ok hk hp
  have hfound : ∀ j, p.joinedTableFor? ts = some j → j ∈ p.joinedTables ∧ j.tables = JoinedName.sorted ts := by
    intro j hj
    exact ⟨List.mem_of_find?_eq_some hj, by simpa using List.find?_some hj⟩
  refine ⟨?_, ?_, hfound⟩
  · apply List.find?_congr
    intro j hj
    rw [Bool.eq_iff_iff, beq_iff_eq, beq_iff_eq]
    exact (hplan.name_eq_iff hj hts).symm
  · have hexists : (∃ j, p.joinedTableFor? ts = some j) ↔ ∃ j ∈ p.joinedTables, j.tables = JoinedName.sorted ts := by
      rw [← Option.isSome_iff_exists, joinedTableFor?, List.find?_isSome]
      simp only [beq_iff_eq]
    rw [hexists, hplan.exists_tables_eq_iff]
    refine and_congr_right fun hnodup => ?_
    rw [← List.toFinset_card_of_nodup hnodup]
    exact ⟨fun h => ⟨h.joinable, h.two_le, h.le⟩, fun h => ⟨h.1, h.2.1, h.2.2⟩⟩

/-- Loans and books are found both ways; loans, books and books again are found neither way. -/
theorem library_lookups : 1 ≤ 3 ∧ (∀ t ∈ ["loan", "book"], TableName.isValid t = true) ∧
    (∀ t ∈ ["loan", "book", "book"], TableName.isValid t = true) ∧ ∃ p, (ofSchema library 3).outcome = .ok p ∧
    (∃ j, p.joinedTableFor? ["loan", "book"] = some j ∧
      p.joinedTable? (JoinedName.ofTables ["loan", "book"]) = some j) ∧
    p.joinedTableFor? ["loan", "book", "book"] = none ∧
    p.joinedTable? (JoinedName.ofTables ["loan", "book", "book"]) = none := by
  obtain ⟨p, hp⟩ := library_eq_ok
  have hpair : ∀ t ∈ ["loan", "book"], TableName.isValid t = true := by decide
  have htwice : ∀ t ∈ ["loan", "book", "book"], TableName.isValid t = true := by decide
  obtain ⟨hsame, hfinds, _⟩ := lookups_agree (by decide) hp hpair
  obtain ⟨hsame', hfinds', _⟩ := lookups_agree (by decide) hp htwice
  have hset : (["loan", "book"] : List String).toFinset = {"book", "loan"} := by decide
  obtain ⟨j, hj⟩ := hfinds.2 ⟨by decide, hset ▸ library_isJoinable_two, by decide, by decide⟩
  have hnone : p.joinedTableFor? ["loan", "book", "book"] = none := by
    rw [Option.eq_none_iff_forall_ne_some]
    intro j hj
    have hnodup := (hfinds'.1 ⟨j, hj⟩).1
    simp at hnodup
  exact ⟨by decide, hpair, htwice, p, hp, ⟨j, hj, hsame ▸ hj⟩, hnone, hsame' ▸ hnone⟩

end Plan
end JoinShapes
