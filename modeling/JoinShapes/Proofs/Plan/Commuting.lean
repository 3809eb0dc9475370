import JoinShapes.Proofs.Plan.Reachability

/-!
# Joins in either order

Two groups that can be joined to one owner, have no table in common and fit into the bound together can be joined one
after the other, in either order. Joining the first does not take away the second (`CanJoin.after`): its entry stands
at the wider joined table, too, under the method of the same name, and both orders end in the joined table of all three
sets (`PlanFor.step_after`). `ofSchema_commutes` says so of every owner of a plan and any two of its entries.
-/

namespace JoinShapes
namespace Plan

variable {s : Schema} {k : Nat} {p : Plan} {j : JoinedTable} {r r₁ r₂ : RefJoinedTable} {rs : List RefJoinedTable}
variable {O H H₁ H₂ : Finset String}

/-- The tables of an owner of entries, and its entries: it is a table or a joined table of the plan. -/
inductive Owner (p : Plan) : Finset String → List RefJoinedTable → Prop
  | table {t : PlannedTable} : t ∈ p.tables → Owner p {t.name} t.refJoinedTables
  | joined {g : JoinedTable} : g ∈ p.joinedTables → Owner p g.tables.toFinset g.refJoinedTables

/-- One of the entries leads to the joined table `j`, through the group `tables` and by the method `accessor`. -/
def Offers (p : Plan) (rs : List RefJoinedTable) (tables : List String) (accessor : String) (j : JoinedTable) : Prop :=
  ∃ r ∈ rs, r.tables = tables ∧ r.accessor = accessor ∧ p.joinedTable? r.joinedTable = some j

/-- **A group can still be joined after another one**, if the two are apart and there is room for both. -/
theorem CanJoin.after (h₁ : CanJoin s k O H₁) (h₂ : CanJoin s k O H₂) (hdisj : Disjoint H₁ H₂)
    (hfits : O.card + H₁.card + H₂.card ≤ k) : CanJoin s k (O ∪ H₁) H₂ where
  joinable := h₂.joinable
  disjoint := Finset.disjoint_union_left.2 ⟨h₂.disjoint, hdisj⟩
  adjacent := by
    obtain ⟨a, ha, b, hb, hab⟩ := h₂.adjacent
    exact ⟨a, Finset.mem_union_left H₁ ha, b, hb, hab⟩
  fits := by
    rw [Finset.card_union_of_disjoint h₁.disjoint]
    exact hfits

namespace PlanFor

/-- **The entries of an owner** are those of a joinable set. -/
theorem entriesFor_of_owner (hp : PlanFor s k p) (h : p.Owner O rs) : s.IsJoinable O ∧ EntriesFor s k O rs := by
  cases h with
  | table ht =>
    obtain ⟨t, hts, hrecord⟩ := exists_mem_left_of_forall₂ hp.tables ht
    rw [hrecord.name]
    exact ⟨isJoinable_singleton ⟨t, hts, rfl⟩, hrecord.refJoinedTables⟩
  | joined hg =>
    obtain ⟨S, hS, hrecord⟩ := hp.sound hg
    rw [hrecord.toFinset_tables]
    exact ⟨hS.joinable, hrecord.refJoinedTables⟩

/-- **Each group that can be joined leads to a joined table**, that of the owner and the group together. -/
theorem exists_offers (hp : PlanFor s k p) (hO : s.IsJoinable O) (hH : CanJoin s k O H) :
    ∃ j, p.joinedTable? (groupEntry O H).joinedTable = some j ∧ JoinedTableFor s k (O ∪ H) j ∧
      ∀ rs, EntriesFor s k O rs → p.Offers rs H.sort (JoinedName.accessor H.sort) j := by
  have hrecorded := hH.recorded hO
  obtain ⟨j, hj, hrecord⟩ := hp.complete hrecorded
  have hfound : p.joinedTable? (groupEntry O H).joinedTable = some j :=
    (hp.joinedTable?_eq_some_iff hrecorded).2 ⟨hj, hrecord⟩
  refine ⟨j, hfound, hrecord, ?_⟩
  intro rs hrs
  exact ⟨groupEntry O H, hrs.mem_iff.2 ⟨H, hH, rfl⟩, rfl, rfl, hfound⟩

/-- **One step after another**: the first leads to a joined table from where the second leads to that of all three
sets, through the group and by the method that it has at the owner. -/
theorem step_after (hp : PlanFor s k p) (hO : s.IsJoinable O) (h₁ : CanJoin s k O H₁) (h₂ : CanJoin s k O H₂)
    (hdisj : Disjoint H₁ H₂) (hfits : O.card + H₁.card + H₂.card ≤ k) :
    ∃ i j, p.joinedTable? (groupEntry O H₁).joinedTable = some i ∧ JoinedTableFor s k (O ∪ H₁ ∪ H₂) j ∧
      p.Offers i.refJoinedTables H₂.sort (JoinedName.accessor H₂.sort) j := by
  obtain ⟨i, hfound, hrecord, _⟩ := hp.exists_offers hO h₁
  have hjoin := h₁.after h₂ hdisj hfits
  obtain ⟨j, _, hrecord', hoffers⟩ := hp.exists_offers (h₁.recorded hO).joinable hjoin
  exact ⟨i, j, hfound, hrecord', hoffers _ hrecord.refJoinedTables⟩

end PlanFor

/-- **Entries of one owner commute.** If two of them have groups without a common table, and there is room for both,
each group is still offered after the other, by the method of the same name, and both orders lead to one joined table:
that of the owner and the two groups. -/
theorem ofSchema_commutes (hk : 1 ≤ k) (hp : (ofSchema s k).outcome = .ok p) (hO : p.Owner O rs) (h₁ : r₁ ∈ rs)
    (h₂ : r₂ ∈ rs) (hdisj : Disjoint r₁.tables.toFinset r₂.tables.toFinset)
    (hfits : O.card + r₁.tables.length + r₂.tables.length ≤ k) :
    ∃ j₁ j₂ j, p.joinedTable? r₁.joinedTable = some j₁ ∧ p.joinedTable? r₂.joinedTable = some j₂ ∧
      p.Offers j₁.refJoinedTables r₂.tables r₂.accessor j ∧ p.Offers j₂.refJoinedTables r₁.tables r₁.accessor j ∧
      j.tables.toFinset = O ∪ r₁.tables.toFinset ∪ r₂.tables.toFinset := by
  have hplan := planFor_of_ofSchema_eq_ok hk hp
  obtain ⟨hjoinable, hentries⟩ := hplan.entriesFor_of_owner hO
  obtain ⟨H₁, hH₁, rfl⟩ := hentries.mem_iff.1 h₁
  obtain ⟨H₂, hH₂, rfl⟩ := hentries.mem_iff.1 h₂
  simp only [groupEntry, Finset.sort_toFinset, Finset.length_sort] at hdisj hfits
  have hfits' : O.card + H₂.card + H₁.card ≤ k := by omega
  obtain ⟨j₁, j, hfound₁, hj, hoffers₁⟩ := hplan.step_after hjoinable hH₁ hH₂ hdisj hfits
  obtain ⟨j₂, j', hfound₂, hj', hoffers₂⟩ := hplan.step_after hjoinable hH₂ hH₁ hdisj.symm hfits'
  -- Both ends have a record for the same set, and a set has only one.
  rw [Finset.union_right_comm] at hj'
  obtain rfl : j = j' := hj.unique hj'
  refine ⟨j₁, j₂, j, hfound₁, hfound₂, hoffers₁, hoffers₂, ?_⟩
  rw [hj.toFinset_tables, groupEntry, groupEntry, Finset.sort_toFinset, Finset.sort_toFinset]

theorem library_canJoin_book {a : String} (ha : a = "author" ∨ a = "loan") : CanJoin library 3 {"book"} {a} := by
  have hab : library.Refers "book" a ∨ library.Refers a "book" := by
    rcases ha with rfl | rfl
    · exact .inl library_refers.1
    · exact .inr library_refers.2
  have hnamed : ∃ t ∈ library.tables, t.name = a := by
    rcases ha with rfl | rfl <;> simp [library]
  have hne : "book" ≠ a := by
    rcases ha with rfl | rfl <;> decide
  refine ⟨isJoinable_singleton hnamed, Finset.disjoint_singleton.2 hne, ⟨"book", by simp, a, by simp, hab⟩, ?_⟩
  rw [Finset.card_singleton, Finset.card_singleton]
  decide

/-- Authors and loans are joined to books in either order. -/
theorem library_commutes : 1 ≤ 3 ∧ ∃ p, (ofSchema library 3).outcome = .ok p ∧ ∃ rs, p.Owner {"book"} rs ∧
    ∃ r₁ ∈ rs, ∃ r₂ ∈ rs, Disjoint r₁.tables.toFinset r₂.tables.toFinset ∧
      ({"book"} : Finset String).card + r₁.tables.length + r₂.tables.length ≤ 3 ∧
      ∃ j₁ j₂ j, p.joinedTable? r₁.joinedTable = some j₁ ∧ p.joinedTable? r₂.joinedTable = some j₂ ∧
        p.Offers j₁.refJoinedTables r₂.tables r₂.accessor j ∧ p.Offers j₂.refJoinedTables r₁.tables r₁.accessor j ∧
        j.tables.toFinset = {"book"} ∪ r₁.tables.toFinset ∪ r₂.tables.toFinset := by
  obtain ⟨p, hp⟩ := library_eq_ok
  have hplan := planFor_of_ofSchema_eq_ok (by decide) hp
  obtain ⟨r, hr, hrecord⟩ := exists_mem_right_of_forall₂ hplan.tables
    (a := ⟨"book", [], ["id"], [⟨"author_id", "author", "id"⟩]⟩) (by simp [library])
  have howner : p.Owner {"book"} r.refJoinedTables := by
    have hname : r.name = "book" := hrecord.name
    exact hname ▸ Owner.table hr
  have h₁ := hrecord.refJoinedTables.mem_iff.2 ⟨{"author"}, library_canJoin_book (.inl rfl), rfl⟩
  have h₂ := hrecord.refJoinedTables.mem_iff.2 ⟨{"loan"}, library_canJoin_book (.inr rfl), rfl⟩
  have hdisj : Disjoint (groupEntry {"book"} {"author"}).tables.toFinset
      (groupEntry {"book"} {"loan"}).tables.toFinset := by
    simp [groupEntry]
  have hfits : ({"book"} : Finset String).card + (groupEntry {"book"} {"author"}).tables.length +
      (groupEntry {"book"} {"loan"}).tables.length ≤ 3 := by
    simp [groupEntry]
  exact ⟨by decide, p, hp, _, howner, _, h₁, _, h₂, hdisj, hfits,
    ofSchema_commutes (by decide) hp howner h₁ h₂ hdisj hfits⟩

end Plan
end JoinShapes
