import JoinShapes.Proofs.JoinGraph.Exact

/-!
# What each phase adds

A run goes through its phases with the store in a known state after each of them. Seeding gives the single tables in
order, and growth the shapes short of the bound, each once (`Grown`). So whatever the later phases come upon is stored
already unless it has full width, and both kinds of linking add combinations of full width only (`linkTables_full`,
`linkCombinations_full`).

Where neighbours always name each other, a table that can be taken away from a shape names one of the rest. Then the
edges of the tables lead to all shapes of full width, and linking combinations finds nothing to add
(`complete_of_mutual`). The theorem about all phases is `phases_settle`.
-/

namespace JoinShapes
namespace JoinGraph

open Store
open TableNode (Adjacent Placed)

variable {nodes : List TableNode} {k w : Nat} {s t : Store}

/-- Every table that another one names as a neighbour names it, too. -/
def Mutual (nodes : List TableNode) : Prop := ∀ i j, Adjacent nodes i j ↔ Adjacent nodes j i

/-! ## Linking adds full width only -/

/-- **Past the shapes short of the bound** only shapes of full width can come. -/
theorem extends_full (hc : s.Complete nodes (k - 1)) (hst : Extends (fun _ => True) s t) (ht : t.Sound nodes k) :
    Extends (·.width = k) s t := by
  refine hst.appends fun id c hid hget => ?_
  have hat : t.At id c.members := ⟨c, hget, rfl⟩
  have hwide := ht.lt_size_of_complete hst hc hat hid
  exact Nat.le_antisymm (ht.size_le hat) (Nat.le_of_pred_lt hwide)

/-- Past all shapes up to the bound nothing comes. -/
theorem combinations_eq_of_complete (hc : s.Complete nodes k) (hst : Extends (fun _ => True) s t)
    (ht : t.Sound nodes k) : t.combinations = s.combinations := by
  refine Extends.combinations_eq (hst.appends fun id c hid hget => ?_)
  have hat : t.At id c.members := ⟨c, hget, rfl⟩
  exact absurd (ht.size_le hat) (Nat.not_le.2 (ht.lt_size_of_complete hst hc hat hid))

/-- **Linking tables** adds combinations of full width only, and gives the tables their edges. -/
theorem linkTables_full (hp : Placed nodes) (hs : s.Sound nodes k) (hc : s.Complete nodes (k - 1)) :
    Settles (Clash nodes k) (linkTables nodes.toArray s) fun r => r.1.Sound nodes k ∧ Extends (·.width = k) s r.1 ∧
      ∀ i < nodes.length, ∃ edges, Navigates nodes k r.1 (.singleton i) edges := by
  refine (linkTables_settles hp hs hc).mono fun r hr => ?_
  obtain ⟨hsound, hext, hedges⟩ := hr
  refine ⟨hsound, extends_full hc hext hsound, fun i hi => ?_⟩
  obtain ⟨edges, _, hnav⟩ := tableEdges_navigate hp hedges hi
  exact ⟨edges, hnav⟩

/-- **Linking combinations** adds combinations of full width only, and none if all of them are there. -/
theorem linkCombinations_full (hs : s.Sound nodes k) (hc : s.Complete nodes (k - 1)) :
    Settles (Clash nodes k) (linkCombinations s) fun r => r.1.Sound nodes k ∧ Extends (·.width = k) s r.1 ∧
      (s.Complete nodes k → r.1.combinations = s.combinations) := by
  refine (linkCombinations_settles hs hc).mono fun r hr => ?_
  obtain ⟨hsound, hext, _⟩ := hr
  exact ⟨hsound, extends_full hc hext hsound, fun hfull => combinations_eq_of_complete hfull hext hsound⟩

/-- **The edges of the tables are enough** where neighbours name each other. -/
theorem complete_of_mutual (hmutual : Mutual nodes) (hk : 2 ≤ k) (hc : s.Complete nodes (k - 1))
    (htable : ∀ i < nodes.length, ∃ edges, Navigates nodes k s (.singleton i) edges) : s.Complete nodes k := by
  intro m hm hw
  rcases Nat.lt_or_ge (k - 1) m.size with hlt | hle
  · obtain ⟨v, hv, hrest, u, hu, huv⟩ := hm.exists_removable (by omega)
    have hnames : Adjacent nodes v u := huv.elim id (hmutual u v).1
    obtain ⟨edges, hnav⟩ := htable v (hm.inside v hv)
    exact hnav.holds_whole hv hw hrest hu hnames
  · exact hc m hm hle

/-! ## Runs -/

/-- The store after the growth of a run has all shapes short of the bound. -/
theorem Grown.complete_pred (h : Grown nodes k (1 + (k - 2)) s) : s.Complete nodes (k - 1) :=
  h.complete.of_le (by omega)

/-- **The store of a finished run stands in layers.** -/
theorem run_layered (hp : Placed nodes) (hk : 1 ≤ k) :
    Settles (Clash nodes k) (run nodes.toArray (.empty nodes.length k)).outcome fun g => Layered k g.store := by
  rw [outcome_run]
  refine (seed_settles hp hk).bind fun s₀ hs₀ => ?_
  have hone := grown_one_of_seeded hs₀.1 hs₀.2
  refine (growThrough_settles hp (k - 2) 1 s₀ (Nat.le_refl 1) (by omega) hone).bind fun s₁ hs₁ => ?_
  refine (linkTables_full hp hs₁.sound hs₁.complete_pred).bind fun r₂ hr₂ => ?_
  obtain ⟨hsound₂, hext₂, _⟩ := hr₂
  refine (linkCombinations_full hsound₂ (hs₁.complete_pred.mono hext₂)).bind fun r₃ hr₃ => ?_
  exact (hs₁.layered.extends (by omega) hext₂).extends (Nat.le_refl k) hr₃.2.1

/-- **What each phase of a run leaves behind**, as far as no two shapes have one fingerprint.

Seeding gives the single tables in order. Growing through the widths from 2 to `w` gives exactly the shapes of at most
`w` tables, each once. Linking tables and linking combinations add combinations of full width only, and the latter none
where neighbours name each other. So the positions of a finished run go by width. -/
theorem phases_settle (hp : Placed nodes) (hk : 1 ≤ k) :
    (Settles (Clash nodes k) (seed (.empty nodes.length k) nodes.toArray) fun s₀ =>
      s₀.combinations.toList.map (·.members) = (List.range nodes.length).map .singleton ∧
      (∀ w, 1 ≤ w → w < k →
        Settles (Clash nodes k) (growThrough nodes.toArray (List.range' 2 (w - 1)) s₀).outcome fun s =>
          (∀ m, s.Holds m ↔ IsShape nodes m ∧ m.size ≤ w) ∧ (s.combinations.toList.map (·.members)).Nodup) ∧
      Settles (Clash nodes k) (growThrough nodes.toArray (List.range' 2 (k - 2)) s₀).outcome fun s₁ =>
        Settles (Clash nodes k) (linkTables nodes.toArray s₁) fun r₂ =>
          Extends (·.width = k) s₁ r₂.1 ∧
          Settles (Clash nodes k) (linkCombinations r₂.1) fun r₃ =>
            Extends (·.width = k) r₂.1 r₃.1 ∧ (Mutual nodes → r₃.1.combinations = r₂.1.combinations)) ∧
    ∀ g, (ofNodes nodes k).outcome = .ok g → (g.store.combinations.toList.map Combination.width).Pairwise (· ≤ ·) := by
  refine ⟨(seed_settles hp hk).mono fun s₀ hs₀ => ?_, fun g hg => ?_⟩
  swap
  · exact ((Stops.of_run hp hk (run_layered hp hk)).of_ok hg).ascending
  obtain ⟨hsound₀, hseeded⟩ := hs₀
  have hone := grown_one_of_seeded hsound₀ hseeded
  refine ⟨hseeded, fun w hpos hw => ?_, ?_⟩
  · refine (growThrough_settles hp (w - 1) 1 s₀ (Nat.le_refl 1) (by omega) hone).mono fun s hs => ?_
    rw [Nat.add_sub_cancel' hpos] at hs
    exact ⟨fun m => hs.holds_iff, hs.sound.coherent.nodup_members⟩
  · refine (growThrough_settles hp (k - 2) 1 s₀ (Nat.le_refl 1) (by omega) hone).mono fun s₁ hs₁ => ?_
    refine (linkTables_full hp hs₁.sound hs₁.complete_pred).mono fun r₂ hr₂ => ?_
    obtain ⟨hsound₂, hext₂, htable⟩ := hr₂
    have hc₂ := hs₁.complete_pred.mono hext₂
    refine ⟨hext₂, (linkCombinations_full hsound₂ hc₂).mono fun r₃ hr₃ => ⟨hr₃.2.1, fun hmutual => hr₃.2.2 ?_⟩⟩
    -- With a bound of one the single tables are everything already.
    rcases Nat.lt_or_ge k 2 with hk1 | hk2
    · exact (hs₁.complete.mono hext₂).of_le (by omega)
    · exact complete_of_mutual hmutual hk2 hc₂ htable

/-- Three tables in a row; those next to each other name each other. -/
def row : List TableNode := [⟨0, .ofList [1], .empty⟩, ⟨1, .ofList [2], .ofList [0]⟩, ⟨2, .empty, .ofList [1]⟩]

theorem placed_row : Placed row where
  index {i n} hn := by
    match i with
    | 0 | 1 | 2 =>
      cases hn
      rfl
    | i + 3 => cases hn
  near := by simp [row, TableNode.neighbors]

theorem adjacent_row_iff {i j : Nat} : Adjacent row i j ↔ (i + 1 = j ∨ j + 1 = i) ∧ i < 3 ∧ j < 3 := by
  match i with
  | 0 | 1 | 2 =>
    rw [adjacent_iff rfl, TableNode.neighbors, IndexSet.mem_union]
    simp only [IndexSet.mem_ofList, IndexSet.not_mem_empty, List.mem_singleton, or_false, false_or]
    omega
  | i + 3 =>
    refine iff_of_false ?_ (by omega)
    rintro ⟨n, hn, _⟩
    cases hn

theorem mutual_row : Mutual row := by
  intro i j
  rw [adjacent_row_iff, adjacent_row_iff]
  omega

/-- In the row, linking tables finds the three tables together, and linking combinations has nothing to add. -/
theorem row_phases : Placed row ∧ 1 ≤ 3 ∧ Mutual row ∧ ∃ s₀ s₁ r₂ r₃,
    seed (.empty row.length 3) row.toArray = .ok s₀ ∧ (growThrough row.toArray [2] s₀).outcome = .ok s₁ ∧
    linkTables row.toArray s₁ = .ok r₂ ∧ linkCombinations r₂.1 = .ok r₃ ∧
    (∀ m, s₁.Holds m ↔ IsShape row m ∧ m.size ≤ 2) ∧ Extends (·.width = 3) s₁ r₂.1 ∧
    r₃.1.combinations = r₂.1.combinations := by
  have hexact : 3 ≤ Fingerprint.maxExactWidth row.length := Fingerprint.le_maxExactWidth (by decide) (by decide)
  have hclash : ∀ e, ¬ Clash row 3 e := fun e => not_clash_of_le_maxExactWidth hexact
  obtain ⟨hphases, _⟩ := phases_settle placed_row (show 1 ≤ 3 by decide)
  obtain ⟨s₀, hseed, _, hgrown, hlinked⟩ := hphases.exists_ok_of_not hclash
  obtain ⟨s₁, hgrow, htables⟩ := hlinked.exists_ok_of_not hclash
  have hshapes := (hgrown 2 (by decide) (by decide)).of_ok hgrow
  obtain ⟨r₂, hlink₂, hext, hcombinations⟩ := htables.exists_ok_of_not hclash
  obtain ⟨r₃, hlink₃, _, hsame⟩ := hcombinations.exists_ok_of_not hclash
  exact ⟨placed_row, by decide, mutual_row, s₀, s₁, r₂, r₃, hseed, hgrow, hlink₂, hlink₃, hshapes.1, hext,
    hsame mutual_row⟩

end JoinGraph
end JoinShapes
