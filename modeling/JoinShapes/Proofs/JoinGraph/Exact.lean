import JoinShapes.JoinGraph
import JoinShapes.Proofs.Fingerprint
import JoinShapes.Proofs.JoinGraph.Growth
import JoinShapes.Proofs.JoinGraph.Links

/-!
# Runs are exact

A finished run stores exactly the shapes up to the width bound, each once, and its edges lead exactly to the partners
(`Exact`, `run_settles`). It starts only where there is room for its store, and then it stops only where two shapes
clash (`Stops`, `ofNodes_settles`). Growth stops one short of the bound. The shapes of full width come from linking: a table
that can be taken away either names one of the others, and then its own edges lead to the whole, or it is named by one
of them, and then the edges of the rest do (`complete_of_navigates`).
-/

namespace JoinShapes
namespace JoinGraph

open Store
open TableNode (Adjacent Placed)

variable {nodes : List TableNode} {k w v i j id : Nat} {s t : Store} {g : JoinGraph} {m o p : IndexSet}
variable {edges : EdgeSet}

/-! ## Full width -/

theorem Navigates.holds (h : Navigates nodes k s o edges) (hp : Partner nodes k o p) : s.Holds (o.union p) := by
  obtain ⟨f, _, hlead⟩ := h.complete p hp
  exact ⟨f.result, hlead.result⟩

/-- A shape is a partner of a set apart from it that names one of its tables. -/
theorem partner_of_adjacent (hp : IsShape nodes p) (hfits : Fits k o p) (hi : i ∈ o) (hj : j ∈ p)
    (hij : Adjacent nodes i j) : Partner nodes k o p := ⟨hp, hfits, i, hi, j, hj, hij⟩

theorem fits_singleton (hv : v ∈ m) (hm : m.size ≤ k) : Fits k (.singleton v) (m.sdiff (.singleton v)) := by
  have hsize := IndexSet.size_sdiff_singleton hv
  refine ⟨fun i hi hrest => (IndexSet.mem_sdiff.1 hrest).2 hi, ?_⟩
  rw [IndexSet.size_singleton]
  omega

theorem Fits.symm (h : Fits k o p) : Fits k p o := ⟨fun i hi ho => h.1 i ho hi, by rw [Nat.add_comm]; exact h.2⟩

/-- The edges of a table lead to the shapes that have it and something that it names. -/
theorem Navigates.holds_whole (h : Navigates nodes k s (.singleton v) edges) (hv : v ∈ m) (hw : m.size ≤ k)
    (hrest : IsShape nodes (m.sdiff (.singleton v))) (hj : j ∈ m.sdiff (.singleton v)) (hvj : Adjacent nodes v j) :
    s.Holds m := by
  have hpartner := partner_of_adjacent hrest (fits_singleton hv hw) (IndexSet.mem_singleton.2 rfl) hj hvj
  have hwhole : (IndexSet.singleton v).union (m.sdiff (.singleton v)) = m := IndexSet.insert_sdiff_singleton hv
  have hheld := h.holds hpartner
  rwa [hwhole] at hheld

/-- **Linking completes the bound**: when all narrower shapes are stored, the edges lead to those of full width. -/
theorem complete_of_navigates (hc : s.Complete nodes (k - 1)) (hk : 2 ≤ k)
    (htable : ∀ i < nodes.length, ∃ edges, Navigates nodes k s (.singleton i) edges)
    (hcombination : ∀ m, s.Holds m → 2 ≤ m.size → ∃ edges, Navigates nodes k s m edges) : s.Complete nodes k := by
  intro m hm hw
  rcases Nat.lt_or_ge (k - 1) m.size with hlt | hle
  · obtain ⟨v, hv, hrest, u, hu, huv⟩ := hm.exists_removable (by omega)
    have hsize := IndexSet.size_sdiff_singleton hv
    have hvlt : v < nodes.length := hm.inside v hv
    rcases huv with h | h
    · -- The table names one of the rest.
      obtain ⟨edges, hnav⟩ := htable v hvlt
      exact hnav.holds_whole hv hw hrest hu h
    · -- One of the rest names the table; a rest of one table has its edges as a table.
      have hv' : v ∈ IndexSet.singleton v := IndexSet.mem_singleton.2 rfl
      have hpartner := partner_of_adjacent (IsShape.singleton hvlt) (fits_singleton hv hw).symm hu hv' h
      have hwhole : (IndexSet.singleton v).union (m.sdiff (.singleton v)) = m := IndexSet.insert_sdiff_singleton hv
      have hnav : ∃ edges, Navigates nodes k s (m.sdiff (.singleton v)) edges := by
        rcases Nat.lt_or_ge 1 (m.sdiff (.singleton v)).size with hwide | hsingle
        · exact hcombination _ (hc _ hrest (by omega)) hwide
        · obtain ⟨a, ha⟩ := IndexSet.eq_singleton_of_size (Nat.le_antisymm hsingle hrest.size_pos)
          rw [ha] at hrest ⊢
          exact htable a (hrest.inside a (IndexSet.mem_singleton.2 rfl))
      obtain ⟨edges, hnav⟩ := hnav
      have hheld := hnav.holds hpartner
      rwa [IndexSet.union_comm, hwhole] at hheld
  · exact hc m hm hle

/-! ## Phases in a row -/

theorem check_eq_ok (hp : Placed nodes) (hk : 1 ≤ k) : check nodes k = .ok () := by
  have hnone : misplaced? nodes = none := by
    rw [misplaced?, Option.map_eq_none_iff, List.find?_eq_none]
    rintro ⟨n, i⟩ hni
    have hn : nodes[i]? = some n := List.mk_mem_zipIdx_iff_getElem?.1 hni
    simp [hp.index hn]
  rw [check, if_neg (by omega), hnone]

/-- A finished run stores exactly the shapes of at most `k` tables, and its edges are exact. -/
structure Exact (nodes : List TableNode) (k : Nat) (g : JoinGraph) : Prop where
  nodes_eq : g.nodes = nodes.toArray
  joinNum_eq : g.joinNum = k
  sound : g.store.Sound nodes k
  complete : g.store.Complete nodes k
  tableEdges : ∀ {i : Nat}, i < nodes.length →
    ∃ edges, g.tableEdges[i]? = some edges ∧ Navigates nodes k g.store (.singleton i) edges
  combinationEdges : ∀ {id : Nat} {m : IndexSet}, g.store.At id m → 2 ≤ m.size →
    Navigates nodes k g.store m (g.edgesOf id)

/-- The edges of the combinations at the start of the last phase are exact for those that it adds, too. -/
theorem combinationEdges_navigate {edgeLists : List EdgeSet} (hc : s.Complete nodes (k - 1))
    (hst : Extends (fun _ => True) s t) (ht : t.Sound nodes k)
    (hedges : List.Forall₂ (fun id edges => ∃ m, t.At id m ∧ (2 ≤ m.size → Navigates nodes k t m edges))
      (List.range s.size) edgeLists) (hm : t.At id m) (hw : 2 ≤ m.size) :
    Navigates nodes k t m (edgeLists.toArray[id]?.getD .empty) := by
  rcases Nat.lt_or_ge id s.size with hid | hid
  · obtain ⟨edges, hget, m', hm', hnav⟩ := exists_getElem?_of_forall₂ hedges (List.getElem?_range hid)
    rw [← hm.unique hm'] at hnav
    simpa [hget] using hnav hw
  · -- Past the end there are no edges, but only combinations of full width.
    have hnone : edgeLists[id]? = none := by
      rw [List.getElem?_eq_none_iff, ← hedges.length_eq, List.length_range]
      exact hid
    have hfull := ht.lt_size_of_complete hst hc hm hid
    simpa [hnone] using navigates_empty (Nat.le_of_pred_lt hfull)

/-- The edges of the tables, by table. -/
theorem tableEdges_navigate {edgeLists : List EdgeSet} (hp : Placed nodes)
    (hedges : List.Forall₂ (fun n edges => Navigates nodes k s (.singleton n.index) edges) nodes edgeLists)
    (hi : i < nodes.length) : ∃ edges, edgeLists[i]? = some edges ∧ Navigates nodes k s (.singleton i) edges := by
  have hn : nodes[i]? = some nodes[i] := List.getElem?_eq_getElem hi
  obtain ⟨edges, hget, hnav⟩ := exists_getElem?_of_forall₂ hedges hn
  rw [hp.index hn] at hnav
  exact ⟨edges, hget, hnav⟩

/-- **What a run is**, apart from its entries: one phase after the other. -/
theorem outcome_run (nodes : List TableNode) (s : Store) : (run nodes.toArray s).outcome = do
    let s₀ ← seed s nodes.toArray
    let s₁ ← (growThrough nodes.toArray (List.range' 2 (s.joinNum - 2)) s₀).outcome
    let r₂ ← linkTables nodes.toArray s₁
    let r₃ ← linkCombinations r₂.1
    return ⟨nodes.toArray, s.joinNum, r₃.1, r₂.2.toArray, r₃.2.toArray⟩ := by
  simp only [run, Journaled.outcome_bind, Journaled.outcome_ofExcept, Journaled.outcome_note, Journaled.outcome_pure]
  rfl

/-- **A run is exact**, and its only possible error is that two shapes have one fingerprint. -/
theorem run_settles (hp : Placed nodes) (hk : 1 ≤ k) :
    Settles (Clash nodes k) (run nodes.toArray (.empty nodes.length k)).outcome (Exact nodes k) := by
  rw [outcome_run]
  refine (seed_settles hp hk).bind fun s₀ hs₀ => ?_
  have hone := grown_one_of_seeded hs₀.1 hs₀.2
  refine (growThrough_settles hp (k - 2) 1 s₀ (Nat.le_refl 1) (by omega) hone).bind fun s₁ hs₁ => ?_
  have hc₁ : s₁.Complete nodes (k - 1) := hs₁.complete.of_le (by omega)
  refine (linkTables_settles hp hs₁.sound hc₁).bind fun r₂ hr₂ => ?_
  obtain ⟨hsound₂, hext₂, htable⟩ := hr₂
  have hc₂ := hc₁.mono hext₂
  refine (linkCombinations_settles hsound₂ hc₂).bind fun r₃ hr₃ => ?_
  obtain ⟨hsound₃, hext₃, hcombination⟩ := hr₃
  have htable' : ∀ {i : Nat}, i < nodes.length →
      ∃ edges, r₂.2[i]? = some edges ∧ Navigates nodes k r₃.1 (.singleton i) edges := by
    intro i hi
    obtain ⟨edges, hget, hnav⟩ := tableEdges_navigate hp htable hi
    exact ⟨edges, hget, hnav.mono hext₃⟩
  have hcombination' : ∀ {id : Nat} {m : IndexSet}, r₃.1.At id m → 2 ≤ m.size →
      Navigates nodes k r₃.1 m (r₃.2.toArray[id]?.getD .empty) :=
    fun hm hw => combinationEdges_navigate hc₂ hext₃ hsound₃ hcombination hm hw
  refine ⟨rfl, rfl, hsound₃, ?_, fun hi => by simpa using htable' hi, hcombination'⟩
  rcases Nat.lt_or_ge k 2 with hk1 | hk2
  · exact ((hs₁.complete.mono hext₂).mono hext₃).of_le (by omega)
  · refine complete_of_navigates (hc₂.mono hext₃) hk2 (fun i hi => ?_) ?_
    · obtain ⟨edges, _, hnav⟩ := htable' hi
      exact ⟨edges, hnav⟩
    · rintro m ⟨id, hid⟩ hw
      exact ⟨_, hcombination' hid hw⟩

/-! ## Room -/

/-- **A run over nodes in place starts from a fresh store**, if there is room for it. -/
theorem prepare_eq (hp : Placed nodes) (hk : 1 ≤ k) : prepare nodes k = Store.new nodes.length k := by
  rw [prepare, check_eq_ok hp hk, ok_bind]

theorem prepare_eq_ok (hp : Placed nodes) (hk : 1 ≤ k) (h : prepare nodes k = .ok s) : s = .empty nodes.length k :=
  (Store.new_eq_ok_iff.1 ((prepare_eq hp hk).symm.trans h)).2

/-- Where there is room, making it changes nothing. -/
theorem ofNodes_of_hasRoom (hp : Placed nodes) (hk : 1 ≤ k) (hroom : HasRoom nodes.length k) :
    (ofNodes nodes k).outcome = (run nodes.toArray (.empty nodes.length k)).outcome := by
  have hnew := (prepare_eq hp hk).trans (Store.new_eq_ok_iff.2 ⟨hroom, rfl⟩)
  simp only [ofNodes, Journaled.outcome_bind, Journaled.outcome_ofExcept, hnew, ok_bind]

theorem ofNodes_of_not_hasRoom (hp : Placed nodes) (hk : 1 ≤ k) (hroom : ¬ HasRoom nodes.length k) :
    (ofNodes nodes k).outcome = .error .capacityOverflow := by
  have hnew := (prepare_eq hp hk).trans (Store.new_eq_error_iff.2 ⟨rfl, hroom⟩)
  simp only [ofNodes, Journaled.outcome_bind, Journaled.outcome_ofExcept, hnew]
  rfl

/-- Why a run over nodes in place has no result. -/
inductive Stops (nodes : List TableNode) (k : Nat) : PlanError → Prop
  | clash {e : PlanError} : HasRoom nodes.length k → Clash nodes k e → Stops nodes k e
  | overflow : ¬ HasRoom nodes.length k → Stops nodes k .capacityOverflow

/-- What a run ends in where there is room, it ends in. -/
theorem Stops.of_run {Q : JoinGraph → Prop} (hp : Placed nodes) (hk : 1 ≤ k)
    (h : Settles (Clash nodes k) (run nodes.toArray (.empty nodes.length k)).outcome Q) :
    Settles (Stops nodes k) (ofNodes nodes k).outcome Q := by
  by_cases hroom : HasRoom nodes.length k
  · rw [ofNodes_of_hasRoom hp hk hroom]
    exact h.weaken fun e => .clash hroom
  · rw [ofNodes_of_not_hasRoom hp hk hroom]
    exact .overflow hroom

/-- **A run is exact**, or it stops for want of room or at two shapes of one fingerprint. -/
theorem ofNodes_settles (hp : Placed nodes) (hk : 1 ≤ k) :
    Settles (Stops nodes k) (ofNodes nodes k).outcome (Exact nodes k) :=
  Stops.of_run hp hk (run_settles hp hk)

namespace Exact

theorem holds_iff (hg : Exact nodes k g) : g.store.Holds m ↔ IsShape nodes m ∧ m.size ≤ k :=
  ⟨fun ⟨_, hm⟩ => ⟨hg.sound.shape hm, hg.sound.size_le hm⟩, fun ⟨hm, hw⟩ => hg.complete m hm hw⟩

/-- **Every shape of at most `k` tables is stored once.** -/
theorem existsUnique_at (hg : Exact nodes k g) (hm : IsShape nodes m) (hw : m.size ≤ k) : ∃! id, g.store.At id m := by
  obtain ⟨id, hid⟩ := hg.complete m hm hw
  exact ⟨id, hid, fun id' hid' => hg.sound.coherent.at_inj hid' hid⟩

/-- A run with a result has met no two shapes of one fingerprint, because both would have been stored. -/
theorem not_clash (hg : Exact nodes k g) {e : PlanError} : ¬ Clash nodes k e := by
  rintro ⟨a, b, hab, ha, hb, hf, _⟩
  obtain ⟨ida, ha'⟩ := hg.complete a ha.1 ha.2
  obtain ⟨idb, hb'⟩ := hg.complete b hb.1 hb.2
  have hsame := hg.sound.coherent.eq_of_fingerprint_eq ha' hb' (by rw [hg.sound.tableNum, hf])
  exact hab (ha'.unique (hsame ▸ hb'))

end Exact

/-- Up to the greatest exact width no two shapes have one fingerprint. -/
theorem not_clash_of_le_maxExactWidth (hk : k ≤ Fingerprint.maxExactWidth nodes.length) {e : PlanError} :
    ¬ Clash nodes k e := by
  rintro ⟨a, b, hab, ⟨ha, haw⟩, ⟨hb, hbw⟩, hf, _⟩
  exact hab (Fingerprint.eq_of_ofAscending_eq ha.inside hb.inside ha.size_pos hb.size_pos (haw.trans hk)
    (hbw.trans hk) hf)

/-- **A run within the exact widths has a result**, if there is room for its store. -/
theorem ofNodes_eq_ok (hp : Placed nodes) (hk : 1 ≤ k) (hroom : HasRoom nodes.length k)
    (hexact : k ≤ Fingerprint.maxExactWidth nodes.length) :
    ∃ g, (ofNodes nodes k).outcome = .ok g ∧ Exact nodes k g := by
  refine (ofNodes_settles hp hk).exists_ok_of_not ?_
  rintro e (⟨_, hclash⟩ | hno)
  · exact not_clash_of_le_maxExactWidth hexact hclash
  · exact hno hroom

/-! ## The result of a run -/

/-- **A run stores exactly the connected sets**: when it has a result, each connected set of at most `k` tables is
stored once, and whatever is stored is such a set, with the tables that a member names and that are no members. The run
starts where there is room for its store, and then its only error is a collision of fingerprints. -/
theorem ofNodes_stores_connected (hp : Placed nodes) (hk : 1 ≤ k) :
    (∀ g, (ofNodes nodes k).outcome = .ok g →
      (∀ m, IsShape nodes m → m.size ≤ k → ∃! id, g.store.At id m) ∧
      ∀ (id : Nat) (c : Combination), g.store.combinations[id]? = some c →
        (IsShape nodes c.members ∧ c.members.size ≤ k) ∧
          ∀ j, j ∈ c.extensions ↔ (∃ i ∈ c.members, Adjacent nodes i j) ∧ j ∉ c.members) ∧
    (∀ s, prepare nodes k = .ok s →
      ∀ e, (run nodes.toArray s).outcome = .error e → ∃ f a b, e = .collision f a b) ∧
    ∀ e, prepare nodes k = .error e ↔ e = .capacityOverflow ∧ ¬ HasRoom nodes.length k := by
  refine ⟨fun g hout => ?_, fun s hs e hout => ?_, fun e => ?_⟩
  · have hg := (ofNodes_settles hp hk).of_ok hout
    refine ⟨fun m hm hw => hg.existsUnique_at hm hw, fun id c hc => ?_⟩
    have hat : g.store.At id c.members := ⟨c, hc, rfl⟩
    exact ⟨⟨hg.sound.shape hat, hg.sound.size_le hat⟩, fun j => (hg.sound.faithful hc).mem_extensions⟩
  · obtain rfl := prepare_eq_ok hp hk hs
    obtain ⟨a, b, _, _, _, _, rfl⟩ := (run_settles hp hk).of_error hout
    exact ⟨_, _, _, rfl⟩
  · rw [prepare_eq hp hk, Store.new_eq_error_iff]

/-- One table that names two others, none of which names a table. -/
def fan : List TableNode :=
  [⟨0, .ofList [1, 2], .empty⟩, ⟨1, .empty, .empty⟩, ⟨2, .empty, .empty⟩]

theorem placed_fan : Placed fan where
  index {i n} hn := by
    match i with
    | 0 | 1 | 2 =>
      cases hn
      rfl
    | i + 3 => cases hn
  near := by simp [fan, TableNode.neighbors]

/-- The tables of the fan. -/
def fanTables : IndexSet := .insert 2 (.insert 1 (.singleton 0))

theorem isShape_fanTables : IsShape fan fanTables := by
  have h01 : Adjacent fan 0 1 := ⟨_, rfl, by simp [TableNode.neighbors]⟩
  have h02 : Adjacent fan 0 2 := ⟨_, rfl, by simp [TableNode.neighbors]⟩
  have hone : IsShape fan (.insert 1 (.singleton 0)) :=
    (IsShape.singleton (by decide)).insert (by decide) (IndexSet.mem_singleton.2 rfl) (.inl h01)
  exact hone.insert (by decide) (by simp) (.inl h02)

theorem size_fanTables : fanTables.size = 3 := by
  rw [fanTables, IndexSet.size_insert (by simp), IndexSet.size_insert (by simp), IndexSet.size_singleton]

/-- All three tables of the fan are stored together, though the two outer ones name nothing. -/
theorem ofNodes_stores_fanTables : Placed fan ∧ 1 ≤ 3 ∧
    ∃ g, (ofNodes fan 3).outcome = .ok g ∧ ∃! id, g.store.At id fanTables := by
  have hexact : 3 ≤ Fingerprint.maxExactWidth fan.length := Fingerprint.le_maxExactWidth (by decide) (by decide)
  obtain ⟨g, hg, _⟩ := ofNodes_eq_ok placed_fan (by decide) (by decide) hexact
  refine ⟨placed_fan, by decide, g, hg, ?_⟩
  exact ((ofNodes_stores_connected placed_fan (by decide)).1 g hg).1 _ isShape_fanTables size_fanTables.le

end JoinGraph
end JoinShapes
