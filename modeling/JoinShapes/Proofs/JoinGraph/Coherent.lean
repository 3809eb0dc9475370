import JoinShapes.JoinGraph
import JoinShapes.Proofs.Settles
import JoinShapes.Proofs.Shape
import JoinShapes.Proofs.Store.Insertions

/-!
# Runs keep their stores coherent

The nodes of a run stand at their indexes, and that is all it asks of them: their neighbours may be any positions, or
none. A combination is made of indexes only, so whatever a phase adds belongs to the store, and the store stays coherent
(`Store.Kept`). So the store of a finished run is coherent, for whichever nodes (`ofNodes_coherent`): each combination
is stored once, and none is empty. That also holds of a graph that shares no more than its combinations with a run
(`OfRun`).
-/

namespace JoinShapes

variable {n k w id : Nat} {s : Store} {c d : Combination} {m near : IndexSet} {node : TableNode} {phase : Phase}
variable {nodes : List TableNode}

namespace Combination

theorem belongsTo_ofParts (h : ∀ i ∈ m, i < n) : (ofParts m near).BelongsTo n where
  inside := h
  memo f hf := by cases hf

/-- Members and a table make a combination of tables. -/
theorem BelongsTo.grow (hc : c.BelongsTo n) (hi : node.index < n) (h : c.grow node = some d) : d.BelongsTo n := by
  obtain ⟨_, rfl⟩ := grow_eq_some h
  refine belongsTo_ofParts fun i hmem => ?_
  rcases IndexSet.mem_insert.1 hmem with rfl | hmem
  · exact hi
  · exact hc.inside i hmem

/-- The members of both sides make a combination of tables. -/
theorem BelongsTo.merge {e : Combination} (hc : c.BelongsTo n) (hd : d.BelongsTo n) (h : c.merge d = some e) :
    e.BelongsTo n := by
  obtain ⟨_, rfl⟩ := merge_eq_some h
  exact belongsTo_ofParts fun i hmem => (IndexSet.mem_union.1 hmem).elim (hc.inside i) (hd.inside i)

end Combination

namespace Store

/-- A coherent store for `n` tables. -/
structure Kept (n : Nat) (s : Store) : Prop where
  coherent : s.Coherent
  tableNum : s.tableNum = n

namespace Kept

/-- What is stored belongs to the store. -/
theorem belongsTo (hs : s.Kept n) (hc : s.combinations[id]? = some c) : c.BelongsTo n where
  inside := hs.tableNum ▸ hs.coherent.inside ⟨c, hc, rfl⟩
  memo f hf := by
    rw [hs.coherent.memo hc, hs.tableNum] at hf
    exact (Option.some.inj hf).symm

theorem get (hs : s.Kept n) (phase : Phase) (id : Nat) :
    Settles (fun _ => True) (s.get phase id) fun c => c.BelongsTo n := by
  cases hget : s.get phase id with
  | error e => trivial
  | ok c => exact hs.belongsTo (get_eq_ok_iff.1 hget)

/-- **Adding what belongs to the store** keeps it coherent. -/
theorem add (hs : s.Kept n) (phase : Phase) (hc : c.BelongsTo n) :
    Settles (fun _ => True) (s.add phase c) fun r => r.1.Kept n := by
  obtain ⟨hcoherent, hext⟩ := hs.coherent.insert phase (hs.tableNum.symm ▸ hc)
  unfold Store.add
  split
  · rename_i t r heq
    rw [heq] at hcoherent hext
    exact ⟨hcoherent, hext.tableNum.trans hs.tableNum⟩
  · trivial

end Kept
end Store

namespace JoinGraph

open Store (Kept)

/-- The index of each node is a position among `n` tables. -/
def Indexed (n : Nat) (nodes : List TableNode) : Prop := ∀ node ∈ nodes, node.index < n

/-! ## Seeding and growth -/

theorem seedOne_kept (hs : s.Kept n) (hi : node.index < n) : Settles (fun _ => True) (seedOne s node) (Kept n) := by
  have hsingle : (Combination.singleton node).BelongsTo n :=
    Combination.belongsTo_ofParts fun i h => (IndexSet.mem_singleton.1 h) ▸ hi
  refine (hs.add .seeding hsingle).bind fun r hr => ?_
  obtain ⟨t, id, isNew⟩ := r
  cases isNew with
  | false => trivial
  | true => exact hr

theorem addGrown_kept (hs : s.Kept n) (hc : c.BelongsTo n) (hi : node.index < n) :
    Settles (fun _ => True) (addGrown s c node) (Kept n) := by
  unfold addGrown
  split
  · rename_i d hgrow
    exact (hs.add .growth (hc.grow hi hgrow)).map
  · exact hs

theorem growInto_kept (hs : s.Kept n) (hi : node.index < n) (j : Nat) :
    Settles (fun _ => True) (growInto w node s j) (Kept n) :=
  Settles.foldlM_keeps (fun id _ _ ht => (ht.get .growth id).bind fun _ hc => addGrown_kept ht hc hi) hs

theorem growOut_kept (hnodes : Indexed n nodes) (hs : s.Kept n) (id : Nat) :
    Settles (fun _ => True) (growOut nodes.toArray s id) (Kept n) := by
  refine (hs.get .growth id).bind fun c hc => Settles.foldlM_keeps (fun node hnode t ht => ?_) hs
  obtain ⟨j, _, hj⟩ := List.mem_filterMap.1 hnode
  rw [List.getElem?_toArray] at hj
  exact addGrown_kept ht hc (hnodes node (List.mem_of_getElem? hj))

theorem growAt_kept (hnodes : Indexed n nodes) (hs : s.Kept n) (hi : node.index < n) :
    Settles (fun _ => True) (growAt nodes.toArray w s node) (Kept n) :=
  (Settles.foldlM_keeps (fun j _ _ ht => growInto_kept ht hi j) hs).bind fun _ ht =>
    Settles.foldlM_keeps (fun id _ _ hu => growOut_kept hnodes hu id) ht

theorem growTo_kept (hnodes : Indexed n nodes) (hs : s.Kept n) (width : Nat) :
    Settles (fun _ => True) (growTo nodes.toArray s width) (Kept n) :=
  Settles.foldlM_keeps (fun node hnode _ ht => growAt_kept hnodes ht (hnodes node hnode)) hs

theorem growThrough_kept (hnodes : Indexed n nodes) : ∀ {widths : List Nat} {s : Store}, s.Kept n →
    Settles (fun _ => True) (growThrough nodes.toArray widths s).outcome (Kept n)
  | [], _, hs => hs
  | width :: _, _, hs => by
    rw [growThrough]
    simp only [Journaled.outcome_bind, Journaled.outcome_ofExcept, Journaled.outcome_note]
    exact (growTo_kept hnodes hs width).bind fun t ht => growThrough_kept hnodes ht

/-! ## Linking -/

/-- What an owner makes with a combination of tables are tables again. -/
def JoinsTables (n : Nat) (join? : Combination → Option Combination) : Prop :=
  ∀ {c d : Combination}, c.BelongsTo n → join? c = some d → d.BelongsTo n

theorem linkPartner_kept {join? : Combination → Option Combination} {l : Linking} (hj : JoinsTables n join?)
    (hl : l.store.Kept n) (partner : Nat) :
    Settles (fun _ => True) (linkPartner phase join? l partner) fun l' => l'.store.Kept n := by
  refine (hl.get phase partner).bind fun c hc => ?_
  split
  · exact hl
  · rename_i d hjoin
    exact (hl.add phase (hj hc hjoin)).bind fun r hr => hr

theorem linkOwner_kept {join? : Combination → Option Combination} {gates : IndexSet} (hj : JoinsTables n join?)
    (hs : s.Kept n) : Settles (fun _ => True) (linkOwner phase join? w gates s) fun l => l.store.Kept n :=
  Settles.foldlM_keeps (I := fun l : Linking => l.store.Kept n) (fun _ _ _ hl =>
    Settles.foldlM_keeps (I := fun l : Linking => l.store.Kept n) (fun id _ _ hl' => linkPartner_kept hj hl' id) hl) hs

theorem linkTable_kept (hs : s.Kept n) (hi : node.index < n) :
    Settles (fun _ => True) (linkTable s node) fun l => l.store.Kept n := by
  refine linkOwner_kept (fun {c d} hc hjoin => ?_) hs
  unfold joinTable? at hjoin
  split at hjoin
  · cases hjoin
  · exact hc.grow hi hjoin

theorem linkCombination_kept (hs : s.Kept n) (id : Nat) :
    Settles (fun _ => True) (linkCombination s id) fun l => l.store.Kept n := by
  refine (hs.get .combinationMerge id).bind fun c hc => ?_
  split
  · exact linkOwner_kept (fun hd hjoin => hc.merge hd hjoin) hs
  · exact hs

theorem linkAll_kept {α : Type} {link : Store → α → Except PlanError Linking} : ∀ {owners : List α} {s : Store},
    (∀ a ∈ owners, ∀ t : Store, t.Kept n → Settles (fun _ => True) (link t a) fun l => l.store.Kept n) → s.Kept n →
      Settles (fun _ => True) (linkAll link s owners) fun r => r.1.Kept n
  | [], _, _, hs => hs
  | a :: _, s, hlink, hs =>
    (hlink a List.mem_cons_self s hs).bind fun _ hl =>
      (linkAll_kept (fun b hb => hlink b (List.mem_cons_of_mem _ hb)) hl).bind fun _ hr => hr

/-! ## Runs -/

/-- Nodes that pass the check stand at their indexes. -/
theorem check_indexed (nodes : List TableNode) (k : Nat) :
    Settles (fun _ => True) (check nodes k) fun _ => Indexed nodes.length nodes := by
  unfold check
  split
  · trivial
  · split
    · trivial
    · rename_i hnone
      intro node hnode
      obtain ⟨i, hi⟩ := List.mem_iff_getElem?.1 hnode
      rw [misplaced?, Option.map_eq_none_iff, List.find?_eq_none] at hnone
      have hindex := hnone (node, i) (List.mk_mem_zipIdx_iff_getElem?.2 hi)
      have hlt := (List.getElem?_eq_some_iff.1 hi).1
      simp only [bne_iff_ne, ne_eq, not_not] at hindex
      rwa [hindex]

/-- The store that is made for nodes has none but their positions. -/
theorem prepare_kept (nodes : List TableNode) (k : Nat) :
    Settles (fun _ => True) (prepare nodes k) fun s => Indexed nodes.length nodes ∧ s.Kept nodes.length := by
  refine (check_indexed nodes k).bind fun _ hnodes => ?_
  unfold Store.new
  split
  · exact ⟨hnodes, Store.coherent_empty _ _, rfl⟩
  · trivial

/-- **The store of a finished run is coherent**, whatever the nodes name. -/
theorem ofNodes_coherent {g : JoinGraph} (h : (ofNodes nodes k).outcome = .ok g) : g.store.Coherent := by
  have hrun : Settles (fun _ => True) (ofNodes nodes k).outcome fun g => g.store.Kept nodes.length := by
    simp only [ofNodes, run, Journaled.outcome_bind, Journaled.outcome_ofExcept, Journaled.outcome_note,
      Journaled.outcome_pure]
    refine (prepare_kept nodes k).bind fun s ⟨hnodes, hstart⟩ => ?_
    have hseed := Settles.foldlM_keeps (fun node hnode _ ht => seedOne_kept ht (hnodes node hnode)) hstart
    refine hseed.bind fun _ hs => ?_
    refine (growThrough_kept hnodes hs).bind fun _ hs => ?_
    refine (linkAll_kept (fun node hnode _ ht => linkTable_kept ht (hnodes node hnode)) hs).bind fun _ hr => ?_
    exact (linkAll_kept (fun id _ _ ht => linkCombination_kept ht id) hr).bind fun _ hr => hr
  exact (hrun.of_ok h).coherent

/-- The combinations and their edges are those of a finished run, over whichever nodes; all else may be anything. -/
def OfRun (g : JoinGraph) : Prop :=
  ∃ nodes k run, (ofNodes nodes k).outcome = .ok run ∧ g.store = run.store ∧ g.combinationEdges = run.combinationEdges

theorem OfRun.coherent {g : JoinGraph} (h : g.OfRun) : g.store.Coherent := by
  obtain ⟨nodes, k, run, hrun, hstore, _⟩ := h
  exact hstore ▸ ofNodes_coherent hrun

end JoinGraph
end JoinShapes
