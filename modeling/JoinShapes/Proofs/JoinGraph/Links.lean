import JoinShapes.JoinGraph.Links
import JoinShapes.Proofs.JoinGraph.Sound

/-!
# Edges lead exactly to the partners

A partner of an owner is a shape apart from it that fits into the width bound and holds a table that the owner names
(`Partner`). Linking an owner gives exactly one edge for each partner, and the edge leads to what both make
(`Navigates`, `linkOwner_settles`), provided the combinations short of the bound are already stored: a partner is
narrower than the bound, so it is listed at its gate before the gate has its turn.
-/

namespace JoinShapes
namespace JoinGraph

open Store
open TableNode (Adjacent Placed)

variable {nodes : List TableNode} {k w i j id gate : Nat} {s t : Store} {c d e : Combination} {n : TableNode}
variable {o p gates : IndexSet} {f : JoinEdge} {edges : EdgeSet} {l : Linking} {phase : Phase}
variable {join? : Combination → Option Combination}

/-- The sets share no table and have room beside each other. -/
def Fits (k : Nat) (o p : IndexSet) : Prop := (∀ i, i ∈ o → i ∉ p) ∧ o.size + p.size ≤ k

/-- A shape that can be joined to the owner `o` along a neighbour of it. -/
structure Partner (nodes : List TableNode) (k : Nat) (o p : IndexSet) : Prop where
  shape : IsShape nodes p
  fits : Fits k o p
  adjacent : ∃ i ∈ o, ∃ j ∈ p, Adjacent nodes i j

/-- Owner and partner make something of several tables. -/
theorem Partner.two_le_size_union (h : Partner nodes k o p) : 2 ≤ (o.union p).size := by
  obtain ⟨i, hi, _⟩ := h.adjacent
  have ho := IndexSet.size_pos_iff.2 ⟨i, hi⟩
  have hp := h.shape.size_pos
  rw [IndexSet.size_union h.fits.1]
  omega

/-- The edge leads from the owner `o` to its partner `p`, and to what both make. -/
structure Leads (nodes : List TableNode) (k : Nat) (s : Store) (o : IndexSet) (e : JoinEdge) (p : IndexSet) :
    Prop where
  isPartner : Partner nodes k o p
  partner : s.At e.partner p
  result : s.At e.result (o.union p)

theorem Leads.mono {P : Combination → Prop} (h : Leads nodes k s o f p) (hst : Extends P s t) :
    Leads nodes k t o f p := ⟨h.isPartner, hst.at_mono h.partner, hst.at_mono h.result⟩

/-- The edges of the owner `o` lead to its partners, and there is one to each. -/
structure Navigates (nodes : List TableNode) (k : Nat) (s : Store) (o : IndexSet) (edges : EdgeSet) : Prop where
  sound : ∀ f ∈ edges, ∃ p, Leads nodes k s o f p
  complete : ∀ p, Partner nodes k o p → ∃ f ∈ edges, Leads nodes k s o f p

theorem Navigates.mono {P : Combination → Prop} (h : Navigates nodes k s o edges) (hst : Extends P s t) :
    Navigates nodes k t o edges where
  sound f hf := by
    obtain ⟨p, hp⟩ := h.sound f hf
    exact ⟨p, hp.mono hst⟩
  complete p hp := by
    obtain ⟨f, hf, hlead⟩ := h.complete p hp
    exact ⟨f, hf, hlead.mono hst⟩

/-- An owner that leaves no room has no partners, and no edges. -/
theorem navigates_empty (h : k ≤ o.size) : Navigates nodes k s o .empty where
  sound e he := absurd he EdgeSet.not_mem_empty
  complete p hp := by
    have hpos := hp.shape.size_pos
    have hle := hp.fits.2
    omega

/-! ## What owner and partner make -/

/-- Among the combinations up to a width, `join?` makes the union of the owner `o` with each that fits. -/
structure Joins (nodes : List TableNode) (k w : Nat) (o : IndexSet) (join? : Combination → Option Combination) :
    Prop where
  fits : ∀ {c d : Combination}, c.width ≤ w → join? c = some d → Fits k o c.members
  members : ∀ {c d : Combination}, join? c = some d → d.members = o.union c.members ∧ d.memo = none
  faithful : ∀ {c d : Combination} {i j : Nat}, c.Faithful nodes → i ∈ o → j ∈ c.members → Adjacent nodes i j →
    join? c = some d → d.Faithful nodes
  total : ∀ {c : Combination}, Fits k o c.members → join? c ≠ none

theorem joins_joinTable (hp : Placed nodes) (hn : nodes[i]? = some n) :
    Joins nodes k k (.singleton i) (joinTable? k n) where
  fits {c d} _ h := by
    unfold joinTable? at h
    split at h
    · cases h
    · obtain ⟨hnew, _⟩ := Combination.grow_eq_some h
      rw [hp.index hn] at hnew
      have hw : c.members.size < k := by rwa [← Combination.width, ← Nat.not_le]
      refine ⟨fun a ha => ?_, ?_⟩
      · rwa [IndexSet.mem_singleton.1 ha]
      · rw [IndexSet.size_singleton]
        omega
  members {c d} h := by
    unfold joinTable? at h
    split at h
    · cases h
    · obtain ⟨_, rfl⟩ := Combination.grow_eq_some h
      exact ⟨by rw [hp.index hn]; rfl, rfl⟩
  faithful {c d a j} hc ha hj hij h := by
    rw [IndexSet.mem_singleton.1 ha] at hij
    unfold joinTable? at h
    split at h
    · cases h
    · exact hc.grow hp hn hj (.inl hij) h
  total {c} h hnone := by
    have hlt := h.2
    rw [IndexSet.size_singleton] at hlt
    rw [joinTable?, if_neg (by rw [Combination.width]; omega), Combination.grow_eq_none_iff, hp.index hn] at hnone
    exact h.1 i (IndexSet.mem_singleton.2 rfl) hnone

theorem joins_merge (hc : c.Faithful nodes) (hw : c.width ≤ k) : Joins nodes k (k - c.width) c.members c.merge where
  fits {d e} hd h := by
    have hsum : c.members.size + d.members.size ≤ k := by
      simp only [Combination.width] at hd hw
      omega
    exact ⟨(Combination.merge_eq_some h).1, hsum⟩
  members {d e} h := by
    obtain ⟨_, rfl⟩ := Combination.merge_eq_some h
    exact ⟨rfl, rfl⟩
  faithful hd hi hj hij h := hc.merge hd hi hj (.inl hij) h
  total {d} h hnone := by
    obtain ⟨i, hi, hj⟩ := Combination.merge_eq_none_iff.1 hnone
    exact h.1 i hi hj

/-! ## One owner -/

/-- The store of a linking in progress is sound, and its edges are edges of the owner. -/
structure Linking.Sound (nodes : List TableNode) (k : Nat) (o : IndexSet) (l : Linking) : Prop where
  store : l.store.Sound nodes k
  edges : ∀ f ∈ l.edges, ∃ p, Leads nodes k l.store o f p

/-- A linking that has gone on: positions keep their combinations, and edges stay. -/
structure Linking.Extends (l l' : Linking) : Prop where
  store : Store.Extends (fun _ => True) l.store l'.store
  edges : ∀ f ∈ l.edges, f ∈ l'.edges

/-- The owner has an edge to the partner `p`. -/
def Linking.Reaches (nodes : List TableNode) (k : Nat) (o p : IndexSet) (l : Linking) : Prop :=
  ∃ f ∈ l.edges, Leads nodes k l.store o f p

theorem Linking.Extends.refl (l : Linking) : l.Extends l := ⟨.refl _ _, fun _ hf => hf⟩

theorem Linking.Extends.trans {l l' l'' : Linking} (h : l.Extends l') (h' : l'.Extends l'') : l.Extends l'' :=
  ⟨h.store.trans h'.store, fun f hf => h'.edges f (h.edges f hf)⟩

theorem Linking.Reaches.mono {l l' : Linking} (h : l.Reaches nodes k o p) (hl : l.Extends l') :
    l'.Reaches nodes k o p := by
  obtain ⟨f, hf, hlead⟩ := h
  exact ⟨f, hl.edges f hf, hlead.mono hl.store⟩

/-- **One combination at a gate.** It gets an edge if it fits, and nothing happens otherwise. -/
theorem linkPartner_settles (hj : Joins nodes k w o join?) (hl : l.Sound nodes k o)
    (hc : l.store.combinations[id]? = some c) (hw : c.width ≤ w) (hi : i ∈ o) (hjc : j ∈ c.members)
    (hij : Adjacent nodes i j) :
    Settles (Clash nodes k) (linkPartner phase join? l id) fun l' =>
      l'.Sound nodes k o ∧ l.Extends l' ∧ (Fits k o c.members → l'.Reaches nodes k o c.members) := by
  have hfaithful := hl.store.faithful hc
  rw [linkPartner, get_eq_ok phase hc, Settles.ok_bind_iff]
  cases hd : join? c with
  | none => exact ⟨hl, .refl l, fun h => absurd hd (hj.total h)⟩
  | some d =>
    have hfits := hj.fits hw hd
    obtain ⟨hmembers, hmemo⟩ := hj.members hd
    have hdw : d.width ≤ k := by
      rw [Combination.width, hmembers, IndexSet.size_union hfits.1]
      exact hfits.2
    refine (hl.store.add (hj.faithful hfaithful hi hjc hij hd) hmemo hdw phase).bind fun r hr => ?_
    obtain ⟨hs, hext, hresult⟩ := hr
    have hlead : Leads nodes k r.1 o ⟨id, r.2.1⟩ c.members :=
      ⟨⟨hfaithful.shape, hfits, i, hi, j, hjc, hij⟩, hext.at_mono ⟨c, hc, rfl⟩, hmembers ▸ hresult⟩
    refine ⟨⟨hs, fun f hf => ?_⟩, ⟨hext.mono fun _ _ => trivial, fun f hf => EdgeSet.mem_insert.2 (.inr hf)⟩,
      fun _ => ⟨_, EdgeSet.mem_insert.2 (.inl rfl), hlead⟩⟩
    rcases EdgeSet.mem_insert.1 hf with rfl | hf
    · exact ⟨c.members, hlead⟩
    · obtain ⟨p, hp⟩ := hl.edges f hf
      exact ⟨p, hp.mono hext⟩

/-- **All combinations at a gate.** Those that are listed when the gate has its turn get their edges. -/
theorem linkGate_settles (hj : Joins nodes k w o join?) (hl : l.Sound nodes k o) (hi : i ∈ o)
    (hij : Adjacent nodes i j) :
    Settles (Clash nodes k) (linkGate phase join? w l j) fun l' =>
      l'.Sound nodes k o ∧ l.Extends l' ∧
        ∀ p, l.store.Holds p → p.size ≤ w → j ∈ p → Fits k o p → l'.Reaches nodes k o p := by
  unfold linkGate
  refine (Settles.foldlM (I := fun l' => l'.Sound nodes k o ∧ l.Extends l') (R := Linking.Extends)
    (D := fun id l' => ∀ p, l.store.At id p → Fits k o p → l'.Reaches nodes k o p) .refl .trans
    (fun hD hll' p hp hfits => (hD p hp hfits).mono hll') (fun id hid l' hl' => ?_) ⟨hl, .refl l⟩).mono fun l' hl' => ?_
  · obtain ⟨_, ⟨c, hc, rfl⟩, hw, hjc⟩ := hl.store.coherent.mem_cachedUpTo.1 hid
    refine (linkPartner_settles hj hl'.1 (hl'.2.store.getElem?_mono hc) hw hi hjc hij).mono fun l'' hl'' => ?_
    refine ⟨⟨hl''.1, hl'.2.trans hl''.2.1⟩, hl''.2.1, fun p hp => ?_⟩
    rw [hp.unique ⟨c, hc, rfl⟩]
    exact hl''.2.2
  · refine ⟨hl'.1.1, hl'.2.1, fun p ⟨id, hid⟩ hw hjp => hl'.2.2 id ?_ p hid⟩
    exact hl.store.coherent.mem_cachedUpTo.2 ⟨p, hid, hw, hjp⟩

/-- What the gates of an owner are: the tables that it names, without its own members or with some of them. -/
structure Gates (nodes : List TableNode) (o gates : IndexSet) : Prop where
  sound : ∀ j ∈ gates, ∃ i ∈ o, Adjacent nodes i j
  complete : ∀ i ∈ o, ∀ j, j ∉ o → Adjacent nodes i j → j ∈ gates

/-- **Linking an owner gives exactly its edges.** -/
theorem linkOwner_settles (hj : Joins nodes k w o join?) (hg : Gates nodes o gates) (ho : 0 < o.size)
    (hw : k ≤ o.size + w) (hs : s.Sound nodes k) (hc : s.Complete nodes (k - 1)) :
    Settles (Clash nodes k) (linkOwner phase join? w gates s) fun l =>
      l.store.Sound nodes k ∧ Store.Extends (fun _ => True) s l.store ∧ Navigates nodes k l.store o l.edges := by
  unfold linkOwner
  have hstart : Linking.Sound nodes k o ⟨s, .empty⟩ := ⟨hs, fun e he => absurd he EdgeSet.not_mem_empty⟩
  refine (Settles.foldlM (I := fun l => l.Sound nodes k o ∧ Linking.Extends ⟨s, .empty⟩ l) (R := Linking.Extends)
    (D := fun j l => ∀ p, s.Holds p → p.size ≤ w → j ∈ p → Fits k o p → l.Reaches nodes k o p) .refl .trans
    (fun hD hll' p hp hw hjp hfits => (hD p hp hw hjp hfits).mono hll') (fun j hjg l hl => ?_)
    ⟨hstart, .refl _⟩).mono fun l hl => ⟨hl.1.1.store, hl.2.1.store, hl.1.1.edges, fun p hp => ?_⟩
  · obtain ⟨i, hi, hij⟩ := hg.sound j hjg
    refine (linkGate_settles hj hl.1 hi hij).mono fun l' hl' => ⟨⟨hl'.1, hl.2.trans hl'.2.1⟩, hl'.2.1, fun p hp => ?_⟩
    exact hl'.2.2 p (hl.2.store.holds_mono hp)
  · obtain ⟨i, hi, j, hjp, hij⟩ := hp.adjacent
    have hjo : j ∉ o := fun h => hp.fits.1 j h hjp
    have hsum := hp.fits.2
    exact hl.2.2 j (hg.complete i hi j hjo hij) p (hc p hp.shape (by omega)) (by omega) hjp hp.fits

/-! ## All owners -/

/-- **A loop over owners.** Each round leaves the store sound and gives its owner edges with `Q`, which last. -/
theorem linkAll_settles {α : Type} {link : Store → α → Except PlanError Linking} {Q : α → EdgeSet → Store → Prop}
    (hQ : ∀ a edges t u, Q a edges t → Store.Extends (fun _ => True) t u → Q a edges u) :
    ∀ {owners : List α} {s : Store}, (∀ a ∈ owners, ∀ t : Store, t.Sound nodes k → Store.Extends (fun _ => True) s t →
      Settles (Clash nodes k) (link t a) fun l =>
        l.store.Sound nodes k ∧ Store.Extends (fun _ => True) t l.store ∧ Q a l.edges l.store) → s.Sound nodes k →
      Settles (Clash nodes k) (linkAll link s owners) fun r =>
        r.1.Sound nodes k ∧ Store.Extends (fun _ => True) s r.1 ∧
          List.Forall₂ (fun a edges => Q a edges r.1) owners r.2
  | [], s, _, hs => ⟨hs, .refl _ s, .nil⟩
  | a :: owners, s, hlink, hs => by
    refine (hlink a List.mem_cons_self s hs (.refl _ s)).bind fun l hl => ?_
    obtain ⟨hsound, hext, hedges⟩ := hl
    refine (linkAll_settles (Q := Q) hQ (fun b hb t ht hlt => ?_) hsound).bind fun r hr => ?_
    · exact hlink b (List.mem_cons_of_mem _ hb) t ht (hext.trans hlt)
    · exact ⟨hr.1, hext.trans hr.2.1, .cons (hQ _ _ _ _ hedges hr.2.1) hr.2.2⟩

theorem linkTable_settles (hp : Placed nodes) (hn : nodes[i]? = some n) (hs : s.Sound nodes k)
    (hc : s.Complete nodes (k - 1)) :
    Settles (Clash nodes k) (linkTable s n) fun l => l.store.Sound nodes k ∧
      Store.Extends (fun _ => True) s l.store ∧ Navigates nodes k l.store (.singleton i) l.edges := by
  have hgates : Gates nodes (.singleton i) n.neighbors := by
    refine ⟨fun j hj => ⟨i, IndexSet.mem_singleton.2 rfl, (adjacent_iff hn).2 hj⟩, fun a ha j _ haj => ?_⟩
    rw [IndexSet.mem_singleton.1 ha] at haj
    exact (adjacent_iff hn).1 haj
  rw [linkTable, hs.joinNum]
  exact linkOwner_settles (joins_joinTable hp hn) hgates Nat.one_pos (Nat.le_add_left k _) hs hc

/-- **The tables get exactly their edges.** -/
theorem linkTables_settles (hp : Placed nodes) (hs : s.Sound nodes k) (hc : s.Complete nodes (k - 1)) :
    Settles (Clash nodes k) (linkTables nodes.toArray s) fun r =>
      r.1.Sound nodes k ∧ Store.Extends (fun _ => True) s r.1 ∧
        List.Forall₂ (fun n edges => Navigates nodes k r.1 (.singleton n.index) edges) nodes r.2 := by
  refine linkAll_settles (Q := fun (n : TableNode) edges t => Navigates nodes k t (.singleton n.index) edges)
    (fun _ _ _ _ hQ htu => hQ.mono htu) (fun n hn t ht hst => ?_) hs
  obtain ⟨i, hi⟩ := List.mem_iff_getElem?.1 hn
  rw [hp.index hi]
  exact linkTable_settles hp hi ht (hc.mono hst)

theorem linkCombination_settles (hs : s.Sound nodes k) (hc : s.Complete nodes (k - 1)) (hm : s.At id p) :
    Settles (Clash nodes k) (linkCombination s id) fun l => l.store.Sound nodes k ∧
      Store.Extends (fun _ => True) s l.store ∧ (2 ≤ p.size → Navigates nodes k l.store p l.edges) := by
  obtain ⟨c, hcid, rfl⟩ := hm
  have hfaithful := hs.faithful hcid
  have hwidth : c.width = c.members.size := rfl
  rw [linkCombination, get_eq_ok .combinationMerge hcid, Settles.ok_bind_iff, hs.joinNum]
  split
  · rename_i hroom
    have hgates : Gates nodes c.members c.extensions := by
      refine ⟨fun j hj => (hfaithful.mem_extensions.1 hj).1, fun i hi j hj hij => ?_⟩
      exact hfaithful.mem_extensions.2 ⟨⟨i, hi, hij⟩, hj⟩
    have hjoins := joins_merge hfaithful (Nat.le_of_lt hroom.2)
    refine (linkOwner_settles hjoins hgates (by omega) (by omega) hs hc).mono fun l hl => ?_
    exact ⟨hl.1, hl.2.1, fun _ => hl.2.2⟩
  · exact ⟨hs, .refl _ s, fun h => navigates_empty (by omega)⟩

/-- **The combinations get exactly their edges.** -/
theorem linkCombinations_settles (hs : s.Sound nodes k) (hc : s.Complete nodes (k - 1)) :
    Settles (Clash nodes k) (linkCombinations s) fun r =>
      r.1.Sound nodes k ∧ Store.Extends (fun _ => True) s r.1 ∧
        List.Forall₂ (fun id edges => ∃ m, r.1.At id m ∧ (2 ≤ m.size → Navigates nodes k r.1 m edges))
          (List.range s.size) r.2 := by
  refine linkAll_settles
    (Q := fun (id : Nat) edges t => ∃ m, t.At id m ∧ (2 ≤ m.size → Navigates nodes k t m edges))
    (fun _ _ _ _ ⟨m, hm, h⟩ htu => ⟨m, htu.at_mono hm, fun hw => (h hw).mono htu⟩) (fun id hid t ht hst => ?_) hs
  obtain ⟨m, hm⟩ := exists_at_of_lt_size (List.mem_range.1 hid)
  refine (linkCombination_settles ht (hc.mono hst) (hst.at_mono hm)).mono fun l hl => ⟨hl.1, hl.2.1, m, ?_, hl.2.2⟩
  exact hl.2.1.at_mono (hst.at_mono hm)

end JoinGraph
end JoinShapes
