import JoinShapes.Combination
import JoinShapes.Proofs.Connectivity
import JoinShapes.Proofs.IndexSet

/-!
# Shapes and their combinations

A shape is a set of tables that is connected through neighbours, whichever of two tables names the other
(`IsShape`). A combination is faithful when its members are a shape and its extensions are exactly the tables that a
member names and that are no members (`Combination.Faithful`). Single tables are faithful, and growing and merging along
a neighbour keep that (`faithful_singleton`, `Faithful.grow`, `Faithful.merge`), so that the extensions never depend on
how a combination was made.
-/

namespace JoinShapes

variable {nodes : List TableNode} {n : TableNode} {c d : Combination} {m m' near : IndexSet} {i j : Nat}

/-- The table at `i` has the one at `j` among its neighbours. -/
def TableNode.Adjacent (nodes : List TableNode) (i j : Nat) : Prop := ∃ n, nodes[i]? = some n ∧ j ∈ n.neighbors

/-- Every node stands at its index, and its neighbours are positions of the list. -/
structure TableNode.Placed (nodes : List TableNode) : Prop where
  index : ∀ {i : Nat} {n : TableNode}, nodes[i]? = some n → n.index = i
  near : ∀ {n : TableNode}, n ∈ nodes → ∀ j ∈ n.neighbors, j < nodes.length

open TableNode (Adjacent Placed)

theorem adjacent_iff (hn : nodes[i]? = some n) : Adjacent nodes i j ↔ j ∈ n.neighbors := by
  simp [Adjacent, hn]

theorem TableNode.Placed.adjacent_lt (hp : Placed nodes) (h : Adjacent nodes i j) : j < nodes.length := by
  obtain ⟨n, hn, hj⟩ := h
  exact hp.near (List.mem_of_getElem? hn) j hj

/-- A set of tables that is connected through neighbours; such a set is not empty. -/
structure IsShape (nodes : List TableNode) (m : IndexSet) : Prop where
  inside : ∀ i ∈ m, i < nodes.length
  connected : ConnectedBy (Adjacent nodes) m.carrier

namespace IsShape

theorem size_pos (h : IsShape nodes m) : 0 < m.size := IndexSet.size_pos_iff.2 h.connected.nonempty

theorem singleton (hi : i < nodes.length) : IsShape nodes (.singleton i) where
  inside := by simpa using hi
  connected := by simpa using connectedBy_singleton i

/-- Two shapes along an edge are one shape. -/
theorem union (h : IsShape nodes m) (h' : IsShape nodes m') (hi : i ∈ m) (hj : j ∈ m')
    (hij : Adjacent nodes i j ∨ Adjacent nodes j i) : IsShape nodes (m.union m') where
  inside a ha := (IndexSet.mem_union.1 ha).elim (h.inside a) (h'.inside a)
  connected := by
    rw [IndexSet.carrier_union]
    exact h.connected.union h'.connected hi hj hij

/-- A shape and a table next to it are a shape. -/
theorem insert (h : IsShape nodes m) (hj : j < nodes.length) (hi : i ∈ m)
    (hij : Adjacent nodes i j ∨ Adjacent nodes j i) : IsShape nodes (m.insert j) := by
  have hu := (singleton hj).union h (IndexSet.mem_singleton.2 rfl) hi hij.symm
  rwa [IndexSet.singleton_union] at hu

/-- **Some table of a shape can be taken away**: the rest is a shape, and the table is next to it. -/
theorem exists_removable (h : IsShape nodes m) (hm : 2 ≤ m.size) :
    ∃ v ∈ m, IsShape nodes (m.sdiff (.singleton v)) ∧
      ∃ u ∈ m.sdiff (.singleton v), Adjacent nodes v u ∨ Adjacent nodes u v := by
  obtain ⟨v, hv, hrest, u, hu, huv⟩ :=
    h.connected.exists_removable m.carrier_finite (IndexSet.two_le_size_iff.1 hm)
  refine ⟨v, hv, ⟨fun i hi => h.inside i (IndexSet.mem_sdiff.1 hi).1, ?_⟩, u, ?_, huv⟩
  · rwa [IndexSet.carrier_sdiff, IndexSet.carrier_singleton]
  · exact IndexSet.mem_sdiff.2 ⟨hu.1, fun he => hu.2 (IndexSet.mem_singleton.1 he)⟩

end IsShape

/-! ## Combinations of shapes -/

namespace Combination

/-- The members are a shape, and the extensions are the tables that a member names and that are no members. -/
structure Faithful (nodes : List TableNode) (c : Combination) : Prop where
  shape : IsShape nodes c.members
  mem_extensions : ∀ {j}, j ∈ c.extensions ↔ (∃ i ∈ c.members, Adjacent nodes i j) ∧ j ∉ c.members

@[simp] theorem members_fingerprinted {k : Nat} : (c.fingerprinted k).members = c.members := rfl

/-- Without a remembered fingerprint it is computed from the members. -/
theorem fingerprint_of_memo (h : c.memo = none) (k : Nat) : c.fingerprint k = .ofAscending k c.members.toList := by
  simp [fingerprint, h]

theorem faithful_ofParts (hm : IsShape nodes m)
    (hnear : ∀ j, j ∉ m → (j ∈ near ↔ ∃ i ∈ m, Adjacent nodes i j)) : Faithful nodes (ofParts m near) where
  shape := hm
  mem_extensions {j} := by
    simp only [ofParts, IndexSet.mem_sdiff]
    exact and_congr_left fun hj => hnear j hj

@[simp] theorem members_singleton : (singleton n).members = .singleton n.index := rfl

theorem faithful_singleton (hp : Placed nodes) (hn : nodes[i]? = some n) : Faithful nodes (singleton n) := by
  have hi := hp.index hn
  refine faithful_ofParts (IsShape.singleton ?_) fun j _ => ?_
  · rw [hi]
    exact (List.getElem?_eq_some_iff.1 hn).1
  · simp [hi, adjacent_iff hn]

theorem grow_eq_none_iff : c.grow n = none ↔ n.index ∈ c.members := by
  simp [grow]

/-- A grown combination has the table as one more member. -/
theorem grow_eq_some (h : c.grow n = some d) :
    n.index ∉ c.members ∧ d = ofParts (c.members.insert n.index) (c.extensions.union n.neighbors) := by
  unfold grow at h
  split at h
  · cases h
  · exact ⟨‹_›, (Option.some.inj h).symm⟩

theorem merge_eq_none_iff : c.merge d = none ↔ ∃ i ∈ c.members, i ∈ d.members := by
  rw [merge]
  split
  · rename_i h
    simpa using IndexSet.isDisjoint_iff.1 h
  · rename_i h
    simpa [IndexSet.isDisjoint_iff] using h

/-- A merged combination has the members of both sides, which share none. -/
theorem merge_eq_some {e : Combination} (h : c.merge d = some e) :
    (∀ i, i ∈ c.members → i ∉ d.members) ∧
      e = ofParts (c.members.union d.members) (c.extensions.union d.extensions) := by
  unfold merge at h
  split at h
  · exact ⟨IndexSet.isDisjoint_iff.1 ‹_›, (Option.some.inj h).symm⟩
  · cases h

/-- **Growing along a neighbour keeps a combination faithful.** -/
theorem Faithful.grow (hp : Placed nodes) (hc : Faithful nodes c) (hn : nodes[i]? = some n)
    (hj : j ∈ c.members) (hij : Adjacent nodes i j ∨ Adjacent nodes j i) (h : c.grow n = some d) :
    Faithful nodes d := by
  obtain ⟨hnew, rfl⟩ := grow_eq_some h
  have hi := hp.index hn
  rw [hi] at hnew ⊢
  refine faithful_ofParts (hc.shape.insert ?_ hj hij.symm) fun a ha => ?_
  · exact (List.getElem?_eq_some_iff.1 hn).1
  · have ha' : a ∉ c.members := fun hm => ha (IndexSet.mem_insert.2 (.inr hm))
    simp [hc.mem_extensions, ha', ← adjacent_iff hn, or_comm]

/-- **Merging along a neighbour keeps combinations faithful.** -/
theorem Faithful.merge {e : Combination} (hc : Faithful nodes c) (hd : Faithful nodes d) (hi : i ∈ c.members)
    (hj : j ∈ d.members) (hij : Adjacent nodes i j ∨ Adjacent nodes j i) (h : c.merge d = some e) :
    Faithful nodes e := by
  obtain ⟨_, rfl⟩ := merge_eq_some h
  refine faithful_ofParts (hc.shape.union hd.shape hi hj hij) fun a ha => ?_
  obtain ⟨hac, had⟩ : a ∉ c.members ∧ a ∉ d.members := by simpa using ha
  simp [hc.mem_extensions, hd.mem_extensions, hac, had, or_and_right, exists_or]

end Combination
end JoinShapes
