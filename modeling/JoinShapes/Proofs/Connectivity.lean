import Mathlib.Combinatorics.SimpleGraph.Acyclic
import Mathlib.Order.CompletePartialOrder

/-!
# Connected sets

A set of points is connected by a relation when the relation, read in both directions and between different points,
makes a connected graph of the set alone (`ConnectedBy`). Connected sets are put together along an edge
(`ConnectedBy.union`), and every finite one of at least two points has a point whose removal leaves the rest connected
(`ConnectedBy.exists_removable`). No part of one is cut off from the rest (`ConnectedBy.exists_crossing`). Renaming the
points keeps connectedness (`connectedBy_image_iff`).
-/

namespace JoinShapes

variable {α β : Type} {r : α → α → Prop} {s t : Set α}

/-- The points of `s` are joined to each other through `r` without leaving `s`. -/
def ConnectedBy (r : α → α → Prop) (s : Set α) : Prop := ((SimpleGraph.fromRel r).induce s).Connected

/-- A graph and its image under an injection of the points are connected alike. -/
theorem connected_induce_image {G : SimpleGraph α} {H : SimpleGraph β} {f : α → β} (hf : Set.InjOn f s)
    (h : ∀ a ∈ s, ∀ b ∈ s, H.Adj (f a) (f b) ↔ G.Adj a b) :
    (H.induce (f '' s)).Connected ↔ (G.induce s).Connected :=
  (SimpleGraph.Iso.connected_iff ⟨Equiv.Set.imageOfInjOn f s hf, fun {a b} => h a a.2 b b.2⟩).symm

/-- **Renaming the points keeps connectedness**, if the same points are joined, whichever way round. -/
theorem connectedBy_image_iff {q : β → β → Prop} {f : α → β} (hf : Set.InjOn f s)
    (h : ∀ a ∈ s, ∀ b ∈ s, a ≠ b → (q (f a) (f b) ∨ q (f b) (f a) ↔ r a b ∨ r b a)) :
    ConnectedBy q (f '' s) ↔ ConnectedBy r s := by
  refine connected_induce_image hf fun a ha b hb => ?_
  rw [SimpleGraph.fromRel_adj, SimpleGraph.fromRel_adj, hf.ne_iff ha hb]
  exact and_congr_right fun hab => h a ha b hb hab

theorem ConnectedBy.nonempty (h : ConnectedBy r s) : s.Nonempty :=
  Set.nonempty_coe_sort.1 (SimpleGraph.Connected.nonempty h)

theorem connectedBy_singleton (a : α) : ConnectedBy r {a} :=
  haveI : Unique ({a} : Set α) := Set.uniqueSingleton a
  ⟨SimpleGraph.Preconnected.of_subsingleton⟩

/-- Two connected sets are connected together if something of one is joined to something of the other. -/
theorem ConnectedBy.union (hs : ConnectedBy r s) (ht : ConnectedBy r t) {a b : α} (ha : a ∈ s) (hb : b ∈ t)
    (hab : r a b ∨ r b a) : ConnectedBy r (s ∪ t) := by
  by_cases he : a = b
  · exact SimpleGraph.induce_union_connected hs.preconnected ht.preconnected ⟨a, ha, he ▸ hb⟩
  · exact SimpleGraph.connected_induce_union hs.preconnected ht.preconnected ha hb
      ((SimpleGraph.fromRel_adj _ _ _).2 ⟨he, hab⟩)

/-- A connected set stays connected when it takes in a point next to it. -/
theorem ConnectedBy.insert (hs : ConnectedBy r s) {a b : α} (ha : a ∈ s) (hab : r a b ∨ r b a) :
    ConnectedBy r (Insert.insert b s) := by
  rw [← Set.union_singleton]
  exact hs.union (connectedBy_singleton b) ha rfl hab

/-- **A part of a connected set is joined to the rest**, unless the part is all of it. -/
theorem ConnectedBy.exists_crossing (ht : ConnectedBy r t) (hs : s.Nonempty) (hst : s ⊂ t) :
    ∃ a ∈ s, ∃ b ∈ t \ s, r a b ∨ r b a := by
  obtain ⟨a, ha⟩ := hs
  obtain ⟨b, hb, hbs⟩ := Set.exists_of_ssubset hst
  -- A walk from the part to the rest has to leave the part somewhere.
  obtain ⟨walk⟩ := ht.preconnected ⟨a, hst.subset ha⟩ ⟨b, hb⟩
  obtain ⟨d, _, hfrom, hto⟩ := walk.exists_boundary_dart {x | x.1 ∈ s} ha hbs
  obtain ⟨_, hr⟩ := (SimpleGraph.fromRel_adj _ _ _).1 d.adj
  exact ⟨d.fst, hfrom, d.snd, ⟨d.snd.2, hto⟩, hr⟩

/-- A set is connected if one point of it is joined to all others. -/
theorem connectedBy_of_hub {c : α} (hc : c ∈ s) (h : ∀ a ∈ s, a ≠ c → r c a) : ConnectedBy r s := by
  refine SimpleGraph.connected_iff_exists_forall_reachable _ |>.2 ⟨⟨c, hc⟩, ?_⟩
  rintro ⟨a, ha⟩
  by_cases hac : a = c
  · subst hac
    exact .refl _
  · exact SimpleGraph.Adj.reachable ((SimpleGraph.fromRel_adj _ _ _).2 ⟨Ne.symm hac, .inl (h a ha hac)⟩)

/-- **Some point of a connected set can be taken away**: the rest is connected, and the point is next to it. -/
theorem ConnectedBy.exists_removable (hs : ConnectedBy r s) (hfin : s.Finite) (hnt : s.Nontrivial) :
    ∃ v ∈ s, ConnectedBy r (s \ {v}) ∧ ∃ u ∈ s \ {v}, r v u ∨ r u v := by
  have := hfin.to_subtype
  have := hnt.coe_sort
  obtain ⟨⟨v, hv⟩, hrest⟩ := hs.exists_connected_induce_compl_singleton_of_finite_nontrivial
  obtain ⟨⟨u, hu⟩, huv⟩ := hs.preconnected.exists_adj_of_nontrivial ⟨v, hv⟩
  obtain ⟨hne, hr⟩ := (SimpleGraph.fromRel_adj _ _ _).1 huv
  refine ⟨v, hv, ?_, u, ⟨hu, fun he => hne he.symm⟩, hr⟩
  have himage : s \ {v} = Subtype.val '' ({⟨v, hv⟩}ᶜ : Set s) := by
    ext a
    constructor
    · rintro ⟨ha, hav⟩
      exact ⟨⟨a, ha⟩, fun he => hav (congrArg Subtype.val he), rfl⟩
    · rintro ⟨⟨b, hb⟩, hbv, rfl⟩
      exact ⟨hb, fun he => hbv (Subtype.ext he)⟩
  rw [ConnectedBy, himage]
  exact (connected_induce_image Subtype.val_injective.injOn fun _ _ _ _ => Iff.rfl).2 hrest

end JoinShapes
