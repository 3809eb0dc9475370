import JoinShapes.JoinGraph.Growth
import JoinShapes.Proofs.JoinGraph.Sound

/-!
# Seeding and growth are complete

After seeding, the store holds the single tables in order (`seed_settles`). Growing from a width at which all shapes are
stored stores all shapes that are one table wider, and nothing of any other width (`growTo_settles`): a shape has a
table that can be taken away, and whichever of the table and the rest names the other, one of the two directions of
growth finds the shape. So a store that has grown to a width holds the shapes up to it, by width (`Grown`,
`growThrough_settles`).
-/

namespace JoinShapes
namespace JoinGraph

open Store
open TableNode (Adjacent Placed)

variable {nodes : List TableNode} {k w v i j id : Nat} {s t : Store} {c : Combination} {n : TableNode} {m : IndexSet}

/-! ## Seeding -/

theorem foldlM_seedOne_settles (hp : Placed nodes) (hk : 1 ≤ k) : ∀ (rest : List TableNode) (i : Nat) (s : Store),
    nodes.drop i = rest → i + rest.length = nodes.length → s.Sound nodes k →
    s.combinations.toList.map (·.members) = (List.range i).map .singleton →
      Settles (Clash nodes k) (rest.foldlM seedOne s) fun t => t.Sound nodes k ∧
        t.combinations.toList.map (·.members) = (List.range nodes.length).map .singleton
  | [], i, s, _, hlen, hs, hseed => by
    simp only [List.length_nil, Nat.add_zero] at hlen
    exact ⟨hs, hlen ▸ hseed⟩
  | n :: rest, i, s, hrest, hlen, hs, hseed => by
    have hn : nodes[i]? = some n := by rw [← List.head?_drop, hrest, List.head?_cons]
    have hnext : nodes.drop (i + 1) = rest := by rw [← List.tail_drop, hrest, List.tail_cons]
    have hi := hp.index hn
    rw [List.foldlM_cons]
    refine Settles.bind (P := fun t => t.Sound nodes k ∧
      t.combinations.toList.map (·.members) = (List.range (i + 1)).map .singleton) ?_ fun t ht => ?_
    · have hadd := hs.add_cases (Combination.faithful_singleton hp hn) rfl hk .seeding
      rcases hadd with ⟨id, hid, _⟩ | ⟨_, t, hpush, ht, heq⟩ | ⟨e, he, heq⟩
      · -- Before its turn no combination is this table alone.
        rw [at_iff, hseed, List.getElem?_map, Option.map_eq_some_iff] at hid
        obtain ⟨a, ha, hmem⟩ := hid
        obtain ⟨hlt, rfl⟩ := List.getElem?_eq_some_iff.1 ha
        have hia : i ∈ IndexSet.singleton (List.range i)[id] := by
          rw [hmem]
          exact IndexSet.mem_singleton.2 hi.symm
        simp only [List.length_range] at hlt
        simp only [List.getElem_range, IndexSet.mem_singleton] at hia
        omega
      · rw [seedOne, heq]
        refine ⟨ht, ?_⟩
        simp [hpush.combinations, hseed, hi, List.range_succ]
      · rw [seedOne, heq]
        exact he
    · refine foldlM_seedOne_settles hp hk rest (i + 1) t hnext ?_ ht.1 ht.2
      rw [← hlen, List.length_cons]
      omega

/-- **Seeding stores the single tables in order.** -/
theorem seed_settles (hp : Placed nodes) (hk : 1 ≤ k) :
    Settles (Clash nodes k) (seed (.empty nodes.length k) nodes.toArray) fun t => t.Sound nodes k ∧
      t.combinations.toList.map (·.members) = (List.range nodes.length).map .singleton :=
  foldlM_seedOne_settles hp hk nodes 0 _ rfl (Nat.zero_add _) (sound_empty nodes k) rfl

/-- The single tables are all shapes of one table. -/
theorem complete_one_of_seeded
    (h : s.combinations.toList.map (·.members) = (List.range nodes.length).map .singleton) : s.Complete nodes 1 := by
  intro m hm hw
  have hpos := hm.size_pos
  obtain ⟨i, rfl⟩ := IndexSet.eq_singleton_of_size (Nat.le_antisymm hw hpos)
  have hi : i < nodes.length := hm.inside i (IndexSet.mem_singleton.2 rfl)
  refine ⟨i, ?_⟩
  rw [at_iff, h]
  simp [hi]

/-! ## One more table -/

/-- Adding a table along a neighbour leaves the grown members stored. -/
theorem addGrown_settles (hp : Placed nodes) (hk : w + 1 ≤ k) (hs : s.Sound nodes k)
    (hc : s.combinations[id]? = some c) (hw : c.width = w) (hn : nodes[i]? = some n) (hj : j ∈ c.members)
    (hij : Adjacent nodes i j ∨ Adjacent nodes j i) :
    Settles (Clash nodes k) (addGrown s c n) fun t =>
      t.Sound nodes k ∧ Extends (·.width = w + 1) s t ∧ t.Holds (c.members.insert i) := by
  have hi := hp.index hn
  unfold addGrown
  cases hg : c.grow n with
  | none =>
    have hmem : i ∈ c.members := hi ▸ Combination.grow_eq_none_iff.1 hg
    refine ⟨hs, .refl _ s, id, c, hc, ?_⟩
    rw [IndexSet.insert_eq_self hmem]
  | some d =>
    obtain ⟨hnew, hd⟩ := Combination.grow_eq_some hg
    have hmem : d.members = c.members.insert i := by rw [hd, hi]; rfl
    have hwd : d.members.size = w + 1 := by
      rw [hmem, IndexSet.size_insert (hi ▸ hnew)]
      exact congrArg (· + 1) hw
    have hadd := hs.add ((hs.faithful hc).grow hp hn hj hij hg) (by rw [hd]; rfl) (hwd.trans_le hk) .growth
    refine Settles.map (hadd.mono fun r hr => ⟨hr.1, hr.2.1.mono fun e he => ?_, r.2.1, hmem ▸ hr.2.2⟩)
    rw [Combination.width, he, hwd]

/-- A table is added to all combinations of a width that hold its neighbour. -/
theorem growInto_settles (hp : Placed nodes) (hk : w + 1 ≤ k) (hs : s.Sound nodes k) (hn : nodes[i]? = some n)
    (hij : Adjacent nodes i j) :
    Settles (Clash nodes k) (growInto w n s j) fun t => t.Sound nodes k ∧ Extends (·.width = w + 1) s t ∧
      ∀ m, s.Holds m → m.size = w → j ∈ m → t.Holds (m.insert i) := by
  unfold growInto
  refine (hs.foldlM (P := (·.width = w + 1)) (D := fun id u => ∀ m, s.At id m → u.Holds (m.insert i))
    (fun hD htu m hm => htu.holds_mono (hD m hm)) fun id hid t ht hst => ?_).mono fun t ht => ?_
  · obtain ⟨_, ⟨c, hc, rfl⟩, hw, hj⟩ := hs.coherent.cached.1 hid
    have hct := hst.getElem?_mono hc
    rw [get_eq_ok .growth hct]
    refine (addGrown_settles hp hk ht hct hw hn hj (.inl hij)).mono fun u hu => ⟨hu.1, hu.2.1, fun m hm => ?_⟩
    rw [hm.unique ⟨c, hc, rfl⟩]
    exact hu.2.2
  · refine ⟨ht.1, ht.2.1, fun m ⟨id, hm⟩ hw hj => ?_⟩
    exact ht.2.2 id (hs.coherent.cached.2 ⟨m, hm, hw, hj⟩) m hm

/-- All extensions of a combination are added to it. -/
theorem growOut_settles (hp : Placed nodes) (hk : w + 1 ≤ k) (hs : s.Sound nodes k)
    (hc : s.combinations[id]? = some c) (hw : c.width = w) :
    Settles (Clash nodes k) (growOut nodes.toArray s id) fun t => t.Sound nodes k ∧ Extends (·.width = w + 1) s t ∧
      ∀ i ∈ c.members, ∀ j, Adjacent nodes i j → t.Holds (c.members.insert j) := by
  rw [growOut, get_eq_ok .growth hc]
  refine (hs.foldlM (P := (·.width = w + 1)) (D := fun (n : TableNode) u => u.Holds (c.members.insert n.index))
    (fun hD htu => htu.holds_mono hD) fun n hn t ht hst => ?_).mono fun t ht => ⟨ht.1, ht.2.1, fun i hi j hij => ?_⟩
  · obtain ⟨j, hj, hnj⟩ := List.mem_filterMap.1 hn
    rw [List.getElem?_toArray] at hnj
    obtain ⟨⟨i, hi, hij⟩, _⟩ := (hs.faithful hc).mem_extensions.1 hj
    rw [hp.index hnj]
    exact addGrown_settles hp hk ht (hst.getElem?_mono hc) hw hnj hi (.inr hij)
  · by_cases hj : j ∈ c.members
    · rw [IndexSet.insert_eq_self hj]
      exact ht.2.1.holds_mono ⟨id, c, hc, rfl⟩
    · have hlt := hp.adjacent_lt hij
      have hnj : nodes[j]? = some nodes[j] := List.getElem?_eq_getElem hlt
      have hdone := ht.2.2 nodes[j] (List.mem_filterMap.2 ⟨j, ?_, by rw [List.getElem?_toArray, hnj]⟩)
      · rwa [hp.index hnj] at hdone
      · exact (hs.faithful hc).mem_extensions.2 ⟨⟨i, hi, hij⟩, hj⟩

/-! ## All combinations of a width -/

/-- Along every edge from the table at `i`, the stored sets of `w` tables at one end were grown by the other end. -/
def GrownAt (nodes : List TableNode) (w : Nat) (s : Store) (i : Nat) (t : Store) : Prop :=
  ∀ m, s.Holds m → m.size = w → ∀ j, Adjacent nodes i j →
    (j ∈ m → t.Holds (m.insert i)) ∧ (i ∈ m → t.Holds (m.insert j))

theorem growAt_settles (hp : Placed nodes) (hk : w + 1 ≤ k) (hs : s.Sound nodes k) (hn : nodes[i]? = some n) :
    Settles (Clash nodes k) (growAt nodes.toArray w s n) fun t =>
      t.Sound nodes k ∧ Extends (·.width = w + 1) s t ∧ GrownAt nodes w s i t := by
  have hi := hp.index hn
  unfold growAt
  refine Settles.bind (hs.foldlM (P := (·.width = w + 1))
    (D := fun j u => ∀ m, s.Holds m → m.size = w → j ∈ m → u.Holds (m.insert i))
    (fun hD htu m hm hw hj => htu.holds_mono (hD m hm hw hj)) fun j hj t ht hst => ?_) fun t ht => ?_
  · refine (growInto_settles hp hk ht hn ((adjacent_iff hn).2 hj)).mono fun u hu => ⟨hu.1, hu.2.1, fun m hm => ?_⟩
    exact hu.2.2 m (hst.holds_mono hm)
  obtain ⟨ht, hst, hinto⟩ := ht
  refine (ht.foldlM (P := (·.width = w + 1))
    (D := fun id u => ∀ m, t.At id m → ∀ j, Adjacent nodes i j → u.Holds (m.insert j))
    (fun hD huv m hm j hij => huv.holds_mono (hD m hm j hij)) fun id hid u hu htu => ?_).mono fun u hu => ?_
  · obtain ⟨_, ⟨c, hc, rfl⟩, hw, hmem⟩ := ht.coherent.cached.1 hid
    refine (growOut_settles hp hk hu (htu.getElem?_mono hc) hw).mono fun v hv => ⟨hv.1, hv.2.1, fun m hm j hij => ?_⟩
    rw [hm.unique ⟨c, hc, rfl⟩]
    exact hv.2.2 i (hi ▸ hmem) j hij
  · refine ⟨hu.1, hst.trans hu.2.1, fun m hm hw j hij => ⟨fun hj => ?_, fun him => ?_⟩⟩
    · exact hu.2.1.holds_mono (hinto j ((adjacent_iff hn).1 hij) m hm hw hj)
    · obtain ⟨id, hid⟩ := hst.holds_mono hm
      exact hu.2.2 id (ht.coherent.cached.2 ⟨m, hid, hw, hi ▸ him⟩) m hid j hij

/-- A shape one table wider is found from the rest that is left when a table is taken away. -/
theorem complete_succ_of_grownAt {t : Store} {P : Combination → Prop} (hpos : 1 ≤ w) (hc : s.Complete nodes w)
    (hst : Extends P s t) (hgrown : ∀ i < nodes.length, GrownAt nodes w s i t) : t.Complete nodes (w + 1) := by
  intro m hm hw
  rcases Nat.lt_or_eq_of_le hw with hw | hw
  · exact hst.holds_mono (hc m hm (Nat.le_of_lt_succ hw))
  · obtain ⟨v, hv, hrest, u, hu, huv⟩ := hm.exists_removable (by omega)
    have hsize := IndexSet.size_sdiff_singleton hv
    have hwr : (m.sdiff (.singleton v)).size = w := by omega
    have hold := hc _ hrest (Nat.le_of_eq hwr)
    have hgoal : t.Holds ((m.sdiff (.singleton v)).insert v) := by
      rcases huv with h | h
      · exact (hgrown v (hm.inside v hv) _ hold hwr u h).1 hu
      · exact (hgrown u (hrest.inside u hu) _ hold hwr v h).2 hu
    rwa [IndexSet.insert_sdiff_singleton hv] at hgoal

/-- **Growth by one table is complete**, and it stores nothing of any other width. -/
theorem growTo_settles (hp : Placed nodes) (hpos : 1 ≤ w) (hk : w + 1 ≤ k) (hs : s.Sound nodes k)
    (hc : s.Complete nodes w) :
    Settles (Clash nodes k) (growTo nodes.toArray s (w + 1)) fun t =>
      t.Sound nodes k ∧ Extends (·.width = w + 1) s t ∧ t.Complete nodes (w + 1) := by
  unfold growTo
  refine (hs.foldlM (P := (·.width = w + 1)) (D := fun (n : TableNode) u => GrownAt nodes w s n.index u)
    (fun hD htu m hm hw j hij => (hD m hm hw j hij).imp (htu.holds_mono ∘ ·) (htu.holds_mono ∘ ·))
    fun n hn t ht hst => ?_).mono fun t ht => ⟨ht.1, ht.2.1, ?_⟩
  · obtain ⟨i, hi⟩ := List.mem_iff_getElem?.1 hn
    refine (growAt_settles hp hk ht hi).mono fun u hu => ⟨hu.1, hu.2.1, fun m hm => ?_⟩
    rw [hp.index hi]
    exact hu.2.2 m (hst.holds_mono hm)
  · refine complete_succ_of_grownAt hpos hc ht.2.1 fun i hi => ?_
    have hget : nodes[i]? = some nodes[i] := List.getElem?_eq_getElem hi
    have hdone := ht.2.2 nodes[i] (List.mem_of_getElem? hget)
    rwa [hp.index hget] at hdone

/-! ## Consecutive widths -/

/-- The combinations stand in the order of their widths, and none is wider than `w`. -/
structure Layered (w : Nat) (s : Store) : Prop where
  ascending : (s.combinations.toList.map Combination.width).Pairwise (· ≤ ·)
  width_le : ∀ c ∈ s.combinations.toList, c.width ≤ w

/-- A layer on top. -/
theorem Layered.extends (h : Layered w s) (hwv : w ≤ v) (hst : Extends (·.width = v) s t) : Layered v t := by
  obtain ⟨new, hnew, hwidth⟩ := hst.appended
  refine ⟨?_, fun c hc => ?_⟩
  · rw [hnew, List.pairwise_map, List.pairwise_append]
    refine ⟨List.pairwise_map.1 h.ascending, ?_, fun c hc d hd => ?_⟩
    · refine List.pairwise_of_forall_mem_list fun c hc d hd => ?_
      rw [hwidth c hc, hwidth d hd]
    · rw [hwidth d hd]
      exact (h.width_le c hc).trans hwv
  · rw [hnew, List.mem_append] at hc
    rcases hc with hc | hc
    · exact (h.width_le c hc).trans hwv
    · exact (hwidth c hc).le

/-- The store has grown to width `w`: it holds all shapes up to this width and no others, by width. -/
structure Grown (nodes : List TableNode) (k w : Nat) (s : Store) : Prop where
  sound : s.Sound nodes k
  complete : s.Complete nodes w
  layered : Layered w s

theorem Grown.holds_iff (h : Grown nodes k w s) : s.Holds m ↔ IsShape nodes m ∧ m.size ≤ w := by
  constructor
  · rintro ⟨id, c, hc, rfl⟩
    have hmem : c ∈ s.combinations.toList := Array.mem_toList_iff.2 (Array.mem_of_getElem? hc)
    exact ⟨h.sound.shape ⟨c, hc, rfl⟩, h.layered.width_le c hmem⟩
  · rintro ⟨hm, hw⟩
    exact h.complete m hm hw

/-- The single tables are the first layer. -/
theorem grown_one_of_seeded (hs : s.Sound nodes k)
    (h : s.combinations.toList.map (·.members) = (List.range nodes.length).map .singleton) : Grown nodes k 1 s := by
  have hsingle : ∀ c ∈ s.combinations.toList, c.width = 1 := by
    intro c hc
    have hmem : c.members ∈ s.combinations.toList.map (·.members) := List.mem_map_of_mem hc
    rw [h] at hmem
    obtain ⟨i, _, hi⟩ := List.mem_map.1 hmem
    rw [Combination.width, ← hi, IndexSet.size_singleton]
  have hst : Extends (·.width = 1) (.empty nodes.length k) s := ⟨hs.tableNum, hs.joinNum, _, rfl, hsingle⟩
  have hempty : Layered 1 (.empty nodes.length k) := ⟨.nil, nofun⟩
  exact ⟨hs, complete_one_of_seeded h, hempty.extends (Nat.le_refl 1) hst⟩

/-- **Growing through consecutive widths** stores the shapes up to the last one. One width adds one layer; the induction
is on the number of widths that are left. -/
theorem growThrough_settles (hp : Placed nodes) : ∀ (count w : Nat) (s : Store), 1 ≤ w → w + count ≤ k →
    Grown nodes k w s →
      Settles (Clash nodes k) (growThrough nodes.toArray (List.range' (w + 1) count) s).outcome
        (Grown nodes k (w + count))
  | 0, w, s, _, _, hs => hs
  | count + 1, w, s, hpos, hle, hs => by
    rw [List.range'_succ, growThrough]
    simp only [Journaled.outcome_bind, Journaled.outcome_ofExcept, Journaled.outcome_note]
    refine (growTo_settles hp hpos (by omega) hs.sound hs.complete).bind fun t ht => ?_
    obtain ⟨hsound, hext, hcomplete⟩ := ht
    have hnext : Grown nodes k (w + 1) t := ⟨hsound, hcomplete, hs.layered.extends (Nat.le_succ w) hext⟩
    rw [Settles.ok_bind_iff, show w + (count + 1) = w + 1 + count by omega]
    exact growThrough_settles hp count (w + 1) t (by omega) (by omega) hnext

end JoinGraph
end JoinShapes
