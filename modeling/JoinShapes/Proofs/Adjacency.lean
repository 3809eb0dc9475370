import JoinShapes.Adjacency
import JoinShapes.Proofs.Schema
import JoinShapes.Proofs.Settles
import JoinShapes.Proofs.Shape

/-!
# The nodes of a schema

Reading the nodes off a schema never fails, and they know exactly the foreign keys between different tables, each at
both of its ends (`TableNode.Notes`, `TableNode.ofSchema_eq_ok`). So the tables that a node names are those that a
foreign key of either side joins to it.
-/

namespace JoinShapes
namespace TableNode

variable {s : Schema} {t : TableSchema} {m i j : Nat} {R R' : Nat → Nat → Prop} {nodes : List TableNode} {n : TableNode}

/-- Each of `m` nodes stands at its index and knows the references `R` that start or end there. -/
structure Notes (m : Nat) (R : Nat → Nat → Prop) (nodes : List TableNode) : Prop where
  length : nodes.length = m
  index : ∀ {i : Nat} {n : TableNode}, nodes[i]? = some n → n.index = i
  refs : ∀ {i : Nat} {n : TableNode}, nodes[i]? = some n → ∀ j, j ∈ n.refs ↔ R i j
  backRefs : ∀ {i : Nat} {n : TableNode}, nodes[i]? = some n → ∀ j, j ∈ n.backRefs ↔ R j i

theorem Notes.congr (h : Notes m R nodes) (hR : ∀ i j, R i j ↔ R' i j) : Notes m R' nodes where
  length := h.length
  index := h.index
  refs hn j := (h.refs hn j).trans (hR _ j)
  backRefs hn j := (h.backRefs hn j).trans (hR j _)

/-- The node at a position after a reference was noted. -/
theorem getElem?_refer {a : Nat} : (refer i j nodes)[a]? = nodes[a]?.map fun n =>
    ⟨n.index, if a = i then n.refs.insert j else n.refs, if a = j then n.backRefs.insert i else n.backRefs⟩ := by
  simp only [refer, List.getElem?_modify]
  cases nodes[a]? with
  | none => simp
  | some n => by_cases hi : i = a <;> by_cases hj : j = a <;> simp [hi, hj, eq_comm]

/-- **Noting a reference adds it at both ends**, and nothing else. -/
theorem Notes.refer (h : Notes m R nodes) : Notes m (fun a b => R a b ∨ a = i ∧ b = j) (refer i j nodes) where
  length := by simp [TableNode.refer, h.length]
  index {a n} hn := by
    rw [getElem?_refer, Option.map_eq_some_iff] at hn
    obtain ⟨old, hold, rfl⟩ := hn
    exact (h.index hold :)
  refs {a n} hn b := by
    rw [getElem?_refer, Option.map_eq_some_iff] at hn
    obtain ⟨n, hn, rfl⟩ := hn
    have hold := h.refs hn b
    by_cases ha : a = i <;> simp [ha, hold, or_comm]
  backRefs {a n} hn b := by
    rw [getElem?_refer, Option.map_eq_some_iff] at hn
    obtain ⟨n, hn, rfl⟩ := hn
    have hold := h.backRefs hn b
    by_cases ha : a = j <;> simp [ha, hold, or_comm]

/-- Without references all nodes are isolated. -/
theorem notes_isolated (m : Nat) : Notes m (fun _ _ => False) ((List.range m).map isolated) := by
  have hget : ∀ {i : Nat} {n : TableNode}, ((List.range m).map isolated)[i]? = some n → n = isolated i := by
    intro i n hn
    rw [List.getElem?_map, Option.map_eq_some_iff] at hn
    obtain ⟨a, ha, rfl⟩ := hn
    obtain ⟨_, rfl⟩ := List.getElem?_eq_some_iff.1 ha
    rw [List.getElem_range]
  constructor
  · rw [List.length_map, List.length_range]
  · intro i n hn
    rw [hget hn]
    rfl
  · intro i n hn j
    simp [hget hn, isolated]
  · intro i n hn j
    simp [hget hn, isolated]

/-- The loop over the keys of one table notes their targets. -/
theorem foldlM_referKey_settles (fks : List ForeignKey) (hfks : ∀ fk ∈ fks, ∃ j, s.indexOf? fk.refTable = some j)
    (h : Notes m R nodes) : Settles (fun _ => False) (fks.foldlM (referKey s t i) nodes)
      (Notes m fun a b => R a b ∨ a = i ∧ ∃ fk ∈ fks, s.indexOf? fk.refTable = some b) := by
  induction fks generalizing R nodes with
  | nil => exact h.congr fun a b => by simp
  | cons fk fks ih =>
    obtain ⟨j, hj⟩ := hfks fk List.mem_cons_self
    rw [List.foldlM_cons, referKey, hj, Settles.ok_bind_iff]
    have hrest := ih (fun fk hfk => hfks fk (List.mem_cons_of_mem _ hfk)) (h.refer (i := i) (j := j))
    refine hrest.mono fun nodes' h' => h'.congr fun a b => ?_
    simp only [List.exists_mem_cons_iff, hj, Option.some.injEq, and_or_left, or_assoc, eq_comm]

/-- The loop over tables at positions notes all of their keys. -/
theorem foldlM_tables_settles (ts : List (TableSchema × Nat)) (hts : ∀ p ∈ ts, p.1 ∈ s.tables) (h : Notes m R nodes) :
    Settles (fun _ => False) (ts.foldlM (fun nodes (t, i) => t.outgoing.foldlM (referKey s t i) nodes) nodes)
      (Notes m fun a b => R a b ∨ ∃ t, (t, a) ∈ ts ∧ ∃ fk ∈ t.outgoing, s.indexOf? fk.refTable = some b) := by
  induction ts generalizing R nodes with
  | nil => exact h.congr fun a b => by simp
  | cons p ts ih =>
    obtain ⟨t, i⟩ := p
    have ht : t ∈ s.tables := hts _ List.mem_cons_self
    rw [List.foldlM_cons]
    refine (foldlM_referKey_settles t.outgoing (fun fk hfk => Schema.exists_indexOf?_of_outgoing ht hfk) h).bind
      fun nodes' h' => ?_
    refine (ih (fun p hp => hts p (List.mem_cons_of_mem _ hp)) h').mono fun nodes'' h'' => h''.congr fun a b => ?_
    simp only [List.mem_cons, Prod.mk.injEq, or_assoc]
    grind

/-- **Reading the nodes off a schema never fails**, and they know exactly the references between different tables. -/
theorem ofSchema_eq_ok (s : Schema) : ∃ nodes, ofSchema s = .ok nodes ∧ Notes s.size s.RefersAt nodes := by
  have hts : ∀ p ∈ s.tables.zipIdx, p.1 ∈ s.tables := fun p hp => List.fst_mem_of_mem_zipIdx hp
  obtain ⟨nodes, hnodes, h⟩ := (foldlM_tables_settles s.tables.zipIdx hts (notes_isolated s.size)).exists_ok
  refine ⟨nodes, hnodes, h.congr fun a b => ?_⟩
  simp only [false_or, List.mk_mem_zipIdx_iff_getElem?, Schema.RefersAt]

/-! ## Neighbours -/

theorem Notes.mem_neighbors (h : Notes m R nodes) (hn : nodes[i]? = some n) : j ∈ n.neighbors ↔ R i j ∨ R j i := by
  rw [neighbors, IndexSet.mem_union, h.refs hn, h.backRefs hn]

/-- **Tables are adjacent where one refers to the other.** -/
theorem Notes.adjacent_iff (h : Notes s.size s.RefersAt nodes) (hi : i < s.size) (hj : j < s.size) :
    Adjacent nodes i j ↔ i ≠ j ∧ (s.Refers (s.nameAt i) (s.nameAt j) ∨ s.Refers (s.nameAt j) (s.nameAt i)) := by
  obtain ⟨n, hn⟩ : ∃ n, nodes[i]? = some n := ⟨_, List.getElem?_eq_getElem (h.length ▸ hi)⟩
  rw [JoinShapes.adjacent_iff hn, h.mem_neighbors hn, Schema.refersAt_iff hi hj, Schema.refersAt_iff hj hi]
  tauto

/-- **The nodes of a schema are in place.** -/
theorem Notes.placed (h : Notes s.size s.RefersAt nodes) : Placed nodes where
  index := h.index
  near {n} hn j hj := by
    obtain ⟨i, hi⟩ := List.mem_iff_getElem?.1 hn
    rw [h.length]
    rcases (h.mem_neighbors hi).1 hj with ⟨_, _, fk, _, hfk⟩ | ⟨t, ht, _⟩
    · exact (Schema.indexOf?_eq_some_iff.1 hfk).1
    · exact (List.getElem?_eq_some_iff.1 ht).1

end TableNode
end JoinShapes
