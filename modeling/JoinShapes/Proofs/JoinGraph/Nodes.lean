import JoinShapes.Proofs.Adjacency
import JoinShapes.Proofs.JoinGraph.Exact
import JoinShapes.Proofs.Schema.Build

/-!
# Nodes for a run

The nodes of a schema stand at their positions, a node refers to exactly the other tables that a foreign key of its
table points at, and it is referred to back from there (`TableNode.Mirrored`). So neighbourhood goes both ways, never
from a table to itself, and never out of the list. A run checks the first of this and relies on the last
(`TableNode.ofSchema_mirrored`).
-/

namespace JoinShapes

variable {s : Schema} {nodes : List TableNode} {i j : Nat}

/-- The table at `i` declares a foreign key to the table at `j`. -/
def Schema.DeclaresAt (s : Schema) (i j : Nat) : Prop :=
  ∃ t u, s.tables[i]? = some t ∧ s.tables[j]? = some u ∧ ∃ fk ∈ t.foreignKeys, fk.refTable = u.name

/-- **Foreign keys to other tables**, which are told by name, are those to other positions. -/
theorem Schema.refersAt_iff_declaresAt : s.RefersAt i j ↔ i ≠ j ∧ s.DeclaresAt i j := by
  constructor
  · rintro ⟨t, ht, fk, hfk, hindex⟩
    obtain ⟨hmem, hother⟩ := List.mem_filter.1 hfk
    obtain ⟨u, hu, hname⟩ := Schema.indexOf?_eq_some_iff_getElem?.1 hindex
    refine ⟨?_, t, u, ht, hu, fk, hmem, hname.symm⟩
    rintro rfl
    rw [ht] at hu
    cases hu
    simp [hname] at hother
  · rintro ⟨hij, t, u, ht, hu, fk, hfk, hname⟩
    have hindex : s.indexOf? fk.refTable = some j := Schema.indexOf?_eq_some_iff_getElem?.2 ⟨u, hu, hname.symm⟩
    refine ⟨t, ht, fk, List.mem_filter.2 ⟨hfk, ?_⟩, hindex⟩
    -- A foreign key that names its own table would be found at `i`.
    rw [bne_iff_ne]
    intro hself
    rw [hself, Schema.indexOf?_eq_some_iff_getElem?.2 ⟨t, ht, rfl⟩] at hindex
    exact hij (Option.some.inj hindex)

namespace TableNode

/-- The nodes stand at the positions of the tables and know the foreign keys between different tables, at both ends. -/
structure Mirrored (s : Schema) (nodes : List TableNode) : Prop where
  length : nodes.length = s.size
  index : ∀ {i : Nat} {n : TableNode}, nodes[i]? = some n → n.index = i
  refs : ∀ {i : Nat} {n : TableNode}, nodes[i]? = some n → ∀ j, j ∈ n.refs ↔ i ≠ j ∧ s.DeclaresAt i j
  backRefs : ∀ {i : Nat} {n : TableNode}, nodes[i]? = some n →
    ∀ j, j ∈ n.backRefs ↔ ∃ m, nodes[j]? = some m ∧ i ∈ m.refs

theorem Notes.mirrored (h : Notes s.size s.RefersAt nodes) : Mirrored s nodes where
  length := h.length
  index := h.index
  refs hn j := (h.refs hn j).trans Schema.refersAt_iff_declaresAt
  backRefs {i n} hn j := by
    rw [h.backRefs hn]
    constructor
    · intro hji
      obtain ⟨_, t, _, ht, _⟩ := Schema.refersAt_iff_declaresAt.1 hji
      have hj : j < nodes.length := h.length ▸ (List.getElem?_eq_some_iff.1 ht).1
      exact ⟨nodes[j], List.getElem?_eq_getElem hj, (h.refs (List.getElem?_eq_getElem hj) i).2 hji⟩
    · rintro ⟨m, hm, hi⟩
      exact (h.refs hm i).1 hi

/-- Neighbours are joined by a reference one way or the other. -/
theorem Notes.adjacent_iff_refersAt (h : Notes s.size s.RefersAt nodes) :
    Adjacent nodes i j ↔ s.RefersAt i j ∨ s.RefersAt j i := by
  constructor
  · rintro ⟨n, hn, hj⟩
    exact (h.mem_neighbors hn).1 hj
  · intro hij
    have hi : i < nodes.length := by
      rw [h.length]
      rcases hij with ⟨t, ht, _⟩ | ⟨_, _, _, _, hindex⟩
      · exact (List.getElem?_eq_some_iff.1 ht).1
      · exact (Schema.indexOf?_eq_some_iff.1 hindex).1
    exact ⟨nodes[i], List.getElem?_eq_getElem hi, (h.mem_neighbors (List.getElem?_eq_getElem hi)).2 hij⟩

/-- **The nodes of a schema.** There always are some; they mirror the foreign keys. So neighbourhood is symmetric and
irreflexive, stays within the list, and the nodes are accepted for every run. -/
theorem ofSchema_mirrored (s : Schema) : ∃ nodes, ofSchema s = .ok nodes ∧ Mirrored s nodes ∧
    (∀ i j, Adjacent nodes i j → Adjacent nodes j i) ∧ (∀ i, ¬ Adjacent nodes i i) ∧
    (∀ i j, Adjacent nodes i j → j < nodes.length) ∧ Placed nodes ∧
    ∀ k, 1 ≤ k → JoinGraph.check nodes k = .ok () := by
  obtain ⟨nodes, hread, h⟩ := ofSchema_eq_ok s
  refine ⟨nodes, hread, h.mirrored, fun i j hij => ?_, fun i hii => ?_, fun i j => h.placed.adjacent_lt, h.placed,
    fun k hk => JoinGraph.check_eq_ok h.placed hk⟩
  · rw [h.adjacent_iff_refersAt] at hij ⊢
    exact hij.symm
  · rcases h.adjacent_iff_refersAt.1 hii with hself | hself
    · exact (Schema.refersAt_iff_declaresAt.1 hself).1 rfl
    · exact (Schema.refersAt_iff_declaresAt.1 hself).1 rfl

/-- People in teams under other people, and teams with two people in front. -/
def staff : Schema := .ofWellFormed "staff"
  [⟨"person", [], ["id"], [⟨"team_id", "team", "id"⟩, ⟨"manager_id", "person", "id"⟩]⟩,
    ⟨"team", [], ["id"], [⟨"lead_id", "person", "id"⟩, ⟨"deputy_id", "person", "id"⟩]⟩] (by decide)

/-- People and teams are neighbours of each other; people are none of their own. -/
theorem staff_mirrored : ∃ nodes, ofSchema staff = .ok nodes ∧ Adjacent nodes 0 1 ∧ Adjacent nodes 1 0 ∧
    ¬ Adjacent nodes 0 0 := by
  obtain ⟨nodes, hread, hmirrored, hsymm, hirrefl, _⟩ := ofSchema_mirrored staff
  have hlt : 0 < nodes.length := by
    rw [hmirrored.length]
    decide
  have hget : nodes[0]? = some nodes[0] := List.getElem?_eq_getElem hlt
  have hdeclares : staff.DeclaresAt 0 1 := ⟨_, _, rfl, rfl, ⟨"team_id", "team", "id"⟩, by decide, rfl⟩
  have hteam : Adjacent nodes 0 1 :=
    ⟨nodes[0], hget, IndexSet.mem_union.2 (.inl ((hmirrored.refs hget 1).2 ⟨by decide, hdeclares⟩))⟩
  exact ⟨nodes, hread, hteam, hsymm 0 1 hteam, hirrefl 0⟩

end TableNode
end JoinShapes
