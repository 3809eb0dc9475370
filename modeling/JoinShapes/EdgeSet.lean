import JoinShapes.PlanError

/-!
# Sets of join edges

The edges of one owner, each once, by ascending partner and then result.

* `mem_insert`: inserting adds exactly the new edge.
-/

namespace JoinShapes

namespace JoinEdge

/-- Edges are ordered by partner, then by result. -/
protected def Lt (e f : JoinEdge) : Prop := e.partner < f.partner ∨ e.partner = f.partner ∧ e.result < f.result

instance : LT JoinEdge := ⟨JoinEdge.Lt⟩

theorem lt_def {e f : JoinEdge} : e < f ↔ e.partner < f.partner ∨ e.partner = f.partner ∧ e.result < f.result := Iff.rfl

instance (e f : JoinEdge) : Decidable (e < f) := inferInstanceAs (Decidable (_ ∨ _))

theorem lt_trans {e f g : JoinEdge} (h : e < f) (h' : f < g) : e < g := by
  simp only [lt_def] at *
  omega

theorem eq_of_not_lt {e f : JoinEdge} (h : ¬ e < f) (h' : ¬ f < e) : e = f := by
  obtain ⟨p, r⟩ := e
  obtain ⟨q, s⟩ := f
  simp only [lt_def, mk.injEq] at *
  omega

end JoinEdge

/-- Edges in ascending order. -/
structure EdgeSet where
  toList : List JoinEdge
  ascending : toList.Pairwise (· < ·)

namespace EdgeSet

instance : Membership JoinEdge EdgeSet := ⟨fun s e => e ∈ s.toList⟩

theorem mem_toList {e : JoinEdge} {s : EdgeSet} : e ∈ s.toList ↔ e ∈ s := Iff.rfl

/-- The set without edges. -/
def empty : EdgeSet := ⟨[], .nil⟩

/-- The number of edges. -/
def size (s : EdgeSet) : Nat := s.toList.length

/-- The ascending list with one more edge. -/
def insertList (e : JoinEdge) : List JoinEdge → List JoinEdge
  | [] => [e]
  | f :: fs => if e < f then e :: f :: fs else if f < e then f :: insertList e fs else f :: fs

theorem mem_insertList {e f : JoinEdge} {fs : List JoinEdge} : f ∈ insertList e fs ↔ f = e ∨ f ∈ fs := by
  induction fs with
  | nil => simp [insertList]
  | cons g gs ih =>
    unfold insertList
    split
    · simp
    · split
      · grind
      · rename_i h1 h2
        have := JoinEdge.eq_of_not_lt h1 h2
        grind

theorem ascending_insertList {e : JoinEdge} {fs : List JoinEdge} (h : fs.Pairwise (· < ·)) :
    (insertList e fs).Pairwise (· < ·) := by
  induction fs with
  | nil => exact List.pairwise_singleton _ e
  | cons g gs ih =>
    obtain ⟨h0, h1⟩ := List.pairwise_cons.1 h
    unfold insertList
    split
    · rename_i heg
      refine List.pairwise_cons.2 ⟨fun f hf => ?_, h⟩
      rcases List.mem_cons.1 hf with rfl | hf
      · exact heg
      · exact JoinEdge.lt_trans heg (h0 f hf)
    · split
      · rename_i hge
        refine List.pairwise_cons.2 ⟨fun f hf => ?_, ih h1⟩
        rcases mem_insertList.1 hf with rfl | hf
        · exact hge
        · exact h0 f hf
      · exact h

/-- The set with one more edge. -/
def insert (e : JoinEdge) (s : EdgeSet) : EdgeSet := ⟨insertList e s.toList, ascending_insertList s.ascending⟩

theorem nodup_toList (s : EdgeSet) : s.toList.Nodup := s.ascending.imp fun {e f} hef he => by
  subst he
  simp [JoinEdge.lt_def] at hef

@[simp] theorem not_mem_empty {e : JoinEdge} : e ∉ empty := List.not_mem_nil

@[simp] theorem mem_insert {e f : JoinEdge} {s : EdgeSet} : f ∈ s.insert e ↔ f = e ∨ f ∈ s := mem_insertList

end EdgeSet
end JoinShapes
