import JoinShapes.Files.Access

/-!
# What stands where in a file tree

A file tree is looked at through the places that names lead to: nothing, a directory or a file with its content
(`FileTree.at?`). Setting a file or an empty directory below a directory changes its own place only (`at?_put`). Making
directories adds directories along the way and nothing else (`makesAlong_makeDirectories`).
-/

namespace JoinShapes

/-- What can stand at a place. -/
inductive Standing
  | directory
  | file (content : ByteArray)

namespace FileTree

variable {t t' u v : FileTree} {n m : String} {ns place p q : List String} {ways ways' : List (List String)}

/-- A file with its content, or a directory. -/
def standing : FileTree → Standing
  | file content => .file content
  | directory _ => .directory

/-- What stands at the end of some names. -/
def at? (t : FileTree) (place : List String) : Option Standing := (t.get? place).map standing

/-! ## Looking -/

theorem at?_nil (t : FileTree) : t.at? [] = some t.standing := rfl

theorem at?_cons (t : FileTree) (n : String) (ns : List String) : t.at? (n :: ns) = (t.child? n).bind (·.at? ns) := by
  rw [at?, get?]
  cases t.child? n <;> rfl

theorem at?_append (t : FileTree) (p q : List String) : t.at? (p ++ q) = (t.get? p).bind (·.at? q) := by
  induction p generalizing t with
  | nil => rfl
  | cons n p ih =>
    rw [List.cons_append, at?_cons, get?]
    cases h : t.child? n with
    | none => rfl
    | some u => exact ih u

theorem standing_eq_directory (h : t.child? n = some u) : t.standing = .directory := by
  cases t with
  | file content => cases h
  | directory es => rfl

/-- **What stands somewhere stands in a directory.** -/
theorem at?_of_append_cons {x : Standing} (h : t.at? (p ++ n :: q) = some x) : t.at? p = some .directory := by
  rw [at?_append, Option.bind_eq_some_iff] at h
  obtain ⟨u, hu, hq⟩ := h
  rw [at?_cons, Option.bind_eq_some_iff] at hq
  obtain ⟨v, hv, _⟩ := hq
  rw [at?, hu, Option.map_some, standing_eq_directory hv]

theorem at?_root (h : t.at? p = some .directory) : t.at? [] = some .directory := by
  cases p with
  | nil => exact h
  | cons n p => exact at?_of_append_cons (p := []) h

theorem at?_dropLast (h : t.at? p = some .directory) : t.at? p.dropLast = some .directory := by
  by_cases hp : p = []
  · subst hp
    exact h
  · rw [← List.dropLast_concat_getLast hp] at h
    exact at?_of_append_cons h

/-! ## Setting -/

theorem standing_setChild (t : FileTree) (n : String) (u : FileTree) : (t.setChild n u).standing = t.standing := by
  cases t with
  | file content => rfl
  | directory es =>
    rw [setChild]
    split <;> rfl

theorem find?_setEntry (es : List (String × FileTree)) (n m : String) (u : FileTree) :
    (es.map fun e => if e.1 == n then (n, u) else e).find? (·.1 == m) =
      if m = n then (es.find? (·.1 == n)).map fun _ => (n, u) else es.find? (·.1 == m) := by
  induction es with
  | nil => simp
  | cons e es ih =>
    obtain ⟨a, v⟩ := e
    by_cases ha : a = n
    · subst ha
      by_cases hm : m = a
      · subst hm
        simp
      · have ham : ¬ a = m := fun h => hm h.symm
        simpa [hm, ham] using ih
    · by_cases ham : a = m
      · subst ham
        simp [ha]
      · simpa [ha, ham] using ih

/-- **Setting an entry of a directory** changes that entry only. -/
theorem child?_setChild (ht : t.standing = .directory) :
    (t.setChild n u).child? m = if m = n then some u else t.child? m := by
  cases t with
  | file content => cases ht
  | directory es =>
    rw [setChild]
    split
    · rename_i hany
      obtain ⟨e, he, hen⟩ := List.any_eq_true.1 hany
      have hsome : (es.find? (·.1 == n)).isSome = true := List.find?_isSome.2 ⟨e, he, hen⟩
      rw [child?, find?_setEntry]
      split
      · obtain ⟨e', he'⟩ := Option.isSome_iff_exists.1 hsome
        rw [he']
        rfl
      · rfl
    · rename_i hany
      have hnone : es.find? (·.1 == n) = none := by
        rw [List.find?_eq_none]
        intro e he hen
        exact hany (List.any_eq_true.2 ⟨e, he, hen⟩)
      rw [child?, List.find?_append]
      by_cases hmn : m = n
      · subst hmn
        simp [hnone]
      · have hnm : ¬ n = m := fun h => hmn h.symm
        simp [child?, hmn, hnm]

theorem put_cons_of_child? (new : FileTree) (h : t.child? n = some u) :
    put new t (n :: ns) = t.setChild n (put new u ns) := by
  rw [put]
  simp only [h]

theorem put_singleton (new t : FileTree) (n : String) : put new t [n] = t.setChild n new := by
  rw [put]
  cases t.child? n <;> rfl

/-- **Putting something without entries into a directory** changes the place of it only, if no directory was there. -/
theorem at?_put (hv : ∀ m, v.child? m = none) (ht : t.at? place = some .directory)
    (hold : t.at? (place ++ [n]) ≠ some .directory) :
    (put v t (place ++ [n])).at? q = if q = place ++ [n] then some v.standing else t.at? q := by
  induction place generalizing t q with
  | nil =>
    have hdir : t.standing = .directory := Option.some.inj ht
    rw [List.nil_append, put_singleton]
    cases q with
    | nil => simp [at?_nil, standing_setChild]
    | cons m q =>
      rw [at?_cons, child?_setChild hdir]
      by_cases hm : m = n
      · subst hm
        rw [if_pos rfl, Option.bind_some]
        cases q with
        | nil => simp [at?_nil]
        | cons b q =>
          -- Nothing was below the old entry, as it was no directory, and nothing is below the new one.
          have hbelow : t.at? (m :: b :: q) = none := by
            rw [Option.eq_none_iff_forall_ne_some]
            intro x hx
            exact hold (at?_of_append_cons (p := [m]) hx)
          rw [at?_cons, hv, Option.bind_none, hbelow, if_neg (by simp)]
      · rw [if_neg hm, if_neg (by simp [hm]), at?_cons]
  | cons a place ih =>
    rw [at?_cons, Option.bind_eq_some_iff] at ht
    obtain ⟨u, hu, hplace⟩ := ht
    have hold' : u.at? (place ++ [n]) ≠ some .directory := by
      rw [List.cons_append, at?_cons, hu, Option.bind_some] at hold
      exact hold
    rw [List.cons_append, put_cons_of_child? v hu]
    cases q with
    | nil => simp [at?_nil, standing_setChild]
    | cons m q =>
      rw [at?_cons, child?_setChild (standing_eq_directory hu)]
      by_cases hm : m = a
      · subst hm
        rw [if_pos rfl, Option.bind_some, ih hplace hold', at?_cons, hu, Option.bind_some]
        simp
      · rw [if_neg hm, if_neg (by simp [hm]), at?_cons]

/-! ## Walking -/

/-- Every directory of `t` is one of `t'`. -/
def KeepsDirectories (t t' : FileTree) : Prop := ∀ q, t.at? q = some .directory → t'.at? q = some .directory

theorem walk_cons_iff (h : n ≠ "..") :
    t.walk place (n :: ns) = some q ↔ t.at? (place ++ [n]) = some .directory ∧ t.walk (place ++ [n]) ns = some q := by
  rw [walk, if_neg h, at?]
  cases t.get? (place ++ [n]) with
  | none => simp
  | some u => cases u <;> simp [standing]

/-- A walk through directories ends in a directory. -/
theorem at?_of_walk (h : t.walk place ns = some q) (ht : t.at? place = some .directory) :
    t.at? q = some .directory := by
  induction ns generalizing place with
  | nil =>
    cases h
    exact ht
  | cons n ns ih =>
    by_cases hn : n = ".."
    · rw [walk, if_pos hn] at h
      exact ih h (at?_dropLast ht)
    · obtain ⟨hdir, hwalk⟩ := (walk_cons_iff hn).1 h
      exact ih hwalk hdir

/-- More directories do not change a walk. -/
theorem walk_mono (hkeep : KeepsDirectories t t') (h : t.walk place ns = some q) : t'.walk place ns = some q := by
  induction ns generalizing place with
  | nil => exact h
  | cons n ns ih =>
    by_cases hn : n = ".."
    · rw [walk, if_pos hn] at h ⊢
      exact ih h
    · obtain ⟨hdir, hwalk⟩ := (walk_cons_iff hn).1 h
      exact (walk_cons_iff hn).2 ⟨hkeep _ hdir, ih hwalk⟩

/-- The places that one comes by when following names from a place. -/
def along (place : List String) : List String → List (List String)
  | [] => []
  | n :: ns => if n = ".." then along place.dropLast ns else (place ++ [n]) :: along (place ++ [n]) ns

/-- With fewer names one comes by fewer places. -/
theorem mem_along_append {ms : List String} (h : q ∈ along place ns) : q ∈ along place (ns ++ ms) := by
  induction ns generalizing place with
  | nil => cases h
  | cons n ns ih =>
    rw [List.cons_append, along]
    rw [along] at h
    by_cases hn : n = ".."
    · rw [if_pos hn] at h ⊢
      exact ih h
    · rw [if_neg hn] at h ⊢
      rcases List.mem_cons.1 h with rfl | h
      · exact List.mem_cons_self
      · exact List.mem_cons_of_mem _ (ih h)

/-! ## Making directories -/

/-- The only difference between the trees are directories of `t'` at some of the places where nothing was. -/
def MakesAlong (ways : List (List String)) (t t' : FileTree) : Prop :=
  ∀ q, t'.at? q = t.at? q ∨ t.at? q = none ∧ t'.at? q = some .directory ∧ q ∈ ways

namespace MakesAlong

theorem refl (ways : List (List String)) (t : FileTree) : MakesAlong ways t t := fun _ => .inl rfl

theorem keepsDirectories (h : MakesAlong ways t t') : KeepsDirectories t t' := by
  intro q hq
  rcases h q with heq | ⟨hnone, _⟩
  · rwa [heq]
  · rw [hnone] at hq
    cases hq

theorem mono (h : MakesAlong ways t t') (hsub : ∀ q ∈ ways, q ∈ ways') : MakesAlong ways' t t' := by
  intro q
  rcases h q with heq | ⟨hnone, hdir, hq⟩
  · exact .inl heq
  · exact .inr ⟨hnone, hdir, hsub q hq⟩

theorem trans (h : MakesAlong ways t t') (h' : MakesAlong ways t' u) : MakesAlong ways t u := by
  intro q
  rcases h' q with heq | ⟨hnone, hdir, hq⟩
  · rw [heq]
    exact h q
  · rcases h q with heq' | ⟨_, hdir', _⟩
    · exact .inr ⟨heq' ▸ hnone, hdir, hq⟩
    · rw [hdir'] at hnone
      cases hnone

end MakesAlong

/-- A new directory in a directory. -/
theorem makesAlong_put (ht : t.at? place = some .directory) (hold : t.at? (place ++ [n]) = none) :
    MakesAlong [place ++ [n]] t (put (directory []) t (place ++ [n])) := by
  intro q
  have hput := at?_put (n := n) (q := q) (v := directory []) (fun _ => rfl) ht (by simp [hold])
  by_cases hq : q = place ++ [n]
  · subst hq
    refine .inr ⟨hold, ?_, List.mem_singleton_self _⟩
    rw [hput, if_pos rfl]
    rfl
  · exact .inl (by rw [hput, if_neg hq])

/-- **Making directories makes directories along the way** and changes nothing else, however far it comes. -/
theorem makesAlong_makeDirectories (ht : t.at? place = some .directory) :
    MakesAlong (along place ns) t (t.makeDirectories place ns).1 := by
  induction ns generalizing t place with
  | nil => exact .refl _ t
  | cons n ns ih =>
    rw [makeDirectories, along]
    by_cases hn : n = ".."
    · rw [if_pos hn, if_pos hn]
      exact ih (at?_dropLast ht)
    · rw [if_neg hn, if_neg hn]
      have hsub : ∀ q ∈ along (place ++ [n]) ns, q ∈ (place ++ [n]) :: along (place ++ [n]) ns :=
        fun _ => List.mem_cons_of_mem _
      cases hget : t.get? (place ++ [n]) with
      | none =>
        have hold : t.at? (place ++ [n]) = none := by rw [at?, hget, Option.map_none]
        dsimp only
        split
        · have hmade := makesAlong_put ht hold
          have hdir : (put (directory []) t (place ++ [n])).at? (place ++ [n]) = some .directory := by
            rw [at?_put (fun _ => rfl) ht (by simp [hold]), if_pos rfl]
            rfl
          refine (hmade.mono ?_).trans ((ih hdir).mono hsub)
          intro q hq
          rw [List.mem_singleton.1 hq]
          exact List.mem_cons_self
        · exact .refl _ t
      | some u =>
        cases u with
        | file content => exact .refl _ t
        | directory es =>
          have hdir : t.at? (place ++ [n]) = some .directory := by rw [at?, hget, Option.map_some, standing]
          exact (ih hdir).mono hsub

end FileTree
end JoinShapes
