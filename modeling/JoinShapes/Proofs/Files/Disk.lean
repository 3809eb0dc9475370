import JoinShapes.Proofs.Files.Tree

/-!
# What is on a disk after writing

A disk whose working directory is there keeps it. Making directories adds directories along the path
(`makeDirectories_eq`), and writing sets the file that the path leads to (`write_eq_true`). Both together leave the file
to be read at its path, and all else as it was (`wrote_of_eq_true`).
-/

namespace JoinShapes

open FileTree

namespace Disk

variable {d d₁ d₂ : Disk} {path directory : String} {content : ByteArray} {place q : List String} {isDone : Bool}

/-- The working directory is there. -/
def Stands (d : Disk) : Prop := d.root.at? d.here = some .directory

/-- The places that a path comes by. -/
def along (d : Disk) (path : String) : List (List String) :=
  FileTree.along (d.origin (Path.route path)) (Path.route path).names

/-- After `d` the disk `d'` holds a file of this content at `path`. All else is as before, apart from directories
along `directory` that were missing. -/
structure Wrote (d d' : Disk) (directory path : String) (content : ByteArray) : Prop where
  here : d'.here = d.here
  read : d'.read? path = some content
  elsewhere : ∃ place, d'.locate? path = some place ∧ ∀ q ≠ place, d'.root.at? q = d.root.at? q ∨
    d.root.at? q = none ∧ d'.root.at? q = some .directory ∧ q ∈ d.along directory

theorem Stands.at?_origin (hd : d.Stands) (r : Path.Route) : d.root.at? (d.origin r) = some .directory := by
  rw [origin]
  split
  · exact at?_root hd
  · exact hd

/-- **A path leads to a name in a directory.** -/
theorem locate?_eq_some (hd : d.Stands) (h : d.locate? path = some place) :
    ∃ loc last, place = loc ++ [last] ∧ d.root.at? loc = some .directory := by
  rw [locate?] at h
  split at h
  · cases h
  · rename_i last _
    split at h
    · cases h
    · obtain ⟨loc, hloc, rfl⟩ := Option.map_eq_some_iff.1 h
      exact ⟨loc, last, rfl, at?_of_walk hloc (hd.at?_origin _)⟩

/-- More directories do not change where a path leads. -/
theorem locate?_mono (hhere : d₂.here = d₁.here) (hkeep : KeepsDirectories d₁.root d₂.root)
    (h : d₁.locate? path = some place) : d₂.locate? path = some place := by
  have horigin : ∀ r, d₂.origin r = d₁.origin r := by
    intro r
    rw [origin, origin, hhere]
  rw [locate?] at h ⊢
  split
  · rename_i hnone
    simp only [hnone] at h
    cases h
  · rename_i last hlast
    simp only [hlast] at h
    split at h
    · cases h
    · rename_i huse
      obtain ⟨loc, hloc, rfl⟩ := Option.map_eq_some_iff.1 h
      rw [if_neg huse, horigin, walk_mono hkeep hloc, Option.map_some]

theorem along_makeable (d : Disk) (r : Path.Route) (hq : q ∈ FileTree.along (d.origin r) r.makeable) :
    q ∈ FileTree.along (d.origin r) r.names := by
  rw [Path.Route.makeable] at hq
  split at hq
  · by_cases hnil : r.names = []
    · rw [hnil] at hq ⊢
      exact hq
    · rw [← List.dropLast_concat_getLast hnil]
      exact mem_along_append hq
  · exact hq

/-- **Making directories** makes them along the path, whether all could be made or not. -/
theorem makeDirectories_eq (hd : d.Stands) (h : d.makeDirectories path = (d₁, isDone)) :
    d₁.here = d.here ∧ MakesAlong (d.along path) d.root d₁.root := by
  rw [makeDirectories] at h
  split at h
  · cases h
    exact ⟨rfl, .refl _ _⟩
  · cases h
    refine ⟨rfl, (makesAlong_makeDirectories (hd.at?_origin _)).mono ?_⟩
    intro q hq
    exact d.along_makeable _ hq

/-- **Writing** sets the file that the path leads to. -/
theorem write_eq_true (hd : d.Stands) (h : d.write path content = (d₁, true)) :
    ∃ place, d.locate? path = some place ∧ d₁.here = d.here ∧ d.root.at? place ≠ some .directory ∧
      ∀ q, d₁.root.at? q = if q = place then some (.file content) else d.root.at? q := by
  rw [write] at h
  split at h
  · cases h
  · rename_i place hplace
    obtain ⟨loc, last, rfl, hloc⟩ := locate?_eq_some hd hplace
    refine ⟨_, hplace, ?_⟩
    have hput : d.root.at? (loc ++ [last]) ≠ some .directory → ∀ q, (put (.file content) d.root (loc ++ [last])).at? q =
        if q = loc ++ [last] then some (.file content) else d.root.at? q := by
      intro hold q
      exact at?_put (fun _ => rfl) hloc hold
    split at h
    · cases h
    · rename_i old hold
      cases h
      have hfile : d.root.at? (loc ++ [last]) ≠ some .directory := by simp [at?, hold, standing]
      exact ⟨rfl, hfile, hput hfile⟩
    · rename_i hold
      have hnone : d.root.at? (loc ++ [last]) ≠ some .directory := by simp [at?, hold]
      split at h
      · cases h
        exact ⟨rfl, hnone, hput hnone⟩
      · cases h

/-- **A written file can be read**, and all else is as it was. -/
theorem wrote_of_eq_true (hd : d.Stands) (hmake : d.makeDirectories directory = (d₁, isDone))
    (hwrite : d₁.write path content = (d₂, true)) : Wrote d d₂ directory path content := by
  obtain ⟨hhere, hmakes⟩ := makeDirectories_eq hd hmake
  have hd₁ : d₁.Stands := by
    rw [Stands, hhere]
    exact hmakes.keepsDirectories _ hd
  obtain ⟨place, hplace, hhere', hold, hat⟩ := write_eq_true hd₁ hwrite
  have hkeep : KeepsDirectories d₁.root d₂.root := by
    intro q hq
    have hne : q ≠ place := fun h => hold (h ▸ hq)
    rw [hat, if_neg hne, hq]
  have hplace' := locate?_mono hhere' hkeep hplace
  refine ⟨hhere'.trans hhere, ?_, place, hplace', ?_⟩
  · have hfile : d₂.root.at? place = some (.file content) := by rw [hat, if_pos rfl]
    rw [at?, Option.map_eq_some_iff] at hfile
    obtain ⟨u, hu, hstanding⟩ := hfile
    cases u with
    | directory es => cases hstanding
    | file old =>
      cases hstanding
      rw [read?, hplace', Option.bind_some, hu]
  · intro q hq
    rw [hat, if_neg hq]
    exact hmakes q

end Disk
end JoinShapes
