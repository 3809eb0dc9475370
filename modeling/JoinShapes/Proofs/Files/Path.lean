import JoinShapes.Proofs.Files.Disk

/-!
# Paths below a directory

A name without slashes that does not stay in place and does not go up is the name of an entry (`Path.IsEntry`). Joined
to a directory it leads on from there by itself: the way to it is the way to the directory and one name more
(`Path.below_join`), however the path of the directory is written. So a file that is written there stands directly
inside the directory (`Disk.Wrote.inside`).
-/

namespace JoinShapes
namespace Path

variable {a b w : List Char} {directory name : String}

/-! ## Pieces -/

theorem pieces_ne_nil (w : List Char) : pieces w ≠ [] := by
  cases w with
  | nil => simp [pieces]
  | cons c w =>
    rw [pieces]
    split
    · simp
    · simp [pieces_ne_nil w]

/-- **A slash separates pieces.** -/
theorem pieces_append_slash (a b : List Char) : pieces (a ++ '/' :: b) = pieces a ++ pieces b := by
  induction a with
  | nil => rfl
  | cons c a ih =>
    rw [List.cons_append, pieces, pieces, ih]
    split
    · rfl
    · obtain ⟨p, ps, hps⟩ := List.exists_cons_of_ne_nil (pieces_ne_nil a)
      rw [hps]
      rfl

/-- What has no slash is one piece. -/
theorem pieces_eq_singleton (h : '/' ∉ w) : pieces w = [w] := by
  induction w with
  | nil => rfl
  | cons c w ih =>
    have hc : c ≠ '/' := fun hc => h (hc ▸ List.mem_cons_self)
    have hw : '/' ∉ w := fun hw => h (List.mem_cons_of_mem _ hw)
    rw [pieces, if_neg hc, ih hw]
    rfl

/-! ## Entries of directories -/

/-- A name that leads on by itself: no slash is in it, and it neither stays in place nor goes up. -/
structure IsEntry (name : String) : Prop where
  noSlash : '/' ∉ name.toList
  moves : staysInPlace name = false
  ne_up : name ≠ ".."

/-- The path is that of the directory with the name after it, and so is its way. -/
structure Below (directory name path : String) : Prop where
  text : path = directory ++ name ∧ directory.toList.getLast? = some '/' ∨ path = directory ++ "/" ++ name
  isAbsolute : (route path).isAbsolute = (route directory).isAbsolute
  names : (route path).names = (route directory).names ++ [name]
  isFile : (route path).isDirectory = false

/-- The names of a way, from the pieces of its path. -/
def namesOf (ps : List (List Char)) : List String := (ps.map String.ofList).filter fun p => !staysInPlace p

theorem names_route (path : String) : (route path).names = namesOf (pieces path.toList) := rfl

theorem namesOf_append (ps qs : List (List Char)) : namesOf (ps ++ qs) = namesOf ps ++ namesOf qs := by
  rw [namesOf, namesOf, namesOf, List.map_append, List.filter_append]

theorem IsEntry.ne_nil (h : IsEntry name) : name.toList ≠ [] := by
  intro hnil
  have hmoves := h.moves
  rw [String.toList_eq_nil_iff.1 hnil] at hmoves
  cases hmoves

theorem IsEntry.head?_ne (h : IsEntry name) : name.toList.head? ≠ some '/' := by
  intro hhead
  exact h.noSlash (List.mem_of_mem_head? hhead)

/-- A name that is too long for dots alone. -/
theorem isEntry_of_length (h : '/' ∉ name.toList) (hlong : 2 < name.toList.length) : IsEntry name where
  noSlash := h
  moves := by
    rw [Bool.eq_false_iff]
    intro hstays
    rw [staysInPlace, Bool.or_eq_true, String.isEmpty_iff, beq_iff_eq] at hstays
    rcases hstays with rfl | rfl <;> contradiction
  ne_up := by
    rintro rfl
    contradiction

/-- A path whose last piece is an entry. -/
theorem below_of_pieces {path : String} (ps : List (List Char)) (h : IsEntry name)
    (htext : path = directory ++ name ∧ directory.toList.getLast? = some '/' ∨ path = directory ++ "/" ++ name)
    (hhead : path.toList.head? = directory.toList.head?) (hpieces : pieces path.toList = ps ++ [name.toList])
    (hnames : namesOf ps = (route directory).names) : Below directory name path where
  text := htext
  isAbsolute := by
    show (path.toList.head? == some '/') = (directory.toList.head? == some '/')
    rw [hhead]
  names := by
    rw [names_route, hpieces, namesOf_append, hnames]
    simp [namesOf, h.moves]
  isFile := by
    have hup := h.ne_up
    simp [route, hpieces, h.moves, hup]

/-- **An entry of a directory**: joining it leads on from the directory by its name. -/
theorem below_join (hdirectory : directory ≠ "") (h : IsEntry name) : Below directory name (join directory name) := by
  have hne : directory.toList ≠ [] := fun hnil => hdirectory (String.toList_eq_nil_iff.1 hnil)
  have hone : pieces name.toList = [name.toList] := pieces_eq_singleton h.noSlash
  have hhead : ∀ rest, (directory.toList ++ rest).head? = directory.toList.head? := by
    intro rest
    rw [List.head?_append, Option.or_of_isSome (by simpa using hne)]
  unfold join
  rw [if_neg (by simp [h.head?_ne, hne])]
  split
  · rename_i hlast
    obtain ⟨a, ha⟩ := List.getLast?_eq_some_iff.1 hlast
    refine below_of_pieces (pieces a) h (.inl ⟨rfl, hlast⟩) ?_ ?_ ?_
    · rw [String.toList_append, hhead]
    · rw [String.toList_append, ha, List.append_assoc, List.singleton_append, pieces_append_slash, hone]
    · -- After the last slash the directory has an empty piece, which stays in place.
      rw [names_route, ha, pieces_append_slash, namesOf_append]
      simp [namesOf, pieces, staysInPlace]
  · refine below_of_pieces (pieces directory.toList) h (.inr rfl) ?_ ?_ (names_route _).symm
    · rw [String.toList_append, String.toList_append, List.append_assoc, hhead]
    · have hslash : ("/" : String).toList ++ name.toList = '/' :: name.toList := rfl
      rw [String.toList_append, String.toList_append, List.append_assoc, hslash, pieces_append_slash, hone]

end Path

/-! ## Files of directories -/

namespace Disk

variable {d d' : Disk} {directory name path : String} {content : ByteArray} {place : List String}

/-- The directory that a path leads to. -/
def directory? (d : Disk) (path : String) : Option (List String) :=
  d.root.walk (d.origin (Path.route path)) (Path.route path).names

/-- `d'` has a file of this name and content in a directory. All else is as in `d`, apart from directories along the way
to it that were missing. -/
structure WroteInside (d d' : Disk) (directory name : String) (content : ByteArray) : Prop where
  inside : ∃ place, d'.directory? directory = some place ∧ d'.root.at? (place ++ [name]) = some (.file content) ∧
    ∀ q ≠ place ++ [name], d'.root.at? q = d.root.at? q ∨
      d.root.at? q = none ∧ d'.root.at? q = some .directory ∧ q ∈ d.along directory

/-- **A path below a directory** leads to the name inside of it. -/
theorem exists_directory? (hbelow : Path.Below directory name path) (hplace : d.locate? path = some place) :
    ∃ loc, d.directory? directory = some loc ∧ place = loc ++ [name] := by
  have horigin : d.origin (Path.route path) = d.origin (Path.route directory) := by
    rw [origin, origin, hbelow.isAbsolute]
  simp only [locate?, hbelow.names, List.getLast?_concat, List.dropLast_concat, horigin] at hplace
  split at hplace
  · cases hplace
  · obtain ⟨loc, hloc, rfl⟩ := Option.map_eq_some_iff.1 hplace
    exact ⟨loc, hloc, rfl⟩

theorem at?_of_read? (hread : d.read? path = some content) (hplace : d.locate? path = some place) :
    d.root.at? place = some (.file content) := by
  rw [read?, hplace, Option.bind_some] at hread
  split at hread
  · rename_i hfile
    cases hread
    rw [FileTree.at?, hfile]
    rfl
  · cases hread

/-- **What is written at a path below a directory** is written inside of it. -/
theorem Wrote.inside (h : Wrote d d' directory path content) (hbelow : Path.Below directory name path) :
    WroteInside d d' directory name content := by
  obtain ⟨place, hplace, helse⟩ := h.elsewhere
  obtain ⟨loc, hloc, rfl⟩ := exists_directory? hbelow hplace
  exact ⟨loc, hloc, at?_of_read? h.read hplace, helse⟩

end Disk
end JoinShapes
