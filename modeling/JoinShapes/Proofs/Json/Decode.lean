import JoinShapes.Json.Decode
import JoinShapes.Proofs.Json.Text

/-!
# Records read back

An object with the fields of a record in order of declaration, all of different names, has one slot for each
(`slots?_obj`). A list is read back if its items are (`list?_map_iff`), a number if it has at most 64 bits
(`word?_nat_iff`). `legible_arr` and `legible_obj` say when such documents can be read as text.
-/

namespace JoinShapes
namespace Json

variable {α : Type}

/-! ## Slots -/

/-- A field whose name no other field has is the only one of its name. -/
theorem filter_name_of_mem {fields : List (String × Json)} (hd : (fields.map (·.1)).Nodup) {f : String × Json}
    (hf : f ∈ fields) : fields.filter (fun g => g.1 == f.1) = [f] := by
  induction fields with
  | nil => cases hf
  | cons g gs ih =>
    obtain ⟨hg, hgs⟩ := List.nodup_cons.mp hd
    rcases List.mem_cons.mp hf with rfl | hf
    · have hother : gs.filter (fun g => g.1 == f.1) = [] := by
        rw [List.filter_eq_nil_iff]
        intro g hmem hname
        exact hg (List.mem_map.mpr ⟨g, hmem, eq_of_beq hname⟩)
      rw [List.filter_cons_of_pos (by simp), hother]
    · have hne : g.1 ≠ f.1 := fun hname => hg (List.mem_map.mpr ⟨f, hf, hname.symm⟩)
      rw [List.filter_cons_of_neg (by simp [hne]), ih hgs hf]

theorem soleField?_of_mem {fields : List (String × Json)} (hd : (fields.map (·.1)).Nodup) {f : String × Json}
    (hf : f ∈ fields) : soleField? fields f.1 = some (.given f.2) := by
  rw [soleField?, filter_name_of_mem hd hf]

/-- Reading a list of values succeeds with these results if it does so for each. -/
theorem mapM_eq_some_iff {β : Type} {f : α → Option β} {g : α → β} {as : List α} :
    as.mapM f = some (as.map g) ↔ ∀ a ∈ as, f a = some (g a) := by
  induction as with
  | nil => exact iff_of_true rfl nofun
  | cons a as ih =>
    rw [List.mapM_cons, List.forall_mem_cons, ← ih, List.map_cons]
    cases f a with
    | none => exact iff_of_false nofun nofun
    | some b =>
      cases as.mapM f with
      | none => exact iff_of_false nofun nofun
      | some bs =>
        show some (b :: bs) = some (g a :: as.map g) ↔ _
        simp

/-- **A record written with all its fields** has a slot for each of them. -/
theorem slots?_obj {names : List String} {fields : List (String × Json)} (hnames : fields.map (·.1) = names)
    (hd : names.Nodup) : slots? names (obj fields) = some (fields.map fun f => .given f.2) := by
  subst hnames
  rw [slots?, List.mapM_map]
  exact mapM_eq_some_iff.mpr fun f hf => soleField?_of_mem hd hf

@[simp] theorem required_given (read : Json → Option α) (v : Json) : Slot.required read (.given v) = read v := rfl

@[simp] theorem orElse_given (default : α) (read : Json → Option α) (v : Json) :
    Slot.orElse default read (.given v) = read v := rfl

/-- A text that may be missing is written as `null` then. -/
@[simp] theorem optional_text (s : Option String) :
    Slot.optional text? (.given ((s.map .str).getD .null)) = some s := by
  cases s <;> rfl

@[simp] theorem text?_str (s : String) : text? (.str s) = some s := rfl

@[simp] theorem bool?_bool (b : Bool) : bool? (.bool b) = some b := rfl

/-- A number is read back if it has at most 64 bits. -/
theorem word?_nat_iff {n : Nat} : word? (.nat n) = some n ↔ n < wordLimit := by simp [word?]

/-- **A list is read back** if each of its items is. -/
theorem list?_map_iff (read : Json → Option α) (write : α → Json) (as : List α) :
    list? read (.arr (as.map write)) = some as ↔ ∀ a ∈ as, read (write a) = some a := by
  have h : as.mapM (read ∘ write) = some (as.map id) ↔ ∀ a ∈ as, read (write a) = some a := mapM_eq_some_iff
  rw [List.map_id] at h
  rw [list?, List.mapM_map]
  exact h

@[simp] theorem list?_text (ss : List String) : list? text? (.arr (ss.map .str)) = some ss :=
  (list?_map_iff text? .str ss).mpr fun _ _ => rfl

/-! ## Legible documents

All values are legible that hold no numerals. -/

@[simp] theorem legible_null : null.Legible := List.forall_mem_singleton.mpr trivial

@[simp] theorem legible_bool (b : Bool) : (bool b).Legible := List.forall_mem_singleton.mpr trivial

@[simp] theorem legible_nat (n : Nat) : (nat n).Legible := List.forall_mem_singleton.mpr trivial

@[simp] theorem legible_str (s : String) : (str s).Legible := List.forall_mem_singleton.mpr trivial

theorem legible_itemTokens {vs : List Json} : (∀ t ∈ itemTokens vs, t.Legible) ↔ ∀ v ∈ vs, v.Legible := by
  induction vs with
  | nil => simp [itemTokens, Token.Legible]
  | cons v vs ih =>
    rw [itemTokens, List.forall_mem_cons, List.forall_mem_append, ih, List.forall_mem_cons]
    exact and_iff_right trivial

theorem legible_fieldTokens {fs : List (String × Json)} :
    (∀ t ∈ fieldTokens fs, t.Legible) ↔ ∀ f ∈ fs, f.2.Legible := by
  induction fs with
  | nil => simp [fieldTokens, Token.Legible]
  | cons f fs ih =>
    rw [fieldTokens, List.forall_mem_cons, List.forall_mem_cons, List.forall_mem_cons, List.forall_mem_append, ih,
      List.forall_mem_cons]
    exact (and_iff_right trivial).trans ((and_iff_right trivial).trans (and_iff_right trivial))

/-- An array is legible if its items are. -/
@[simp] theorem legible_arr {vs : List Json} : (arr vs).Legible ↔ ∀ v ∈ vs, v.Legible := by
  rw [← legible_itemTokens]
  cases vs with
  | nil => simp [Legible, tokens, itemTokens, Token.Legible]
  | cons v vs => simp [Legible, tokens, itemTokens, Token.Legible]

/-- An object is legible if the values of its fields are. -/
@[simp] theorem legible_obj {fs : List (String × Json)} : (obj fs).Legible ↔ ∀ f ∈ fs, f.2.Legible := by
  rw [← legible_fieldTokens]
  cases fs with
  | nil => simp [Legible, tokens, fieldTokens, Token.Legible]
  | cons f fs => simp [Legible, tokens, fieldTokens, Token.Legible]

end Json
end JoinShapes
