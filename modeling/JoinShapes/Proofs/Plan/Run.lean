import JoinShapes.Proofs.Plan.Assembly
import JoinShapes.Proofs.Schema.Build

/-!
# Planning runs

Planning a schema for joins of at least one table ends in the plan that its join graph describes, or in a collision of
two joinable sets (`ofSchema_settles`), if there is room for the store at all. So a run with room fails exactly if two
joinable sets up to the bound share a fingerprint (`Collision`, `ofSchema_cases`), and no run fails in another way
(`ofSchema_error_cases`). Sets cannot collide within the exact widths, and past them a warning is written
(`JoinGraph.widthWarning_mem_entries_iff`). For less than two tables every width is exact, and so nothing warns of a
want of room. A schema whose sets do collide stands at the end.
-/

namespace JoinShapes

/-! ## Entries -/

namespace Journaled

variable {ε α β : Type} {x : Journaled ε α} {f : α → Journaled ε β} {w : Entry}

/-- No entry is a warning. -/
def Quiet (x : Journaled ε α) : Prop := ∀ w ∈ x.entries, w.severity ≠ .warn

theorem quiet_ofExcept (x : Except ε α) : (ofExcept x).Quiet := fun _ hw => absurd hw List.not_mem_nil

theorem quiet_note {severity : Severity} (h : severity ≠ .warn) (text : String) :
    (note severity text : Journaled ε Unit).Quiet := fun w hw => by
  obtain rfl := List.mem_singleton.1 hw
  exact h

theorem ofExcept_ok_bind (a : α) (f : α → Journaled ε β) : (ofExcept (.ok a) >>= f) = f a := rfl

/-- **The entries of a sequence** are those of its parts. -/
theorem mem_entries_bind : w ∈ (x >>= f).entries ↔ w ∈ x.entries ∨ ∃ a, x.outcome = .ok a ∧ w ∈ (f a).entries := by
  show w ∈ (bind x f).entries ↔ _
  unfold bind
  cases x.outcome <;> simp

theorem Quiet.bind (hx : x.Quiet) (hf : ∀ a, (f a).Quiet) : (x >>= f).Quiet := fun w hw => by
  rcases mem_entries_bind.1 hw with hw | ⟨a, _, hw⟩
  · exact hx w hw
  · exact hf a w hw

end Journaled

namespace JoinGraph

open Journaled (quiet_ofExcept quiet_note mem_entries_bind)

variable {s : Schema} {k : Nat}

theorem quiet_growThrough (nodes : Array TableNode) : ∀ (widths : List Nat) (s : Store),
    (growThrough nodes widths s).Quiet
  | [], _ => quiet_ofExcept _
  | _ :: widths, _ => (quiet_ofExcept _).bind fun t => (quiet_note (by decide) _).bind fun _ =>
      quiet_growThrough nodes widths t

/-- The phases write no warning. -/
theorem quiet_ofNodes (nodes : List TableNode) (k : Nat) : (ofNodes nodes k).Quiet := by
  refine (quiet_ofExcept _).bind fun _ => (quiet_ofExcept _).bind fun s => (quiet_note (by decide) _).bind fun _ => ?_
  refine (quiet_growThrough _ _ s).bind fun s => ?_
  refine (quiet_ofExcept _).bind fun tables => (quiet_note (by decide) _).bind fun _ => ?_
  refine (quiet_ofExcept _).bind fun combinations => (quiet_note (by decide) _).bind fun _ => ?_
  exact (quiet_note (by decide) _).bind fun _ => quiet_ofExcept _

/-- Reading the schema comes before the phases, and may write the warning. -/
theorem ofSchema_eq {nodes : List TableNode} (h : TableNode.ofSchema s = .ok nodes) : ∃ text,
    ofSchema s k = ⟨(if Fingerprint.maxExactWidth nodes.length < k then
      [widthWarning k (Fingerprint.maxExactWidth nodes.length) nodes.length] else []) ++
        ⟨.debug, text⟩ :: (ofNodes nodes k).entries, (ofNodes nodes k).outcome⟩ := by
  refine ⟨s!"Planning joins for schema `{s.name}`: {nodes.length} tables, join_num {k}", ?_⟩
  rw [ofSchema, h, Journaled.ofExcept_ok_bind]
  by_cases hk : Fingerprint.maxExactWidth nodes.length < k
  · simp only [if_pos hk]
    rfl
  · simp only [if_neg hk]
    rfl

/-- **The warning about the bound** is written exactly past the greatest exact width. -/
theorem widthWarning_mem_entries_iff :
    widthWarning k (Fingerprint.maxExactWidth s.size) s.size ∈ (ofSchema s k).entries ↔
      Fingerprint.maxExactWidth s.size < k := by
  obtain ⟨nodes, hread, hnodes⟩ := TableNode.ofSchema_eq_ok s
  obtain ⟨text, heq⟩ := ofSchema_eq (k := k) hread
  rw [heq, ← hnodes.length, List.mem_append, List.mem_cons]
  constructor
  · rintro (hw | hw | hw)
    · by_contra hk
      rw [if_neg hk] at hw
      exact List.not_mem_nil hw
    · cases hw
    · exact absurd rfl (quiet_ofNodes nodes k _ hw)
  · intro hk
    rw [if_pos hk]
    exact .inl (List.mem_singleton.2 rfl)

end JoinGraph

namespace Plan

open JoinGraph (Exact Stops)
open TableNode (Notes)

variable {s : Schema} {nodes : List TableNode} {k : Nat} {a b m : IndexSet} {e : PlanError}

/-- The nodes of a schema are run through all phases, and the result is put to names. -/
theorem outcome_ofSchema (h : TableNode.ofSchema s = .ok nodes) :
    (ofSchema s k).outcome = (JoinGraph.ofNodes nodes k).outcome >>= ofGraph s := by
  obtain ⟨_, heq⟩ := JoinGraph.ofSchema_eq (k := k) h
  simp only [ofSchema, Journaled.outcome_bind, Journaled.outcome_ofExcept, Journaled.outcome_note,
    Journaled.outcome_pure, heq, ok_bind]
  cases (JoinGraph.ofNodes nodes k).outcome with
  | error e => rfl
  | ok g =>
    show (ofGraph s g >>= Except.ok) = ofGraph s g
    cases ofGraph s g <;> rfl

/-- **Planning a schema**: the result is described by the nodes of the schema, and there is one only if no two shapes
clash. -/
theorem ofSchema_settles (s : Schema) (hk : 1 ≤ k) : ∃ nodes, Notes s.size s.RefersAt nodes ∧
    Settles (Stops nodes k) (ofSchema s k).outcome fun p => Describes s nodes k p ∧ ∀ e, ¬ Clash nodes k e := by
  obtain ⟨nodes, hread, hnodes⟩ := TableNode.ofSchema_eq_ok s
  refine ⟨nodes, hnodes, ?_⟩
  rw [outcome_ofSchema hread]
  refine (JoinGraph.ofNodes_settles hnodes.placed hk).bind fun g hg => ?_
  obtain ⟨p, hp, hdescribes⟩ := ofGraph_eq_ok hnodes hg
  rw [hp]
  exact ⟨hdescribes, fun e => hg.not_clash⟩

/-- **Without room for its store a run is broken off.** -/
theorem ofSchema_of_not_hasRoom (hk : 1 ≤ k) (hroom : ¬ Store.HasRoom s.size k) :
    (ofSchema s k).outcome = .error .capacityOverflow := by
  obtain ⟨nodes, hread, hnodes⟩ := TableNode.ofSchema_eq_ok s
  rw [← hnodes.length] at hroom
  rw [outcome_ofSchema hread, JoinGraph.ofNodes_of_not_hasRoom hnodes.placed hk hroom]
  rfl

theorem hasRoom_of_ofSchema_eq_ok {p : Plan} (hk : 1 ≤ k) (hp : (ofSchema s k).outcome = .ok p) :
    Store.HasRoom s.size k := by
  by_contra hroom
  rw [ofSchema_of_not_hasRoom hk hroom] at hp
  cases hp

/-- The width itself is refused only if it is zero. -/
theorem ofSchema_ne_invalidJoinNum {n : Nat} (hk : 1 ≤ k) : (ofSchema s k).outcome ≠ .error (.invalidJoinNum n) := by
  obtain ⟨nodes, _, hrun⟩ := ofSchema_settles s hk
  intro h
  cases hrun.of_error h with
  | clash _ hclash =>
    obtain ⟨_, _, _, _, _, _, he⟩ := hclash
    cases he

/-! ## Collisions -/

/-- A joinable set of at most `k` tables, given by positions. -/
structure JoinableAt (s : Schema) (k : Nat) (m : IndexSet) : Prop where
  inside : s.Inside m
  joinable : s.IsJoinable (s.namesOf m)
  fits : m.size ≤ k

/-- Two joinable sets of at most `k` tables share a fingerprint. -/
structure Collision (s : Schema) (k : Nat) (a b : IndexSet) : Prop where
  ne : a ≠ b
  left : JoinableAt s k a
  right : JoinableAt s k b
  fingerprint : Fingerprint.ofAscending s.size a.toList = .ofAscending s.size b.toList

/-- The fault that tells of a collision. -/
def collisionError (s : Schema) (a b : IndexSet) : PlanError :=
  .collision (.ofAscending s.size a.toList) a.toList b.toList

theorem joinableAt_iff (hnodes : Notes s.size s.RefersAt nodes) : JoinableAt s k m ↔ IsShape nodes m ∧ m.size ≤ k := by
  constructor
  · rintro ⟨hin, hjoin, hfits⟩
    exact ⟨(Schema.isJoinable_namesOf hnodes hin).1 hjoin, hfits⟩
  · rintro ⟨hshape, hfits⟩
    have hin := Schema.inside_of_isShape hnodes hshape
    exact ⟨hin, (Schema.isJoinable_namesOf hnodes hin).2 hshape, hfits⟩

/-- The shapes that clash are the joinable sets that collide. -/
theorem clash_iff (hnodes : Notes s.size s.RefersAt nodes) :
    Clash nodes k e ↔ ∃ a b, Collision s k a b ∧ e = collisionError s a b := by
  constructor
  · rintro ⟨a, b, hab, ha, hb, hf, rfl⟩
    rw [hnodes.length] at hf ⊢
    exact ⟨a, b, ⟨hab, (joinableAt_iff hnodes).2 ha, (joinableAt_iff hnodes).2 hb, hf⟩, rfl⟩
  · rintro ⟨a, b, ⟨hab, ha, hb, hf⟩, rfl⟩
    refine ⟨a, b, hab, (joinableAt_iff hnodes).1 ha, (joinableAt_iff hnodes).1 hb, ?_, ?_⟩
    · rwa [hnodes.length]
    · rw [hnodes.length]
      rfl

theorem ofSchema_zero (s : Schema) : (ofSchema s 0).outcome = .error (.invalidJoinNum 0) := by
  obtain ⟨nodes, hread, _⟩ := TableNode.ofSchema_eq_ok s
  rw [outcome_ofSchema hread]
  rfl

/-- **A run with room for its store**, for joins of at least one table, has a result and no sets collide, or it tells of
a collision. -/
theorem ofSchema_cases (s : Schema) (hk : 1 ≤ k) (hroom : Store.HasRoom s.size k) :
    ((∃ p, (ofSchema s k).outcome = .ok p) ∧ ¬ ∃ a b, Collision s k a b) ∨
    ∃ a b, Collision s k a b ∧ (ofSchema s k).outcome = .error (collisionError s a b) := by
  obtain ⟨nodes, hnodes, hrun⟩ := ofSchema_settles s hk
  cases hout : (ofSchema s k).outcome with
  | ok p =>
    refine .inl ⟨⟨p, rfl⟩, ?_⟩
    rintro ⟨a, b, hab⟩
    exact (hrun.of_ok hout).2 _ ((clash_iff hnodes).2 ⟨a, b, hab, rfl⟩)
  | error e =>
    rcases hrun.of_error hout with ⟨_, hclash⟩ | hno
    · obtain ⟨a, b, hab, rfl⟩ := (clash_iff hnodes).1 hclash
      exact .inr ⟨a, b, hab, rfl⟩
    · exact absurd (hnodes.length.symm ▸ hroom) hno

/-- Within the exact widths no sets collide. -/
theorem not_collision (hk : k ≤ Fingerprint.maxExactWidth s.size) : ¬ Collision s k a b := fun h => by
  obtain ⟨nodes, _, hnodes⟩ := TableNode.ofSchema_eq_ok s
  rw [← hnodes.length] at hk
  exact JoinGraph.not_clash_of_le_maxExactWidth hk ((clash_iff hnodes).2 ⟨a, b, h, rfl⟩)

/-- **A run within the exact widths has a result**, if there is room for its store. -/
theorem ofSchema_eq_ok (hk : 1 ≤ k) (hroom : Store.HasRoom s.size k) (hexact : k ≤ Fingerprint.maxExactWidth s.size) :
    ∃ p, (ofSchema s k).outcome = .ok p := by
  rcases ofSchema_cases s hk hroom with ⟨hok, _⟩ | ⟨a, b, hab, _⟩
  · exact hok
  · exact absurd hab (not_collision hexact)

open JoinGraph (widthWarning)

theorem widthWarning_not_mem_iff :
    widthWarning k (Fingerprint.maxExactWidth s.size) s.size ∉ (JoinGraph.ofSchema s k).entries ↔
      k ≤ Fingerprint.maxExactWidth s.size := by
  rw [JoinGraph.widthWarning_mem_entries_iff, Nat.not_lt]

/-! ## Ways to fail -/

theorem ofSchema_eq_invalidJoinNum_iff : (ofSchema s k).outcome = .error (.invalidJoinNum 0) ↔ k = 0 := by
  constructor
  · intro h
    by_contra hk
    exact ofSchema_ne_invalidJoinNum (Nat.pos_of_ne_zero hk) h
  · rintro rfl
    exact ofSchema_zero s

theorem ofSchema_eq_capacityOverflow_iff (hk : 1 ≤ k) :
    (ofSchema s k).outcome = .error .capacityOverflow ↔ ¬ Store.HasRoom s.size k := by
  refine ⟨fun h hroom => ?_, ofSchema_of_not_hasRoom hk⟩
  rcases ofSchema_cases s hk hroom with ⟨⟨p, hp⟩, _⟩ | ⟨a, b, _, he⟩
  · rw [hp] at h
    cases h
  · rw [he, collisionError] at h
    cases h

/-- **A run with room tells of a collision** exactly if two joinable sets collide. -/
theorem ofSchema_eq_collision_iff (hk : 1 ≤ k) (hroom : Store.HasRoom s.size k) :
    (∃ f x y, (ofSchema s k).outcome = .error (.collision f x y)) ↔ ∃ a b, Collision s k a b := by
  rcases ofSchema_cases s hk hroom with ⟨⟨p, hp⟩, hno⟩ | ⟨a, b, hab, he⟩
  · refine iff_of_false ?_ hno
    rintro ⟨f, x, y, h⟩
    rw [hp] at h
    cases h
  · exact iff_of_true ⟨_, _, _, he⟩ ⟨a, b, hab⟩

/-- An error is one of the three, and a collision is one of two joinable sets that collide. -/
theorem ofSchema_error_cases (h : (ofSchema s k).outcome = .error e) :
    e = .invalidJoinNum 0 ∨ e = .capacityOverflow ∨ ∃ a b, Collision s k a b ∧ e = collisionError s a b := by
  rcases Nat.eq_zero_or_pos k with rfl | hk
  · exact .inl (Except.error.inj (h.symm.trans (ofSchema_zero s)))
  by_cases hroom : Store.HasRoom s.size k
  · rcases ofSchema_cases s hk hroom with ⟨⟨p, hp⟩, _⟩ | ⟨a, b, hab, he⟩
    · rw [hp] at h
      cases h
    · exact .inr (.inr ⟨a, b, hab, Except.error.inj (h.symm.trans he)⟩)
  · exact .inr (.inl (Except.error.inj (h.symm.trans (ofSchema_of_not_hasRoom hk hroom))))

/-- **A run fails in three ways only**: by a width bound of zero, by a want of room for its store, and by two joinable
sets that share a fingerprint, which it then tells. There is no room if the lists for the widths or for the tables take
more than `2 ^ 63 - 1` bytes. With room, and without a warning about the bound, a run has a result. -/
theorem ofSchema_fails_iff (s : Schema) (k : Nat) :
    ((ofSchema s k).outcome = .error (.invalidJoinNum 0) ↔ k = 0) ∧
    (1 ≤ k → ((ofSchema s k).outcome = .error .capacityOverflow ↔ ¬ Store.HasRoom s.size k)) ∧
    (¬ Store.HasRoom s.size k ↔ 9223372036854775807 < 24 * k ∨ 9223372036854775807 < 24 * s.size) ∧
    (1 ≤ k → Store.HasRoom s.size k →
      ((∃ f x y, (ofSchema s k).outcome = .error (.collision f x y)) ↔ ∃ a b, Collision s k a b)) ∧
    (∀ f x y, (ofSchema s k).outcome = .error (.collision f x y) → ∃ a b, Collision s k a b ∧
      x = a.toList ∧ y = b.toList ∧ f = .ofAscending s.size x ∧ f = .ofAscending s.size y) ∧
    (∀ e, (ofSchema s k).outcome = .error e →
      e = .invalidJoinNum 0 ∨ e = .capacityOverflow ∨ ∃ f x y, e = .collision f x y) ∧
    (widthWarning k (Fingerprint.maxExactWidth s.size) s.size ∉ (JoinGraph.ofSchema s k).entries ↔
      k ≤ Fingerprint.maxExactWidth s.size) ∧
    (1 ≤ k → Store.HasRoom s.size k →
      widthWarning k (Fingerprint.maxExactWidth s.size) s.size ∉ (JoinGraph.ofSchema s k).entries →
        ∃ p, (ofSchema s k).outcome = .ok p) := by
  refine ⟨ofSchema_eq_invalidJoinNum_iff, ofSchema_eq_capacityOverflow_iff, Store.not_hasRoom_iff,
    ofSchema_eq_collision_iff, fun f x y h => ?_, fun e h => ?_, widthWarning_not_mem_iff, fun hk hroom hw =>
      ofSchema_eq_ok hk hroom (widthWarning_not_mem_iff.1 hw)⟩
  · rcases ofSchema_error_cases h with he | he | ⟨a, b, hab, he⟩ <;> cases he
    exact ⟨a, b, hab, rfl, rfl, rfl, hab.fingerprint⟩
  · exact (ofSchema_error_cases h).imp_right (Or.imp_right fun ⟨_, _, _, he⟩ => ⟨_, _, _, he⟩)

/-- One table that refers to nothing. -/
def booth : Schema := .ofWellFormed "booth" [⟨"booth", [], [], []⟩] (by decide)

/-- **A run may fail in another way than by a width of zero or a collision**, and without a warning: for a single table
every width is exact, but there is no room for a list for every width up to `2 ^ 62`. -/
theorem booth_overflows : 1 ≤ 2 ^ 62 ∧
    widthWarning (2 ^ 62) (Fingerprint.maxExactWidth booth.size) booth.size ∉
      (JoinGraph.ofSchema booth (2 ^ 62)).entries ∧
    (ofSchema booth (2 ^ 62)).outcome = .error .capacityOverflow ∧
    ¬ ∃ p, (ofSchema booth (2 ^ 62)).outcome = .ok p := by
  have hwarning := widthWarning_not_mem_iff (s := booth) (k := 2 ^ 62) |>.2 (by decide)
  have hstops : (ofSchema booth (2 ^ 62)).outcome = .error .capacityOverflow :=
    ofSchema_of_not_hasRoom (by decide) (by decide)
  refine ⟨by decide, hwarning, hstops, ?_⟩
  rintro ⟨p, hp⟩
  rw [hp] at hstops
  cases hstops

/-- The name of as many letters as the position asks for. -/
def spokeName (i : Nat) : String := String.ofList (List.replicate (i + 1) 't')

/-- A table of the wheel: the one at position five refers to the eleven others before position twelve. -/
def wheelTable (i : Nat) : TableSchema where
  name := spokeName i
  columns := []
  primaryKey := []
  foreignKeys := if i = 5 then ((List.range 12).filter (· ≠ 5)).map fun j => ⟨"spoke", spokeName j, "id"⟩ else []

theorem isValid_spokeName (i : Nat) : TableName.isValid (spokeName i) = true := by
  have hsingle : ∀ n, TableName.hasDoubleUnderscore (List.replicate n 't') = false := by
    intro n
    induction n with
    | zero => rfl
    | succ n ih => simpa [List.replicate_succ, TableName.hasDoubleUnderscore] using ih
  have hlast : (List.replicate (i + 1) 't').getLast? ≠ some '_' := by
    intro h
    have hmem := List.eq_of_mem_replicate (List.mem_of_getLast? h)
    simp at hmem
  have hname := hsingle (i + 1)
  rw [List.replicate_succ] at hname hlast
  simp [TableName.isValid, spokeName, List.replicate_succ, hname, hlast, TableName.isNameChar]

theorem spokeName_injective : Function.Injective spokeName := by
  intro i j h
  have hlen := congrArg (fun s : String => s.toList.length) h
  simpa [spokeName] using hlen

theorem wellFormed_wheel : Schema.WellFormed ((List.range 128).map wheelTable) := by
  have hnames : ((List.range 128).map wheelTable).map (·.name) = (List.range 128).map spokeName := by
    rw [List.map_map]
    rfl
  refine ⟨?_, List.forall_mem_map.2 fun i _ fk hfk => ?_⟩
  · rw [hnames]
    exact ⟨List.forall_mem_map.2 fun i _ => isValid_spokeName i, List.nodup_range.map spokeName_injective⟩
  · rw [wheelTable] at hfk
    split at hfk
    · obtain ⟨j, hj, rfl⟩ := List.mem_map.1 hfk
      have hlt : j < 12 := List.mem_range.1 (List.mem_of_mem_filter hj)
      exact ⟨wheelTable j, List.mem_map.2 ⟨j, List.mem_range.2 (by omega), rfl⟩, rfl⟩
    · exact absurd hfk List.not_mem_nil

/-- A wheel of twelve tables among 128; the others stand alone. -/
def wheel : Schema := .ofWellFormed "wheel" ((List.range 128).map wheelTable) wellFormed_wheel

theorem wheel_size : wheel.size = 128 := by
  rw [Schema.size, wheel, Schema.tables_ofWellFormed, List.length_map, List.length_range]

theorem nameAt_wheel {i : Nat} (hi : i < 128) : wheel.nameAt i = spokeName i :=
  Schema.nameAt_eq (t := wheelTable i) (by simp [wheel, hi])

/-- The hub refers to every other table of the wheel. -/
theorem wheel_refers {i : Nat} (hi : i < 12) (h : i ≠ 5) : wheel.Refers (spokeName 5) (spokeName i) := by
  refine ⟨wheelTable 5, List.mem_map.2 ⟨5, by simp, rfl⟩, rfl, ⟨"spoke", spokeName i, "id"⟩, ?_, rfl⟩
  rw [wheelTable, if_pos rfl]
  exact List.mem_map.2 ⟨i, List.mem_filter.2 ⟨List.mem_range.2 hi, by simpa using h⟩, rfl⟩

/-- Every part of the wheel that holds the hub is joinable. -/
theorem joinableAt_wheel (hm : ∀ i ∈ m, i < 12) (h5 : 5 ∈ m) (hk : m.size ≤ k) : JoinableAt wheel k m where
  inside i hi := by
    rw [wheel_size]
    exact Nat.lt_trans (hm i hi) (by decide)
  joinable := by
    have hname : ∀ i ∈ m, wheel.nameAt i = spokeName i := fun i hi => nameAt_wheel (Nat.lt_trans (hm i hi) (by decide))
    refine ⟨fun a ha => ?_, connectedBy_of_hub (c := spokeName 5) ?_ fun a ha hne => ?_⟩
    · obtain ⟨i, hi, rfl⟩ := Schema.mem_namesOf.1 ha
      refine Schema.exists_nameAt_iff.2 ⟨i, ?_, rfl⟩
      rw [wheel_size]
      exact Nat.lt_trans (hm i hi) (by decide)
    · exact Schema.mem_namesOf.2 ⟨5, h5, hname 5 h5⟩
    · obtain ⟨i, hi, rfl⟩ := Schema.mem_namesOf.1 ha
      rw [hname i hi] at hne ⊢
      exact wheel_refers (hm i hi) fun he => hne (he ▸ rfl)
  fits := hk

/-- **Wrapped fingerprints do collide**: as `128 ^ 9` leaves one, two parts of the wheel have the same fingerprint, and
the run for joins of ten tables fails. -/
theorem wheel_fails : ∃ f x y, (ofSchema wheel 10).outcome = .error (.collision f x y) := by
  refine ((ofSchema_fails_iff wheel 10).2.2.2.1 (by decide) (by rw [wheel_size]; decide)).2
    ⟨⟨[0, 2, 3, 4, 5, 6, 7, 8, 9, 11], by decide⟩, ⟨[1, 2, 3, 4, 5, 6, 7, 8, 9, 10], by decide⟩, by decide, ?_, ?_, ?_⟩
  · exact joinableAt_wheel (by decide) (by decide) (by decide)
  · exact joinableAt_wheel (by decide) (by decide) (by decide)
  · rw [wheel_size]
    decide

end Plan
end JoinShapes
