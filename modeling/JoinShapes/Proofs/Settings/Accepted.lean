import JoinShapes.Proofs.Files.Path
import JoinShapes.Proofs.Generation
import JoinShapes.Proofs.TableName
import JoinShapes.Settings.Document
import JoinShapes.Settings.Overrides

/-!
# Accepted settings

Settings are accepted if they keep four rules (`Settings.Valid`); otherwise every field whose rule fails is named, and
no other (`Settings.Breaks`, `mem_fields`). There are three ways to accepted settings (`Settings.Accepted`), and all of
them check.

The name of a package is a word over letters, digits and underscores, so the file of the plan is an entry of the
destination, whatever the package is called, and the plan is written there. The planner has no objection to the width
(`accepted_contained`).
-/

namespace JoinShapes
namespace Settings

open Computability
open Text (IsLetter IsAlphanumeric oneOf isAlpha_iff isAlphanum_iff mem_oneOf_mul mem_kstar_oneOf)

variable {s t : Settings} {v : Violation} {name field : String}

/-! ## Rules -/

/-- A letter or an underscore, and then letters, digits and underscores: `[A-Za-z_][A-Za-z0-9_]*`. -/
def packageGrammar : Language Char :=
  oneOf (fun c => IsLetter c ∨ c = '_') * (oneOf fun c => IsAlphanumeric c ∨ c = '_')∗

/-- The settings keep all rules. -/
structure Valid (s : Settings) : Prop where
  source : s.source ≠ ""
  destination : s.destination ≠ ""
  package : s.package.toList ∈ packageGrammar
  joinNum : 1 ≤ s.joinNum ∧ s.joinNum ≤ 8

/-- The rule of this field is not kept. -/
inductive Breaks (s : Settings) : String → Prop
  | source (h : s.source = "") : s.Breaks "source"
  | destination (h : s.destination = "") : s.Breaks "destination"
  | package (h : s.package.toList ∉ packageGrammar) : s.Breaks "package"
  | joinNum (h : ¬ (1 ≤ s.joinNum ∧ s.joinNum ≤ 8)) : s.Breaks "join_num"

theorem mem_packageGrammar_iff {w : List Char} : w ∈ packageGrammar ↔
    ∃ c v, (IsLetter c ∨ c = '_') ∧ (∀ d ∈ v, IsAlphanumeric d ∨ d = '_') ∧ w = c :: v := by
  simp only [packageGrammar, mem_oneOf_mul, mem_kstar_oneOf]

/-- **The names of packages** are the words of the grammar. -/
theorem isPackageName_iff : isPackageName name = true ↔ name.toList ∈ packageGrammar := by
  rw [mem_packageGrammar_iff, isPackageName]
  cases name.toList with
  | nil => simp
  | cons c w =>
    simp only [Bool.and_eq_true, Bool.or_eq_true, beq_iff_eq, List.all_eq_true, isAlpha_iff, TableName.isNameChar_iff,
      List.cons.injEq]
    constructor
    · rintro ⟨hc, hw⟩
      exact ⟨c, w, hc, hw, rfl, rfl⟩
    · rintro ⟨_, _, hc, hw, rfl, rfl⟩
      exact ⟨hc, hw⟩

/-- The settings are valid if no rule is broken. -/
theorem valid_iff : s.Valid ↔ ∀ field, ¬ s.Breaks field := by
  constructor
  · intro hvalid field hbroken
    cases hbroken with
    | source h => exact hvalid.source h
    | destination h => exact hvalid.destination h
    | package h => exact h hvalid.package
    | joinNum h => exact h hvalid.joinNum
  · intro h
    exact ⟨fun hs => h _ (.source hs), fun hd => h _ (.destination hd), by_contra fun hp => h _ (.package hp),
      by_contra fun hj => h _ (.joinNum hj)⟩

/-! ## Violations -/

theorem mem_violations : v ∈ s.violations ↔
    s.source = "" ∧ v = .emptySource ∨
    s.destination = "" ∧ v = .emptyDestination ∨
    s.package.toList ∉ packageGrammar ∧ v = .invalidPackage s.package ∨
    ¬ (1 ≤ s.joinNum ∧ s.joinNum ≤ 8) ∧ v = .joinNumOutside s.joinNum := by
  rw [← isPackageName_iff, violations]
  simp only [List.mem_append, List.mem_ite_nil_left, List.mem_ite_nil_right, List.mem_singleton, String.isEmpty_iff,
    or_assoc]
  rfl

/-- **The fields with violations** are those whose rules are broken. -/
theorem mem_fields : field ∈ s.violations.map Violation.field ↔ s.Breaks field := by
  rw [List.mem_map]
  constructor
  · rintro ⟨v, hv, rfl⟩
    rcases mem_violations.1 hv with ⟨h, rfl⟩ | ⟨h, rfl⟩ | ⟨h, rfl⟩ | ⟨h, rfl⟩
    exacts [.source h, .destination h, .package h, .joinNum h]
  · intro h
    cases h with
    | source h => exact ⟨_, mem_violations.2 (.inl ⟨h, rfl⟩), rfl⟩
    | destination h => exact ⟨_, mem_violations.2 (.inr (.inl ⟨h, rfl⟩)), rfl⟩
    | package h => exact ⟨_, mem_violations.2 (.inr (.inr (.inl ⟨h, rfl⟩))), rfl⟩
    | joinNum h => exact ⟨_, mem_violations.2 (.inr (.inr (.inr ⟨h, rfl⟩))), rfl⟩

/-- No field is named twice. -/
theorem nodup_fields (s : Settings) : (s.violations.map Violation.field).Nodup := by
  have hsub : List.Sublist (s.violations.map Violation.field)
      (["source"] ++ ["destination"] ++ ["package"] ++ ["join_num"]) := by
    simp only [violations, List.map_append, apply_ite (List.map Violation.field), List.map_nil, List.map_cons,
      Violation.field]
    refine ((List.Sublist.append ?_ ?_).append ?_).append ?_ <;> split <;> simp
  exact hsub.nodup (by decide)

theorem violations_eq_nil_iff : s.violations = [] ↔ s.Valid := by
  rw [valid_iff, ← List.map_eq_nil_iff (f := Violation.field), List.eq_nil_iff_forall_not_mem]
  simp only [mem_fields]

/-- **Valid settings pass** as they are. -/
theorem check_of_valid (h : s.Valid) : s.check = .ok s := if_pos (List.isEmpty_iff.2 (violations_eq_nil_iff.2 h))

/-- **Of other settings all violations are told.** -/
theorem check_of_not_valid (h : ¬ s.Valid) : s.check = .error (.invalid s.violations) :=
  if_neg fun hempty => h (violations_eq_nil_iff.1 (List.isEmpty_iff.1 hempty))

theorem check_eq_ok_iff : s.check = .ok t ↔ s.Valid ∧ s = t := by
  by_cases h : s.Valid
  · simp [check_of_valid h, h]
  · simp [check_of_not_valid h, h]

/-! ## Ways to accepted settings -/

/-- The settings have been given, taken from an environment, or read from a file. -/
inductive Accepted (s : Settings) : Prop
  | given (t : Settings) (h : t.check = .ok s)
  | environment (env : Environment) (h : ofEnvironment env = .ok s)
  | file (read : String → Except String Settings) (path : String) (d : Disk)
    (h : ((ofFile read path : OnDisk _).run d).1 = .ok s)

theorem valid_of_check (h : t.check = .ok s) : s.Valid := by
  obtain ⟨hvalid, rfl⟩ := check_eq_ok_iff.1 h
  exact hvalid

theorem valid_of_ofText {read : String → Except String Settings} {text : String} (h : ofText read text = .ok s) :
    s.Valid := by
  rw [ofText] at h
  split at h
  · exact valid_of_check h
  · cases h

theorem run_ofFile (read : String → Except String Settings) (path : String) (d : Disk) :
    ((ofFile read path : OnDisk _).run d).1 =
      match d.text path with
      | .ok text => ofText read text
      | .error reason => .error (.unparsable "yaml_file" "file read failed" reason) := by
  have hread : (readText path : OnDisk _).run d = (d.text path, d) := rfl
  rw [ofFile, StateT.run_bind, hread]
  cases d.text path <;> rfl

/-- **Whichever way settings come**, they have been checked. -/
theorem Accepted.valid (h : s.Accepted) : s.Valid := by
  cases h with
  | given t h => exact valid_of_check h
  | environment env h =>
    rw [ofEnvironment, ofOverrides] at h
    cases hresolve : Overrides.empty.resolve env with
    | error e =>
      rw [hresolve] at h
      cases h
    | ok t =>
      rw [hresolve, ok_bind] at h
      exact valid_of_check h
  | file read path d h =>
    rw [run_ofFile] at h
    split at h
    · exact valid_of_ofText h
    · cases h

/-! ## The file of the plan -/

/-- The name of the file that the plan is written to. -/
def fileName (s : Settings) : String := s.package ++ "_joins.json"

theorem forall_mem_fileName (h : s.Valid) : ∀ c ∈ s.fileName.toList, IsAlphanumeric c ∨ c = '_' ∨ c = '.' := by
  obtain ⟨c, w, hc, hw, hpackage⟩ := mem_packageGrammar_iff.1 h.package
  have hends : ("_joins.json".toList.all fun d => d.isAlphanum || (d == '_' || d == '.')) = true := by decide
  simp only [List.all_eq_true, Bool.or_eq_true, beq_iff_eq, isAlphanum_iff] at hends
  intro d hd
  rw [fileName, String.toList_append, hpackage, List.cons_append, List.mem_cons, List.mem_append] at hd
  rcases hd with rfl | hd | hd
  · exact hc.imp .inl .inl
  · exact (hw d hd).imp_right .inl
  · exact hends d hd

/-- **The file of the plan is an entry** of its directory, whatever the package is called. -/
theorem Valid.isEntry_fileName (h : s.Valid) : Path.IsEntry s.fileName := by
  refine Path.isEntry_of_length (fun hslash => ?_) ?_
  · rcases forall_mem_fileName h _ hslash with hc | hc | hc
    · rw [← isAlphanum_iff] at hc
      cases hc
    · cases hc
    · cases hc
  · have hends : "_joins.json".toList.length = 11 := rfl
    rw [fileName, String.toList_append, List.length_append, hends]
    omega

theorem Valid.below_outputPath (h : s.Valid) : Path.Below s.destination s.fileName s.outputPath :=
  Path.below_join h.destination h.isEntry_fileName

end Settings

namespace Generation

variable {read : String → Except String Declaration} {s : Settings} {d : Disk} {text : String} {k n : Nat}

/-- With a width of at least one, the planner does not object to it. -/
theorem planOfText_ne_invalidJoinNum (hk : 1 ≤ k) :
    (planOfText read text k).outcome ≠ .error (.plan (.invalidJoinNum n)) := by
  have hsettles : Settles (· ≠ .plan (.invalidJoinNum n)) (planOfText read text k).outcome fun _ => True := by
    rw [outcome_planOfText]
    refine (Settles.mapError (fun _ => GenerationError.noConfusion) _).bind fun declaration _ => ?_
    refine (Settles.mapError (fun _ => GenerationError.noConfusion) _).bind fun schema _ => ?_
    cases hplan : (Plan.ofSchema schema k).outcome with
    | ok p => trivial
    | error e =>
      rintro ⟨⟩
      exact Plan.ofSchema_ne_invalidJoinNum hk hplan
  intro h
  exact hsettles.of_error h rfl

/-- Neither does a run. -/
theorem runOn_ne_invalidJoinNum (hk : 1 ≤ s.joinNum) :
    (runOn read s d).1 ≠ .error (.plan (.invalidJoinNum n)) := by
  cases htext : d.text s.source with
  | error reason =>
    rw [runOn, onDisk_run_of_unreadable htext]
    intro h
    cases h
  | ok text =>
    cases hplan : (planOfText read text s.joinNum).outcome with
    | error e =>
      rw [runOn_of_error htext hplan]
      intro h
      cases h
      exact planOfText_ne_invalidJoinNum hk hplan
    | ok p => exact runOn_ne_error htext hplan trivial

end Generation

namespace Settings

variable {s : Settings} {field : String}

/-- What comes of settings stays inside the destination: the output path leads to an entry of it, and every report is
about a plan that stands there. The planner does not object to the width. -/
structure Contained (s : Settings) : Prop where
  isEntry : Path.IsEntry s.fileName
  below : Path.Below s.destination s.fileName s.outputPath
  written : ∀ read (d : Disk), d.Stands → ∀ r, (Generation.runOn read s d).1 = .ok r →
    ∃ text p, d.read? s.source = some text.toUTF8 ∧ (Generation.planOfText read text s.joinNum).outcome = .ok p ∧
      d.WroteInside (Generation.runOn read s d).2 s.destination s.fileName
        (if s.pretty then p.toJson.pretty else p.toJson.compact).toUTF8
  joinable : ∀ read d n, (Generation.runOn read s d).1 ≠ .error (.plan (.invalidJoinNum n))

theorem Valid.contained (h : s.Valid) : s.Contained where
  isEntry := h.isEntry_fileName
  below := h.below_outputPath
  written read d hd r hr := by
    obtain ⟨text, p, htext, hplan, _, d₁, hmake, hwrite⟩ := Generation.exists_of_report hr
    have hwrote := (Disk.wrote_of_eq_true hd hmake hwrite).inside h.below_outputPath
    exact ⟨text, p, Disk.text_eq_ok_iff.1 htext, hplan, hwrote⟩
  joinable read d n := Generation.runOn_ne_invalidJoinNum h.joinNum.1

/-- **Accepted settings keep to their destination.**

Settings are accepted exactly if they are valid, and as they are; otherwise exactly the fields whose rules are broken
are told, each one once. Whichever way accepted settings come, what is written for them is a file of the destination. -/
theorem accepted_contained (s : Settings) :
    ((∃ t, s.check = .ok t) ↔ s.Valid) ∧ (∀ t, s.check = .ok t → t = s) ∧
    (¬ s.Valid → ∃ vs, s.check = .error (.invalid vs) ∧ (vs.map Violation.field).Nodup ∧
      ∀ field, field ∈ vs.map Violation.field ↔ s.Breaks field) ∧
    (s.Accepted → s.Contained) := by
  refine ⟨⟨?_, fun h => ⟨s, check_of_valid h⟩⟩, ?_, fun h => ?_, fun h => h.valid.contained⟩
  · rintro ⟨t, ht⟩
    exact (check_eq_ok_iff.1 ht).1
  · intro t ht
    exact (check_eq_ok_iff.1 ht).2.symm
  · exact ⟨s.violations, check_of_not_valid h, nodup_fields s, fun _ => mem_fields⟩

/-- Settings for a package whose name would lead out of the destination. -/
def climbing : Settings := ⟨"", "plans", "../book", 9, true⟩

theorem bookSettings_valid : Generation.bookSettings.Valid where
  source := by decide
  destination := by decide
  package := isPackageName_iff.1 (by decide)
  joinNum := by decide

theorem climbing_breaks_iff :
    climbing.Breaks field ↔ field = "source" ∨ field = "package" ∨ field = "join_num" := by
  have hpackage : climbing.package.toList ∉ packageGrammar := by
    rw [← isPackageName_iff]
    decide
  constructor
  · rintro (h | h | h | h)
    exacts [.inl rfl, absurd h (by decide), .inr (.inl rfl), .inr (.inr rfl)]
  · rintro (rfl | rfl | rfl)
    exacts [.source rfl, .package hpackage, .joinNum (by decide)]

open Generation in
/-- The plan of one table is written into its directory. A package that leads out of there is told of, along with a
source that is not given and a width that is too great. -/
theorem bookSettings_contained : (bookSettings.Accepted ∧ bookDisk.Stands ∧
      ∃ p, (planOfText Declaration.readYaml bookSource 1).outcome = .ok p ∧
        bookDisk.WroteInside (runOn Declaration.readYaml bookSettings bookDisk).2 "plans" "book_joins.json"
          p.toJson.pretty.toUTF8) ∧
    ¬ climbing.Valid ∧ ∃ vs, climbing.check = .error (.invalid vs) ∧ (vs.map Violation.field).Nodup ∧
      ∀ field, field ∈ vs.map Violation.field ↔ field = "source" ∨ field = "package" ∨ field = "join_num" := by
  obtain ⟨hpasses, hsame, _, hcontained⟩ := accepted_contained bookSettings
  obtain ⟨_, _, htold, _⟩ := accepted_contained climbing
  constructor
  · obtain ⟨t, ht⟩ := hpasses.2 bookSettings_valid
    obtain rfl := hsame t ht
    have haccepted : bookSettings.Accepted := .given bookSettings ht
    obtain ⟨p, hp, hok⟩ := bookDisk_reports
    obtain ⟨text, q, hread, hq, hwrote⟩ :=
      (hcontained haccepted).written Declaration.readYaml bookDisk bookDisk_stands _ hok
    have htext := bookDisk_text.symm.trans (Disk.text_eq_ok_iff.2 hread)
    cases htext
    obtain rfl : p = q := Except.ok.inj (hp.symm.trans hq)
    exact ⟨haccepted, bookDisk_stands, p, hp, hwrote⟩
  · have hbroken : ¬ climbing.Valid := fun h => valid_iff.1 h _ (climbing_breaks_iff.2 (.inl rfl))
    obtain ⟨vs, hvs, hnodup, hfields⟩ := htold hbroken
    exact ⟨hbroken, vs, hvs, hnodup, fun field => (hfields field).trans climbing_breaks_iff⟩

end Settings
end JoinShapes
