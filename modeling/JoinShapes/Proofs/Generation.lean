import Mathlib
import JoinShapes.Generation
import JoinShapes.Proofs.Files.Disk
import JoinShapes.Proofs.Plan.Run

/-!
# Runs on a disk

On a disk, a computation with a journal has an outcome and leaves a disk behind (`JournaledT.onDisk`). A run is followed
through its steps by this: it reads, plans and writes, and each step goes on from the disk that the last one left.

Whatever the reader of schema files is, loading and planning leave the disk as it is and come to what `planOfText` comes
to (`onDisk_run_of_text`). So a run has the schema and planning errors of the text and no others, and nothing has
changed when it has one. When it has a report, the plan of the text stands at the output path, and nothing else has
changed (`runOn_agrees`).
-/

namespace JoinShapes

/-- The error comes from the schema or from planning, and not from writing. -/
def GenerationError.OfInput : GenerationError → Prop
  | schema _ | plan _ => True
  | unwritable _ => False

/-- The text of a file, or what is said of a file that cannot be read or holds none. -/
def Disk.text (d : Disk) (path : String) : Except String String :=
  (d.read path).mapError ReadFault.message >>= textOf

/-- **Bytes hold a text** exactly if they are its encoding. -/
theorem textOf_eq_ok_iff {content : ByteArray} {text : String} : textOf content = .ok text ↔ content = text.toUTF8 := by
  constructor
  · intro h
    rw [textOf, String.fromUTF8?] at h
    by_cases hvalid : content.IsValidUTF8
    · rw [dif_pos hvalid] at h
      cases h
      rfl
    · rw [dif_neg hvalid] at h
      cases h
  · rintro rfl
    have hread : String.fromUTF8? text.toUTF8 = some text := dif_pos text.isValidUTF8
    rw [textOf, hread]

theorem Disk.text_eq_ok_iff {d : Disk} {path text : String} :
    d.text path = .ok text ↔ d.read? path = some text.toUTF8 := by
  rw [Disk.text, Disk.read]
  cases d.read? path with
  | none => exact iff_of_false (fun h => by cases h) (fun h => by cases h)
  | some content =>
    rw [Option.some.injEq]
    exact textOf_eq_ok_iff

/-! ## Computations on a disk -/

namespace JournaledT

variable {ε α β γ : Type}

/-- What a computation comes to on a disk, and the disk after it. -/
def onDisk (x : JournaledT OnDisk ε α) (d : Disk) : Except ε α × Disk :=
  ((x.run.run d).1.outcome, (x.run.run d).2)

theorem onDisk_ofEffect (x : OnDisk (Except ε α)) (d : Disk) : (ofEffect x).onDisk d = x.run d := rfl

/-- What comes of going on with a result, and the disk after it; an error leaves `d` as it is. -/
def continueOn (d : Disk) (y : Except ε α) (f : α → Except ε β × Disk) : Except ε β × Disk :=
  match y with
  | .ok a => f a
  | .error e => (.error e, d)

theorem continueOn_bind (d : Disk) (y : Except ε α) (f : α → Except ε β) (g : β → Except ε γ × Disk) :
    continueOn d (y >>= f) g = continueOn d y fun a => continueOn d (f a) g := by
  cases y <;> rfl

/-- **A sequence goes on** with the result of its first part, and from the disk that this leaves. -/
theorem onDisk_bind (x : JournaledT OnDisk ε α) (f : α → JournaledT OnDisk ε β) (d : Disk) :
    (x >>= f).onDisk d = continueOn (x.onDisk d).2 (x.onDisk d).1 fun a => (f a).onDisk (x.onDisk d).2 := by
  show (goOn f (x.run.run d).1).onDisk (x.run.run d).2 = _
  rw [onDisk, goOn, onDisk]
  cases (x.run.run d).1.outcome <;> rfl

/-- A part without effects leaves the disk as it is. -/
theorem onDisk_lift_bind (x : Journaled ε α) (f : α → JournaledT OnDisk ε β) (d : Disk) :
    (lift x >>= f).onDisk d = continueOn d x.outcome fun a => (f a).onDisk d := onDisk_bind _ _ d

end JournaledT

namespace Generation

open JournaledT (onDisk continueOn continueOn_bind onDisk_ofEffect onDisk_bind onDisk_lift_bind)

variable {read : String → Except String Declaration} {s : Settings} {d : Disk} {e : GenerationError} {p : Plan}
variable {r : Report} {text reason : String} {k : Nat}

/-- A run on a disk: what it comes to, and the disk after it. -/
def runOn (read : String → Except String Declaration) (s : Settings) (d : Disk) :
    Except GenerationError Report × Disk := (run read s).onDisk d

/-! ## Planning -/

theorem outcome_planOfText (read : String → Except String Declaration) (text : String) (k : Nat) :
    (planOfText read text k).outcome = (Declaration.ofText read text).mapError .schema >>= fun declaration =>
      declaration.toSchema.outcome.mapError .schema >>= fun schema =>
        (Plan.ofSchema schema k).outcome.mapError .plan := by
  simp only [planOfText, Journaled.outcome_bind, Journaled.outcome_mapError, Journaled.outcome_ofExcept]

/-- **What is wrong with a text** is wrong with its schema or its planning. -/
theorem planOfText_ofInput (h : (planOfText read text k).outcome = .error e) : e.OfInput := by
  have hsettles : Settles GenerationError.OfInput (planOfText read text k).outcome fun _ => True := by
    rw [outcome_planOfText]
    refine (Settles.mapError (fun _ => trivial) _).bind fun declaration _ => ?_
    refine (Settles.mapError (fun _ => trivial) _).bind fun schema _ => ?_
    exact Settles.mapError (fun _ => trivial) _
  exact hsettles.of_error h

/-! ## The steps of a run -/

/-- A declaration is loaded from the text of its file, and the disk stays as it is. -/
theorem run_ofFile (read : String → Except String Declaration) (path : String) (d : Disk) :
    (Declaration.ofFile read path : OnDisk _).run d =
      (match d.text path with
        | .ok text => Declaration.ofText read text
        | .error reason => .error (.unreadable reason), d) := by
  have hread : (readText path : OnDisk _).run d = (d.text path, d) := rfl
  rw [Declaration.ofFile, StateT.run_bind, hread]
  cases d.text path <;> rfl

/-- Loading the declaration of a run leaves the disk as it is. -/
theorem onDisk_load (read : String → Except String Declaration) (path : String) (d : Disk) :
    onDisk (.ofEffect (return (← Declaration.ofFile read path).mapError GenerationError.schema)) d =
      (Except.mapError .schema (match d.text path with
        | .ok text => Declaration.ofText read text
        | .error reason => .error (.unreadable reason)), d) := by
  rw [onDisk_ofEffect, StateT.run_bind, run_ofFile]
  rfl

/-- **Without a text in its source** a run ends at once. -/
theorem onDisk_run_of_unreadable (h : d.text s.source = .error reason) :
    (run read s).onDisk d = (.error (.schema (.unreadable reason)), d) := by
  rw [run, onDisk_lift_bind, Journaled.outcome_note, continueOn, onDisk_bind, onDisk_load, h]
  rfl

/-- **With a text in its source** a run comes to what planning the text comes to, the disk being as it was, and goes on
to write the plan. -/
theorem onDisk_run_of_text (h : d.text s.source = .ok text) : (run read s).onDisk d =
    continueOn d (planOfText read text s.joinNum).outcome fun p => (write s p).onDisk d := by
  rw [run, onDisk_lift_bind, Journaled.outcome_note, continueOn, onDisk_bind, onDisk_load, h]
  simp only [onDisk_lift_bind, Journaled.outcome_mapError, outcome_planOfText, continueOn_bind]

/-! ## Writing -/

/-- An operation that has to succeed is a failure of the run if it does not. -/
theorem onDisk_require (path : String) (act : OnDisk Bool) (d : Disk) : (require path act).onDisk d =
    (if (act.run d).1 then .ok () else .error (.unwritable path), (act.run d).2) := by
  rw [require, onDisk_ofEffect, StateT.run_bind]
  cases h : act.run d with
  | mk isDone d' => cases isDone <;> rfl

theorem run_makeDirectories (path : String) (d : Disk) : (FileAccess.makeDirectories path : OnDisk _).run d =
    ((d.makeDirectories path).2, (d.makeDirectories path).1) := rfl

theorem run_write (path content : String) (d : Disk) : (FileAccess.write path content : OnDisk _).run d =
    ((d.write path content.toUTF8).2, (d.write path content.toUTF8).1) := rfl

/-- What a run reports of a plan. -/
def report (s : Settings) (p : Plan) : Report := ⟨s.outputPath, p.tables.length, p.joinedTables.length⟩

/-- The directories can be made, and after that the file can be written. -/
def Writable (s : Settings) (p : Plan) (d d' : Disk) : Prop :=
  ∃ d₁, d.makeDirectories s.destination = (d₁, true) ∧ d₁.write s.outputPath (p.text s.pretty).toUTF8 = (d', true)

/-- Writing a plan makes the directories and writes the file, or fails at a path. -/
theorem onDisk_write_cases (s : Settings) (p : Plan) (d : Disk) :
    (∃ d', Writable s p d d' ∧ (write s p).onDisk d = (.ok (report s p), d')) ∨
    (∀ d', ¬ Writable s p d d') ∧ ∃ path d', (write s p).onDisk d = (.error (.unwritable path), d') := by
  rw [write, onDisk_bind, onDisk_require, run_makeDirectories]
  cases hmake : d.makeDirectories s.destination with
  | mk d₁ isMade =>
    cases isMade with
    | false =>
      refine .inr ⟨?_, _, _, rfl⟩
      rintro d' ⟨_, h, _⟩
      rw [hmake] at h
      cases h
    | true =>
      rw [if_pos rfl, continueOn, onDisk_bind, onDisk_require, run_write]
      cases hwrite : d₁.write s.outputPath (p.text s.pretty).toUTF8 with
      | mk d₂ isWritten =>
        cases isWritten with
        | false =>
          refine .inr ⟨?_, _, _, rfl⟩
          rintro d' ⟨_, h, h'⟩
          rw [hmake] at h
          cases h
          rw [hwrite] at h'
          cases h'
        | true => exact .inl ⟨d₂, ⟨d₁, hmake, hwrite⟩, rfl⟩

/-! ## Agreement -/

/-- **A run with a plan** writes and reports, or fails where it cannot write. -/
theorem runOn_cases (htext : d.text s.source = .ok text) (hplan : (planOfText read text s.joinNum).outcome = .ok p) :
    (Writable s p d (runOn read s d).2 ∧ (runOn read s d).1 = .ok (report s p)) ∨
    (∀ d', ¬ Writable s p d d') ∧ ∃ path, (runOn read s d).1 = .error (.unwritable path) := by
  rw [runOn, onDisk_run_of_text htext, hplan, continueOn]
  rcases onDisk_write_cases s p d with ⟨d', hwritable, hwrite⟩ | ⟨hno, path, d', hwrite⟩
  · rw [hwrite]
    exact .inl ⟨hwritable, rfl⟩
  · rw [hwrite]
    exact .inr ⟨hno, path, rfl⟩

/-- **A run without a plan** ends with what is wrong with planning, and leaves the disk as it is. -/
theorem runOn_of_error (htext : d.text s.source = .ok text)
    (hplan : (planOfText read text s.joinNum).outcome = .error e) : runOn read s d = (.error e, d) := by
  rw [runOn, onDisk_run_of_text htext, hplan, continueOn]

/-- Where there is a plan, nothing is wrong with the input. -/
theorem runOn_ne_error (htext : d.text s.source = .ok text) (hplan : (planOfText read text s.joinNum).outcome = .ok p)
    (he : e.OfInput) : (runOn read s d).1 ≠ .error e := by
  intro hrun
  rcases runOn_cases htext hplan with ⟨_, hok⟩ | ⟨_, path, hfail⟩
  · rw [hok] at hrun
    cases hrun
  · rw [hfail] at hrun
    cases hrun
    exact he

/-- **Reports are about written plans.** -/
theorem exists_of_report (h : (runOn read s d).1 = .ok r) : ∃ text p, d.text s.source = .ok text ∧
    (planOfText read text s.joinNum).outcome = .ok p ∧ r = report s p ∧ Writable s p d (runOn read s d).2 := by
  cases htext : d.text s.source with
  | error reason =>
    rw [runOn, onDisk_run_of_unreadable htext] at h
    cases h
  | ok text =>
    cases hplan : (planOfText read text s.joinNum).outcome with
    | error e =>
      rw [runOn_of_error htext hplan] at h
      cases h
    | ok p =>
      rcases runOn_cases htext hplan with ⟨hwritable, hok⟩ | ⟨_, path, hfail⟩
      · rw [hok] at h
        cases h
        exact ⟨text, p, rfl, hplan, rfl, hwritable⟩
      · rw [hfail] at h
        cases h

/-- **Runs on a disk agree with planning a text**, by any reader of schema files.

If the source holds a text, the run has a schema or planning error exactly if the text has this one; if not, the run
tells why. With such an error the disk is as it was. With a report, on a disk whose working directory is there, the plan
of the text stands at the output path as JSON, laid out as the settings say; the report counts its tables, and nothing
else has changed but for missing directories along the destination. -/
theorem runOn_agrees (read : String → Except String Declaration) (s : Settings) (d : Disk) :
    (∀ text, d.read? s.source = some text.toUTF8 → ∀ e,
      (e.OfInput ∧ (runOn read s d).1 = .error e ↔ (planOfText read text s.joinNum).outcome = .error e)) ∧
    (∀ reason, d.text s.source = .error reason → (runOn read s d).1 = .error (.schema (.unreadable reason))) ∧
    (∀ e, e.OfInput → (runOn read s d).1 = .error e → (runOn read s d).2 = d) ∧
    (d.Stands → ∀ r, (runOn read s d).1 = .ok r → ∃ text p, d.read? s.source = some text.toUTF8 ∧
      (planOfText read text s.joinNum).outcome = .ok p ∧ r = ⟨s.outputPath, p.tables.length, p.joinedTables.length⟩ ∧
      Disk.Wrote d (runOn read s d).2 s.destination s.outputPath
        (if s.pretty then p.toJson.pretty else p.toJson.compact).toUTF8) := by
  refine ⟨fun text hread e => ?_, fun reason htext => ?_, fun e he herror => ?_, fun hd r hr => ?_⟩
  · have htext := Disk.text_eq_ok_iff.2 hread
    cases hplan : (planOfText read text s.joinNum).outcome with
    | error e' =>
      rw [runOn_of_error htext hplan, Except.error.injEq, Except.error.injEq]
      refine and_iff_right_of_imp ?_
      rintro rfl
      exact planOfText_ofInput hplan
    | ok p => exact iff_of_false (fun h => runOn_ne_error htext hplan h.1 h.2) nofun
  · rw [runOn, onDisk_run_of_unreadable htext]
  · cases htext : d.text s.source with
    | error reason => rw [runOn, onDisk_run_of_unreadable htext]
    | ok text =>
      cases hplan : (planOfText read text s.joinNum).outcome with
      | error e' => rw [runOn_of_error htext hplan]
      | ok p => exact absurd herror (runOn_ne_error htext hplan he)
  · obtain ⟨text, p, htext, hplan, hreport, d₁, hmake, hwrite⟩ := exists_of_report hr
    exact ⟨text, p, Disk.text_eq_ok_iff.1 htext, hplan, hreport, Disk.wrote_of_eq_true hd hmake hwrite⟩

/-! ## A run -/

/-- The text of a schema file with one table. -/
def bookSource : String := "tables: [\x7bname: book\x7d]"

def bookSettings : Settings := ⟨"book.yaml", "plans", "book", 1, true⟩

/-- A disk with the schema file alone. -/
def bookDisk : Disk := ⟨.directory [("book.yaml", .file bookSource.toUTF8)], []⟩

theorem bookSource_plan : ∃ p, (planOfText Declaration.readYaml bookSource 1).outcome = .ok p := by
  have hread : Declaration.ofText Declaration.readYaml bookSource = .ok ⟨none, [⟨"book", [], [], []⟩]⟩ := by cbv
  obtain ⟨schema, hschema⟩ : ∃ s, (Schema.build Declaration.defaultName [⟨"book", [], [], []⟩]).outcome = .ok s :=
    Schema.exists_build_eq_ok_iff.2 (by decide)
  have hsize : schema.size = 1 := congrArg List.length (Schema.build_eq_ok_iff.1 hschema).2
  obtain ⟨p, hp⟩ : ∃ p, (Plan.ofSchema schema 1).outcome = .ok p := by
    refine Plan.ofSchema_eq_ok (by decide) ?_ ?_ <;> rw [hsize] <;> decide
  refine ⟨p, ?_⟩
  have hbuild : (Declaration.toSchema ⟨none, [⟨"book", [], [], []⟩]⟩).outcome = .ok schema := hschema
  rw [outcome_planOfText, hread]
  simp only [Except.mapError, ok_bind, hbuild, hp]

theorem bookDisk_read : bookDisk.read? bookSettings.source = some bookSource.toUTF8 := by
  have hroute : Path.route "book.yaml" = ⟨false, ["book.yaml"], false, false⟩ := by cbv
  have husable : Path.isUsable "book.yaml" = true := by decide
  simp [Disk.read?, Disk.locate?, hroute, husable, bookDisk, bookSettings, FileTree.walk, FileTree.get?,
    FileTree.child?, Disk.origin]

theorem bookDisk_text : bookDisk.text bookSettings.source = .ok bookSource := Disk.text_eq_ok_iff.2 bookDisk_read

theorem bookDisk_writable (p : Plan) : ∃ d', Writable bookSettings p bookDisk d' := by
  have hout : bookSettings.outputPath = "plans/book_joins.json" := by decide
  have hplans : bookDisk.makeDirectories "plans" =
      (⟨.directory [("book.yaml", .file bookSource.toUTF8), ("plans", .directory [])], []⟩, true) := by
    have hroute : Path.route "plans" = ⟨false, ["plans"], false, false⟩ := by cbv
    have husable : Path.isUsable "plans" = true := by decide
    have hname : FileTree.isName "plans" = true := by decide
    simp [Disk.makeDirectories, hroute, husable, hname, bookDisk, FileTree.makeDirectories, FileTree.get?,
      FileTree.child?, Disk.origin, Path.Route.makeable, FileTree.put, FileTree.setChild, FileTree.walk]
  have hbook : ∀ content, Disk.write ⟨.directory [("book.yaml", .file bookSource.toUTF8), ("plans", .directory [])], []⟩
      "plans/book_joins.json" content = (⟨.directory [("book.yaml", .file bookSource.toUTF8),
        ("plans", .directory [("book_joins.json", .file content)])], []⟩, true) := by
    intro content
    have hroute : Path.route "plans/book_joins.json" = ⟨false, ["plans", "book_joins.json"], false, false⟩ := by cbv
    have husable : Path.isUsable "plans/book_joins.json" = true := by decide
    have hname : FileTree.isName "book_joins.json" = true := by decide
    simp [Disk.write, Disk.locate?, hroute, husable, hname, FileTree.walk, FileTree.get?, FileTree.child?, Disk.origin,
      FileTree.put, FileTree.setChild]
  exact ⟨_, _, hplans, hout ▸ hbook _⟩

theorem bookDisk_stands : bookDisk.Stands := rfl

/-- The run on the disk has a report. -/
theorem bookDisk_reports : ∃ p, (planOfText Declaration.readYaml bookSource 1).outcome = .ok p ∧
    (runOn Declaration.readYaml bookSettings bookDisk).1 = .ok (report bookSettings p) := by
  obtain ⟨p, hp⟩ := bookSource_plan
  rcases runOn_cases bookDisk_text hp with ⟨_, hok⟩ | ⟨hno, _⟩
  · exact ⟨p, hp, hok⟩
  · obtain ⟨d', hd'⟩ := bookDisk_writable p
    exact absurd hd' (hno d')

/-- The plan of one table is written, and the file can be read. -/
theorem bookDisk_agrees : bookDisk.read? bookSettings.source = some bookSource.toUTF8 ∧ bookDisk.Stands ∧
    ∃ p, (planOfText Declaration.readYaml bookSource 1).outcome = .ok p ∧
      (runOn Declaration.readYaml bookSettings bookDisk).1 =
        .ok ⟨bookSettings.outputPath, p.tables.length, p.joinedTables.length⟩ ∧
      Disk.Wrote bookDisk (runOn Declaration.readYaml bookSettings bookDisk).2 "plans" "plans/book_joins.json"
        p.toJson.pretty.toUTF8 := by
  obtain ⟨p, hp, hok⟩ := bookDisk_reports
  obtain ⟨text, q, hread, hq, _, hwrote⟩ :=
    (runOn_agrees Declaration.readYaml bookSettings bookDisk).2.2.2 bookDisk_stands _ hok
  have hout : bookSettings.outputPath = "plans/book_joins.json" := by decide
  have htext := bookDisk_text.symm.trans (Disk.text_eq_ok_iff.2 hread)
  cases htext
  obtain rfl : p = q := Except.ok.inj (hp.symm.trans hq)
  exact ⟨bookDisk_read, bookDisk_stands, p, hp, hok, hout ▸ hwrote⟩

end Generation
end JoinShapes
