import JoinShapes.Plan.Document
import JoinShapes.Proofs.Json.Decode
import JoinShapes.Proofs.Plan.Contents

/-!
# The text of a plan

The document of each record of a plan is read back as the record (`RefTable.ofJson?_toJson` and its kin); only numbers
of more than 64 bits are not, so that a plan comes back from its text exactly if it `Fits` (`ofText?_text_iff`), as the
plans of schemas do (`ofText?_of_ofSchema`). Plans that fit and differ have different texts in either layout
(`text_readsBack`).
-/

namespace JoinShapes

open Json

/-! ## Records without widths -/

theorem Column.ofJson?_toJson (c : Column) : ofJson? c.toJson = some c := by
  rw [ofJson?, toJson, slots?_obj (by rfl) (by decide)]
  simp

theorem ForeignKey.ofJson?_toJson (fk : ForeignKey) : ofJson? fk.toJson = some fk := by
  rw [ofJson?, toJson, slots?_obj (by rfl) (by decide)]
  simp

theorem JoinCondition.ofJson?_toJson (c : JoinCondition) : ofJson? c.toJson = some c := by
  rw [ofJson?, toJson, slots?_obj (by rfl) (by decide)]
  simp

theorem RefTable.ofJson?_toJson (r : RefTable) : ofJson? r.toJson = some r := by
  rw [ofJson?, toJson, slots?_obj (by rfl) (by decide)]
  simp [JoinCondition.ofJson?_toJson]

theorem list?_refTables (rs : List RefTable) : list? RefTable.ofJson? (.arr (rs.map RefTable.toJson)) = some rs :=
  (list?_map_iff _ _ rs).mpr fun r _ => r.ofJson?_toJson

/-! ## Records with widths -/

/-- All widths have at most 64 bits. -/
def RefJoinedTable.Fit (rs : List RefJoinedTable) : Prop := ∀ r ∈ rs, r.width < wordLimit

theorem RefJoinedTable.ofJson?_toJson_iff (r : RefJoinedTable) :
    ofJson? r.toJson = some r ↔ r.width < wordLimit := by
  rw [ofJson?, toJson, slots?_obj (by rfl) (by decide), ← word?_nat_iff]
  cases r
  simp [Option.bind_eq_some_iff]

theorem list?_refJoinedTables_iff (rs : List RefJoinedTable) :
    list? RefJoinedTable.ofJson? (.arr (rs.map RefJoinedTable.toJson)) = some rs ↔ RefJoinedTable.Fit rs := by
  rw [list?_map_iff]
  exact forall₂_congr fun r _ => r.ofJson?_toJson_iff

theorem PlannedTable.ofJson?_toJson_iff (t : PlannedTable) :
    ofJson? t.toJson = some t ↔ RefJoinedTable.Fit t.refJoinedTables := by
  have hcolumns := (list?_map_iff _ _ t.columns).mpr fun c _ => c.ofJson?_toJson
  have hkeys := (list?_map_iff _ _ t.foreignKeys).mpr fun fk _ => fk.ofJson?_toJson
  rw [ofJson?, toJson, slots?_obj (by rfl) (by decide), ← list?_refJoinedTables_iff]
  cases t
  simp [Option.bind_eq_some_iff, hcolumns, hkeys, list?_refTables]

theorem JoinedTable.ofJson?_toJson_iff (j : JoinedTable) :
    ofJson? j.toJson = some j ↔ RefJoinedTable.Fit j.refJoinedTables := by
  rw [ofJson?, toJson, slots?_obj (by rfl) (by decide), ← list?_refJoinedTables_iff]
  cases j
  simp [Option.bind_eq_some_iff, list?_refTables]

theorem list?_plannedTables_iff (ts : List PlannedTable) :
    list? PlannedTable.ofJson? (.arr (ts.map PlannedTable.toJson)) = some ts ↔
      ∀ t ∈ ts, RefJoinedTable.Fit t.refJoinedTables := by
  rw [list?_map_iff]
  exact forall₂_congr fun t _ => t.ofJson?_toJson_iff

theorem list?_joinedTables_iff (js : List JoinedTable) :
    list? JoinedTable.ofJson? (.arr (js.map JoinedTable.toJson)) = some js ↔
      ∀ j ∈ js, RefJoinedTable.Fit j.refJoinedTables := by
  rw [list?_map_iff]
  exact forall₂_congr fun j _ => j.ofJson?_toJson_iff

namespace Plan

variable {s : Schema} {k : Nat} {p : Plan} {O : Finset String} {rs : List RefJoinedTable}

/-- All numbers of a plan have at most 64 bits. -/
structure Fits (p : Plan) : Prop where
  joinNum : p.joinNum < wordLimit
  tables : ∀ t ∈ p.tables, RefJoinedTable.Fit t.refJoinedTables
  joinedTables : ∀ j ∈ p.joinedTables, RefJoinedTable.Fit j.refJoinedTables

/-- **The document of a plan is read back** exactly if the plan fits. -/
theorem ofJson?_toJson_iff (p : Plan) : ofJson? p.toJson = some p ↔ p.Fits := by
  have hfits : p.Fits ↔ word? (.nat p.joinNum) = some p.joinNum ∧
      list? PlannedTable.ofJson? (.arr (p.tables.map PlannedTable.toJson)) = some p.tables ∧
      list? JoinedTable.ofJson? (.arr (p.joinedTables.map JoinedTable.toJson)) = some p.joinedTables := by
    rw [word?_nat_iff, list?_plannedTables_iff, list?_joinedTables_iff]
    exact ⟨fun h => ⟨h.joinNum, h.tables, h.joinedTables⟩, fun h => ⟨h.1, h.2.1, h.2.2⟩⟩
  rw [hfits, ofJson?, toJson, slots?_obj (by rfl) (by decide)]
  cases p
  simp only [List.map_cons, List.map_nil, Option.pure_def, Option.bind_eq_bind, Option.bind_some, required_given,
    text?_str, Option.bind_eq_some_iff, Option.some.injEq, mk.injEq, true_and]
  constructor
  · rintro ⟨_, hnum, _, htables, _, hjoined, rfl, rfl, rfl⟩
    exact ⟨hnum, htables, hjoined⟩
  · rintro ⟨hnum, htables, hjoined⟩
    exact ⟨_, hnum, _, htables, _, hjoined, rfl, rfl, rfl⟩

/-! ## Texts -/

theorem legible_toJson (p : Plan) : p.toJson.Legible := by
  have hoption : ∀ s : Option String, ((s.map .str).getD .null : Json).Legible := by
    intro s
    cases s <;> simp
  simp [toJson, PlannedTable.toJson, JoinedTable.toJson, Column.toJson, ForeignKey.toJson, RefTable.toJson,
    JoinCondition.toJson, RefJoinedTable.toJson, hoption]

/-- In either layout the text of a plan spells its document. -/
theorem parse?_text (p : Plan) (isPretty : Bool) : Json.parse? (p.text isPretty) = some p.toJson := by
  cases isPretty with
  | false => exact parse?_compact p.legible_toJson
  | true => exact parse?_pretty p.legible_toJson

/-- **A plan comes back from its text**, in either layout, exactly if it fits. -/
theorem ofText?_text_iff (p : Plan) (isPretty : Bool) : ofText? (p.text isPretty) = some p ↔ p.Fits := by
  rw [ofText?, parse?_text]
  exact p.ofJson?_toJson_iff

theorem EntriesFor.fit (h : EntriesFor s k O rs) (hk : k < wordLimit) : RefJoinedTable.Fit rs := by
  intro r hr
  obtain ⟨H, hH, rfl⟩ := h.mem_iff.1 hr
  have hwidth : (O ∪ H).card ≤ k := (Finset.card_union_le O H).trans hH.fits
  exact lt_of_le_of_lt hwidth hk

theorem PlanFor.fits (h : PlanFor s k p) (hk : k < wordLimit) : p.Fits where
  joinNum := h.joinNum.trans_lt hk
  tables := by
    intro t ht
    obtain ⟨_, _, hrecord⟩ := exists_mem_left_of_forall₂ h.tables ht
    exact hrecord.refJoinedTables.fit hk
  joinedTables := by
    intro j hj
    obtain ⟨_, _, hrecord⟩ := h.sound hj
    exact hrecord.refJoinedTables.fit hk

/-- **Every plan of a schema comes back from its text**, if the bound has at most 64 bits. -/
theorem ofText?_of_ofSchema (hk : k < wordLimit) (hp : (ofSchema s k).outcome = .ok p) (isPretty : Bool) :
    ofText? (p.text isPretty) = some p := by
  have hpos : 1 ≤ k := by
    rcases Nat.eq_zero_or_pos k with rfl | hpos
    · rw [ofSchema_zero] at hp
      cases hp
    · exact hpos
  exact (p.ofText?_text_iff isPretty).mpr ((planFor_of_ofSchema_eq_ok hpos hp).fits hk)

/-- **The text of a plan says which plan it is.**

Reading the text gives the plan back, in either layout, and no other plan that fits has the same text in either. -/
theorem text_readsBack (hp : p.Fits) :
    (∀ isPretty, ofText? (p.text isPretty) = some p) ∧
    ∀ q : Plan, q.Fits → ∀ a b, p.text a = q.text b → p = q := by
  have hback : ∀ isPretty, ofText? (p.text isPretty) = some p := fun b => (p.ofText?_text_iff b).mpr hp
  refine ⟨hback, fun q hq a b htext => ?_⟩
  have hsame : some p = some q := by
    rw [← hback a, htext, (q.ofText?_text_iff b).mpr hq]
  exact Option.some.inj hsame

/-- A plan with characters to escape, the greatest number and both kinds of optional text. -/
def quotingPlan : Plan where
  name := "a \"b\" \\ c\n\x01"
  joinNum := 18446744073709551615
  tables := [⟨"t", [⟨"c", "text", true⟩], ["c"], [], [⟨"u", ⟨"t", "c", "u", "c"⟩⟩],
    [⟨"t_u", 2, ["u"], "join_u", some "u"⟩]⟩]
  joinedTables := [⟨"t_u", ["t", "u"], [], [⟨"t_u_v", 3, ["v"], "join_v", none⟩]⟩]

/-- It is read back, and a plan of another name has another text. -/
theorem quotingPlan_readsBack : quotingPlan.Fits ∧
    (∀ isPretty, ofText? (quotingPlan.text isPretty) = some quotingPlan) ∧
    quotingPlan.text true ≠ Plan.text { quotingPlan with name := "a" } true := by
  have hfits : quotingPlan.Fits := {
    joinNum := by decide
    tables := by simp [RefJoinedTable.Fit, quotingPlan, wordLimit]
    joinedTables := by simp [RefJoinedTable.Fit, quotingPlan, wordLimit] }
  obtain ⟨hback, hother⟩ := text_readsBack hfits
  refine ⟨hfits, hback, fun h => ?_⟩
  have hsame := hother { quotingPlan with name := "a" } ⟨hfits.joinNum, hfits.tables, hfits.joinedTables⟩ true true h
  exact absurd (congrArg Plan.name hsame) (by decide)

end Plan
end JoinShapes
