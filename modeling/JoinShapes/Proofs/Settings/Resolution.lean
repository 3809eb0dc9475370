import JoinShapes.Proofs.Text.Numeral
import JoinShapes.Settings.Overrides

/-!
# Which variables settings depend on

Settings are found unless a variable that is asked for misspells its setting: the width, or else the layout
(`Overrides.resolve_cases`). Only variables that no flag stands in for are asked for, and of those nothing is seen but
their text. So environments that differ in other respects only are indistinguishable: they give the same settings or
the same error (`Settings.ofOverrides_noninterfering`).
-/

namespace JoinShapes

/-! ## What an environment says -/

namespace Environment

variable {env : Environment} {name t : String}

/-- The bytes that a variable is set to. -/
def value? (env : Environment) (name : String) : Option ByteArray := (env.entries.find? (·.1 == name)).map (·.2)

/-- The variable is set to this text. -/
def Says (env : Environment) (name t : String) : Prop := env.value? name = some t.toUTF8

/-- The variable is not set, or what it is set to is no text. -/
def Silent (env : Environment) (name : String) : Prop := ∀ t, ¬ env.Says name t

theorem fromUTF8?_eq_some_iff {b : ByteArray} : String.fromUTF8? b = some t ↔ b = t.toUTF8 := by
  unfold String.fromUTF8?
  constructor
  · intro h
    split at h
    · cases h
      rfl
    · cases h
  · rintro rfl
    exact dif_pos t.isValidUTF8

/-- **The text of a variable** is what it is set to, if that is a text. -/
theorem text?_eq_some_iff : env.text? name = some t ↔ env.Says name t := by
  rw [text?, Says, value?, Option.bind_eq_some_iff, Option.map_eq_some_iff]
  simp only [fromUTF8?_eq_some_iff]

theorem text?_eq_none_iff : env.text? name = none ↔ env.Silent name := by
  simp only [Option.eq_none_iff_forall_ne_some, ne_eq, text?_eq_some_iff, Silent]

/-- A variable says one text only. -/
theorem Says.unique {u : String} (h : env.Says name t) (h' : env.Says name u) : t = u := by
  have ht := text?_eq_some_iff.2 h
  rw [text?_eq_some_iff.2 h'] at ht
  exact (Option.some.inj ht).symm

/-- The variable for the width is set to a text that spells no number. -/
def MisspellsWidth (env : Environment) : Prop :=
  ∃ t, env.Says "ORMJOIN_JOIN_NUM" t ∧ ∀ n, ¬ Numeral.Spells t n

/-- The variable for the layout is set to a text other than the two words for it. -/
def MisspellsLayout (env : Environment) : Prop :=
  ∃ t, env.Says "ORMJOIN_PRETTY" t ∧ t ≠ "true" ∧ t ≠ "false"

/-- The error tells of this variable, and what it is set to. -/
def TellsOf (env : Environment) (name : String) (e : SettingsError) : Prop :=
  ∃ value reason, e = .unparsable name value reason ∧ env.Says name value

/-- **The width is found** unless it is misspelled. -/
theorem joinNum_cases (env : Environment) :
    (¬ env.MisspellsWidth ∧ ∃ n, env.joinNum = .ok n) ∨
    (env.MisspellsWidth ∧ ∃ e, env.joinNum = .error e ∧ env.TellsOf "ORMJOIN_JOIN_NUM" e) := by
  unfold joinNum
  cases htext : env.text? "ORMJOIN_JOIN_NUM" with
  | none =>
    have hsilent := text?_eq_none_iff.1 htext
    exact .inl ⟨fun ⟨t, ht, _⟩ => hsilent t ht, _, rfl⟩
  | some t =>
    have hsays := text?_eq_some_iff.1 htext
    dsimp only
    cases hnumber : Numeral.ofText t with
    | ok n =>
      refine .inl ⟨?_, n, rfl⟩
      rintro ⟨u, hu, hno⟩
      obtain rfl := hsays.unique hu
      exact hno n (Numeral.ofText_eq_ok_iff.1 hnumber)
    | error e =>
      refine .inr ⟨⟨t, hsays, fun n hn => ?_⟩, _, rfl, t, _, rfl, hsays⟩
      rw [Numeral.ofText_eq_ok_iff.2 hn] at hnumber
      cases hnumber

/-- **The layout is found** unless it is misspelled. -/
theorem pretty_cases (env : Environment) :
    (¬ env.MisspellsLayout ∧ ∃ b, env.pretty = .ok b) ∨
    (env.MisspellsLayout ∧ ∃ e, env.pretty = .error e ∧ env.TellsOf "ORMJOIN_PRETTY" e) := by
  unfold pretty
  split
  · rename_i htext
    have hsilent := text?_eq_none_iff.1 htext
    exact .inl ⟨fun ⟨t, ht, _⟩ => hsilent t ht, _, rfl⟩
  · rename_i htext
    refine .inl ⟨?_, _, rfl⟩
    rintro ⟨u, hu, htrue, _⟩
    exact htrue (hu.unique (text?_eq_some_iff.1 htext))
  · rename_i htext
    refine .inl ⟨?_, _, rfl⟩
    rintro ⟨u, hu, _, hfalse⟩
    exact hfalse (hu.unique (text?_eq_some_iff.1 htext))
  · rename_i t htrue hfalse htext
    have hsays := text?_eq_some_iff.1 htext
    exact .inr ⟨⟨t, hsays, htrue, hfalse⟩, _, rfl, t, _, rfl, hsays⟩

end Environment

/-! ## What flags leave to the environment -/

namespace Overrides

variable {o : Overrides} {env env' : Environment} {name : String}

/-- No flag gives the width, and its variable misspells it. -/
def MissesWidth (o : Overrides) (env : Environment) : Prop := o.joinNum = none ∧ env.MisspellsWidth

/-- No flag gives the layout, and its variable misspells it. -/
def MissesLayout (o : Overrides) (env : Environment) : Prop := o.compact = false ∧ env.MisspellsLayout

/-- A flag stands in for the variable. -/
def Shadows (o : Overrides) (name : String) : Prop :=
  name = "ORMJOIN_SOURCE" ∧ o.source ≠ none ∨ name = "ORMJOIN_DESTINATION" ∧ o.destination ≠ none ∨
    name = "ORMJOIN_PACKAGE" ∧ o.package ≠ none ∨ name = "ORMJOIN_JOIN_NUM" ∧ o.joinNum ≠ none ∨
    name = "ORMJOIN_PRETTY" ∧ o.compact = true

/-- The environments differ only in variables that a flag stands in for, and in how a variable comes to have no text. -/
def Indistinguishable (o : Overrides) (env env' : Environment) : Prop :=
  ∀ name, o.Shadows name ∨ env.value? name = env'.value? name ∨ env.Silent name ∧ env'.Silent name

/-- The width, from its flag or else from the environment. -/
def width (o : Overrides) (env : Environment) : Except SettingsError Nat := (o.joinNum.map Except.ok).getD env.joinNum

/-- The layout, from its flag or else from the environment. -/
def layout (o : Overrides) (env : Environment) : Except SettingsError Bool :=
  if o.compact then .ok false else env.pretty

/-- A text, from its flag or else from the environment. -/
def text (env : Environment) (given : Option String) (name default : String) : String :=
  given.getD ((env.text? name).getD default)

/-- The width is settled before the layout. -/
theorem resolve_eq (o : Overrides) (env : Environment) : o.resolve env = do
    let joinNum ← o.width env
    let pretty ← o.layout env
    return ⟨text env o.source "ORMJOIN_SOURCE" Settings.default.source,
      text env o.destination "ORMJOIN_DESTINATION" Settings.default.destination,
      text env o.package "ORMJOIN_PACKAGE" Settings.default.package, joinNum, pretty⟩ := by
  unfold resolve layout
  cases o.compact <;> rfl

theorem width_cases (o : Overrides) (env : Environment) :
    (¬ o.MissesWidth env ∧ ∃ n, o.width env = .ok n) ∨
    (o.MissesWidth env ∧ ∃ e, o.width env = .error e ∧ env.TellsOf "ORMJOIN_JOIN_NUM" e) := by
  unfold width MissesWidth
  cases hgiven : o.joinNum with
  | some n => exact .inl ⟨by simp, n, rfl⟩
  | none => simpa using env.joinNum_cases

theorem layout_cases (o : Overrides) (env : Environment) :
    (¬ o.MissesLayout env ∧ ∃ b, o.layout env = .ok b) ∨
    (o.MissesLayout env ∧ ∃ e, o.layout env = .error e ∧ env.TellsOf "ORMJOIN_PRETTY" e) := by
  unfold layout MissesLayout
  cases hgiven : o.compact with
  | true => exact .inl ⟨by simp, false, rfl⟩
  | false => simpa using env.pretty_cases

/-- **Settings are found**, or the width is missing, or else the layout. -/
theorem resolve_cases (o : Overrides) (env : Environment) :
    (¬ o.MissesWidth env ∧ ¬ o.MissesLayout env ∧ ∃ s, o.resolve env = .ok s) ∨
    (o.MissesWidth env ∧ ∃ e, o.resolve env = .error e ∧ env.TellsOf "ORMJOIN_JOIN_NUM" e) ∨
    (¬ o.MissesWidth env ∧ o.MissesLayout env ∧ ∃ e, o.resolve env = .error e ∧ env.TellsOf "ORMJOIN_PRETTY" e) := by
  rw [resolve_eq]
  rcases o.width_cases env with ⟨hwidth, n, hn⟩ | ⟨hwidth, e, he, htells⟩
  · rcases o.layout_cases env with ⟨hlayout, b, hb⟩ | ⟨hlayout, e, he, htells⟩
    · rw [hn, hb]
      exact .inl ⟨hwidth, hlayout, _, rfl⟩
    · rw [hn, he]
      exact .inr (.inr ⟨hwidth, hlayout, e, rfl, htells⟩)
  · rw [he]
    exact .inr (.inl ⟨hwidth, e, rfl, htells⟩)

/-! ## What cannot be told apart -/

/-- Variables that are asked for have the same text. -/
theorem Indistinguishable.text?_eq (h : o.Indistinguishable env env') (hname : ¬ o.Shadows name) :
    env.text? name = env'.text? name := by
  rcases h name with hshadow | hvalue | ⟨hsilent, hsilent'⟩
  · exact absurd hshadow hname
  · refine Option.ext fun t => ?_
    rw [Environment.text?_eq_some_iff, Environment.text?_eq_some_iff, Environment.Says, Environment.Says, hvalue]
  · rw [Environment.text?_eq_none_iff.2 hsilent, Environment.text?_eq_none_iff.2 hsilent']

/-- A text that a flag gives, or that both environments give, is the same. -/
theorem text_congr {given : Option String} {default : String} (h : given = none → env.text? name = env'.text? name) :
    text env given name default = text env' given name default := by
  cases given with
  | some t => rfl
  | none => rw [text, text, h rfl]

/-- **Environments that cannot be told apart** give the same settings or the same error. -/
theorem Indistinguishable.resolve_eq (h : o.Indistinguishable env env') : o.resolve env = o.resolve env' := by
  have hsource : o.source = none → env.text? "ORMJOIN_SOURCE" = env'.text? "ORMJOIN_SOURCE" := fun hnone =>
    h.text?_eq (by simp [Shadows, hnone])
  have hdestination : o.destination = none → env.text? "ORMJOIN_DESTINATION" = env'.text? "ORMJOIN_DESTINATION" :=
    fun hnone => h.text?_eq (by simp [Shadows, hnone])
  have hpackage : o.package = none → env.text? "ORMJOIN_PACKAGE" = env'.text? "ORMJOIN_PACKAGE" := fun hnone =>
    h.text?_eq (by simp [Shadows, hnone])
  have hwidth : o.width env = o.width env' := by
    unfold width
    cases hgiven : o.joinNum with
    | some n => rfl
    | none =>
      have htext : env.text? "ORMJOIN_JOIN_NUM" = env'.text? "ORMJOIN_JOIN_NUM" :=
        h.text?_eq (by simp [Shadows, hgiven])
      show env.joinNum = env'.joinNum
      rw [Environment.joinNum, Environment.joinNum, htext]
  have hlayout : o.layout env = o.layout env' := by
    unfold layout
    cases hgiven : o.compact with
    | true => rfl
    | false =>
      have htext : env.text? "ORMJOIN_PRETTY" = env'.text? "ORMJOIN_PRETTY" := h.text?_eq (by simp [Shadows, hgiven])
      show env.pretty = env'.pretty
      rw [Environment.pretty, Environment.pretty, htext]
  rw [Overrides.resolve_eq, Overrides.resolve_eq, hwidth, hlayout, text_congr hsource, text_congr hdestination,
    text_congr hpackage]

end Overrides

namespace Settings

/-- **Settings depend on what is asked for only.**

They are not found exactly if the width or the layout is missing; the error tells of the width if it is, and of the
layout otherwise. Environments that the flags leave indistinguishable give the same, before and after the check. -/
theorem ofOverrides_noninterfering (o : Overrides) (env : Environment) :
    ((∃ e, o.resolve env = .error e) ↔ o.MissesWidth env ∨ o.MissesLayout env) ∧
    (∀ e, o.resolve env = .error e → o.MissesWidth env → env.TellsOf "ORMJOIN_JOIN_NUM" e) ∧
    (∀ e, o.resolve env = .error e → ¬ o.MissesWidth env → env.TellsOf "ORMJOIN_PRETTY" e) ∧
    ∀ env', o.Indistinguishable env env' →
      o.resolve env = o.resolve env' ∧ ofOverrides o env = ofOverrides o env' := by
  refine ⟨?_, ?_, ?_, fun env' h => ⟨h.resolve_eq, ?_⟩⟩
  · rcases o.resolve_cases env with ⟨hwidth, hlayout, s, hs⟩ | ⟨hwidth, e, he, _⟩ | ⟨_, hlayout, e, he, _⟩
    · rw [hs]
      exact iff_of_false nofun fun h => h.elim hwidth hlayout
    · exact iff_of_true ⟨e, he⟩ (.inl hwidth)
    · exact iff_of_true ⟨e, he⟩ (.inr hlayout)
  · intro e he hwidth
    rcases o.resolve_cases env with ⟨hno, _⟩ | ⟨_, e', he', htells⟩ | ⟨hno, _⟩
    · exact absurd hwidth hno
    · rw [he] at he'
      cases he'
      exact htells
    · exact absurd hwidth hno
  · intro e he hwidth
    rcases o.resolve_cases env with ⟨_, _, s, hs⟩ | ⟨hyes, _⟩ | ⟨_, _, e', he', htells⟩
    · rw [he] at hs
      cases hs
    · exact absurd hyes hwidth
    · rw [he] at he'
      cases he'
      exact htells
  · rw [ofOverrides, ofOverrides, h.resolve_eq]

/-- Variables that misspell the width and the layout, and one whose value is no text. -/
def garbled : Environment where
  entries := [("ORMJOIN_JOIN_NUM", "wide".toUTF8), ("ORMJOIN_PRETTY", "maybe".toUTF8), ("ORMJOIN_PACKAGE", ⟨#[255]⟩)]

/-- Flags for the width and the layout. -/
def firmFlags : Overrides := ⟨none, none, none, some 3, true⟩

/-- A flag for the width alone. -/
def widthFlag : Overrides := ⟨none, none, none, some 3, false⟩

theorem garbled_silent : garbled.Silent "ORMJOIN_PACKAGE" := by
  rw [← Environment.text?_eq_none_iff]
  decide

theorem garbled_misspells : garbled.MisspellsWidth := by
  refine ⟨"wide", rfl, fun n hn => ?_⟩
  have hread := Numeral.ofText_eq_ok_iff.2 hn
  cases hread

theorem garbled_indistinguishable : firmFlags.Indistinguishable garbled .empty := by
  intro name
  by_cases hwidth : name = "ORMJOIN_JOIN_NUM"
  · subst hwidth
    exact .inl (by simp [Overrides.Shadows, firmFlags])
  by_cases hlayout : name = "ORMJOIN_PRETTY"
  · subst hlayout
    exact .inl (by simp [Overrides.Shadows, firmFlags])
  by_cases hpackage : name = "ORMJOIN_PACKAGE"
  · subst hpackage
    exact .inr (.inr ⟨garbled_silent, fun t => nofun⟩)
  · refine .inr (.inl ?_)
    simp [Environment.value?, garbled, Environment.empty, Ne.symm hwidth, Ne.symm hlayout, Ne.symm hpackage]

/-- With both flags the garbled environment is as good as none; without them the width is told of first, and with the
flag for the width alone the layout is. -/
theorem garbled_shadowed : firmFlags.Indistinguishable garbled .empty ∧
    ofOverrides firmFlags garbled = ofOverrides firmFlags .empty ∧
    (Overrides.empty.MissesWidth garbled ∧
      ∃ e, Overrides.empty.resolve garbled = .error e ∧ garbled.TellsOf "ORMJOIN_JOIN_NUM" e) ∧
    ¬ widthFlag.MissesWidth garbled ∧
      ∃ e, widthFlag.resolve garbled = .error e ∧ garbled.TellsOf "ORMJOIN_PRETTY" e := by
  obtain ⟨_, _, _, hsame⟩ := ofOverrides_noninterfering firmFlags garbled
  obtain ⟨hfails, htells, _, _⟩ := ofOverrides_noninterfering .empty garbled
  obtain ⟨hfails', _, htells', _⟩ := ofOverrides_noninterfering widthFlag garbled
  have hmisses : Overrides.empty.MissesWidth garbled := ⟨rfl, garbled_misspells⟩
  have hgiven : ¬ widthFlag.MissesWidth garbled := fun h => by cases h.1
  obtain ⟨e, he⟩ := hfails.2 (.inl hmisses)
  obtain ⟨e', he'⟩ := hfails'.2 (.inr ⟨rfl, "maybe", rfl, by decide, by decide⟩)
  exact ⟨garbled_indistinguishable, (hsame _ garbled_indistinguishable).2, ⟨hmisses, e, he, htells e he hmisses⟩,
    hgiven, e', he', htells' e' he' hgiven⟩

end Settings
end JoinShapes
