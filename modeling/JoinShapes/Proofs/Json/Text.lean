import JoinShapes.Json.Parse
import JoinShapes.Json.Render
import JoinShapes.Proofs.Json.Scan

/-!
# JSON text reads back

Both layouts of a value space out the same tokens (`spaced_compact`, `spaced_layout`), and the reader builds the value
from its tokens whatever containers are open around it (`read_tokens`). So a value with legible tokens is what its text
spells, in either layout (`parse?_compact`, `parse?_pretty`).
-/

namespace JoinShapes
namespace Json

open Token

variable {ts : List Token} {cs : List Char} {v : Json}

/-! ## The layouts -/

theorem ends_break {c : Char} (h : isBreak c = true) (cs : List Char) : Ends (c :: cs) := by
  rintro _ ⟨⟩
  exact h

/-- Any run of blanks may stand before a spaced text. -/
theorem Token.Spaced.blanks {bs : List Char} (hbs : ∀ c ∈ bs, isBlank c = true) (h : Spaced ts cs) :
    Spaced ts (bs ++ cs) := by
  induction bs with
  | nil => exact h
  | cons c bs ih => exact .blank (hbs c List.mem_cons_self) (ih fun d hd => hbs d (List.mem_cons_of_mem c hd))

/-- A field stands before its value, with or without blanks after the colon. -/
theorem Token.Spaced.field (name : String) (bs : List Char) (hbs : ∀ c ∈ bs, isBlank c = true) (h : Spaced ts cs) :
    Spaced (.text name :: .colon :: ts) (quote name ++ ':' :: (bs ++ cs)) :=
  .token (.text name) nofun (.token .colon nofun (h.blanks hbs))

mutual

/-- **Without blanks** the text of a value holds its tokens, if a break follows. -/
theorem spaced_compact : ∀ (v : Json) {ts : List Token} {cs : List Char}, Ends cs → Spaced ts cs →
    Spaced (v.tokens ++ ts) (v.tokens.flatMap spell ++ cs)
  | null, _, _, hcs, h => .token .null (fun _ => hcs) h
  | bool b, _, cs, hcs, h => by
    rw [tokens, List.flatMap_singleton]
    exact .token (.bool b) (fun _ => hcs) h
  | nat n, _, cs, hcs, h => by
    rw [tokens, List.flatMap_singleton]
    exact .token (.natural n) (fun _ => hcs) h
  | numeral s, _, cs, hcs, h => by
    rw [tokens, List.flatMap_singleton]
    exact .token (.numeral s) (fun _ => hcs) h
  | str s, _, cs, _, h => by
    rw [tokens, List.flatMap_singleton]
    exact .token (.text s) nofun h
  | arr [], _, _, _, h => .token .openArray nofun (.token .closeArray nofun h)
  | arr (v :: vs), ts, cs, _, h => by
    obtain ⟨hends, hitems⟩ := spaced_compactItems vs h
    simp only [tokens, List.flatMap_cons, List.flatMap_append, List.append_assoc, List.cons_append]
    exact .token .openArray nofun (spaced_compact v hends hitems)
  | obj [], _, _, _, h => .token .openObject nofun (.token .closeObject nofun h)
  | obj ((name, v) :: fs), ts, cs, _, h => by
    obtain ⟨hends, hfields⟩ := spaced_compactFields fs h
    have hfield := (spaced_compact v hends hfields).field name [] nofun
    simp only [tokens, List.flatMap_cons, List.flatMap_append, List.append_assoc, List.cons_append]
    exact .token .openObject nofun hfield

theorem spaced_compactItems : ∀ (vs : List Json) {ts : List Token} {cs : List Char}, Spaced ts cs →
    Ends ((itemTokens vs).flatMap spell ++ cs) ∧ Spaced (itemTokens vs ++ ts) ((itemTokens vs).flatMap spell ++ cs)
  | [], _, _, h => ⟨ends_break rfl _, .token .closeArray nofun h⟩
  | v :: vs, ts, cs, h => by
    obtain ⟨hends, hitems⟩ := spaced_compactItems vs h
    simp only [itemTokens, List.flatMap_cons, List.flatMap_append, List.append_assoc, List.cons_append]
    exact ⟨ends_break rfl _, .token .comma nofun (spaced_compact v hends hitems)⟩

theorem spaced_compactFields : ∀ (fs : List (String × Json)) {ts : List Token} {cs : List Char}, Spaced ts cs →
    Ends ((fieldTokens fs).flatMap spell ++ cs) ∧
      Spaced (fieldTokens fs ++ ts) ((fieldTokens fs).flatMap spell ++ cs)
  | [], _, _, h => ⟨ends_break rfl _, .token .closeObject nofun h⟩
  | (name, v) :: fs, ts, cs, h => by
    obtain ⟨hends, hfields⟩ := spaced_compactFields fs h
    have hfield := (spaced_compact v hends hfields).field name [] nofun
    simp only [fieldTokens, List.flatMap_cons, List.flatMap_append, List.append_assoc, List.cons_append]
    exact ⟨ends_break rfl _, .token .comma nofun hfield⟩

end

theorem isBlank_of_mem_newLine (level : Nat) : ∀ c ∈ newLine level, isBlank c = true := by
  intro c hc
  rcases List.mem_cons.mp hc with rfl | hc
  · rfl
  · rw [List.eq_of_mem_replicate hc]
    rfl

mutual

/-- **Laid out on lines** the text of a value holds its tokens too, at every level of nesting. -/
theorem spaced_layout (level : Nat) : ∀ (v : Json) {ts : List Token} {cs : List Char}, Ends cs → Spaced ts cs →
    Spaced (v.tokens ++ ts) (layout level v ++ cs)
  | null, _, _, hcs, h => .token .null (fun _ => hcs) h
  | bool b, _, _, hcs, h => .token (.bool b) (fun _ => hcs) h
  | nat n, _, _, hcs, h => .token (.natural n) (fun _ => hcs) h
  | numeral s, _, _, hcs, h => .token (.numeral s) (fun _ => hcs) h
  | str s, _, _, _, h => .token (.text s) nofun h
  | arr [], _, _, _, h => .token .openArray nofun (.token .closeArray nofun h)
  | arr (v :: vs), ts, cs, _, h => by
    obtain ⟨hends, hitems⟩ := spaced_layoutItems level vs h
    have hline := (spaced_layout (level + 1) v hends hitems).blanks (isBlank_of_mem_newLine (level + 1))
    simp only [tokens, layout, List.append_assoc, List.cons_append]
    exact .token .openArray nofun hline
  | obj [], _, _, _, h => .token .openObject nofun (.token .closeObject nofun h)
  | obj ((name, v) :: fs), ts, cs, _, h => by
    obtain ⟨hends, hfields⟩ := spaced_layoutFields level fs h
    have hfield := (spaced_layout (level + 1) v hends hfields).field name [' '] (List.forall_mem_singleton.mpr rfl)
    have hline := hfield.blanks (isBlank_of_mem_newLine (level + 1))
    simp only [tokens, layout, List.append_assoc, List.cons_append]
    exact .token .openObject nofun hline

theorem spaced_layoutItems (level : Nat) : ∀ (vs : List Json) {ts : List Token} {cs : List Char}, Spaced ts cs →
    Ends (layoutItems level vs ++ cs) ∧ Spaced (itemTokens vs ++ ts) (layoutItems level vs ++ cs)
  | [], ts, cs, h => by
    have hline := (Spaced.token .closeArray nofun h).blanks (isBlank_of_mem_newLine level)
    rw [layoutItems, List.append_assoc]
    exact ⟨ends_break rfl _, hline⟩
  | v :: vs, ts, cs, h => by
    obtain ⟨hends, hitems⟩ := spaced_layoutItems level vs h
    have hline := (spaced_layout (level + 1) v hends hitems).blanks (isBlank_of_mem_newLine (level + 1))
    simp only [itemTokens, layoutItems, List.append_assoc, List.cons_append]
    exact ⟨ends_break rfl _, .token .comma nofun hline⟩

theorem spaced_layoutFields (level : Nat) : ∀ (fs : List (String × Json)) {ts : List Token} {cs : List Char},
    Spaced ts cs → Ends (layoutFields level fs ++ cs) ∧ Spaced (fieldTokens fs ++ ts) (layoutFields level fs ++ cs)
  | [], ts, cs, h => by
    have hline := (Spaced.token .closeObject nofun h).blanks (isBlank_of_mem_newLine level)
    rw [layoutFields, List.append_assoc]
    exact ⟨ends_break rfl _, hline⟩
  | (name, v) :: fs, ts, cs, h => by
    obtain ⟨hends, hfields⟩ := spaced_layoutFields level fs h
    have hfield := (spaced_layout (level + 1) v hends hfields).field name [' '] (List.forall_mem_singleton.mpr rfl)
    have hline := hfield.blanks (isBlank_of_mem_newLine (level + 1))
    simp only [fieldTokens, layoutFields, List.append_assoc, List.cons_append]
    exact ⟨ends_break rfl _, .token .comma nofun hline⟩

end

/-! ## Reading tokens -/

/-- What a reader makes of tokens. -/
def read (s : Reading) (ts : List Token) : Option Reading := ts.foldlM Reading.step s

theorem read_cons {s : Reading} {t : Token} (s' : Reading) (h : s.step t = some s') :
    read s (t :: ts) = read s' ts := by
  simp only [read, List.foldlM_cons, h, Option.bind_eq_bind, Option.bind_some]

/-- The first item of an array is read as every other one. -/
theorem read_firstItem (v : Json) (frames : List Frame) (ts : List Token) :
    read (.firstItem frames) (v.tokens ++ ts) = read (.value (.array [] :: frames)) (v.tokens ++ ts) := by
  cases v with
  | arr items => cases items <;> rfl
  | obj fields => cases fields <;> rfl
  | null | bool b | nat n | numeral s | str s => rfl

mutual

/-- **The tokens of a value** hand the value to the innermost open container. -/
theorem read_tokens : ∀ (v : Json) (frames : List Frame) (ts : List Token),
    read (.value frames) (v.tokens ++ ts) = read (.deliver v frames) ts
  | null, _, _ | bool _, _, _ | nat _, _, _ | numeral _, _, _ | str _, _, _ => rfl
  | arr [], _, _ => rfl
  | arr (v :: vs), frames, ts => by
    rw [tokens, List.cons_append, List.append_assoc, read_cons (.firstItem frames) rfl, read_firstItem,
      read_tokens v (.array [] :: frames), Reading.deliver, read_itemTokens vs [v]]
    rfl
  | obj [], _, _ => rfl
  | obj ((name, v) :: fs), frames, ts => by
    rw [tokens, List.cons_append, List.cons_append, List.cons_append, List.append_assoc,
      read_cons (.firstField frames) rfl, read_cons (.colon [] name frames) rfl,
      read_cons (.value (.object [] name :: frames)) rfl, read_tokens v, Reading.deliver,
      read_fieldTokens fs [(name, v)]]
    rfl

/-- The remaining items complete an array. -/
theorem read_itemTokens : ∀ (vs items : List Json) (frames : List Frame) (ts : List Token),
    read (.afterItem items frames) (itemTokens vs ++ ts) = read (.deliver (arr (items.reverse ++ vs)) frames) ts
  | [], items, frames, ts => by
    rw [itemTokens, List.append_nil]
    exact read_cons _ rfl
  | v :: vs, items, frames, ts => by
    rw [itemTokens, List.cons_append, List.append_assoc, read_cons (.value (.array items :: frames)) rfl,
      read_tokens v, Reading.deliver, read_itemTokens vs (v :: items), List.reverse_cons, List.append_assoc]
    rfl

/-- The remaining fields complete an object. -/
theorem read_fieldTokens : ∀ (fs fields : List (String × Json)) (frames : List Frame) (ts : List Token),
    read (.afterField fields frames) (fieldTokens fs ++ ts) = read (.deliver (obj (fields.reverse ++ fs)) frames) ts
  | [], fields, frames, ts => by
    rw [fieldTokens, List.append_nil]
    exact read_cons _ rfl
  | (name, v) :: fs, fields, frames, ts => by
    rw [fieldTokens, List.cons_append, List.cons_append, List.cons_append, List.append_assoc,
      read_cons (.fieldName fields frames) rfl, read_cons (.colon fields name frames) rfl,
      read_cons (.value (.object fields name :: frames)) rfl, read_tokens v, Reading.deliver,
      read_fieldTokens fs ((name, v) :: fields), List.reverse_cons, List.append_assoc]
    rfl

end

theorem ofTokens?_tokens (v : Json) : ofTokens? v.tokens = some v := by
  have h : read (.value []) v.tokens = some (.done v) := by
    have hread := read_tokens v [] []
    rw [List.append_nil] at hread
    exact hread
  rw [ofTokens?, ← read, h]

/-! ## Reading text -/

/-- No numeral of the value is other than a number. -/
def Legible (v : Json) : Prop := ∀ t ∈ v.tokens, t.Legible

/-- **Any spacing of the tokens of a value** is read as the value. -/
theorem parse?_of_spaced (hv : v.Legible) (h : Spaced v.tokens cs) : parse? (String.ofList cs) = some v := by
  rw [parse?, String.toList_ofList, scan_of_spaced h hv]
  exact ofTokens?_tokens v

theorem parse?_compact (hv : v.Legible) : parse? v.compact = some v := by
  have h : Spaced (v.tokens ++ []) (v.tokens.flatMap spell ++ []) := spaced_compact v nofun .nil
  rw [List.append_nil, List.append_nil] at h
  exact parse?_of_spaced hv h

theorem parse?_pretty (hv : v.Legible) : parse? v.pretty = some v := by
  have h : Spaced (v.tokens ++ []) (v.layout 0 ++ []) := spaced_layout 0 v nofun .nil
  rw [List.append_nil, List.append_nil] at h
  exact parse?_of_spaced hv h

end Json
end JoinShapes
