/-!
# Places in YAML text

The character classes of YAML and a cursor: the text from a place on, with the place itself counted in octets, lines
and columns. A carriage return with its line feed is one line break.
-/

namespace JoinShapes
namespace Yaml

/-- Characters that may occur in YAML text. -/
def isAllowed (c : Char) : Bool :=
  c == '\t' || c == '\n' || c == '\r' || (' ' ≤ c && c ≤ '~') || c == '\u0085' ||
    ('\u00a0' ≤ c && c ≤ '\ud7ff') || ('\ue000' ≤ c && c ≤ '\ufffd') || '\ufffd' < c && 0xFFFF < c.toNat

/-- Space and tab. -/
def isBlank (c : Char) : Bool := c == ' ' || c == '\t'

/-- Characters that end a line. -/
def isBreak (c : Char) : Bool :=
  c == '\n' || c == '\r' || c == '\u0085' || c == '\u2028' || c == '\u2029'

/-- What stands for a line break in a value: the separators of Unicode stay, all others become a line feed. -/
def breakText (c : Char) : Char := if c == '\u2028' || c == '\u2029' then c else '\n'

/-- Characters of anchors, directive names and tag handles. -/
def isWordChar (c : Char) : Bool := c.isAlphanum || c == '_' || c == '-'

/-- Whether the text ends, or goes on with a blank or a line break. -/
def endsWord : List Char → Bool
  | [] => true
  | c :: _ => isBlank c || isBreak c

/-- Whether the text ends or a line does. -/
def endsLine : List Char → Bool
  | [] => true
  | c :: _ => isBreak c

/-- Whether the text goes on with three hyphens that stand alone. -/
def startsDocument : List Char → Bool
  | '-' :: '-' :: '-' :: cs => endsWord cs
  | _ => false

/-- Whether the text goes on with three dots that stand alone. -/
def endsDocument : List Char → Bool
  | '.' :: '.' :: '.' :: cs => endsWord cs
  | _ => false

/-- The number of octets of some characters. -/
def octets (cs : List Char) : Nat := cs.foldl (fun n c => n + c.utf8Size) 0

/-- A place in a text. -/
structure Cursor where
  rest : List Char
  /-- The octets before it. -/
  index : Nat
  line : Nat
  /-- The characters before it in its line. -/
  column : Nat

namespace Cursor

/-- The place at the beginning. -/
def ofText (text : List Char) : Cursor := ⟨text, 0, 0, 0⟩

/-- Goes on by some characters of a line. -/
def advanceBy (c : Cursor) (n : Nat) : Cursor :=
  { c with rest := c.rest.drop n, index := c.index + octets (c.rest.take n), column := c.column + n }

/-- Goes on by one character of a line. -/
def advance (c : Cursor) : Cursor := c.advanceBy 1

/-- Goes on to the next line. -/
def nextLine (c : Cursor) (width : Nat) : Cursor :=
  ⟨c.rest.drop width, c.index + octets (c.rest.take width), c.line + 1, 0⟩

/-- The line break at this place and the line after it. -/
def break? (c : Cursor) : Option (Char × Cursor) :=
  match c.rest with
  | [] => none
  | x :: xs =>
    if x == '\r' && xs.head? == some '\n' then some ('\n', c.nextLine 2)
    else if isBreak x then some (breakText x, c.nextLine 1)
    else none

/-- The longest run of characters of one kind, and the place after it; the kind has no line breaks. -/
def span (c : Cursor) (p : Char → Bool) : List Char × Cursor :=
  let run := c.rest.takeWhile p
  (run, c.advanceBy run.length)

/-- The place after all characters of one kind. -/
def skip (c : Cursor) (p : Char → Bool) : Cursor := (c.span p).2

/-- Whether the text goes on with this character. -/
def startsWith (c : Cursor) (x : Char) : Bool := c.rest.head? == some x

theorem advanceBy_lt {c : Cursor} {n : Nat} (h : c.rest ≠ []) (hn : 0 < n) :
    (c.advanceBy n).rest.length < c.rest.length := by
  have := List.length_pos_iff.2 h
  simp only [advanceBy, List.length_drop]
  omega

theorem advance_lt {c : Cursor} (h : c.rest ≠ []) : c.advance.rest.length < c.rest.length :=
  advanceBy_lt h Nat.one_pos

theorem break?_lt {c d : Cursor} {x : Char} (h : c.break? = some (x, d)) : d.rest.length < c.rest.length := by
  unfold break? at h
  split at h
  · cases h
  · rename_i y ys hr
    split at h
    · cases h
      simp only [nextLine, hr, List.length_drop, List.length_cons]
      omega
    · split at h
      · cases h
        simp only [nextLine, hr, List.length_drop, List.length_cons]
        omega
      · cases h

end Cursor
end Yaml
end JoinShapes
