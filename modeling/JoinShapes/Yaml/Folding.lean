/-!
# Folded text

A value that runs over several lines is folded: blanks around a line break are dropped, a single break becomes a space,
and of several breaks all but the first stay. A `Folding` is the text so far and the gap after it, which is only
written once more text follows.
-/

namespace JoinShapes
namespace Yaml

/-- Folded text with a gap at its end. Texts are in reverse. -/
structure Folding where
  text : List Char
  /-- Blanks since the last character, while the line goes on. -/
  blanks : List Char
  /-- Whether the line ended since the last character. -/
  broken : Bool
  /-- The first line break of the gap. -/
  firstBreak : Option Char
  /-- The line breaks after the first. -/
  moreBreaks : List Char

namespace Folding

/-- No text and no gap. -/
def empty : Folding := ⟨[], [], false, none, []⟩

/-- What the gap is worth, in reverse. -/
def gap (f : Folding) : List Char :=
  if f.broken then
    match f.firstBreak with
    | some '\n' => if f.moreBreaks.isEmpty then [' '] else f.moreBreaks
    | some c => f.moreBreaks ++ [c]
    | none => f.moreBreaks
  else f.blanks

/-- The text with its gap. -/
def close (f : Folding) : Folding := ⟨f.gap ++ f.text, [], false, none, []⟩

/-- One more character. -/
def char (f : Folding) (c : Char) : Folding := { f.close with text := c :: f.close.text }

/-- A blank, which counts only if the line goes on. -/
def blank (f : Folding) (c : Char) : Folding := if f.broken then f else { f with blanks := c :: f.blanks }

/-- A line break. -/
def lineBreak (f : Folding) (c : Char) : Folding :=
  if f.broken then { f with moreBreaks := c :: f.moreBreaks }
  else { f with blanks := [], broken := true, firstBreak := some c }

/-- A line that goes on in the next line without a gap. -/
def join (f : Folding) : Folding := { f.close with broken := true }

/-- The text without the gap at its end. -/
def trimmed (f : Folding) : String := String.ofList f.text.reverse

/-- The text with the gap at its end. -/
def full (f : Folding) : String := f.close.trimmed

end Folding
end Yaml
end JoinShapes
