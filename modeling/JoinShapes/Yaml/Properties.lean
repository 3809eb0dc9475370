import JoinShapes.Yaml.Token

/-!
# Directives, anchors and tags

The parts of YAML text that describe a document or a node instead of being one. Each function reads one of them from a
place in the text.
-/

namespace JoinShapes
namespace Yaml
namespace Properties

/-! ## Anchors -/

/-- Whether a name may end at this place. -/
def endsName (cs : List Char) : Bool :=
  endsWord cs || cs.head?.any fun c =>
    c == '?' || c == ':' || c == ',' || c == ']' || c == '\x7d' || c == '%' || c == '@' || c == '\x60'

/-- The name behind the indicator of an anchor or an alias. -/
def name (c : Cursor) : Option (String × Cursor) :=
  let (word, d) := c.advance.span isWordChar
  if word.isEmpty || !endsName d.rest then none else some (String.ofList word, d)

/-! ## Tags -/

/-- Characters of a tag; commas and brackets belong to it only where they cannot be mistaken for indicators. -/
def isTagChar (isWide : Bool) (c : Char) : Bool :=
  isWordChar c || [';', '/', '?', ':', '@', '&', '=', '+', '$', '.', '!', '~', '*', '\'', '(', ')'].contains c ||
    (isWide && (c == ',' || c == '[' || c == ']'))

/-- An octet written as a percent sign and two hexadecimal digits. -/
def octet? (cs : List Char) : Option Nat :=
  match cs with
  | '%' :: a :: b :: _ => do return (← Scalar.hexValue? a) * 16 + (← Scalar.hexValue? b)
  | _ => none

/-- The number of octets of a character, by the first. -/
def octetCount? (first : Nat) : Option Nat :=
  if first < 0x80 then some 1
  else if 0xC0 ≤ first ∧ first < 0xE0 then some 2
  else if 0xE0 ≤ first ∧ first < 0xF0 then some 3
  else if 0xF0 ≤ first ∧ first < 0xF8 then some 4
  else none

/-- The octets of one escaped character. -/
def octets? (cs : List Char) : Option (List Nat) := do
  let first ← octet? cs
  let count ← octetCount? first
  let more ← (List.range (count - 1)).mapM fun i => octet? (cs.drop (3 * (i + 1)))
  if more.all fun o => 0x80 ≤ o && o < 0xC0 then return first :: more else none

/-- Reads on in a tag. Escaped octets are kept one by one. -/
def tagTextFrom (isWide : Bool) (text : List Char) (c : Cursor) : Option (List Char × Cursor) :=
  match _hr : c.rest with
  | [] => some (text.reverse, c)
  | x :: _ =>
    if x == '%' then
      match octets? c.rest with
      | none => none
      | some os =>
        tagTextFrom isWide ((os.map Char.ofNat).reverse ++ text) (c.advanceBy (3 * (os.length - 1) + 3))
    else if isTagChar isWide x then tagTextFrom isWide (x :: text) c.advance
    else some (text.reverse, c)
termination_by c.rest.length
decreasing_by
  · exact Cursor.advanceBy_lt (by simp [_hr]) (by omega)
  · exact Cursor.advance_lt (by simp [_hr])

/-- What counts of the text of a tag: a null character ends it. -/
def beforeNull (text : List Char) : List Char := text.takeWhile (· != '\x00')

/-- The text of a tag, in which something has to be written. -/
def tagText (isWide : Bool) (c : Cursor) : Option (String × Cursor) := do
  let (text, d) ← tagTextFrom isWide [] c
  if text.isEmpty then none else return (String.ofList (beforeNull text), d)

/-- An exclamation mark, word characters, and a second exclamation mark if there is one. -/
def handle (c : Cursor) : Option (List Char × Cursor) :=
  if c.startsWith '!' then
    let (word, d) := c.advance.span isWordChar
    if d.startsWith '!' then some ('!' :: (word ++ ['!']), d.advance) else some ('!' :: word, d)
  else none

/-- Whether a handle is closed by a second exclamation mark. -/
def isClosed (h : List Char) : Bool := 1 < h.length && h.getLast? == some '!'

/-- A tag with the place after it. -/
def tag (isFlow : Bool) (c : Cursor) : Option (Token × Cursor) := do
  let (t, d) ←
    if c.advance.startsWith '<' then do
      let (text, d) ← tagText true (c.advanceBy 2)
      if d.startsWith '>' then some (Token.tag "" text, d.advance) else none
    else do
      let (h, d) ← handle c
      if isClosed h then
        let (text, d) ← tagText false d
        some (Token.tag (String.ofList h) text, d)
      else
        let (text, d) ← tagTextFrom false h.tail.reverse d
        let text := beforeNull text
        some (if text.isEmpty then Token.tag "" "!" else Token.tag "!" (String.ofList text), d)
  if (isFlow && d.startsWith ',') || endsWord d.rest then return (t, d) else none

/-! ## Directives -/

/-- A part of a version: at most nine digits. -/
def versionPart (c : Cursor) : Option (Nat × Cursor) :=
  let (digits, d) := c.span Char.isDigit
  if digits.isEmpty || 9 < digits.length then none else some (Nat.ofDigitChars 10 digits 0, d)

/-- The version in a directive. -/
def version (c : Cursor) : Option (Token × Cursor) := do
  let (major, d) ← versionPart (c.skip isBlank)
  if !d.startsWith '.' then none
  let (minor, d) ← versionPart d.advance
  return (.version major minor, d)

/-- The tag shorthand in a directive. -/
def tagShorthand (c : Cursor) : Option (Token × Cursor) := do
  let (h, d) ← handle (c.skip isBlank)
  if !isClosed h && h ≠ ['!'] then none
  if !(d.rest.head?.any isBlank) then none
  let (text, d) ← tagText true (d.skip isBlank)
  if endsWord d.rest then return (.tagShorthand (String.ofList h) text, d) else none

/-- A directive with the line it stands on. -/
def directive (c : Cursor) : Option (Token × Cursor) := do
  let (word, d) := c.advance.span isWordChar
  if word.isEmpty || !endsWord d.rest then none
  let (t, d) ←
    if word = ['Y', 'A', 'M', 'L'] then version d
    else if word = ['T', 'A', 'G'] then tagShorthand d
    else none
  return (t, ← Scalar.restOfLine d)

end Properties
end Yaml
end JoinShapes
