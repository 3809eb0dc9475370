import JoinShapes.Yaml.Layout
import JoinShapes.Yaml.Properties

/-!
# From YAML text to tokens

`Token.scan` reads a whole text. Between tokens it passes blanks, comments and line ends; what the next character means
depends on whether the text is inside brackets and whether a key may start.
-/

namespace JoinShapes
namespace Yaml
namespace Token

/-- Passes blanks, comments, line ends and byte order marks at the start of lines. Outside brackets a new line allows a
key, and tabs may not indent one. -/
def skipToToken (l : Layout) (c : Cursor) : Layout × Cursor :=
  match _hb : c.break? with
  | some (_, d) => skipToToken (if l.isFlow then l else l.allowKey true) d
  | none =>
    match _hr : c.rest with
    | [] => (l, c)
    | x :: xs =>
      if x == '\ufeff' && c.column == 0 || x == ' ' || x == '\t' && (l.isFlow || !l.allowsKey) then
        skipToToken l c.advance
      else if x == '#' then skipToToken l (c.advanceBy (1 + (xs.takeWhile fun y => !isBreak y).length))
      else (l, c)
termination_by c.rest.length
decreasing_by
  · exact Cursor.break?_lt _hb
  · exact Cursor.advance_lt (by simp [_hr])
  · exact Cursor.advanceBy_lt (by simp [_hr]) (by omega)

/-- Characters that start no plain scalar. -/
def isIndicator (c : Char) : Bool :=
  Scalar.isFlowIndicator c || ['-', '?', ':', '#', '&', '*', '!', '|', '>', '\'', '"', '%', '@', '\x60'].contains c

/-- Whether a plain scalar starts with this character. -/
def startsPlain (isFlow : Bool) (x : Char) (xs : List Char) : Bool :=
  !(isBlank x || isIndicator x) || x == '-' && !(xs.head?.any isBlank) ||
    !isFlow && (x == '?' || x == ':') && !endsWord xs

/-- A mark between documents. -/
def documentMark (l : Layout) (c : Cursor) (t : Token) : Option (Layout × Cursor) := do
  let l ← l.closeAll.dropPlace
  return ((l.allowKey false).push t, c.advanceBy 3)

/-- An opening bracket. -/
def openBracket (l : Layout) (c : Cursor) (t : Token) : Option (Layout × Cursor) := do
  let l ← l.savePlace c
  return ((l.openFlow.allowKey true).push t, c.advance)

/-- A closing bracket. -/
def closeBracket (l : Layout) (c : Cursor) (t : Token) : Option (Layout × Cursor) := do
  let l ← l.dropPlace
  return ((l.closeFlow.allowKey false).push t, c.advance)

/-- A node or one of its properties on one line, which may turn out to be a key. -/
def nodePart (l : Layout) (c : Cursor) (part : Option (Token × Cursor)) : Option (Layout × Cursor) := do
  let l ← l.savePlace c
  let (t, d) ← part
  return ((l.allowKey false).push t, d)

/-- A block scalar. -/
def blockScalar (l : Layout) (c : Cursor) (isFolded : Bool) : Option (Layout × Cursor) := do
  let l ← l.dropPlace
  let (text, d) ← Scalar.block isFolded l.least c
  return ((l.allowKey true).push (.scalar (if isFolded then .folded else .literal) text), d)

/-- A plain scalar. -/
def plainScalar (l : Layout) (c : Cursor) : Option (Layout × Cursor) := do
  let l ← l.savePlace c
  let (text, isBroken, d) ← Scalar.plain l.isFlow l.least c
  return ((l.allowKey isBroken).push (.scalar .plain text), d)

/-- The token that starts with the character `x`, with `xs` after it. -/
def next (l : Layout) (c : Cursor) (x : Char) (xs : List Char) : Option (Layout × Cursor) :=
  if c.column == 0 && x == '%' then do
    let l ← l.closeAll.dropPlace
    let (t, d) ← Properties.directive c
    return ((l.allowKey false).push t, d)
  else if c.column == 0 && startsDocument c.rest then documentMark l c .documentStart
  else if c.column == 0 && endsDocument c.rest then documentMark l c .documentEnd
  else if x == '[' then openBracket l c .flowSequenceStart
  else if x == '\x7b' then openBracket l c .flowMappingStart
  else if x == ']' then closeBracket l c .flowSequenceEnd
  else if x == '\x7d' then closeBracket l c .flowMappingEnd
  else if x == ',' then do
    let l ← l.dropPlace
    return ((l.allowKey true).push .flowEntry, c.advance)
  else if x == '-' && endsWord xs then (·, c.advance) <$> l.blockEntry c
  else if x == '?' && (l.isFlow || endsWord xs) then (·, c.advance) <$> l.key c
  else if x == ':' && (l.isFlow || endsWord xs) then (·, c.advance) <$> l.value c
  else if x == '*' then nodePart l c ((Properties.name c).map fun (n, d) => (.aliasOf n, d))
  else if x == '&' then nodePart l c ((Properties.name c).map fun (n, d) => (.anchor n, d))
  else if x == '!' then nodePart l c (Properties.tag l.isFlow c)
  else if x == '|' && !l.isFlow then blockScalar l c false
  else if x == '>' && !l.isFlow then blockScalar l c true
  else if x == '\'' then
    nodePart l c ((Scalar.single c).map fun (s, d) => (.scalar .singleQuoted s, d))
  else if x == '"' then
    nodePart l c ((Scalar.double c).map fun (s, d) => (.scalar .doubleQuoted s, d))
  else if startsPlain l.isFlow x xs then plainScalar l c
  else none

/-- Reads on from a place. Every token spends one unit of fuel and takes at least one character. -/
def scanFrom : Nat → Layout → Cursor → Option (Array Token)
  | 0, _, _ => none
  | fuel + 1, l, c => do
    let (l, c) := skipToToken l c
    let l ← l.dropStale c
    let l := l.closeTo c.column
    match c.rest with
    | [] => l.finish
    | x :: xs => do
      let (l, c) ← next l c x xs
      scanFrom fuel l c

/-- The tokens of a text. -/
def scan (text : String) : Option (List Token) :=
  let cs := text.toList
  if cs.all isAllowed then Array.toList <$> scanFrom (cs.length + 1) .start (.ofText cs) else none

end Token
end Yaml
end JoinShapes
