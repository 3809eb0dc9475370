import JoinShapes.Yaml.Cursor
import JoinShapes.Yaml.Folding

/-!
# Scalars in YAML text

The five ways to write a text in YAML: plain, in single or double quotes, and as a literal or folded block. Each
function reads one scalar from a place in the text and gives its value and the place after it, or nothing if the text
breaks the rules of the form.
-/

namespace JoinShapes
namespace Yaml

/-- How a scalar is written. -/
inductive ScalarStyle
  | plain
  | singleQuoted
  | doubleQuoted
  | literal
  | folded
deriving DecidableEq, Repr

namespace Scalar

/-! ## Plain scalars -/

/-- Indicators that end a plain scalar inside brackets. -/
def isFlowIndicator (c : Char) : Bool := c == ',' || c == '[' || c == ']' || c == '\x7b' || c == '\x7d'

/-- Whether a plain scalar cannot go on at this place, where a gap was just passed. -/
def endsAfterGap (isFlow : Bool) (indent : Nat) (c : Cursor) : Bool :=
  (!isFlow && c.column < indent) || c.startsWith '#' ||
    (c.column == 0 && (startsDocument c.rest || endsDocument c.rest))

/-- Whether a colon inside brackets stands where it may neither end a plain scalar nor be part of it. -/
def isStrayColon (isFlow : Bool) (x : Char) (xs : List Char) : Bool :=
  isFlow && x == ':' && (xs.head?.any fun y => isFlowIndicator y || y == '?')

/-- Whether this character ends a plain scalar. -/
def endsPlain (isFlow : Bool) (x : Char) (xs : List Char) : Bool :=
  (x == ':' && endsWord xs) || (isFlow && isFlowIndicator x)

/-- Reads on in a plain scalar; `indent` is the least column of its further lines. -/
def plainFrom (isFlow : Bool) (indent : Nat) (f : Folding) (inGap : Bool) (c : Cursor) : Option (Folding × Cursor) :=
  match _hb : c.break? with
  | some (b, d) => plainFrom isFlow indent (f.lineBreak b) true d
  | none =>
    match _hr : c.rest with
    | [] => some (f, c)
    | x :: xs =>
      if isBlank x then
        if f.broken && x == '\t' && c.column < indent then none
        else plainFrom isFlow indent (f.blank x) true c.advance
      else if inGap && endsAfterGap isFlow indent c then some (f, c)
      else if isStrayColon isFlow x xs then none
      else if endsPlain isFlow x xs then some (f, c)
      else plainFrom isFlow indent (f.char x) false c.advance
termination_by c.rest.length
decreasing_by
  · exact Cursor.break?_lt _hb
  · exact Cursor.advance_lt (by simp [_hr])
  · exact Cursor.advance_lt (by simp [_hr])

/-- A plain scalar: its text, whether a line ended behind it, and the place after it. -/
def plain (isFlow : Bool) (indent : Nat) (c : Cursor) : Option (String × Bool × Cursor) :=
  (plainFrom isFlow indent .empty false c).map fun (f, d) => (f.trimmed, f.broken, d)

/-! ## Quoted scalars -/

/-- Whether a line inside quotes starts like a document mark. -/
def isMarked (c : Cursor) : Bool := c.column == 0 && (startsDocument c.rest || endsDocument c.rest)

/-- Reads on in a scalar in single quotes. -/
def singleFrom (f : Folding) (c : Cursor) : Option (String × Cursor) :=
  if isMarked c then none else
  match _hb : c.break? with
  | some (b, d) => singleFrom (f.lineBreak b) d
  | none =>
    match _hr : c.rest with
    | [] => none
    | x :: xs =>
      if x == '\'' then
        if xs.head? == some '\'' then singleFrom (f.char '\'') (c.advanceBy 2)
        else some (f.full, c.advance)
      else singleFrom (if isBlank x then f.blank x else f.char x) c.advance
termination_by c.rest.length
decreasing_by
  · exact Cursor.break?_lt _hb
  · exact Cursor.advanceBy_lt (by simp [_hr]) (by omega)
  · exact Cursor.advance_lt (by simp [_hr])

/-- A scalar in single quotes. -/
def single (c : Cursor) : Option (String × Cursor) := singleFrom .empty c.advance

/-- The value of a hexadecimal digit. -/
def hexValue? (c : Char) : Option Nat :=
  if c.isDigit then some (c.toNat - 48)
  else if 'a' ≤ c ∧ c ≤ 'f' then some (c.toNat - 87)
  else if 'A' ≤ c ∧ c ≤ 'F' then some (c.toNat - 55)
  else none

/-- The character with the number that these hexadecimal digits spell. -/
def codePoint? (digits : List Char) : Option Char := do
  let value ← digits.foldlM (fun v d => return v * 16 + (← hexValue? d)) 0
  if h : value.isValidChar then return Char.ofNatAux value h else none

/-- The character of an escape of one letter. -/
def shortEscape? : Char → Option Char
  | '0' => some '\x00'
  | 'a' => some '\x07'
  | 'b' => some '\x08'
  | 't' => some '\t'
  | '\t' => some '\t'
  | 'n' => some '\n'
  | 'v' => some '\x0b'
  | 'f' => some '\x0c'
  | 'r' => some '\r'
  | 'e' => some '\x1b'
  | ' ' => some ' '
  | '"' => some '"'
  | '/' => some '/'
  | '\\' => some '\\'
  | 'N' => some '\u0085'
  | '_' => some '\u00a0'
  | 'L' => some '\u2028'
  | 'P' => some '\u2029'
  | _ => none

/-- The number of digits after an escape that gives a character by its number. -/
def numberLength? : Char → Option Nat
  | 'x' => some 2
  | 'u' => some 4
  | 'U' => some 8
  | _ => none

/-- The character of the escape whose letter comes first, and the length of the escape without its backslash. -/
def escape? : List Char → Option (Char × Nat)
  | [] => none
  | x :: xs =>
    match shortEscape? x, numberLength? x with
    | some c, _ => some (c, 1)
    | none, some n =>
      let digits := xs.take n
      if digits.length = n then (codePoint? digits).map fun c => (c, n + 1) else none
    | none, none => none

/-- Reads on in a scalar in double quotes. -/
def doubleFrom (f : Folding) (c : Cursor) : Option (String × Cursor) :=
  if isMarked c then none else
  match _hb : c.break? with
  | some (b, d) => doubleFrom (f.lineBreak b) d
  | none =>
    match _hr : c.rest with
    | [] => none
    | x :: xs =>
      if x == '"' then some (f.full, c.advance)
      else if x == '\\' then
        match _hn : c.advance.break? with
        | some (_, d) => doubleFrom f.join d
        | none =>
          match escape? xs with
          | none => none
          | some (e, n) => doubleFrom (f.char e) (c.advanceBy (n + 1))
      else doubleFrom (if isBlank x then f.blank x else f.char x) c.advance
termination_by c.rest.length
decreasing_by
  · exact Cursor.break?_lt _hb
  · exact Nat.lt_trans (Cursor.break?_lt _hn) (Cursor.advance_lt (by simp [_hr]))
  · exact Cursor.advanceBy_lt (by simp [_hr]) (by omega)
  · exact Cursor.advance_lt (by simp [_hr])

/-- A scalar in double quotes. -/
def double (c : Cursor) : Option (String × Cursor) := doubleFrom .empty c.advance

/-! ## Block scalars -/

/-- What becomes of the line breaks at the end of a block. -/
inductive Chomping
  | strip
  | clip
  | keep

/-- The header of a block: chomping, the depth of indentation if it is given, and the place after both. -/
def blockHeader (c : Cursor) : Option (Chomping × Option Nat × Cursor) :=
  let chomping? (c : Cursor) : Option Chomping :=
    if c.startsWith '+' then some .keep else if c.startsWith '-' then some .strip else none
  let depth? (c : Cursor) : Option Nat :=
    match c.rest with
    | x :: _ => if x.isDigit then some (x.toNat - 48) else none
    | [] => none
  let (chomping, depth, d) :=
    match chomping? c, depth? c with
    | some k, _ =>
      match depth? c.advance with
      | some n => (k, some n, c.advanceBy 2)
      | none => (k, none, c.advance)
    | none, some n =>
      match chomping? c.advance with
      | some k => (k, some n, c.advanceBy 2)
      | none => (.clip, some n, c.advance)
    | none, none => (.clip, none, c)
  if depth = some 0 then none else some (chomping, depth, d)

/-- The rest of a line that holds nothing but blanks and a comment. -/
def restOfLine (c : Cursor) : Option Cursor :=
  let c := c.skip isBlank
  let c := if c.startsWith '#' then c.skip fun x => !isBreak x else c
  if endsLine c.rest then some ((c.break?.map (·.2)).getD c) else none

/-- Passes blank lines and indentation up to column `indent`, or all of it while `indent` is zero. Gives the greatest
column that was reached and the line breaks, in reverse. -/
def blockBreaks (indent widest : Nat) (breaks : List Char) (c : Cursor) : Option (Nat × List Char × Cursor) :=
  match _hr : c.rest with
  | [] => some (max widest c.column, breaks, c)
  | x :: _ =>
    if x == ' ' && (indent == 0 || c.column < indent) then blockBreaks indent widest breaks c.advance
    else if x == '\t' && (indent == 0 || c.column < indent) then none
    else
      match _hb : c.break? with
      | some (b, d) => blockBreaks indent (max widest c.column) (b :: breaks) d
      | none => some (max widest c.column, breaks, c)
termination_by c.rest.length
decreasing_by
  · exact Cursor.advance_lt (by simp [_hr])
  · exact Cursor.break?_lt _hb

/-- The lines of a block so far. Texts are in reverse. -/
structure Block where
  text : List Char
  /-- The break after the last line. -/
  lastBreak : Option Char
  /-- The breaks of the blank lines after it. -/
  blankLines : List Char
  /-- Whether the last line starts with a blank. -/
  isSpaced : Bool

namespace Block

/-- The text up to a next line, which starts with a blank or not. -/
def upTo (b : Block) (isFolded isSpaced : Bool) : List Char :=
  if isFolded && b.lastBreak == some '\n' && !b.isSpaced && !isSpaced then
    b.blankLines ++ (if b.blankLines.isEmpty then ' ' :: b.text else b.text)
  else b.blankLines ++ (b.lastBreak.toList ++ b.text)

/-- The text of all lines. -/
def finish (b : Block) (chomping : Chomping) : String :=
  String.ofList (List.reverse <| match chomping with
    | .strip => b.text
    | .clip => b.lastBreak.toList ++ b.text
    | .keep => b.blankLines ++ (b.lastBreak.toList ++ b.text))

end Block

/-- Reads the lines of a block at column `indent`. Every line spends one unit of fuel and takes at least one
character. -/
def blockLines (isFolded : Bool) (indent : Nat) : Nat → Block → Cursor → Option (Block × Cursor)
  | 0, _, _ => none
  | fuel + 1, b, c =>
    if c.column ≠ indent ∨ c.rest.isEmpty then some (b, c) else do
      let isSpaced := c.rest.head?.any isBlank
      let (line, d) := c.span fun x => !isBreak x
      let text := line.reverse ++ b.upTo isFolded isSpaced
      let (lastBreak, d) := match d.break? with
        | some (x, e) => (some x, e)
        | none => (none, d)
      let (_, blankLines, d) ← blockBreaks indent 0 [] d
      blockLines isFolded indent fuel ⟨text, lastBreak, blankLines, isSpaced⟩ d

/-- A block scalar; `least` is the least column of its lines. -/
def block (isFolded : Bool) (least : Nat) (c : Cursor) : Option (String × Cursor) := do
  let (chomping, depth, c) ← blockHeader c.advance
  let c ← restOfLine c
  let given := match depth with
    | some n => if least = 0 then n else least - 1 + n
    | none => 0
  let (widest, blankLines, c) ← blockBreaks given 0 [] c
  let indent := if given = 0 then max 1 (max widest least) else given
  let (b, c) ← blockLines isFolded indent (c.rest.length + 1) ⟨[], none, blankLines, false⟩ c
  return (b.finish chomping, c)

end Scalar
end Yaml
end JoinShapes
