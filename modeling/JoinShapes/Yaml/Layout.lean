import JoinShapes.Yaml.Token

/-!
# The layout of YAML text

The meaning of indentation and of keys that are only known to be keys when their colon comes. A `Layout` holds the
tokens so far, the columns of the open blocks, and for every level of brackets the last place that a key may have
started at. When a colon comes, the key token is put in front of what stands at that place.
-/

namespace JoinShapes
namespace Yaml

/-- A place that may turn out to start a key. -/
structure KeyPlace where
  /-- The number of tokens before it. -/
  position : Nat
  /-- Whether nothing but a key may start here. -/
  isRequired : Bool
  index : Nat
  line : Nat
  column : Nat

/-- Tokens so far and what the layout rules need to know. -/
structure Layout where
  tokens : Array Token
  /-- The columns of the open blocks, the innermost first. -/
  blocks : List Nat
  /-- For every level of brackets, the innermost first: where a key may have started. -/
  places : List (Option KeyPlace)
  /-- Whether a key may start here without an indicator. -/
  allowsKey : Bool

namespace Layout

/-- At the start of a text. -/
def start : Layout := ⟨#[], [], [none], true⟩

/-- Whether the text is inside brackets. -/
def isFlow (l : Layout) : Bool := 1 < l.places.length

/-- The least column of text inside the innermost block. -/
def least (l : Layout) : Nat :=
  match l.blocks with
  | [] => 0
  | column :: _ => column + 1

def push (l : Layout) (t : Token) : Layout := { l with tokens := l.tokens.push t }

def allowKey (l : Layout) (allows : Bool) : Layout := { l with allowsKey := allows }

/-- Gives up places that are too far back; a place that has to be a key is not given up. -/
def dropStale (l : Layout) (c : Cursor) : Option Layout := do
  let places ← l.places.mapM fun place =>
    match place with
    | some p =>
      if p.line < c.line || p.index + 1024 < c.index then if p.isRequired then none else some none
      else some place
    | none => some none
  return { l with places := places }

/-- Gives up the place of the innermost level. -/
def dropPlace (l : Layout) : Option Layout :=
  match l.places with
  | some p :: places => if p.isRequired then none else some { l with places := none :: places }
  | _ => some l

/-- Remembers that a key may start here. -/
def savePlace (l : Layout) (c : Cursor) : Option Layout := do
  if !l.allowsKey then return l
  let l ← l.dropPlace
  let isRequired := !l.isFlow && l.blocks.head? == some c.column
  return { l with places := some ⟨l.tokens.size, isRequired, c.index, c.line, c.column⟩ :: l.places.tail }

/-- Opens brackets. -/
def openFlow (l : Layout) : Layout := { l with places := none :: l.places }

/-- Closes brackets. -/
def closeFlow (l : Layout) : Layout := if l.isFlow then { l with places := l.places.tail } else l

/-- Opens a block at a column further in than the innermost one; its token goes to `position`. -/
def openBlock (l : Layout) (column position : Nat) (t : Token) : Layout :=
  if l.isFlow || column < l.least then l
  else { l with blocks := column :: l.blocks, tokens := l.tokens.insertIdxIfInBounds position t }

/-- Closes blocks: the columns that stay, and the number of the others. -/
def splitBlocks (stays : Nat → Bool) : List Nat → List Nat × Nat
  | [] => ([], 0)
  | column :: columns =>
    if stays column then (column :: columns, 0)
    else let (rest, n) := splitBlocks stays columns; (rest, n + 1)

/-- Closes the blocks that do not stay. -/
def closeBlocks (l : Layout) (stays : Nat → Bool) : Layout :=
  if l.isFlow then l
  else
    let (blocks, n) := splitBlocks stays l.blocks
    { l with blocks := blocks, tokens := l.tokens ++ Array.replicate n Token.blockEnd }

/-- Closes the blocks further in than a column. -/
def closeTo (l : Layout) (column : Nat) : Layout := l.closeBlocks (· ≤ column)

/-- Closes all blocks. -/
def closeAll (l : Layout) : Layout := l.closeBlocks fun _ => false

/-- An entry of a block sequence. -/
def blockEntry (l : Layout) (c : Cursor) : Option Layout := do
  if !l.isFlow && !l.allowsKey then none
  let l ← (l.openBlock c.column l.tokens.size .blockSequenceStart).dropPlace
  return (l.allowKey true).push .blockEntry

/-- A key that is marked as one. -/
def key (l : Layout) (c : Cursor) : Option Layout := do
  if !l.isFlow && !l.allowsKey then none
  let l ← (l.openBlock c.column l.tokens.size .blockMappingStart).dropPlace
  return (l.allowKey !l.isFlow).push .key

/-- The colon between a key and its value. -/
def value (l : Layout) (c : Cursor) : Option Layout :=
  match l.places with
  | some p :: places =>
    let l := { l with tokens := l.tokens.insertIdxIfInBounds p.position .key, places := none :: places }
    some (((l.openBlock p.column p.position .blockMappingStart).allowKey false).push .value)
  | _ =>
    if !l.isFlow && !l.allowsKey then none
    else
      let l := l.openBlock c.column l.tokens.size .blockMappingStart
      some ((l.allowKey !l.isFlow).push .value)

/-- The end of the text. -/
def finish (l : Layout) : Option (Array Token) := (·.tokens) <$> l.closeAll.dropPlace

end Layout
end Yaml
end JoinShapes
