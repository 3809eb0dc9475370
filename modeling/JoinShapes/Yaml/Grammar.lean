import JoinShapes.Yaml.Node
import JoinShapes.Yaml.Tokens

/-!
# From YAML tokens to documents

The grammar of YAML as a reader by recursive descent. A reader takes the tokens that are left and gives what it read
and the tokens after it. Every call of a reader spends one unit of fuel; a call is followed by a token that is taken or
by the end of a collection, so that a few units per token are enough (`Document.parse?`).
-/

namespace JoinShapes
namespace Yaml
namespace Grammar

/-- What expands the handles of tags: those of the document first, then the two that are always known. -/
abbrev Handles := List (String × String)

/-- The handles that every document knows. -/
def standardHandles : Handles := [("!", "!"), ("!!", "tag:yaml.org,2002:")]

/-- The full text of a tag. -/
def expand? (handles : Handles) (handle suffix : String) : Option String :=
  if handle.isEmpty then some suffix
  else (handles.find? (·.1 == handle)).map fun (_, expansion) => expansion ++ suffix

/-- The anchor and the tag in front of a node, in either order. -/
def properties (handles : Handles) : List Token → Option ((Option String × Option String) × List Token)
  | .anchor a :: .tag h s :: ts => do return ((some a, some (← expand? handles h s)), ts)
  | .tag h s :: .anchor a :: ts => do return ((some a, some (← expand? handles h s)), ts)
  | .anchor a :: ts => some ((some a, none), ts)
  | .tag h s :: ts => do return ((none, some (← expand? handles h s)), ts)
  | ts => some ((none, none), ts)

/-- Whether a block entry is left empty before these tokens. -/
def endsBlockItem : List Token → Bool
  | .blockEntry :: _ | .key :: _ | .value :: _ | .blockEnd :: _ => true
  | _ => false

/-- Whether an item of a block sequence is left empty before these tokens. -/
def endsSequenceItem : List Token → Bool
  | .blockEntry :: _ | .blockEnd :: _ => true
  | _ => false

/-- Whether a key or value of a block mapping is left empty before these tokens. -/
def endsBlockField : List Token → Bool
  | .key :: _ | .value :: _ | .blockEnd :: _ => true
  | _ => false

/-- Where a node stands. -/
inductive Place
  /-- Inside brackets. -/
  | flow
  | block
  /-- Where a sequence may start without being further in. -/
  | field
deriving DecidableEq

mutual

/-- Reads a node. -/
def node (handles : Handles) (place : Place) : Nat → List Token → Option (Node String × List Token)
  | _, .aliasOf name :: ts => some (.aliasOf name, ts)
  | 0, _ => none
  | fuel + 1, ts => do
    let ((anchor, tag), ts) ← properties handles ts
    match ts with
    | .scalar style text :: ts => some (.scalar anchor tag style text, ts)
    | .flowSequenceStart :: ts => flowItems handles anchor fuel [] true ts
    | .flowMappingStart :: ts => flowEntries handles anchor fuel [] true ts
    | .blockEntry :: _ =>
      if place = .field then plainItems handles anchor fuel [] ts else leftOut anchor tag ts
    | .blockSequenceStart :: rest =>
      if place = .flow then leftOut anchor tag ts else blockItems handles anchor fuel [] rest
    | .blockMappingStart :: rest =>
      if place = .flow then leftOut anchor tag ts else blockEntries handles anchor fuel [] rest
    | _ => leftOut anchor tag ts

/-- A node of which there is only an anchor or a tag. -/
def leftOut (anchor tag : Option String) (ts : List Token) : Option (Node String × List Token) :=
  if anchor.isSome || tag.isSome then some (.scalar anchor tag .plain "", ts) else none

/-- Reads the items of a block sequence up to its end. Items so far are in reverse. -/
def blockItems (handles : Handles) (anchor : Option String) :
    Nat → List (Node String) → List Token → Option (Node String × List Token)
  | fuel + 1, items, .blockEntry :: ts => do
    if endsSequenceItem ts then blockItems handles anchor fuel (.blank :: items) ts
    else
      let (n, ts) ← node handles .block fuel ts
      blockItems handles anchor fuel (n :: items) ts
  | _, items, .blockEnd :: ts => some (.sequence anchor items.reverse, ts)
  | _, _, _ => none

/-- Reads the items of a block sequence that is no further in than its key. -/
def plainItems (handles : Handles) (anchor : Option String) :
    Nat → List (Node String) → List Token → Option (Node String × List Token)
  | 0, _, _ => none
  | fuel + 1, items, .blockEntry :: ts => do
    if endsBlockItem ts then plainItems handles anchor fuel (.blank :: items) ts
    else
      let (n, ts) ← node handles .block fuel ts
      plainItems handles anchor fuel (n :: items) ts
  | _, items, ts => some (.sequence anchor items.reverse, ts)

/-- Reads the entries of a block mapping up to its end. -/
def blockEntries (handles : Handles) (anchor : Option String) :
    Nat → List (Node String × Node String) → List Token → Option (Node String × List Token)
  | fuel + 1, entries, .key :: ts => do
    let (k, ts) ← if endsBlockField ts then some (.blank, ts) else node handles .field fuel ts
    let (v, ts) ← blockValue handles fuel ts
    blockEntries handles anchor fuel ((k, v) :: entries) ts
  | _, entries, .blockEnd :: ts => some (.mapping anchor entries.reverse, ts)
  | _, _, _ => none

/-- Reads the value of an entry of a block mapping, which may be left out. -/
def blockValue (handles : Handles) : Nat → List Token → Option (Node String × List Token)
  | fuel + 1, .value :: ts => if endsBlockField ts then some (.blank, ts) else node handles .field fuel ts
  | _, ts => some (.blank, ts)

/-- Reads the items of a sequence in brackets up to its end. -/
def flowItems (handles : Handles) (anchor : Option String) :
    Nat → List (Node String) → Bool → List Token → Option (Node String × List Token)
  | _, items, _, .flowSequenceEnd :: ts => some (.sequence anchor items.reverse, ts)
  | 0, _, _, _ => none
  | fuel + 1, items, isFirst, ts => do
    let ts ← if isFirst then some ts else
      match ts with
      | .flowEntry :: ts => some ts
      | _ => none
    match ts with
    | .flowSequenceEnd :: ts => some (.sequence anchor items.reverse, ts)
    | .key :: ts =>
      let (k, ts) ←
        match ts with
        | .value :: ts => some (.blank, ts)
        | .flowEntry :: ts => some (.blank, ts)
        | .flowSequenceEnd :: ts => some (.blank, ts)
        | ts => node handles .flow fuel ts
      let (v, ts) ←
        match ts with
        | .value :: .flowEntry :: ts => some (.blank, .flowEntry :: ts)
        | .value :: .flowSequenceEnd :: ts => some (.blank, .flowSequenceEnd :: ts)
        | .value :: ts => node handles .flow fuel ts
        | ts => some (.blank, ts)
      flowItems handles anchor fuel (.mapping none [(k, v)] :: items) false ts
    | ts =>
      let (n, ts) ← node handles .flow fuel ts
      flowItems handles anchor fuel (n :: items) false ts

/-- Reads the entries of a mapping in brackets up to its end. -/
def flowEntries (handles : Handles) (anchor : Option String) :
    Nat → List (Node String × Node String) → Bool → List Token → Option (Node String × List Token)
  | _, entries, _, .flowMappingEnd :: ts => some (.mapping anchor entries.reverse, ts)
  | 0, _, _, _ => none
  | fuel + 1, entries, isFirst, ts => do
    let ts ← if isFirst then some ts else
      match ts with
      | .flowEntry :: ts => some ts
      | _ => none
    match ts with
    | .flowMappingEnd :: ts => some (.mapping anchor entries.reverse, ts)
    | .key :: ts =>
      let (k, ts) ←
        match ts with
        | .value :: _ => some (.blank, ts)
        | .flowEntry :: _ => some (.blank, ts)
        | .flowMappingEnd :: _ => some (.blank, ts)
        | ts => node handles .flow fuel ts
      let (v, ts) ←
        match ts with
        | .value :: .flowEntry :: ts => some (.blank, .flowEntry :: ts)
        | .value :: .flowMappingEnd :: ts => some (.blank, .flowMappingEnd :: ts)
        | .value :: ts => node handles .flow fuel ts
        | ts => some (.blank, ts)
      flowEntries handles anchor fuel ((k, v) :: entries) false ts
    | ts =>
      let (k, ts) ← node handles .flow fuel ts
      flowEntries handles anchor fuel ((k, .blank) :: entries) false ts

end

/-! ## Documents -/

/-- Reads the directives of a document: whether a version was given, and the handles. -/
def directives : Bool → Handles → List Token → Option (Handles × List Token)
  | hasVersion, handles, .version major minor :: ts =>
    if hasVersion || major != 1 || !(minor == 1 || minor == 2) then none else directives true handles ts
  | hasVersion, handles, .tagShorthand h expansion :: ts =>
    if handles.any (·.1 == h) then none else directives hasVersion (handles ++ [(h, expansion)]) ts
  | _, handles, ts => some (handles, ts)

/-- Whether a document is empty before these tokens. -/
def endsContent : List Token → Bool
  | [] => true
  | .version .. :: _ | .tagShorthand .. :: _ | .documentStart :: _ | .documentEnd :: _ => true
  | _ => false

/-- Reads the first document, with or without a mark at its start. -/
def document (fuel : Nat) (ts : List Token) : Option (Node String × List Token) := do
  match ts with
  | .version .. :: _ | .tagShorthand .. :: _ | .documentStart :: _ =>
    let (handles, ts) ← directives false [] ts
    match ts with
    | .documentStart :: ts =>
      if endsContent ts then some (.blank, ts) else node (handles ++ standardHandles) .block fuel ts
    | _ => none
  | ts => node standardHandles .block fuel ts

end Grammar

/-- The only document of a text. -/
def Document.parse? (text : String) : Option Document := do
  let ts ← Token.scan text
  let (n, rest) ← Grammar.document (4 * ts.length + 4) ts
  if rest.all (· == .documentEnd) then ofNode? n else none

end Yaml
end JoinShapes
