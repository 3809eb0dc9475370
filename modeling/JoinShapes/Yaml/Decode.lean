import JoinShapes.Text.Numeral
import JoinShapes.Yaml.Grammar

/-!
# Reading values from YAML documents

A reader takes a node of a document and gives a value. Aliases are followed wherever a value is read, but not in fields
that nobody asks for; the number of times this may happen is bounded by a hundred times the size of the document. A
value that is left out reads as an empty list or as a record without fields.
-/

namespace JoinShapes
namespace Yaml

/-- A computation that may fail and counts the aliases it follows. -/
abbrev Reading (α : Type) := StateT Nat Option α

namespace Document

/-- The number of aliases that may be followed. -/
def aliasLimit (d : Document) : Nat := 100 * d.root.size

/-- The node itself, or the one that an alias means. -/
def follow (d : Document) : Node Nat → Reading (Node Nat)
  | .aliasOf label => fun count =>
    if count + 1 ≤ d.aliasLimit then (d.target? label).map (·, count + 1) else none
  | n => pure n

/-- The text of a scalar, however it is written. -/
def text (d : Document) (n : Node Nat) : Reading String := do
  match ← d.follow n with
  | .scalar _ _ _ t => return t
  | _ => failure

/-- The text of a plain scalar, or of a literal one with the tag of its type. -/
def plainText (d : Document) (type : String) (n : Node Nat) : Reading String := do
  match ← d.follow n with
  | .scalar _ _ .plain t => return t
  | .scalar _ (some tag) .literal t => if tag == type then return t else failure
  | _ => failure

/-- A truth value. -/
def flag (d : Document) (n : Node Nat) : Reading Bool := do
  let t ← d.plainText "tag:yaml.org,2002:bool" n
  if t ∈ ["true", "True", "TRUE"] then return true
  else if t ∈ ["false", "False", "FALSE"] then return false
  else failure

/-- Whether the digits have a zero in front that does not belong there. -/
def isPadded : List Char → Bool
  | '0' :: c :: cs => (c :: cs).all Char.isDigit
  | _ => false

/-- The natural number that a scalar spells: decimal, or in base sixteen, eight or two after a mark. -/
def word? (t : String) : Option Nat :=
  let unsigned := match t.toList with
    | '+' :: cs => cs
    | cs => cs
  let read (base : Nat) (cs : List Char) : Option Nat := (Numeral.ofDigits base cs).toOption
  match unsigned with
  | '0' :: 'x' :: cs => read 16 cs
  | '0' :: 'o' :: cs => read 8 cs
  | '0' :: 'b' :: cs => read 2 cs
  | cs => if isPadded cs then none else read 10 cs

/-- A natural number of at most 64 bits. -/
def word (d : Document) (n : Node Nat) : Reading Nat := do
  match word? (← d.plainText "tag:yaml.org,2002:int" n) with
  | some w => return w
  | none => failure

/-- The ways to write that there is no value. -/
def isNull (t : String) : Bool := t ∈ ["null", "Null", "NULL", "~"]

/-- A value that may be missing. -/
def optional {α : Type} (d : Document) (read : Node Nat → Reading α) (n : Node Nat) : Reading (Option α) := do
  let n ← d.follow n
  match n with
  | .scalar _ none .plain t => if t.isEmpty || isNull t then return none else some <$> read n
  | .scalar _ (some "tag:yaml.org,2002:null") .plain t => if isNull t then return none else failure
  | _ => some <$> read n

/-- A list of values. -/
def list {α : Type} (d : Document) (read : Node Nat → Reading α) (n : Node Nat) : Reading (List α) := do
  match ← d.follow n with
  | .sequence _ items => items.mapM read
  | .scalar _ _ .plain t => if t.isEmpty then return [] else failure
  | _ => failure

/-- The entries of a mapping by their text keys. -/
def entries (d : Document) (n : Node Nat) : Reading (List (String × Node Nat)) := do
  match ← d.follow n with
  | .mapping _ es => es.mapM fun (k, v) => do return (← d.text k, v)
  | .scalar _ _ .plain t => if t.isEmpty then return [] else failure
  | _ => failure

/-- The only entry with this key, if there is one. -/
def sole (es : List (String × Node Nat)) (name : String) : Reading (Option (Node Nat)) :=
  match es.filter (·.1 == name) with
  | [] => return none
  | [(_, v)] => return some v
  | _ => failure

/-- The values of the entries with these keys. -/
def fields (d : Document) (names : List String) (n : Node Nat) : Reading (List (Option (Node Nat))) := do
  names.mapM (sole (← d.entries n))

end Document

/-- A field that has to be there. -/
def required {α : Type} (read : Node Nat → Reading α) : Option (Node Nat) → Reading α
  | some n => read n
  | none => failure

/-- A field with a value of its own when it is left out. -/
def orElse {α : Type} (default : α) (read : Node Nat → Reading α) : Option (Node Nat) → Reading α
  | some n => read n
  | none => return default

/-- The value that the only document of a text spells. -/
def ofText? {α : Type} (read : Document → Node Nat → Reading α) (text : String) : Option α := do
  let d ← Document.parse? text
  (·.1) <$> (read d d.root).run 0

end Yaml
end JoinShapes
