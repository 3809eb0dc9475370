import JoinShapes.Yaml.Token

/-!
# YAML nodes

The tree of a YAML document. Anchors and aliases carry a label: the name in the text at first (`Node String`), and a
number after `Node.link` (`Node Nat`). A name is numbered again whenever it is anchored again, by the number of names
known at that time, and of two nodes with one number an alias means the later one.
-/

namespace JoinShapes
namespace Yaml

/-- A node of a YAML document. -/
inductive Node (α : Type)
  | aliasOf (label : α)
  | scalar (anchor : Option α) (tag : Option String) (style : ScalarStyle) (text : String)
  | sequence (anchor : Option α) (items : List (Node α))
  | mapping (anchor : Option α) (entries : List (Node α × Node α))
deriving Inhabited

namespace Node

/-- A value that is left out. -/
def blank {α : Type} : Node α := scalar none none .plain ""

/-! ## Size -/

mutual

/-- The number of marks that a node consists of: one for a leaf, two for a collection and those of its parts. -/
def size {α : Type} : Node α → Nat
  | aliasOf _ => 1
  | scalar .. => 1
  | sequence _ items => 2 + sizeItems items
  | mapping _ entries => 2 + sizeEntries entries

/-- The size of the items of a sequence. -/
def sizeItems {α : Type} : List (Node α) → Nat
  | [] => 0
  | n :: ns => size n + sizeItems ns

/-- The size of the entries of a mapping. -/
def sizeEntries {α : Type} : List (Node α × Node α) → Nat
  | [] => 0
  | (k, v) :: es => size k + size v + sizeEntries es

end

/-! ## Links -/

/-- The names that were anchored, each with its last number. -/
abbrev Labels := List (String × Nat)

namespace Labels

/-- Gives a name its next number. -/
def add (l : Labels) (name : String) : Labels := (name, l.length) :: l.filter (·.1 != name)

/-- The last number of a name. -/
def number? (l : Labels) (name : String) : Option Nat := (l.find? (·.1 == name)).map (·.2)

end Labels

/-- Numbers the anchor of a node, if it has one. -/
def linkAnchor (l : Labels) : Option String → Labels × Option Nat
  | none => (l, none)
  | some name => (l.add name, some l.length)

mutual

/-- Replaces names by numbers in order of the text; an alias of a name that is not anchored yet is refused. -/
def linkFrom (l : Labels) : Node String → Option (Labels × Node Nat)
  | aliasOf name => do return (l, aliasOf (← l.number? name))
  | scalar anchor tag style text =>
    let (l, anchor) := linkAnchor l anchor
    some (l, scalar anchor tag style text)
  | sequence anchor items => do
    let (l, anchor) := linkAnchor l anchor
    let (l, items) ← linkItems l items
    return (l, sequence anchor items)
  | mapping anchor entries => do
    let (l, anchor) := linkAnchor l anchor
    let (l, entries) ← linkEntries l entries
    return (l, mapping anchor entries)

/-- `linkFrom` for the items of a sequence. -/
def linkItems (l : Labels) : List (Node String) → Option (Labels × List (Node Nat))
  | [] => some (l, [])
  | n :: ns => do
    let (l, n) ← linkFrom l n
    let (l, ns) ← linkItems l ns
    return (l, n :: ns)

/-- `linkFrom` for the entries of a mapping. -/
def linkEntries (l : Labels) : List (Node String × Node String) → Option (Labels × List (Node Nat × Node Nat))
  | [] => some (l, [])
  | (k, v) :: es => do
    let (l, k) ← linkFrom l k
    let (l, v) ← linkFrom l v
    let (l, es) ← linkEntries l es
    return (l, (k, v) :: es)

end

/-- The pair of a node's number and the node. -/
def anchored (anchor : Option Nat) (n : Node Nat) : List (Nat × Node Nat) := (anchor.map fun i => (i, n)).toList

mutual

/-- The anchored nodes in order of the text. -/
def anchors : Node Nat → List (Nat × Node Nat)
  | aliasOf _ => []
  | scalar anchor tag style text => anchored anchor (scalar anchor tag style text)
  | sequence anchor items => anchored anchor (sequence anchor items) ++ anchorsOfItems items
  | mapping anchor entries => anchored anchor (mapping anchor entries) ++ anchorsOfEntries entries

/-- The anchored nodes among the items of a sequence. -/
def anchorsOfItems : List (Node Nat) → List (Nat × Node Nat)
  | [] => []
  | n :: ns => anchors n ++ anchorsOfItems ns

/-- The anchored nodes among the entries of a mapping. -/
def anchorsOfEntries : List (Node Nat × Node Nat) → List (Nat × Node Nat)
  | [] => []
  | (k, v) :: es => anchors k ++ anchors v ++ anchorsOfEntries es

end

end Node

/-- A document whose aliases are resolved by number. -/
structure Document where
  root : Node Nat
  /-- The anchored nodes, the latest first. -/
  anchors : List (Nat × Node Nat)

namespace Document

/-- The document of a node with names. -/
def ofNode? (n : Node String) : Option Document := do
  let (_, root) ← Node.linkFrom [] n
  return ⟨root, root.anchors.reverse⟩

/-- The node that an alias means. -/
def target? (d : Document) (label : Nat) : Option (Node Nat) := (d.anchors.find? (·.1 == label)).map (·.2)

end Document
end Yaml
end JoinShapes
