import JoinShapes.Yaml.Scalar

/-!
# YAML tokens

What YAML text consists of once its layout is understood: marks for where blocks start and end take the place of
indentation.
-/

namespace JoinShapes
namespace Yaml

/-- A token of YAML text. -/
inductive Token
  | version (major minor : Nat)
  | tagShorthand (handle expansion : String)
  | documentStart
  | documentEnd
  | blockSequenceStart
  | blockMappingStart
  | blockEnd
  | flowSequenceStart
  | flowSequenceEnd
  | flowMappingStart
  | flowMappingEnd
  | blockEntry
  | flowEntry
  | key
  | value
  | aliasOf (name : String)
  | anchor (name : String)
  /-- An empty handle stands for a tag that is written out in full. -/
  | tag (handle suffix : String)
  | scalar (style : ScalarStyle) (text : String)
deriving DecidableEq, Repr

end Yaml
end JoinShapes
