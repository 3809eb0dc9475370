import JoinShapes.Json.Token

/-!
# Reading JSON

`Json.ofTokens?` takes tokens one at a time. The reader holds the containers that are open, the innermost first, and
knows what may come next. `Json.parse?` reads text that holds exactly one value.
-/

namespace JoinShapes
namespace Json

/-- An open container with what it holds so far, in reverse. -/
inductive Frame
  | array (items : List Json)
  /-- `name` is the field whose value is being read. -/
  | object (fields : List (String × Json)) (name : String)

/-- What a reader waits for. -/
inductive Reading
  | value (frames : List Frame)
  /-- The first item of an array or its end. -/
  | firstItem (frames : List Frame)
  /-- The first field of an object or its end. -/
  | firstField (frames : List Frame)
  | fieldName (fields : List (String × Json)) (frames : List Frame)
  | colon (fields : List (String × Json)) (name : String) (frames : List Frame)
  | afterItem (items : List Json) (frames : List Frame)
  | afterField (fields : List (String × Json)) (frames : List Frame)
  | done (v : Json)

namespace Reading

/-- Hands a complete value to the innermost open container. -/
def deliver (v : Json) : List Frame → Reading
  | [] => done v
  | .array items :: frames => afterItem (v :: items) frames
  | .object fields name :: frames => afterField ((name, v) :: fields) frames

/-- Takes the first token of a value. -/
def startValue (frames : List Frame) : Token → Option Reading
  | .openArray => some (firstItem frames)
  | .openObject => some (firstField frames)
  | .text s => some (deliver (str s) frames)
  | .natural n => some (deliver (nat n) frames)
  | .numeral s => some (deliver (Json.numeral s) frames)
  | .bool b => some (deliver (Json.bool b) frames)
  | .null => some (deliver Json.null frames)
  | _ => none

/-- Takes one token. -/
def step : Reading → Token → Option Reading
  | value frames, t => startValue frames t
  | firstItem frames, .closeArray => some (deliver (arr []) frames)
  | firstItem frames, t => startValue (.array [] :: frames) t
  | firstField frames, .closeObject => some (deliver (obj []) frames)
  | firstField frames, .text name => some (colon [] name frames)
  | fieldName fields frames, .text name => some (colon fields name frames)
  | colon fields name frames, .colon => some (value (.object fields name :: frames))
  | afterItem items frames, .comma => some (value (.array items :: frames))
  | afterItem items frames, .closeArray => some (deliver (arr items.reverse) frames)
  | afterField fields frames, .comma => some (fieldName fields frames)
  | afterField fields frames, .closeObject => some (deliver (obj fields.reverse) frames)
  | _, _ => none

end Reading

/-- The value that the tokens spell. -/
def ofTokens? (ts : List Token) : Option Json :=
  match ts.foldlM Reading.step (.value []) with
  | some (.done v) => some v
  | _ => none

/-- The value that the text spells. -/
def parse? (text : String) : Option Json := Token.scan text.toList >>= ofTokens?

end Json
end JoinShapes
