import JoinShapes.Text.Blank

/-!
# Lines of environment files

A logical line of an environment file is one line of the file, or several where a quotation goes over line ends. A `#`
after a blank starts a comment, and a comment ends the logical line. What is left open at the end of the file, by a
quotation or by a blank without a line end after it, is no line: `logicalLines` drops it.
-/

namespace JoinShapes
namespace EnvFile

/-- Where the reading of a logical line stands. -/
inductive LineState
  | complete
  /-- After a blank, where a comment may start. -/
  | blank
  | escape
  /-- Inside single quotes. -/
  | strong
  | strongEscape
  /-- Inside double quotes. -/
  | weak
  | weakEscape
deriving DecidableEq, Repr

namespace LineState

/-- What a character opens outside of quotations. -/
def opening : Char → LineState
  | '\\' => escape
  | '"' => weak
  | '\'' => strong
  | _ => complete

/-- The state after a character. -/
def next : LineState → Char → LineState
  | complete, c => if Text.isBlank c && c != '\n' && c != '\r' then blank else opening c
  | blank, c => opening c
  | escape, _ => complete
  | strong, '\\' => strongEscape
  | strong, '\'' => complete
  | strong, _ => strong
  | strongEscape, _ => strong
  | weak, '\\' => weakEscape
  | weak, '"' => complete
  | weak, _ => weak
  | weakEscape, _ => weak

/-- The characters of a line before its comment, and the state at its end; the state is missing if there is a
comment. -/
def scan : LineState → List Char → List Char × Option LineState
  | s, [] => ([], some s)
  | s, c :: cs =>
    if s = blank ∧ c = '#' then ([], none)
    else
      let (kept, s) := scan (s.next c) cs
      (c :: kept, s)

end LineState

/-- The lines of a text, each with its line feed. -/
def fileLines : List UInt8 → List (List UInt8)
  | [] => []
  | b :: bs =>
    if b = 10 then [b] :: fileLines bs
    else
      match fileLines bs with
      | [] => [[b]]
      | line :: lines => (b :: line) :: lines

/-- The line without its line end. -/
def dropLineEnd (line : List Char) : List Char :=
  match line.reverse with
  | '\n' :: '\r' :: cs | '\n' :: cs => cs.reverse
  | _ => line

/-- The logical lines of a file, where `held` is what the lines before have left open. -/
def logicalLines (held : List Char) (s : LineState) : List (List Char) → List (List Char)
  | [] => []
  | line :: lines =>
    let all := held ++ line
    if (Text.trimStart all).head? = some '#' then [] :: logicalLines [] .complete lines
    else
      match s.scan line with
      | (kept, none) => (held ++ kept) :: logicalLines [] .complete lines
      | (_, some .complete) => dropLineEnd all :: logicalLines [] .complete lines
      | (_, some s) => logicalLines all s lines

/-- The bytes of a file without a byte order mark. -/
def dropMark : List UInt8 → List UInt8
  | 0xEF :: 0xBB :: 0xBF :: bs => bs
  | bs => bs

/-- The logical lines of a file, up to the first line that is no text. -/
def linesOf (content : ByteArray) : List (List Char) :=
  let texts := (fileLines (dropMark content.toList)).map fun line => String.fromUTF8? ⟨line.toArray⟩
  logicalLines [] .complete ((texts.takeWhile (·.isSome)).filterMap fun text => text.map String.toList)

end EnvFile
end JoinShapes
