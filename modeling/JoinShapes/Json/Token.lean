import JoinShapes.Json.Basic

/-!
# JSON tokens

The tokens of JSON text: punctuation, texts in quotes, and words (numbers, `true`, `false`, `null`). `Token.scan` cuts
text into tokens and drops blanks between them; `Token.spell` writes one token.
-/

namespace JoinShapes
namespace Json

/-- A token of JSON text. -/
inductive Token
  | openObject
  | closeObject
  | openArray
  | closeArray
  | colon
  | comma
  | text (s : String)
  | natural (n : Nat)
  | numeral (text : String)
  | bool (b : Bool)
  | null
deriving DecidableEq

namespace Token

/-! ## Writing -/

/-- How a character stands in a quoted text: quotes, backslashes and control characters are escaped. -/
def escape (c : Char) : List Char :=
  if c = '"' then ['\\', '"']
  else if c = '\\' then ['\\', '\\']
  else if c = '\x08' then ['\\', 'b']
  else if c = '\x0c' then ['\\', 'f']
  else if c = '\n' then ['\\', 'n']
  else if c = '\r' then ['\\', 'r']
  else if c = '\t' then ['\\', 't']
  else if c.toNat < 32 then
    ['\\', 'u', '0', '0', Nat.digitChar (c.toNat / 16), Nat.digitChar (c.toNat % 16)]
  else [c]

/-- A text in quotes. -/
def quote (s : String) : List Char := '"' :: (s.toList.flatMap escape ++ ['"'])

/-- The characters of a token. -/
def spell : Token → List Char
  | openObject => ['\x7b']
  | closeObject => ['\x7d']
  | openArray => ['[']
  | closeArray => [']']
  | colon => [':']
  | comma => [',']
  | text s => quote s
  | natural n => Nat.toDigits 10 n
  | numeral s => s.toList
  | bool true => ['t', 'r', 'u', 'e']
  | bool false => ['f', 'a', 'l', 's', 'e']
  | null => ['n', 'u', 'l', 'l']

/-! ## Reading words -/

/-- One or more digits without a superfluous zero in front. -/
def isInteger : List Char → Bool
  | ['0'] => true
  | c :: cs => c != '0' && (c :: cs).all Char.isDigit
  | [] => false

/-- What may follow the integer part of a number: a fraction, an exponent, both or nothing. -/
def isScale (cs : List Char) : Bool :=
  let afterFraction : Option (List Char) :=
    match cs with
    | '.' :: ds => if (ds.takeWhile Char.isDigit).isEmpty then none else some (ds.dropWhile Char.isDigit)
    | _ => some cs
  match afterFraction with
  | none => false
  | some [] => true
  | some (e :: ds) =>
    let digits := match ds with
      | '+' :: r => r
      | '-' :: r => r
      | _ => ds
    (e == 'e' || e == 'E') && !digits.isEmpty && digits.all Char.isDigit

/-- Whether the characters spell a number. -/
def isNumeral (cs : List Char) : Bool :=
  let unsigned := match cs with
    | '-' :: r => r
    | _ => cs
  isInteger (unsigned.takeWhile Char.isDigit) && isScale (unsigned.dropWhile Char.isDigit)

/-- The token that a word spells. -/
def ofWord? (cs : List Char) : Option Token :=
  if isInteger cs then some (natural (Nat.ofDigitChars 10 cs 0))
  else if isNumeral cs then some (numeral (String.ofList cs))
  else if cs = ['t', 'r', 'u', 'e'] then some (bool true)
  else if cs = ['f', 'a', 'l', 's', 'e'] then some (bool false)
  else if cs = ['n', 'u', 'l', 'l'] then some null
  else none

/-! ## Reading text -/

/-- Where a reader of JSON text stands. Collected characters are in reverse. -/
inductive Mode
  | between
  | word (chars : List Char)
  | quoted (chars : List Char)
  | escaped (chars : List Char)
  /-- Inside the digits of a character number; `high` is a first half that waits for its second. -/
  | number (chars : List Char) (high : Option Nat) (digits value : Nat)
  /-- After a first half: the second half has to follow as `\u`. -/
  | half (chars : List Char) (high : Nat) (escape : Bool)

/-- A reader: the tokens so far, in reverse, and where it stands. -/
structure Scan where
  tokens : List Token
  mode : Mode

/-- The one-character tokens. -/
def punctuation? (c : Char) : Option Token :=
  if c = '\x7b' then some openObject
  else if c = '\x7d' then some closeObject
  else if c = '[' then some openArray
  else if c = ']' then some closeArray
  else if c = ':' then some colon
  else if c = ',' then some comma
  else none

/-- The blanks between tokens. -/
def isBlank (c : Char) : Bool := c == ' ' || c == '\n' || c == '\r' || c == '\t'

/-- Takes a character that is not part of a token already begun. -/
def startToken (tokens : List Token) (c : Char) : Scan :=
  if isBlank c then ⟨tokens, .between⟩
  else if c = '"' then ⟨tokens, .quoted []⟩
  else match punctuation? c with
    | some t => ⟨t :: tokens, .between⟩
    | none => ⟨tokens, .word [c]⟩

/-- The character of a one-letter escape. -/
def unescape? (c : Char) : Option Char :=
  if c = '"' ∨ c = '\\' ∨ c = '/' then some c
  else if c = 'b' then some '\x08'
  else if c = 'f' then some '\x0c'
  else if c = 'n' then some '\n'
  else if c = 'r' then some '\r'
  else if c = 't' then some '\t'
  else none

/-- The value of a hexadecimal digit. -/
def hexValue? (c : Char) : Option Nat :=
  if c.isDigit then some (c.toNat - 48)
  else if 'a' ≤ c ∧ c ≤ 'f' then some (c.toNat - 87)
  else if 'A' ≤ c ∧ c ≤ 'F' then some (c.toNat - 55)
  else none

/-- What a complete character number of four digits leads to. -/
def finishNumber (chars : List Char) (high : Option Nat) (value : Nat) : Option Mode :=
  match high with
  | some h =>
    if 0xDC00 ≤ value ∧ value ≤ 0xDFFF then
      some (.quoted (Char.ofNat (0x10000 + (h - 0xD800) * 0x400 + (value - 0xDC00)) :: chars))
    else none
  | none =>
    if 0xD800 ≤ value ∧ value ≤ 0xDBFF then some (.half chars value false)
    else if 0xDC00 ≤ value ∧ value ≤ 0xDFFF then none
    else some (.quoted (Char.ofNat value :: chars))

/-- Takes one character. -/
def Scan.step (s : Scan) (c : Char) : Option Scan :=
  match s.mode with
  | .between => some (startToken s.tokens c)
  | .word chars =>
    if isBlank c || c == '"' || (punctuation? c).isSome then
      (ofWord? chars.reverse).map fun t => startToken (t :: s.tokens) c
    else some ⟨s.tokens, .word (c :: chars)⟩
  | .quoted chars =>
    if c = '"' then some ⟨.text (String.ofList chars.reverse) :: s.tokens, .between⟩
    else if c = '\\' then some ⟨s.tokens, .escaped chars⟩
    else if c.toNat < 32 then none
    else some ⟨s.tokens, .quoted (c :: chars)⟩
  | .escaped chars =>
    if c = 'u' then some ⟨s.tokens, .number chars none 0 0⟩
    else (unescape? c).map fun d => ⟨s.tokens, .quoted (d :: chars)⟩
  | .number chars high digits value => do
    let v := value * 16 + (← hexValue? c)
    if digits = 3 then
      return ⟨s.tokens, ← finishNumber chars high v⟩
    else
      return ⟨s.tokens, .number chars high (digits + 1) v⟩
  | .half chars high escape =>
    if escape then
      if c = 'u' then some ⟨s.tokens, .number chars (some high) 0 0⟩ else none
    else if c = '\\' then some ⟨s.tokens, .half chars high true⟩ else none

/-- The tokens of a reader that met the end of the text. -/
def Scan.finish (s : Scan) : Option (List Token) :=
  match s.mode with
  | .between => some s.tokens.reverse
  | .word chars => (ofWord? chars.reverse).map fun t => (t :: s.tokens).reverse
  | _ => none

/-- Cuts text into tokens. -/
def scan (cs : List Char) : Option (List Token) := cs.foldlM Scan.step ⟨[], .between⟩ >>= Scan.finish

end Token
end Json
end JoinShapes
