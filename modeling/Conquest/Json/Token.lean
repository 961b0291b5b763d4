import Conquest.Json.Value

/-!
# JSON tokens

The lexer reads a text character by character. Words, that is numerals and the three names, are
collected as long as word characters follow and are then checked as a whole; between tokens stand
only blanks.
-/

namespace Conquest.Json

/-- A token of a JSON text. -/
inductive Token where
  | openObject
  | closeObject
  | openArray
  | closeArray
  | colon
  | comma
  /-- A string; `none` if it holds half of a surrogate pair. -/
  | text (s : Option String)
  /-- A numeral or one of the names. -/
  | word (v : Value)

/-! ## Words -/

/-- Splits off an optional sign: the flag says whether it is a minus. -/
def takeSign : List Char → Bool × List Char
  | '-' :: rest => (true, rest)
  | '+' :: rest => (false, rest)
  | cs => (false, cs)

/-- The digits at the front of a text and the rest. -/
def takeDigits (cs : List Char) : List Nat × List Char :=
  ((cs.takeWhile Char.isDigit).map fun c => c.toNat - '0'.toNat, cs.dropWhile Char.isDigit)

/-- The power of ten that ends a numeral. -/
def exponentOf? : List Char → Option (Option Int)
  | [] => some none
  | c :: rest =>
    if c = 'e' ∨ c = 'E' then
      let (negative, rest) := takeSign rest
      let (digits, rest) := takeDigits rest
      if digits.isEmpty || !rest.isEmpty then none
      else
        let n : Int := Numeral.ofDigits digits
        some (some (if negative then -n else n))
    else none

/-- Reads a numeral: no sign but a minus, no leading zero, digits on both sides of a point. -/
def numeralOf? (cs : List Char) : Option Numeral :=
  let negative := cs.head? == some '-'
  let (whole, rest) := takeDigits (if negative then cs.drop 1 else cs)
  if whole.isEmpty || (whole.head? == some 0 && whole.length != 1) then none
  else match rest with
    | '.' :: rest =>
      let (fraction, rest) := takeDigits rest
      if fraction.isEmpty then none
      else (exponentOf? rest).map fun e => ⟨negative, whole, some fraction, e⟩
    | rest => (exponentOf? rest).map fun e => ⟨negative, whole, none, e⟩

/-- Reads a word. -/
def wordOf? (cs : List Char) : Option Value :=
  match String.ofList cs with
  | "null" => some .null
  | "true" => some (.bool true)
  | "false" => some (.bool false)
  | _ => (numeralOf? cs).map .number

/-- Whether a character may stand in a word. -/
def isWordChar (c : Char) : Bool := c.isAlphanum || c == '-' || c == '+' || c == '.'

/-- Whether a character is a blank. -/
def isBlank (c : Char) : Bool := c == ' ' || c == '\n' || c == '\t' || c == '\r'

/-! ## Strings -/

/-- A string that is being read, last character first. -/
structure Quoted where
  content : List Char := []
  /-- The first half of a surrogate pair that waits for its second half. -/
  high : Option Nat := none
  /-- Whether no half of a pair stands alone so far. -/
  paired : Bool := true

namespace Quoted

/-- Appends a character. -/
def push (q : Quoted) (c : Char) : Quoted :=
  { content := c :: q.content, high := none, paired := q.paired && q.high.isNone }

/-- Appends the character or half character of a numeric escape. -/
def pushUnit (q : Quoted) (unit : Nat) : Quoted :=
  if 0xD800 ≤ unit ∧ unit < 0xDC00 then
    { q with high := some unit, paired := q.paired && q.high.isNone }
  else if 0xDC00 ≤ unit ∧ unit < 0xE000 then
    match q.high with
    | some high =>
      { q with
        content := Char.ofNat (0x10000 + (high - 0xD800) * 0x400 + (unit - 0xDC00)) :: q.content
        high := none }
    | none => { q with paired := false }
  else q.push (Char.ofNat unit)

/-- The finished string. -/
def finish (q : Quoted) : Option String :=
  if q.paired && q.high.isNone then some (String.ofList q.content.reverse) else none

end Quoted

/-- The character that a short escape stands for. -/
def escapeOf? : Char → Option Char
  | '"' => some '"'
  | '\\' => some '\\'
  | '/' => some '/'
  | 'b' => some '\x08'
  | 'f' => some '\x0c'
  | 'n' => some '\n'
  | 'r' => some '\r'
  | 't' => some '\t'
  | _ => none

/-- The value of a hexadecimal digit. -/
def hexDigit? (c : Char) : Option Nat :=
  if '0' ≤ c ∧ c ≤ '9' then some (c.toNat - '0'.toNat)
  else if 'a' ≤ c ∧ c ≤ 'f' then some (c.toNat - 'a'.toNat + 10)
  else if 'A' ≤ c ∧ c ≤ 'F' then some (c.toNat - 'A'.toNat + 10)
  else none

/-! ## The lexer -/

/-- Where the lexer stands. -/
inductive Mode where
  | between
  /-- Inside a word, last character first. -/
  | word (read : List Char)
  | quoted (q : Quoted)
  /-- After a backslash. -/
  | escape (q : Quoted)
  /-- Inside a numeric escape of which `left` digits are still to come. -/
  | unit (q : Quoted) (left : Nat) (value : Nat)

/-- What the lexer has read: its mode and the tokens, last one first. -/
structure Lexer where
  mode : Mode := .between
  tokens : List Token := []

namespace Lexer

/-- Reads a character that does not belong to the token before it. -/
def openToken (tokens : List Token) (c : Char) : Except Error Lexer :=
  if isBlank c then .ok ⟨.between, tokens⟩
  else if c == '"' then .ok ⟨.quoted {}, tokens⟩
  else if c == '\x7b' then .ok ⟨.between, .openObject :: tokens⟩
  else if c == '\x7d' then .ok ⟨.between, .closeObject :: tokens⟩
  else if c == '[' then .ok ⟨.between, .openArray :: tokens⟩
  else if c == ']' then .ok ⟨.between, .closeArray :: tokens⟩
  else if c == ':' then .ok ⟨.between, .colon :: tokens⟩
  else if c == ',' then .ok ⟨.between, .comma :: tokens⟩
  else if isWordChar c then .ok ⟨.word [c], tokens⟩
  else .error .malformed

/-- Ends a word. -/
def closeWord (tokens : List Token) (read : List Char) : Except Error (List Token) :=
  match wordOf? read.reverse with
  | some v => .ok (.word v :: tokens)
  | none => .error .malformed

/-- Reads one character. -/
def step (s : Lexer) (c : Char) : Except Error Lexer :=
  match s.mode with
  | .between => openToken s.tokens c
  | .word read =>
    if isWordChar c then .ok { s with mode := .word (c :: read) }
    else do openToken (← closeWord s.tokens read) c
  | .quoted q =>
    if c == '"' then .ok ⟨.between, .text q.finish :: s.tokens⟩
    else if c == '\\' then .ok { s with mode := .escape q }
    else if c.toNat < 0x20 then .error .malformed
    else .ok { s with mode := .quoted (q.push c) }
  | .escape q =>
    if c == 'u' then .ok { s with mode := .unit q 4 0 }
    else match escapeOf? c with
      | some e => .ok { s with mode := .quoted (q.push e) }
      | none => .error .malformed
  | .unit q left value =>
    match hexDigit? c with
    | none => .error .malformed
    | some d =>
      if left ≤ 1 then .ok { s with mode := .quoted (q.pushUnit (16 * value + d)) }
      else .ok { s with mode := .unit q (left - 1) (16 * value + d) }

/-- The tokens once the text has ended. -/
def finish (s : Lexer) : Except Error (List Token) :=
  match s.mode with
  | .between => .ok s.tokens.reverse
  | .word read => do return (← closeWord s.tokens read).reverse
  | _ => .error .malformed

end Lexer

/-- The tokens of a text. -/
def tokens (text : String) : Except Error (List Token) := do
  (← text.toList.foldlM Lexer.step {}).finish

end Conquest.Json
