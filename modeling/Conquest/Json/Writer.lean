import Conquest.Json.Value

/-!
# Writing JSON

Values are written without blanks. In strings only quotes, backslashes and control characters are
escaped. Numerals are written as they were read.
-/

namespace Conquest.Json

/-! ## Numerals -/

namespace Numeral

/-- The decimal digits of a number, at least one. -/
def digitsOf (n : Nat) : List Nat := (Nat.toDigits 10 n).map fun c => c.toNat - '0'.toNat

/-- The numeral of a number. -/
def ofNat (n : Nat) : Numeral := ⟨false, digitsOf n, none, none⟩

/-- The text of a list of digits. -/
def digitText (digits : List Nat) : String := String.ofList (digits.map Nat.digitChar)

/-- The text of a numeral. -/
def render (n : Numeral) : String :=
  (if n.negative then "-" else "") ++ digitText n.whole ++
    (match n.fraction with
    | some digits => "." ++ digitText digits
    | none => "") ++
    match n.exponent with
    | some e => s!"e{e}"
    | none => ""

end Numeral

/-! ## Strings -/

/-- A character as it is written inside a string. -/
def escaped (c : Char) : List Char :=
  match c with
  | '"' => ['\\', '"']
  | '\\' => ['\\', '\\']
  | '\x08' => ['\\', 'b']
  | '\x0c' => ['\\', 'f']
  | '\n' => ['\\', 'n']
  | '\r' => ['\\', 'r']
  | '\t' => ['\\', 't']
  | c =>
    if c.toNat < 0x20 then
      ['\\', 'u', '0', '0', Nat.digitChar (c.toNat / 16), Nat.digitChar (c.toNat % 16)]
    else [c]

/-- A string with its quotes. -/
def quoted (s : String) : String := String.ofList ('"' :: s.toList.flatMap escaped ++ ['"'])

/-! ## Values -/

namespace Value

mutual

/-- The text of a value. A string that holds half of a surrogate pair is written empty. -/
def render : Value → String
  | .null => "null"
  | .bool b => if b then "true" else "false"
  | .number n => n.render
  | .string s => quoted (s.getD "")
  | .array items => "[" ++ String.intercalate "," (renderItems items) ++ "]"
  | .object fields => "\x7b" ++ String.intercalate "," (renderFields fields) ++ "\x7d"

/-- The texts of the items of an array. -/
def renderItems : List Value → List String
  | [] => []
  | v :: rest => v.render :: renderItems rest

/-- The texts of the fields of an object. -/
def renderFields : List (Option String × Value) → List String
  | [] => []
  | (name, v) :: rest => (quoted (name.getD "") ++ ":" ++ v.render) :: renderFields rest

end

/-- The value of a number. -/
def ofNat (n : Nat) : Value := .number (.ofNat n)

/-- The value of a text. -/
def text (s : String) : Value := .string (some s)

/-- The object with the given fields. -/
def record (fields : List (String × Value)) : Value :=
  .object (fields.map fun (name, v) => (some name, v))

end Value

end Conquest.Json
