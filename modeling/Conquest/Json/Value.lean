/-!
# JSON values

Values keep what the text says: numerals stay as written, so that `1` and `1.0` differ, an object
keeps its fields in order with repetitions, and a string may hold half of a surrogate pair, which
cannot be read but can be skipped. What a numeral denotes is decided when a field is read.
-/

namespace Conquest.Json

/-- A number as it is written: sign, digits before and after the point, power of ten. -/
structure Numeral where
  negative : Bool
  whole : List Nat
  fraction : Option (List Nat)
  exponent : Option Int
deriving DecidableEq, Repr

/-- A JSON value. A string is `none` if it holds half of a surrogate pair. -/
inductive Value where
  | null
  | bool (b : Bool)
  | number (n : Numeral)
  | string (s : Option String)
  | array (items : List Value)
  | object (fields : List (Option String × Value))
deriving Inhabited

/-- Why a text or a value cannot be read. -/
inductive Error where
  /-- The text is not JSON. -/
  | malformed
  /-- A value of another type is needed. -/
  | mismatch (expected : String)
  /-- A number does not fit. -/
  | outOfRange
  | missingField (name : String)
  | duplicateField (name : String)
  | unknownField (name : String)
deriving DecidableEq, Repr

/-- The text of an error. -/
def Error.message : Error → String
  | .malformed => "malformed JSON"
  | .mismatch expected => s!"expected {expected}"
  | .outOfRange => "number out of range"
  | .missingField name => s!"missing field {name}"
  | .duplicateField name => s!"duplicate field {name}"
  | .unknownField name => s!"unknown field {name}"

/-! ## Numerals -/

namespace Numeral

/-- The number that a list of digits denotes. -/
def ofDigits (digits : List Nat) : Nat := digits.foldl (fun n d => 10 * n + d) 0

/-- The integer that a numeral denotes. A numeral with a point or a power of ten denotes none, and
neither does a negative zero. -/
def integer? (n : Numeral) : Option Int :=
  if n.fraction.isSome || n.exponent.isSome then none
  else
    let value := ofDigits n.whole
    if n.negative then if value = 0 then none else some (-value) else some value

/-- Appends digits to a significand as long as it stays below `2 ^ 64`; the second part is the
number of digits left over. -/
def appendDigits : Nat → List Nat → Nat × Nat
  | s, [] => (s, 0)
  | s, d :: rest =>
    if 10 * s + d < Nat.pow 2 64 then appendDigits (10 * s + d) rest else (s, rest.length + 1)

/-- A significand times a power of ten in double precision: the significand is rounded, then
multiplied or divided by the rounded power. There is no value beyond the range. -/
def scale? (significand : Nat) (exponent : Int) : Option Float :=
  let f := Float.ofNat significand
  let power (k : Nat) : Float := Float.ofScientific 1 false k
  if significand = 0 then some 0
  else if 308 < exponent then none
  else if 0 ≤ exponent then
    let x := f * power exponent.toNat
    if x.isInf then none else some x
  else if -308 ≤ exponent then some (f / power (-exponent).toNat)
  else if -616 ≤ exponent then some (f / power 308 / power (-exponent - 308).toNat)
  else some 0

/-- The double-precision number that a numeral denotes, unless it is out of range. -/
def binary64? (n : Numeral) : Option Float :=
  let (s, dropped) := appendDigits 0 n.whole
  let decimals := n.fraction.getD []
  let (s, unused) := appendDigits s decimals
  let exponent : Int := dropped - (decimals.length - unused) + n.exponent.getD 0
  (scale? s exponent).map fun x => if n.negative then -x else x

/-- The single-precision number that a numeral denotes, unless it is out of range. Integers of 64
bits are rounded once; everything else is read in double precision first. -/
def binary32? (n : Numeral) : Option Float32 :=
  match n.integer? with
  | some (.ofNat m) =>
    if m < Nat.pow 2 64 then some (.ofNat m) else (n.binary64?).map Float.toFloat32
  | some (.negSucc m) =>
    if m < Nat.pow 2 63 then some (-(.ofNat (m + 1))) else (n.binary64?).map Float.toFloat32
  | none => (n.binary64?).map Float.toFloat32

end Numeral

end Conquest.Json
