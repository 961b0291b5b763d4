import Conquest.Json.Reader

/-!
# Reading records

A record is written as an object or as the array of its fields in declaration order. A field that
is known may be given once; unknown fields are skipped in an open record and refused in a closed
one; an array may stop early but not go on after the last field.
-/

namespace Conquest.Json

/-- The result of reading a value. -/
abbrev Read := Except Error

/-- The fields that a record gives, by name. -/
structure Fields where
  given : List (String × Value)

/-! ## Single values -/

def readBool : Value → Read Bool
  | .bool b => .ok b
  | _ => .error (.mismatch "a boolean")

def readString : Value → Read String
  | .string (some s) => .ok s
  | .string none => .error .malformed
  | _ => .error (.mismatch "a string")

/-- A whole number below `2 ^ bits`. -/
def readNat (bits : Nat) : Value → Read Nat
  | .number n =>
    match n.integer? with
    | some (.ofNat m) => if m < Nat.pow 2 bits then .ok m else .error .outOfRange
    | _ => .error (.mismatch "a whole number")
  | _ => .error (.mismatch "a whole number")

/-- A word of 32 bits. -/
def readWord (v : Value) : Read UInt32 := .ofNat <$> readNat 32 v

/-- A signed whole number of `bits` bits. -/
def readInt (bits : Nat) : Value → Read Int
  | .number n =>
    match n.integer? with
    | some m =>
      let bound : Int := Nat.pow 2 (bits - 1)
      if -bound ≤ m ∧ m < bound then .ok m else .error .outOfRange
    | none => .error (.mismatch "a whole number")
  | _ => .error (.mismatch "a whole number")

def readBinary32 : Value → Read Float32
  | .number n =>
    match n.binary32? with
    | some x => .ok x
    | none => .error .outOfRange
  | _ => .error (.mismatch "a number")

/-- A value or `null` for none. -/
def readOption {α : Type} (read : Value → Read α) : Value → Read (Option α)
  | .null => .ok none
  | v => some <$> read v

def readList {α : Type} (read : Value → Read α) : Value → Read (List α)
  | .array items => items.mapM read
  | _ => .error (.mismatch "an array")

/-! ## Records -/

/-- Pairs the known fields of an object with their values. -/
def objectFields (names : List String) (closed : Bool) :
    List (Option String × Value) → List (String × Value) → Read (List (String × Value))
  | [], given => .ok given
  | (none, _) :: _, _ => .error .malformed
  | (some name, v) :: rest, given =>
    if names.contains name then
      if (given.lookup name).isSome then .error (.duplicateField name)
      else objectFields names closed rest ((name, v) :: given)
    else if closed then .error (.unknownField name)
    else objectFields names closed rest given

/-- The fields of a record with the given field names. -/
def readFields (names : List String) (closed : Bool) : Value → Read Fields
  | .object fields => Fields.mk <$> objectFields names closed fields []
  | .array items =>
    if items.length ≤ names.length then .ok ⟨names.zip items⟩
    else .error (.mismatch s!"at most {names.length} fields")
  | _ => .error (.mismatch "a record")

/-- A field that has to be given. -/
def Fields.required {α : Type} (f : Fields) (name : String) (read : Value → Read α) : Read α :=
  match f.given.lookup name with
  | some v => read v
  | none => .error (.missingField name)

/-- A field with a default. -/
def Fields.optional {α : Type} (f : Fields) (name : String) (default : α)
    (read : Value → Read α) : Read α :=
  match f.given.lookup name with
  | some v => read v
  | none => .ok default

end Conquest.Json
