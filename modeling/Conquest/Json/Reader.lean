import Conquest.Json.Token

/-!
# Reading JSON

The reader goes through the tokens once, with the arrays and objects that are still open on a
stack. Exactly one value stands in a text.
-/

namespace Conquest.Json

/-- An array or object that is still open, its items last one first. -/
inductive Frame where
  | array (items : List Value)
  | object (fields : List (Option String × Value))
  /-- An object whose next field has its name but not yet its value. -/
  | field (fields : List (Option String × Value)) (name : Option String)

/-- What may come next. -/
inductive Expected where
  | value
  /-- A value, or the end of an array that has just been opened. -/
  | firstItem
  | name
  /-- A name, or the end of an object that has just been opened. -/
  | firstName
  | colon
  /-- A comma, or the end of what is open; at the top, the end of the text. -/
  | separator

/-- What the reader has read. -/
structure Reader where
  expected : Expected := .value
  stack : List Frame := []
  result : Option Value := none

namespace Reader

/-- Puts a finished value where it belongs. -/
def complete (stack : List Frame) (v : Value) : Except Error Reader :=
  match stack with
  | [] => .ok ⟨.separator, [], some v⟩
  | .array items :: rest => .ok ⟨.separator, .array (v :: items) :: rest, none⟩
  | .field fields name :: rest => .ok ⟨.separator, .object ((name, v) :: fields) :: rest, none⟩
  | .object _ :: _ => .error .malformed

/-- Reads the start of a value. -/
def openValue (stack : List Frame) : Token → Except Error Reader
  | .openArray => .ok ⟨.firstItem, .array [] :: stack, none⟩
  | .openObject => .ok ⟨.firstName, .object [] :: stack, none⟩
  | .text s => complete stack (.string s)
  | .word v => complete stack v
  | _ => .error .malformed

/-- Reads one token. -/
def step (r : Reader) (t : Token) : Except Error Reader :=
  match r.expected, r.stack, t with
  | .firstItem, .array [] :: rest, .closeArray => complete rest (.array [])
  | .firstName, .object [] :: rest, .closeObject => complete rest (.object [])
  | .value, stack, t => openValue stack t
  | .firstItem, stack, t => openValue stack t
  | .name, .object fields :: rest, .text s => .ok ⟨.colon, .field fields s :: rest, none⟩
  | .firstName, .object fields :: rest, .text s => .ok ⟨.colon, .field fields s :: rest, none⟩
  | .colon, stack, .colon => .ok ⟨.value, stack, none⟩
  | .separator, .array items :: rest, .comma => .ok ⟨.value, .array items :: rest, none⟩
  | .separator, .array items :: rest, .closeArray => complete rest (.array items.reverse)
  | .separator, .object fields :: rest, .comma => .ok ⟨.name, .object fields :: rest, none⟩
  | .separator, .object fields :: rest, .closeObject => complete rest (.object fields.reverse)
  | _, _, _ => .error .malformed

end Reader

/-- The value that a text holds. -/
def parse (text : String) : Except Error Value := do
  let r ← (← tokens text).foldlM Reader.step {}
  match r.stack, r.result with
  | [], some v => .ok v
  | _, _ => .error .malformed

end Conquest.Json
