/-
Whole JSON values.

`readValue` reads any value. It is used for the entries that a record keeps aside
until all of its own fields are known, and it is limited in depth: `levels` is the
number of brackets that may still be opened inside each other. Entries keep their
order, and a key may occur more than once.
-/
import Ambient.Json.Bracket
import Ambient.Json.Scalar

set_option autoImplicit false

namespace Ambient.Json

/-- A JSON value. -/
inductive Value where
  | null
  | flag (value : Bool)
  | number (value : Number)
  | string (value : String)
  | list (items : List Value)
  | object (entries : List (String × Value))
  deriving Inhabited

/-- What a value is, where something else was wanted. -/
def Value.found : Value → Found
  | .null => .null
  | .flag value => .flag value
  | .number value => .number value
  | .string value => .string value
  | .list _ => .sequence
  | .object _ => .map

/-- The number of rounds that suffice for the elements or entries of a text: each
takes a byte, and one more round sees that there are no more. -/
def roundsFor (text : List UInt8) : Nat := text.length + 1

/-- Reads one value of any kind. -/
def readValue (levels : Nat) : Reader Value := fun text =>
  match skipSpace text with
  | [] => .error (.next .endOfValue [])
  | b :: rest =>
    match Lead.of b with
    | .null => do return (.null, ← expectBytes nullTail rest)
    | .yes => do return (.flag true, ← expectBytes yesTail rest)
    | .no => do return (.flag false, ← expectBytes noTail rest)
    | .number => do
      let (number, rest) ← readNumber (b :: rest)
      return (.number number, rest)
    | .text => do
      let (string, rest) ← readString rest
      return (.string string, rest)
    | .list =>
      match levels with
      | 0 => .error (.next .tooDeep (b :: rest))
      | inner + 1 => do
        let (items, rest) ← readElements (readValue inner) (roundsFor rest) 0 rest
        return (.list items, ← closeList rest)
    | .object =>
      match levels with
      | 0 => .error (.next .tooDeep (b :: rest))
      | inner + 1 => do
        let enter (key : String) (entries : List (String × Value)) (text : List UInt8) :
            Except Stop (List (String × Value) × List UInt8) :=
          match readEntry (readValue inner) key text with
          | .ok (value, rest) => .ok ((key, value) :: entries, rest)
          | .error fault => .error (.fault fault)
        let (entries, rest) ← readObject (readEntries enter (roundsFor rest) true []) rest
        return (.object entries.reverse, rest)
    | .other => .error (.next .noValue (b :: rest))

end Ambient.Json
