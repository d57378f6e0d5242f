/-
Readers for values of a wanted kind: strings, flags, lists, and records.

A value of another kind is a fault that names both. A value that is no bracket is
read in full before it is refused, so a fault inside it comes first.

A record is an object whose keys are fields. `Form` describes one: its fields, each
with a reader that stores the value in the record, the record with every field
absent, and what becomes of other keys (`Others`). They may be passed over; such a
record may also be written as a list of its fields in order, of which trailing ones
may be absent. Or they may be kept aside as values and be given to the record after
its last entry; such a record is always written as an object. A field that occurs
twice is refused when its second key has been read.
-/
import Ambient.Json.Skip
import Ambient.Json.Value

set_option autoImplicit false

namespace Ambient.Json

/-! ## Other kinds than the wanted one -/

/-- The text after a value that is no bracket, and what it was; of a bracket nothing
is read. -/
def readFound (text : List UInt8) : Except Fault (Found × List UInt8) :=
  match text with
  | [] => .error (.next .endOfValue [])
  | b :: rest =>
    match Lead.of b with
    | .null => do return (.null, ← expectBytes nullTail rest)
    | .yes => do return (.flag true, ← expectBytes yesTail rest)
    | .no => do return (.flag false, ← expectBytes noTail rest)
    | .number => do
      let (number, rest) ← readNumber text
      return (.number number, rest)
    | .text => do
      let (string, rest) ← readString rest
      return (.string string, rest)
    | .list => .ok (.sequence, text)
    | .object => .ok (.map, text)
    | .other => .error (.next .noValue text)

/-- Refuses the value that comes next, since `wanted` is wanted. -/
def refuse {α : Type} (wanted : String) (text : List UInt8) : Except Fault α := do
  let (found, rest) ← readFound text
  .error (.here (.wrongType found wanted) rest)

/-! ## Strings, flags, lists and absent values -/

/-- What a string is called where one is wanted. -/
def wantedString : String := "a string"

/-- Reads a string. -/
def readText : Reader String := fun text =>
  match skipSpace text with
  | [] => .error (.next .endOfValue [])
  | b :: rest =>
    match Lead.of b with
    | .text => readString rest
    | _ => refuse wantedString (b :: rest)

/-- Reads `true` or `false`. -/
def readFlag : Reader Bool := fun text =>
  match skipSpace text with
  | [] => .error (.next .endOfValue [])
  | b :: rest =>
    match Lead.of b with
    | .yes => do return (true, ← expectBytes yesTail rest)
    | .no => do return (false, ← expectBytes noTail rest)
    | _ => refuse "a boolean" (b :: rest)

/-- Reads a value, or `null` for none. -/
def readOptional {α : Type} (read : Reader α) : Reader (Option α) := fun text =>
  let text := skipSpace text
  match text with
  | [] => .error (.next .endOfValue [])
  | b :: rest =>
    match Lead.of b with
    | .null => do return (none, ← expectBytes nullTail rest)
    | _ => do
      let (value, rest) ← read text
      return (some value, rest)

/-- Reads a list. The reader of the elements is given the levels left inside. -/
def readList {α : Type} (read : Nat → Reader α) (levels : Nat) : Reader (List α) := fun text =>
  match skipSpace text with
  | [] => .error (.next .endOfValue [])
  | b :: rest =>
    match Lead.of b, levels with
    | .list, 0 => .error (.next .tooDeep (b :: rest))
    | .list, inner + 1 => do
      let (values, rest) ← readElements (read inner) (roundsFor rest) 0 rest
      return (values, ← closeList rest)
    | _, _ => refuse "a sequence" (b :: rest)

/-! ## Records -/

/-- A field of a record: its key, and the reader that stores its value, given the
levels left for brackets. -/
structure FieldReader (ρ : Type) where
  key : String
  read : Nat → ρ → Reader ρ

/-- A field whose value is read by `read` and stored by `store`. -/
def FieldReader.of {ρ α : Type} (key : String) (read : Nat → Reader α)
    (store : α → ρ → ρ) : FieldReader ρ where
  key := key
  read levels record text := do
    let (value, rest) ← read levels text
    return (store value record, rest)

/-- What becomes of the keys that are no fields: they are passed over, or their
values are kept and then given to the record. -/
inductive Others (ρ : Type) where
  | ignored
  | kept (settle : List (String × Value) → ρ → Except Cause ρ)

/-- A kind of record. -/
structure Form (ρ : Type) where
  name : String
  absent : ρ
  fields : List (FieldReader ρ)
  others : Others ρ

/-- A record in the course of being read: what its fields hold so far, which of them
have occurred, and the other entries, the last one first. -/
structure Draft (ρ : Type) where
  record : ρ
  seen : List String := []
  kept : List (String × Value) := []

namespace Form

variable {ρ : Type}

/-- How a message names the form. -/
def wanted (form : Form ρ) : String := "struct " ++ form.name

/-- The field of that key. -/
def field? (form : Form ρ) (key : String) : Option (FieldReader ρ) :=
  form.fields.find? (·.key == key)

/-- Reads the rest of an entry that is no field. -/
def enterOther (form : Form ρ) (levels : Nat) (key : String) (draft : Draft ρ) :
    Reader (Draft ρ) := fun text =>
  match form.others with
  | .ignored => do
    let ((), rest) ← readEntry skipValue key text
    return (draft, rest)
  | .kept _ => do
    let (value, rest) ← readEntry (readValue levels) key text
    return ({ draft with kept := (key, value) :: draft.kept }, rest)

/-- Reads the rest of an entry of a field. -/
def enterField (field : FieldReader ρ) (levels : Nat) (draft : Draft ρ) : Reader (Draft ρ) :=
  fun text => do
    let (record, rest) ← readEntry (field.read levels draft.record) field.key text
    return ({ draft with record := record, seen := field.key :: draft.seen }, rest)

/-- Reads the rest of an entry after its key. -/
def enter (form : Form ρ) (levels : Nat) (key : String) (draft : Draft ρ)
    (text : List UInt8) : Except Stop (Draft ρ × List UInt8) :=
  match form.field? key with
  | none => (form.enterOther levels key draft text).mapError .fault
  | some field =>
    if key ∈ draft.seen then .error (.refused (.repeatedField key) text)
    else (enterField field levels draft text).mapError .fault

/-- The record that a draft makes once its last entry has been read. -/
def settle (form : Form ρ) (draft : Draft ρ) : Except Cause ρ :=
  match form.others with
  | .ignored => .ok draft.record
  | .kept settle => settle draft.kept.reverse draft.record

/-- Reads the entries of a record, up to the closing bracket. -/
def readBody (form : Form ρ) (levels : Nat) (text : List UInt8) :
    Except Stop (ρ × List UInt8) := do
  let (draft, rest) ←
    readEntries (form.enter levels) (roundsFor text) true { record := form.absent } text
  match form.settle draft with
  | .ok record => return (record, rest)
  | .error cause => .error (.refused cause rest)

/-- Reads the fields of a record that is written as a list, the first of them at
position `index`. -/
def readPositions (levels : Nat) : List (FieldReader ρ) → Nat → ρ → Reader ρ
  | [], _, record, text => .ok (record, text)
  | field :: fields, index, record, text =>
    match nextElement? (index == 0) text with
    | .error fault => .error fault
    | .ok none => .ok (record, text)
    | .ok (some element) =>
      match field.read levels record element with
      | .error fault => .error (fault.inside (.index index))
      | .ok (record, rest) => readPositions levels fields (index + 1) record rest

/-- Reads a record. `levels` is the number of brackets that may be opened inside each
other, its own included. -/
def read (form : Form ρ) (levels : Nat) : Reader ρ := fun text =>
  match skipSpace text with
  | [] => .error (.next .endOfValue [])
  | b :: rest =>
    match Lead.of b, form.others, levels with
    | .object, _, 0 => .error (.next .tooDeep (b :: rest))
    | .object, _, inner + 1 => readObject (form.readBody inner) rest
    | .list, .ignored, 0 => .error (.next .tooDeep (b :: rest))
    | .list, .ignored, inner + 1 => do
      let (record, rest) ← readPositions inner form.fields 0 form.absent rest
      return (record, ← closeList rest)
    | _, _, _ => refuse form.wanted (b :: rest)

end Form

end Ambient.Json
