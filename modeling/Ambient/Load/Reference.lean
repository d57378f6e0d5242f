/-
Loading references.

A reference that stands alone is a record with three fields, all of which may be
absent or `null`. Inside a definition or a property the three fields stand among the
others: their entries are kept aside, and `referenceOfEntries` makes the reference of
them when the object has ended. The elements of such a reference are then a value that
has been read already (`optionalReference`), an object or a list of the three fields in
order.
-/
import Ambient.Json.Record
import Ambient.Schema.Basic

set_option autoImplicit false

namespace Ambient.Load

open Ambient.Json Ambient.Schema

/-- The key of the kind tag. -/
def kindKey : String := "type"

/-- The key of the target. -/
def targetKey : String := "$ref"

/-- The key of the elements. -/
def itemsKey : String := "items"

/-- What messages call a reference. -/
def referenceName : String := "TypeRef"

/-! ## From values -/

/-- The fields of a reference seen so far; the outer option says whether the key has
occurred. -/
structure Spelling where
  kind : Option (Option String) := none
  target : Option (Option String) := none
  items : Option (Option Reference) := none

/-- The reference that the fields spell. A key that has not occurred is absent. -/
def Spelling.reference (spelling : Spelling) : Reference :=
  .ofFields spelling.kind.join spelling.target.join spelling.items.join

/-- A string, or `null` for none. -/
def optionalText : Value → Except Cause (Option String)
  | .null => .ok none
  | .string value => .ok (some value)
  | value => .error (.wrongType value.found wantedString)

mutual

/-- The elements that a value spells, or none for `null`. -/
def optionalReference : Value → Except Cause (Option Reference)
  | .null => .ok none
  | .object entries => some <$> referenceOfEntries entries {}
  | .list items => some <$> referenceOfItems items
  | value => .error (.wrongType value.found ("struct " ++ referenceName))

/-- The reference that a list of fields in order spells. Trailing fields may be left out. -/
def referenceOfItems : List Value → Except Cause Reference
  | [] => .ok .blank
  | [kind] => do return .bare (← optionalText kind) none
  | [kind, target] => do return .bare (← optionalText kind) (← optionalText target)
  | kind :: target :: items :: more => do
    let kind? ← optionalText kind
    let target? ← optionalText target
    let items? ← optionalReference items
    if more.isEmpty then return .ofFields kind? target? items?
    else .error (.wrongLength (3 + more.length) "3 elements in sequence")

/-- The reference that entries spell, going on from the fields seen so far. Other
entries do not matter; a field that occurs twice is refused. -/
def referenceOfEntries : List (String × Value) → Spelling → Except Cause Reference
  | [], spelling => .ok spelling.reference
  | (key, value) :: entries, spelling =>
    if key = kindKey then
      match spelling.kind with
      | some _ => .error (.repeatedField key)
      | none => do
        let kind? ← optionalText value
        referenceOfEntries entries { spelling with kind := some kind? }
    else if key = targetKey then
      match spelling.target with
      | some _ => .error (.repeatedField key)
      | none => do
        let target? ← optionalText value
        referenceOfEntries entries { spelling with target := some target? }
    else if key = itemsKey then
      match spelling.items with
      | some _ => .error (.repeatedField key)
      | none => do
        let items? ← optionalReference value
        referenceOfEntries entries { spelling with items := some items? }
    else referenceOfEntries entries spelling

end

/-! ## From a text -/

/-- The record of a reference that stands alone, given the reader of the elements. -/
def referenceForm (items : Reader Reference) : Form Reference where
  name := referenceName
  absent := .blank
  fields :=
    [.of kindKey (fun _ => readOptional readText)
        fun kind? reference => .ofFields kind? reference.target? reference.items?,
      .of targetKey (fun _ => readOptional readText)
        fun target? reference => .ofFields reference.kind? target? reference.items?,
      .of itemsKey (fun _ => readOptional items)
        fun items? reference => .ofFields reference.kind? reference.target? items?]
  others := .ignored

/-- Reads a reference that stands alone. Without levels left it cannot have elements,
for its own bracket is refused. -/
def readReference : Nat → Reader Reference
  | 0 => (referenceForm fun text => .error (.next .tooDeep text)).read 0
  | inner + 1 => (referenceForm (readReference inner)).read (inner + 1)

end Ambient.Load
