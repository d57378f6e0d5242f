/-
How a domain is spelled.

A record is spelled as an object. Each of its fields is a slot: a key, the values that spell
what the field holds, and the condition under which the key may be left out, which is that
the field holds its default. The entries may come in any order (`Fills`), at every level.

A reference has no object of its own inside a definition or a property: its slots stand
among theirs. The reference of an array's elements does have one.
-/
import Ambient.Proofs.Json.Grammar
import Ambient.Schema.Basic

set_option autoImplicit false

namespace Ambient.Load

open Ambient.Json Ambient.Schema

/-! ## Slots -/

/-- A field of a record that is to be spelled. -/
structure Slot where
  key : String
  Spells : Value → Prop
  Default : Prop

/-- Entries spell the fields of some slots: no key occurs twice, every entry belongs to a
slot, and only what holds its default is left out. -/
structure Fills (slots : List Slot) (entries : List (String × Value)) : Prop where
  nodup : (entries.map Prod.fst).Nodup
  spelled : ∀ entry ∈ entries, ∃ slot ∈ slots, slot.key = entry.1 ∧ slot.Spells entry.2
  omitted : ∀ slot ∈ slots, slot.key ∉ entries.map Prod.fst → slot.Default

/-- An object that spells a record. -/
def Spelled (slots : List Slot) (value : Value) : Prop :=
  ∃ entries, value = .object entries ∧ Fills slots entries

/-- A slot for a text. -/
def textSlot (key : String) (text : String) : Slot where
  key := key
  Spells value := value = .string text
  Default := text = ""

/-- A slot for a flag. -/
def flagSlot (key : String) (flag : Bool) : Slot where
  key := key
  Spells value := value = .flag flag
  Default := flag = false

/-- A slot for a text that may be absent; `null` spells that too. -/
def optionSlot (key : String) (text? : Option String) : Slot where
  key := key
  Spells value := value = text?.elim .null .string
  Default := text? = none

/-- A slot for a list, given how one element is spelled. -/
def listSlot {α : Type} (key : String) (slots : α → List Slot) (elements : List α) : Slot where
  key := key
  Spells value := ∃ items, value = .list items ∧
    List.Forall₂ (fun element item => Spelled (slots element) item) elements items
  Default := elements = []

end Ambient.Load

/-! ## Records -/

namespace Ambient.Schema

open Ambient.Json Ambient.Load

/-- The slots of a reference. -/
def Reference.slots : Reference → List Slot
  | .bare kind? target? =>
    [optionSlot "type" kind?, optionSlot "$ref" target?,
      { key := "items", Spells := fun value => value = .null, Default := True }]
  | .withItems kind? target? items =>
    [optionSlot "type" kind?, optionSlot "$ref" target?,
      { key := "items", Spells := Spelled items.slots, Default := False }]

/-- The slots of a property, parameter or returned field. -/
def Property.slots (slot : Property) : List Slot :=
  [textSlot "name" slot.name, flagSlot "optional" slot.optional,
    textSlot "description" slot.description] ++ slot.reference.slots

/-- The slots of a type. -/
def Definition.slots (declared : Definition) : List Slot :=
  [textSlot "id" declared.id, textSlot "description" declared.description,
    listSlot "properties" Property.slots declared.properties] ++ declared.reference.slots

/-- The slots of a command. -/
def Command.slots (command : Command) : List Slot :=
  [textSlot "name" command.name, textSlot "description" command.description,
    listSlot "parameters" Property.slots command.parameters,
    listSlot "returns" Property.slots command.returns]

/-- The slots of an event. -/
def Event.slots (event : Event) : List Slot :=
  [textSlot "name" event.name, textSlot "description" event.description,
    listSlot "parameters" Property.slots event.parameters]

/-- The slots of a domain. -/
def Domain.slots (source : Domain) : List Slot :=
  [textSlot "domain" source.name, textSlot "description" source.description,
    listSlot "types" Definition.slots source.types,
    listSlot "commands" Command.slots source.commands,
    listSlot "events" Event.slots source.events]

/-- A text that writes a domain, with at most that many brackets open at once. -/
def Domain.Written (source : Domain) (levels : Nat) (text : String) : Prop :=
  ∃ value, Spelled source.slots value ∧ value.Within levels ∧ WritesText value text.toList

end Ambient.Schema
