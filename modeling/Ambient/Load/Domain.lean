/-
Loading domains.

The forms of the records of a description. Every field may be absent, and its default
is empty. Definitions and properties hold their reference among their own fields, so
their other entries are kept for it; the other records pass over keys they do not know.

`load` reads one record off the front of a text. What follows the record is not looked
at. A text that does not load is answered with the path and the wording of the first
fault.
-/
import Ambient.Load.Reference

set_option autoImplicit false

namespace Ambient.Load

open Ambient.Json Ambient.Schema

/-! ## Forms -/

/-- A field that holds a string. -/
def textField {ρ : Type} (key : String) (store : String → ρ → ρ) : FieldReader ρ :=
  .of key (fun _ => readText) store

/-- A property, parameter or returned field. -/
def propertyForm : Form Property where
  name := "TypeProperty"
  absent := {}
  fields :=
    [textField "name" fun name property => { property with name },
      .of "optional" (fun _ => readFlag) fun optional property => { property with optional },
      textField "description" fun description property => { property with description }]
  others := .kept fun entries property => do
    return { property with reference := ← referenceOfEntries entries {} }

/-- A field that holds a list of properties. -/
def propertiesField {ρ : Type} (key : String) (store : List Property → ρ → ρ) : FieldReader ρ :=
  .of key (readList propertyForm.read) store

/-- A type. -/
def definitionForm : Form Definition where
  name := "TypeDefinition"
  absent := {}
  fields :=
    [textField "id" fun id definition => { definition with id },
      textField "description" fun description definition => { definition with description },
      propertiesField "properties" fun properties definition => { definition with properties }]
  others := .kept fun entries definition => do
    return { definition with reference := ← referenceOfEntries entries {} }

/-- A command. -/
def commandForm : Form Command where
  name := "Command"
  absent := {}
  fields :=
    [textField "name" fun name command => { command with name },
      textField "description" fun description command => { command with description },
      propertiesField "parameters" fun parameters command => { command with parameters },
      propertiesField "returns" fun returns command => { command with returns }]
  others := .ignored

/-- An event. -/
def eventForm : Form Event where
  name := "Event"
  absent := {}
  fields :=
    [textField "name" fun name event => { event with name },
      textField "description" fun description event => { event with description },
      propertiesField "parameters" fun parameters event => { event with parameters }]
  others := .ignored

/-- A domain. -/
def domainForm : Form Domain where
  name := "Domain"
  absent := {}
  fields :=
    [textField "domain" fun name domain => { domain with name },
      textField "description" fun description domain => { domain with description },
      .of "types" (readList definitionForm.read) fun types domain => { domain with types },
      .of "commands" (readList commandForm.read)
        fun commands domain => { domain with commands },
      .of "events" (readList eventForm.read) fun events domain => { domain with events }]
  others := .ignored

/-! ## Loading -/

/-- The number of brackets that may be open at once. -/
def deepest : Nat := 127

/-- A text that does not load: the path of the fault, and its wording and place. -/
structure LoadError where
  path : String
  detail : String
  deriving DecidableEq, Repr

/-- The wording of a load error. -/
def LoadError.message (error : LoadError) : String :=
  "invalid protocol domain at JSON path " ++ error.path ++ ": " ++ error.detail

/-- The error of a fault in `text`. -/
def LoadError.ofFault (text : List UInt8) (fault : Fault) : LoadError :=
  ⟨pathText fault.path, fault.detail text⟩

/-- Loads a value off the front of a text, given its reader by depth. -/
def load {α : Type} (read : Nat → Reader α) (text : List UInt8) : Except LoadError α :=
  match read deepest text with
  | .ok (value, _) => .ok value
  | .error fault => .error (.ofFault text fault)

/-- Loads a domain. -/
def loadDomain (text : List UInt8) : Except LoadError Domain := load domainForm.read text

end Ambient.Load
