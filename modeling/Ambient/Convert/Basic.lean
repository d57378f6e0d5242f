/-
From a description to declarations: what both styles share.

A definition of an object becomes an interface and every other definition an alias.
What a command returns, what it takes and what an event brings are wrapped in
interfaces that are made for the purpose; a wrapper exists only if it would have a
property. A converted command or event is its callable member together with the
wrappers made for it (`Converted`).
-/
import Ambient.Naming
import Ambient.Schema.Basic
import Ambient.Tree.Basic

set_option autoImplicit false

namespace Ambient.Convert

open Ambient.Schema

/-- How a domain is laid out. `separated`: its commands and events are interfaces with
a call signature, in namespaces of their own. `unified`: they are the methods of one
interface. -/
inductive Style where
  | separated
  | unified
  deriving DecidableEq, Repr, Inhabited

/-- What a conversion may be told: the style, and what is appended to a command's name
to name what it returns. -/
structure Settings where
  style : Style := .separated
  resultSuffix : String := "Result"
  deriving DecidableEq, Repr, Inhabited

/-- A converted command or event, and the types made for it in the order in which they
are declared. -/
structure Converted (μ : Type) where
  member : μ
  types : List Tree.Declaration

/-! ## Slots -/

/-- A slot as a property of an interface. -/
def property (slot : Property) : Tree.Property :=
  ⟨slot.name, slot.reference.text, slot.optional, slot.description⟩

/-- A slot as a parameter of a call. -/
def parameter (slot : Property) : Tree.Parameter :=
  ⟨slot.name, slot.reference.text, slot.optional, slot.description⟩

/-- The one parameter of a call whose arguments are wrapped in the type `type`. -/
def wrappedParameter (type : String) : Tree.Parameter := { name := "params", type }

/-! ## Types -/

/-- An interface with a property for every slot. -/
def objectInterface (name comment : String) (slots : List Property) : Tree.Interface :=
  { name, comment, properties := slots.map property }

/-- The declaration of a definition. -/
def definition (declared : Definition) : Tree.Declaration :=
  if declared.isObject then
    .interface (objectInterface declared.id declared.description declared.properties)
  else .typedef ⟨declared.id, declared.reference.text, declared.description⟩

/-- An interface for slots, unless there are none. -/
def wrapper? (name comment : String) (slots : List Property) : Option Tree.Interface :=
  if slots.isEmpty then none else some (objectInterface name comment slots)

/-- The interface of what a command returns. -/
def result? (settings : Settings) (command : Command) : Option Tree.Interface :=
  wrapper? (Naming.result command.name settings.resultSuffix)
    ("The returned object from " ++ command.name ++ " command") command.returns

/-- The interface of what a command takes. -/
def params? (command : Command) : Option Tree.Interface :=
  wrapper? (Naming.params command.name)
    ("Parameters passed to the '" ++ command.name ++ "' command.") command.parameters

/-- The interface of what an event brings. -/
def eventArgs? (event : Event) : Option Tree.Interface :=
  wrapper? (Naming.eventArgs event.name)
    ("Arguments passed to the '" ++ event.name ++ "' event.") event.parameters

/-- The type of a wrapped value: the wrapper if there is one, else anything. -/
def wrappedType (wrapper : Option Tree.Interface) : String :=
  (wrapper.map (·.name)).getD anyText

/-- The parameters of a call that takes a wrapper, if there is one. -/
def wrappedParameters (wrapper : Option Tree.Interface) : List Tree.Parameter :=
  wrapper.toList.map fun made => wrappedParameter made.name

/-- The declarations of wrappers. -/
def declarations (wrappers : List (Option Tree.Interface)) : List Tree.Declaration :=
  wrappers.filterMap fun wrapper => wrapper.map .interface

end Ambient.Convert
