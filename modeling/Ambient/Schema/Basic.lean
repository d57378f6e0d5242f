/-
A protocol domain: its types, commands and events.

These records are passive data. Every name, list and description may be absent
from a description, in which case it is empty; the default of each field below
is that empty value.
-/
import Ambient.Schema.Reference

set_option autoImplicit false

namespace Ambient.Schema

/-- A named slot with a type: a property of an object, a parameter of a command
or an event, or a field that a command returns. -/
structure Property where
  name : String := ""
  reference : Reference := .blank
  optional : Bool := false
  description : String := ""
  deriving DecidableEq, Repr, Inhabited

/-- A type that a domain declares. Its reference says what it is; the properties
matter only when it is an object. -/
structure Definition where
  id : String := ""
  reference : Reference := .blank
  description : String := ""
  properties : List Property := []
  deriving DecidableEq, Repr, Inhabited

/-- Something a client may ask for. -/
structure Command where
  name : String := ""
  description : String := ""
  parameters : List Property := []
  returns : List Property := []
  deriving DecidableEq, Repr, Inhabited

/-- Something a client may be told. -/
structure Event where
  name : String := ""
  description : String := ""
  parameters : List Property := []
  deriving DecidableEq, Repr, Inhabited

/-- A group of types, commands and events that belong together. -/
structure Domain where
  name : String := ""
  description : String := ""
  types : List Definition := []
  commands : List Command := []
  events : List Event := []
  deriving DecidableEq, Repr, Inhabited

/-- A definition whose kind tag is `object` declares an interface; every other
definition declares an alias. -/
def Definition.isObject (definition : Definition) : Bool :=
  definition.reference.kind? = some "object"

end Ambient.Schema
