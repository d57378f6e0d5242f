/-
The unified style.

A domain becomes one flat list of types: its own, then the wrappers made for its
commands and events, and last an interface of the domain's name with a method for every
command and a handler for every event. A domain without commands and events has no such
interface. Parameters are always wrapped.
-/
import Ambient.Convert.Basic

set_option autoImplicit false

namespace Ambient.Convert.Unified

open Ambient.Schema

/-- A command as a method, with the wrappers of what it takes and of what it returns. -/
def command (settings : Settings) (source : Command) : Converted Tree.Method :=
  let params := params? source
  let result := result? settings source
  { member := ⟨source.name, wrappedParameters params, wrappedType result, source.description⟩
    types := declarations [params, result] }

/-- An event as a handler, with the wrapper of what it brings. -/
def event (source : Event) : Converted Tree.Method :=
  let args := eventArgs? source
  { member := ⟨Naming.handler source.name, wrappedParameters args, anyText, source.description⟩
    types := declarations [args] }

/-- The interface that holds the methods of a domain, if there are any. -/
def surface? (domain : String) (methods : List Tree.Method) : Option Tree.Interface :=
  if methods.isEmpty then none
  else some
    { name := domain
      comment := "Commands and events belonging to the " ++ domain ++ " domain."
      callable := .methods methods }

/-- A domain as a namespace. -/
def domain (settings : Settings) (source : Domain) : Tree.Namespace :=
  let commands := source.commands.map (command settings)
  let events := source.events.map event
  let surface := surface? source.name (commands.map (·.member) ++ events.map (·.member))
  { name := source.name
    comment := source.description
    types := source.types.map definition ++ commands.flatMap (·.types) ++
      events.flatMap (·.types) ++ declarations [surface] }

end Ambient.Convert.Unified
