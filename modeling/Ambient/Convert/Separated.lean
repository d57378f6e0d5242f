/-
The separated style.

A domain becomes a namespace with its types and the wrappers made for its commands and
events. The commands and the events themselves are interfaces with a call signature,
in the child namespaces `Commands` and `Events`, which are there even when they are
empty. The parameters of a command stand in its signature; those of an event are
wrapped.
-/
import Ambient.Convert.Basic

set_option autoImplicit false

namespace Ambient.Convert.Separated

open Ambient.Schema

/-- The name of the namespace of the commands. -/
def commandsName : String := "Commands"

/-- The name of the namespace of the events. -/
def eventsName : String := "Events"

/-- An interface that is called through a signature without a comment. -/
def caller (name comment : String) (parameters : List Tree.Parameter) (returnType : String) :
    Tree.Interface :=
  { name, comment, callable := .signature { parameters, returnType } }

/-- A command as an interface, with the wrapper of what it returns. -/
def command (settings : Settings) (source : Command) : Converted Tree.Interface :=
  let result := result? settings source
  { member := caller source.name source.description (source.parameters.map parameter)
      (wrappedType result)
    types := declarations [result] }

/-- An event as an interface, with the wrapper of what it brings. -/
def event (source : Event) : Converted Tree.Interface :=
  let args := eventArgs? source
  { member := caller source.name source.description (wrappedParameters args) anyText
    types := declarations [args] }

/-- A child namespace of the callers of one kind. -/
def callers (name kind domain : String) (members : List Tree.Interface) : Tree.Namespace :=
  { name
    comment := "All " ++ kind ++ " belonging to the " ++ domain ++ " domain."
    types := members.map .interface }

/-- A domain as a namespace. -/
def domain (settings : Settings) (source : Domain) : Tree.Namespace :=
  let commands := source.commands.map (command settings)
  let events := source.events.map event
  { name := source.name
    comment := source.description
    namespaces :=
      [callers commandsName "commands" source.name (commands.map (·.member)),
        callers eventsName "events" source.name (events.map (·.member))]
    types := source.types.map definition ++ commands.flatMap (·.types) ++
      events.flatMap (·.types) }

end Ambient.Convert.Separated
