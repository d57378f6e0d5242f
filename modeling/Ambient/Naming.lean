/-
Names that the declarations need and a description does not give.

Commands and events are written in lower camel case. The types made for them
carry the name in pascal case followed by a suffix, and the handler of an event
carries it after `on`. Only the first character changes; an empty name stays
empty, so the made name is then the suffix alone.
-/
import Ambient.Text.Uppercase

set_option autoImplicit false

namespace Ambient.Naming

/-- The name with its first character in full upper case. -/
def pascal (name : String) : String :=
  match name.toList with
  | [] => ""
  | first :: rest => String.ofList (Text.uppercase first ++ rest)

/-- The type that holds what a command returns. -/
def result (command suffix : String) : String := pascal command ++ suffix

/-- The type that holds the parameters of a command. -/
def params (command : String) : String := pascal command ++ "Params"

/-- The type that holds the parameters of an event. -/
def eventArgs (event : String) : String := pascal event ++ "EventArgs"

/-- The method that receives an event. -/
def handler (event : String) : String := "on" ++ pascal event

end Ambient.Naming
