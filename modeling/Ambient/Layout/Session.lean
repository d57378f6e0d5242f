/-
A session of writing: one sink, and a stack of indentations.

Every step writes something at the indentation on top of the stack, or changes the
stack, which never becomes empty. A step that fails does not end the session.
-/
import Ambient.Layout.Sink
import Ambient.Layout.Writing

set_option autoImplicit false

namespace Ambient.Layout

/-- One step of a session. -/
inductive Step where
  | line (content : String)
  | comment (content : String)
  | node (node : Tree.Node)
  | indent (levels : Nat)
  | dedent

/-- A session: the sink, the current indentation, and those to come back to. -/
structure Session where
  sink : Sink
  current : Indent
  outer : List Indent := []

namespace Session

/-- The pieces that a step writes. -/
def pieces (session : Session) : Step → List String
  | .line content => writeLine session.current content
  | .comment content => writeComment session.current content
  | .node node => writeNode session.current node
  | .indent _ | .dedent => []

/-- The indentations after a step: the current one, and those to come back to. -/
def indents (session : Session) : Step → Indent × List Indent
  | .indent levels => (session.current.deeper levels, session.current :: session.outer)
  | .dedent =>
    match session.outer with
    | [] => (session.current, [])
    | indent :: outer => (indent, outer)
  | .line _ | .comment _ | .node _ => (session.current, session.outer)

/-- The session after a step, and whether the sink took all the step wrote. -/
def advance (session : Session) (step : Step) : Session × Bool :=
  let (sink, fits) := session.sink.write (session.pieces step)
  let (current, outer) := session.indents step
  (⟨sink, current, outer⟩, fits)

end Session

end Ambient.Layout
