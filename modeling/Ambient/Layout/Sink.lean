/-
An output that may fill up.

A sink takes bytes until its room is used up. A piece of text that does not fit is taken
as far as there is room, and then fails; writing a list of pieces stops at the first
piece that fails. An empty piece always fits.
-/
set_option autoImplicit false

namespace Ambient.Layout

/-- The bytes taken so far, the last one first, and the room that is left if it is
limited. -/
structure Sink where
  taken : List UInt8 := []
  room? : Option Nat := none
  deriving DecidableEq, Repr

namespace Sink

/-- An empty sink. -/
def empty (limit? : Option Nat) : Sink := { room? := limit? }

/-- The bytes taken so far. -/
def bytes (sink : Sink) : List UInt8 := sink.taken.reverse

/-- Takes bytes, as far as there is room; whether all of them fit. -/
def take (sink : Sink) (bytes : List UInt8) : Sink × Bool :=
  match sink.room? with
  | none => ({ sink with taken := bytes.reverse ++ sink.taken }, true)
  | some room =>
    let fitting := bytes.take room
    ({ taken := fitting.reverse ++ sink.taken, room? := some (room - fitting.length) },
      bytes.length ≤ room)

/-- The bytes of a text. -/
def textBytes (text : String) : List UInt8 := text.toByteArray.data.toList

/-- Writes pieces in order up to the first one that fails; whether all of them fit. -/
def write : Sink → List String → Sink × Bool
  | sink, [] => (sink, true)
  | sink, piece :: pieces =>
    match sink.take (textBytes piece) with
    | (sink, true) => sink.write pieces
    | (sink, false) => (sink, false)

end Sink

end Ambient.Layout
