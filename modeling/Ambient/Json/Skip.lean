/-
Passing over a value whose content does not matter.

The value must be well formed, but nothing is computed: numbers have no range, and
brackets may be nested to any depth. The open brackets are kept on a stack, the
innermost first, so there is one loop with two states: a value is wanted
(`passValue`), or a value has just ended (`passOn`). Every two steps read at least one
byte, so twice the number of bytes left bounds the steps.
-/
import Ambient.Json.Bracket
import Ambient.Json.Scalar

set_option autoImplicit false

namespace Ambient.Json

/-- A kind of bracket. -/
inductive Bracket where
  | list
  | object
  deriving DecidableEq, Repr

namespace Bracket

/-- The byte that closes the bracket. -/
def close : Bracket → UInt8
  | list => Byte.listClose
  | object => Byte.objectClose

/-- The cause of a fault where the text ends inside the bracket. -/
def endOfText : Bracket → Cause
  | list => .endOfList
  | object => .endOfObject

/-- The cause of a fault where neither a comma nor the closing bracket follows. -/
def noComma : Bracket → Cause
  | list => .noCommaInList
  | object => .noCommaInObject

end Bracket

/-- Passes over a key and its colon. -/
def passKey (text : List UInt8) : Except Fault (List UInt8) :=
  match skipSpace text with
  | [] => .error (.next .endOfObject [])
  | b :: rest =>
    if b = Byte.quote then do expectColon (← passString rest)
    else .error (.next .keyNotText (b :: rest))

/-- Passes over what stands before the next value inside a bracket. -/
def passToValue (bracket : Bracket) (text : List UInt8) : Except Fault (List UInt8) :=
  match bracket with
  | .list => .ok text
  | .object => passKey text

/-- Passes over a value that is neither list nor object. -/
def passScalar (lead : Lead) (value rest : List UInt8) : Except Fault (List UInt8) :=
  match lead with
  | .null => expectBytes nullTail rest
  | .yes => expectBytes yesTail rest
  | .no => expectBytes noTail rest
  | .text => passString rest
  | .number => do return (← scanNumber .badNumber value).2
  | .list | .object | .other => .error (.next .noValue value)

mutual

/-- Passes over a value and everything up to the end of the outermost bracket. -/
def passValue : Nat → List Bracket → List UInt8 → Except Fault (List UInt8)
  | 0, _, _ => .error (.next .endOfValue [])
  | steps + 1, stack, text =>
    match skipSpace text with
    | [] => .error (.next .endOfValue [])
    | b :: rest =>
      match Lead.of b with
      | .list => passInto steps .list stack rest
      | .object => passInto steps .object stack rest
      | lead => do passOn steps stack (← passScalar lead (b :: rest) rest)

/-- Goes on after an opening bracket. -/
def passInto : Nat → Bracket → List Bracket → List UInt8 → Except Fault (List UInt8)
  | 0, _, _, _ => .error (.next .endOfValue [])
  | steps + 1, bracket, stack, text =>
    match skipSpace text with
    | [] => .error (.next bracket.endOfText [])
    | b :: rest =>
      if b = bracket.close then passOn steps stack rest
      else do passValue steps (bracket :: stack) (← passToValue bracket (b :: rest))

/-- Goes on after a value. -/
def passOn : Nat → List Bracket → List UInt8 → Except Fault (List UInt8)
  | _, [], text => .ok text
  | 0, _ :: _, _ => .error (.next .endOfValue [])
  | steps + 1, bracket :: stack, text =>
    match skipSpace text with
    | [] => .error (.next bracket.endOfText [])
    | b :: rest =>
      if b = Byte.comma then do
        passValue steps (bracket :: stack) (← passToValue bracket rest)
      else if b = bracket.close then passOn steps stack rest
      else .error (.next bracket.noComma (b :: rest))

end

/-- Passes over one value. -/
def skipValue : Reader Unit := fun text => do
  return ((), ← passValue (2 * text.length + 1) [] text)

end Ambient.Json
