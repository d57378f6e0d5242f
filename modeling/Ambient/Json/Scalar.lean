/-
Identifiers and number literals.

A value that is only passed over needs the same scan as one that is read: the two
differ in what a number that ends with the text is called, which is a parameter of
`scanNumber`.
-/
import Ambient.Json.Byte
import Ambient.Json.Fault

set_option autoImplicit false

namespace Ambient.Json

/-! ## Identifiers -/

/-- Passes over the bytes of an identifier after its first letter. A byte that does
not belong to it counts as read. -/
def expectBytes : List UInt8 → List UInt8 → Except Fault (List UInt8)
  | [], rest => .ok rest
  | _ :: _, [] => .error (.here .endOfValue [])
  | wanted :: more, b :: rest =>
    if b = wanted then expectBytes more rest else .error (.here .badIdentifier rest)

/-- The letters of `null` after the first. -/
def nullTail : List UInt8 := [0x75, 0x6C, 0x6C]

/-- The letters of `true` after the first. -/
def yesTail : List UInt8 := [0x72, 0x75, 0x65]

/-- The letters of `false` after the first. -/
def noTail : List UInt8 := [0x61, 0x6C, 0x73, 0x65]

/-! ## Number literals -/

/-- The leading digits of a text, and the rest. -/
def spanDigits (text : List UInt8) : List Nat × List UInt8 :=
  ((text.takeWhile Byte.isDigit).map Byte.digit, text.dropWhile Byte.isDigit)

/-- The whole part of a number: one zero, or digits that do not start with one. -/
def scanWhole (atEnd : Cause) : List UInt8 → Except Fault (List Nat × List UInt8)
  | [] => .error (.here atEnd [])
  | b :: rest =>
    if b = Byte.zero then
      match rest with
      | [] => .ok ([0], [])
      | c :: _ => if Byte.isDigit c then .error (.next .badNumber rest) else .ok ([0], rest)
    else if Byte.isDigit b then .ok (spanDigits (b :: rest))
    else .error (.here .badNumber rest)

/-- The fraction of a number, if a point follows. -/
def scanFraction (atEnd : Cause) (text : List UInt8) : Except Fault (List Nat × List UInt8) :=
  match text with
  | [] => .ok ([], [])
  | b :: rest =>
    if b = Byte.point then
      match spanDigits rest with
      | ([], []) => .error (.next atEnd [])
      | ([], left) => .error (.next .badNumber left)
      | (digits, left) => .ok (digits, left)
    else .ok ([], text)

/-- The sign of an exponent: whether it is negative, and the rest. -/
def scanSign : List UInt8 → Bool × List UInt8
  | [] => (false, [])
  | b :: rest =>
    if b = Byte.minus then (true, rest)
    else if b = Byte.plus then (false, rest)
    else (false, b :: rest)

/-- The exponent of a number, if one follows. -/
def scanExponent (atEnd : Cause) (text : List UInt8) :
    Except Fault (Option (Bool × List Nat) × List UInt8) :=
  match text with
  | [] => .ok (none, [])
  | b :: rest =>
    if Byte.isExponent b then
      match scanSign rest with
      | (_, []) => .error (.here atEnd [])
      | (negative, c :: left) =>
        if Byte.isDigit c then
          let (digits, left) := spanDigits (c :: left)
          .ok (some (negative, digits), left)
        else .error (.here .badNumber left)
    else .ok (none, text)

/-- A number literal. `atEnd` is the cause of a fault where the text ends before the
literal is complete. -/
def scanNumber (atEnd : Cause) (text : List UInt8) : Except Fault (Literal × List UInt8) := do
  let (negative, text) :=
    match text with
    | [] => (false, [])
    | b :: rest => if b = Byte.minus then (true, rest) else (false, text)
  let (whole, text) ← scanWhole atEnd text
  let (fraction, text) ← scanFraction atEnd text
  let (exponent?, text) ← scanExponent atEnd text
  return (⟨negative, whole, fraction, exponent?⟩, text)

/-- Reads a number and values it. -/
def readNumber : Reader Number := fun text => do
  let (literal, rest) ← scanNumber .endOfValue text
  match literal.number? with
  | .ok number => return (number, rest)
  | .error unread => .error ⟨.numberOutOfRange, [], ⟨rest.length + unread, 0⟩⟩

end Ambient.Json
