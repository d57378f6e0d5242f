/-
JSON numbers: what a literal says, and the value the loader gives it.

A literal is kept as its digits (`Literal`), so that every rule about a value is a
rule about lists of digits. `Literal.number?` values it. A literal without point
and exponent is an integer while it fits 64 bits, signed when it is negative;
every other literal, and `-0`, is a double.

Digits enter the significand while it fits 64 bits. From the first digit of the
whole part that would not fit, the rest of the whole part only raises the power of
ten; the digits of the fraction from the first one that would not fit are dropped.
An exponent is collected while it fits 32 bits; a larger one puts a number that is
not zero out of range, or makes it zero.
-/
import Ambient.Decimal.Shortest

set_option autoImplicit false

namespace Ambient.Json

open Ambient.Decimal

/-- A number as the loader sees it: an integer, or a finite double with a sign of
its own. -/
inductive Number where
  | integer (value : Int)
  | double (negative : Bool) (magnitude : Binary64)
  deriving DecidableEq, Repr, Inhabited

/-- The digits of a JSON number. The whole part has at least one digit, and none
after a leading zero; an exponent has its sign and at least one digit. -/
structure Literal where
  negative : Bool
  whole : List Nat
  fraction : List Nat := []
  exponent? : Option (Bool × List Nat) := none
  deriving DecidableEq, Repr

/-- The greatest significand. -/
def significandLimit : Nat := Nat.pow 2 64 - 1

/-- The greatest exponent that is collected. -/
def exponentLimit : Nat := Nat.pow 2 31 - 1

/-- Appends digits to `value` while the result is at most `limit`; gives the value
and the digits that are left. -/
def collect (limit : Nat) : Nat → List Nat → Nat × List Nat
  | value, [] => (value, [])
  | value, digit :: digits =>
    if value * 10 + digit ≤ limit then collect limit (value * 10 + digit) digits
    else (value, digit :: digits)

/-- The integer that a sign and a magnitude stand for, if it has one: zero has no
negative, and the negative integers end at `-2 ^ 63`. -/
def signedInteger? (negative : Bool) (magnitude : Nat) : Option Int :=
  if !negative then some magnitude
  else if magnitude = 0 ∨ Nat.pow 2 63 < magnitude then none
  else some (-magnitude)

namespace Literal

/-- The significand, the power of ten that belongs to it, and whether the whole
part fits the significand. -/
def significand (literal : Literal) : Nat × Int × Bool :=
  let (whole, raised) := collect significandLimit 0 literal.whole
  let (value, dropped) := collect significandLimit whole literal.fraction
  let lowered := literal.fraction.length - dropped.length
  (value, (raised.length : Int) - lowered, raised.isEmpty)

/-- Whether neither a point nor an exponent is written. -/
def isWhole (literal : Literal) : Bool := literal.fraction.isEmpty && literal.exponent?.isNone

/-- The value of a literal. If it is out of range, the number of digits of the
exponent that need not be read to tell. -/
def number? (literal : Literal) : Except Nat Number :=
  let (significand, power, fits) := literal.significand
  let double (power : Int) : Except Nat Number :=
    match Binary64.ofDecimal significand power with
    | some magnitude => .ok (.double literal.negative magnitude)
    | none => .error 0
  match literal.exponent? with
  | none =>
    if literal.isWhole && fits then
      match signedInteger? literal.negative significand with
      | some value => .ok (.integer value)
      | none => double power
    else double power
  | some (down, digits) =>
    match collect exponentLimit 0 digits with
    | (exponent, []) => double (if down then power - exponent else power + exponent)
    | (_, _ :: unread) =>
      if significand = 0 ∨ down then .ok (.double literal.negative .zero)
      else .error unread.length

end Literal

end Ambient.Json
