/-
The shortest decimal text of a double.

The digits are the fewest that lie in the interval of reals that round to the
number, and of those the nearest to it (`Binary64.shortest`). The interval's ends
belong to it when the mantissa is even, and its lower half is half as wide below
a power of two. For one digit, two digits and so on, the two neighbours of the
number on that decimal grid are tested in exact arithmetic; seventeen digits
always suffice.

`Binary64.text` writes the digits: positionally while the point stands at most
sixteen digits to the right of the first digit and at most four zeros before it,
and otherwise with an exponent that carries its sign. A positional text always has
a point.
-/
import Ambient.Decimal.Binary64

set_option autoImplicit false

namespace Ambient.Decimal

/-- The number `digits * 10 ^ exponent`. -/
structure Scientific where
  digits : Nat
  exponent : Int
  deriving DecidableEq, Repr

namespace Binary64

/-! ## Comparing with decimals -/

/-- Whether `quarters / 4` of the unit in the last place of `x` is less than
`decimal`, with equality allowed when `orEqual`. -/
def quartersBelow (x : Binary64) (orEqual : Bool) (quarters : Nat) (decimal : Scientific) : Bool :=
  let (left, leftDen) := scale quarters 4 x.exponent
  let (right, rightDen) :=
    match decimal.exponent with
    | .ofNat up => (decimal.digits * Nat.pow 10 up, 1)
    | .negSucc down => (decimal.digits, Nat.pow 10 (down + 1))
  if orEqual then left * rightDen ≤ right * leftDen else left * rightDen < right * leftDen

/-- The lower end of the interval that rounds to `x`, in quarters of a unit. -/
def lowerQuarters (x : Binary64) : Nat :=
  if x.mantissa = Nat.pow 2 52 ∧ leastExponent < x.exponent then 4 * x.mantissa - 1
  else 4 * x.mantissa - 2

/-- The upper end of the interval that rounds to `x`, in quarters of a unit. -/
def upperQuarters (x : Binary64) : Nat := 4 * x.mantissa + 2

/-- Whether a decimal rounds to `x`. -/
def readsBack (x : Binary64) (decimal : Scientific) : Bool :=
  let closed := x.mantissa % 2 = 0
  x.quartersBelow closed x.lowerQuarters decimal &&
    !x.quartersBelow (!closed) x.upperQuarters decimal

/-! ## The shortest digits -/

/-- How many digits a positive number has before the point; for a number below a
tenth, minus the zeros after it. -/
def magnitude (x : Binary64) : Int :=
  let guess := ((x.mantissa.log2 : Int) + x.exponent) * 30103 / 100000 + 1
  if x.quartersBelow false (4 * x.mantissa) ⟨1, guess⟩ then guess else guess + 1

/-- The greatest multiple of `10 ^ exponent` that is not above `x`. -/
def gridBelow (x : Binary64) (exponent : Int) : Scientific :=
  let (num, den) := scale x.mantissa 1 x.exponent
  match exponent with
  | .ofNat up => ⟨num / (den * Nat.pow 10 up), exponent⟩
  | .negSucc down => ⟨num * Nat.pow 10 (down + 1) / den, exponent⟩

/-- Whether `x` lies nearer to the multiple `low` of a power of ten than to the
next one, an exact tie going to the even one. -/
def nearerBelow (x : Binary64) (low : Scientific) : Bool :=
  let middle : Scientific := ⟨low.digits * 10 + 5, low.exponent - 1⟩
  x.quartersBelow (low.digits % 2 == 0) (4 * x.mantissa) middle

/-- The multiple of `10 ^ exponent` that reads back as `x`, the nearer one if both
neighbours do. -/
def onGrid? (x : Binary64) (exponent : Int) : Option Scientific :=
  let low := x.gridBelow exponent
  let high : Scientific := ⟨low.digits + 1, exponent⟩
  match x.readsBack low, x.readsBack high with
  | true, true => some (if x.nearerBelow low then low else high)
  | true, false => some low
  | false, true => some high
  | false, false => none

/-- The fewest digits that read back as a positive number. A number just below a
power of ten may round up to it, and then its last digit is a zero to drop. -/
def shortest (x : Binary64) : Scientific :=
  let point := x.magnitude
  let found := ((List.range 17).findSome? fun extra : Nat =>
    x.onGrid? (point - 1 - (extra : Int))).getD (x.gridBelow (point - 17))
  if found.digits % 10 = 0 then ⟨found.digits / 10, found.exponent + 1⟩ else found

/-! ## Writing them -/

/-- The greatest number of digits before the point of a positional text. -/
def widestWhole : Int := 16

/-- The greatest number of zeros between the point and the first digit of a
positional text. -/
def deepestPoint : Int := 4

/-- `count` zeros. -/
def zeros (count : Int) : String := String.ofList (List.replicate count.toNat '0')

/-- A decimal written out. -/
def decimalText (decimal : Scientific) : String :=
  let digits := Nat.toDigits 10 decimal.digits
  let text := String.ofList digits
  let point : Int := digits.length + decimal.exponent
  if 0 ≤ decimal.exponent ∧ point ≤ widestWhole then
    text ++ zeros decimal.exponent ++ ".0"
  else if 0 < point ∧ point ≤ widestWhole then
    String.ofList (digits.take point.toNat) ++ "." ++ String.ofList (digits.drop point.toNat)
  else if -deepestPoint ≤ point ∧ point ≤ 0 then
    "0." ++ zeros (-point) ++ text
  else
    let fraction := if digits.length ≤ 1 then "" else "." ++ String.ofList (digits.drop 1)
    let power := point - 1
    let sign := if power < 0 then "-" else "+"
    String.ofList (digits.take 1) ++ fraction ++ "e" ++ sign ++ toString power.natAbs

/-- The shortest text of a number that is not negative. -/
def text (x : Binary64) : String :=
  if x.isZero then "0.0" else decimalText x.shortest

end Binary64

end Ambient.Decimal
