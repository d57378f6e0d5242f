/-
Double precision numbers, exactly.

A finite double that is not negative is a natural number times a power of two.
`Binary64.ofRatio` gives the double nearest to a quotient of natural numbers
times a power of two, an exact tie going to the even mantissa; sums of rules
about rounding are then statements about natural numbers. Signs, infinities and
NaN are not represented: a number that rounds beyond the largest finite double
has no value.

`Binary64.ofDecimal` values a decimal literal the way the loader does. That is
not the nearest double to the literal: the significand and the power of ten are
each rounded first, and their product or quotient is rounded once more.
-/
set_option autoImplicit false

namespace Ambient.Decimal

/-- The finite double `mantissa * 2 ^ exponent`, not negative. -/
structure Binary64 where
  mantissa : Nat
  exponent : Int
  deriving DecidableEq, Repr, Inhabited

/-- `num / den` as a natural number, rounded to the nearest one; of two equally
near ones the even one. -/
def roundHalfEven (num den : Nat) : Nat :=
  let low := num / den
  let twice := 2 * (num % den)
  if twice < den then low
  else if den < twice then low + 1
  else if low % 2 = 0 then low
  else low + 1

/-- The numerator and denominator of `num / den * 2 ^ power`. -/
def scale (num den : Nat) : Int → Nat × Nat
  | .ofNat power => (num * Nat.pow 2 power, den)
  | .negSucc power => (num, den * Nat.pow 2 (power + 1))

namespace Binary64

/-- The least exponent, that of zero and the subnormal numbers. -/
def leastExponent : Int := -1074

/-- The greatest exponent of a finite number. -/
def greatestExponent : Int := 971

/-- Zero. -/
def zero : Binary64 := ⟨0, leastExponent⟩

/-- Whether the number is zero. -/
def isZero (x : Binary64) : Bool := x.mantissa = 0

/-- The integer part of the binary logarithm of a positive quotient. -/
def log2Ratio (num den : Nat) : Int :=
  let guess : Int := num.log2 - den.log2
  let (scaledNum, scaledDen) := scale num den (-guess)
  if scaledDen ≤ scaledNum then guess else guess - 1

/-- The double nearest to `num / den * 2 ^ power`, if that is finite. -/
def ofRatio (num den : Nat) (power : Int) : Option Binary64 :=
  if num = 0 then some zero
  else
    let exponent := max leastExponent (log2Ratio num den + power - 52)
    let (scaledNum, scaledDen) := scale num den (power - exponent)
    let mantissa := roundHalfEven scaledNum scaledDen
    let rounded : Binary64 :=
      if mantissa = Nat.pow 2 53 then ⟨Nat.pow 2 52, exponent + 1⟩ else ⟨mantissa, exponent⟩
    if rounded.exponent ≤ greatestExponent then some rounded else none

/-- The double nearest to a natural number, if that is finite. -/
def ofNat (n : Nat) : Option Binary64 := ofRatio n 1 0

/-- The rounded product. -/
def mul (x y : Binary64) : Option Binary64 :=
  ofRatio (x.mantissa * y.mantissa) 1 (x.exponent + y.exponent)

/-- The rounded quotient. -/
def div (x y : Binary64) : Option Binary64 :=
  ofRatio x.mantissa y.mantissa (x.exponent - y.exponent)

/-- The double nearest to a power of ten, if that is finite. -/
def tenPow (n : Nat) : Option Binary64 := ofNat (Nat.pow 10 n)

/-- The greatest power of ten that is a finite double. -/
def tenPowLimit : Nat := 308

/-- The value of `significand * 10 ^ exponent`, if it is finite. Beyond the
greatest power of ten a division is made in two steps, and after two full steps
every significand of 64 bits has vanished. -/
def ofDecimal (significand : Nat) : Int → Option Binary64
  | .ofNat up =>
    if up ≤ tenPowLimit then do
      (← ofNat significand).mul (← tenPow up)
    else if significand = 0 then some zero
    else none
  | .negSucc down' =>
    let down := down' + 1
    if down ≤ tenPowLimit then do
      (← ofNat significand).div (← tenPow down)
    else if down ≤ 2 * tenPowLimit then do
      let once ← (← ofNat significand).div (← tenPow tenPowLimit)
      once.div (← tenPow (down - tenPowLimit))
    else some zero

end Binary64

end Ambient.Decimal
