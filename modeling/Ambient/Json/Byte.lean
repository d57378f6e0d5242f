/-
The bytes that JSON gives a meaning to.

A reader decides by the first byte of a value what kind of value follows;
`Lead.of` is that decision. White space is the space, the tab, the line feed and
the carriage return, and nothing else.
-/
set_option autoImplicit false

namespace Ambient.Json

/-! ## Names of bytes -/

namespace Byte

/-- The byte `"`. -/
def quote : UInt8 := 0x22

/-- The byte `\`. -/
def backslash : UInt8 := 0x5C

/-- The byte `,`. -/
def comma : UInt8 := 0x2C

/-- The byte `:`. -/
def colon : UInt8 := 0x3A

/-- The byte `[`. -/
def listOpen : UInt8 := 0x5B

/-- The byte `]`. -/
def listClose : UInt8 := 0x5D

/-- The opening brace. -/
def objectOpen : UInt8 := 0x7B

/-- The closing brace. -/
def objectClose : UInt8 := 0x7D

/-- The byte `-`. -/
def minus : UInt8 := 0x2D

/-- The byte `+`. -/
def plus : UInt8 := 0x2B

/-- The byte `.`. -/
def point : UInt8 := 0x2E

/-- The byte `0`. -/
def zero : UInt8 := 0x30

/-- The byte `u`. -/
def letterU : UInt8 := 0x75

/-- Whether a byte is white space. -/
def isSpace (b : UInt8) : Bool := b == 0x20 || b == 0x09 || b == 0x0A || b == 0x0D

/-- Whether a byte is a decimal digit. -/
def isDigit (b : UInt8) : Bool := 0x30 ≤ b && b ≤ 0x39

/-- The value of a decimal digit. -/
def digit (b : UInt8) : Nat := b.toNat - 0x30

/-- Whether a byte starts an exponent. -/
def isExponent (b : UInt8) : Bool := b == 0x65 || b == 0x45

/-- The value of a hexadecimal digit of either case. -/
def hexDigit? (b : UInt8) : Option Nat :=
  if isDigit b then some (digit b)
  else if 0x61 ≤ b && b ≤ 0x66 then some (b.toNat - 0x61 + 10)
  else if 0x41 ≤ b && b ≤ 0x46 then some (b.toNat - 0x41 + 10)
  else none

/-- The byte that a one-letter escape stands for. -/
def escaped? (b : UInt8) : Option UInt8 :=
  if b == quote || b == backslash || b == 0x2F then some b
  else if b == 0x62 then some 0x08
  else if b == 0x66 then some 0x0C
  else if b == 0x6E then some 0x0A
  else if b == 0x72 then some 0x0D
  else if b == 0x74 then some 0x09
  else none

end Byte

/-! ## The first byte of a value -/

/-- What the first byte of a value announces. -/
inductive Lead where
  | null
  | yes
  | no
  | number
  | text
  | list
  | object
  | other
  deriving DecidableEq, Repr

/-- What a byte announces as the first byte of a value. -/
def Lead.of (b : UInt8) : Lead :=
  if b == Byte.quote then .text
  else if b == Byte.objectOpen then .object
  else if b == Byte.listOpen then .list
  else if b == Byte.minus || Byte.isDigit b then .number
  else if b == 0x6E then .null
  else if b == 0x74 then .yes
  else if b == 0x66 then .no
  else .other

/-- The text after leading white space. -/
def skipSpace (text : List UInt8) : List UInt8 := text.dropWhile Byte.isSpace

end Ambient.Json
