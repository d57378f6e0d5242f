/-
The characters of a sequence of bytes, as far as it is UTF-8.

`decode` reads characters off the front until a byte cannot be part of one. The
bytes that are left are what tells where a text stops being UTF-8, so they are
given back; none are left exactly when the whole sequence is UTF-8.
-/
set_option autoImplicit false

namespace Ambient.Json.Utf8

/-- Whether a byte continues a character. -/
def isTail (b : UInt8) : Bool := 0x80 ≤ b && b ≤ 0xBF

/-- The character of two bytes, if they are one. -/
def two? (a b : UInt8) : Option Char :=
  if 0xC2 ≤ a && a ≤ 0xDF && isTail b then
    some (Char.ofNat ((a.toNat - 0xC0) * 64 + (b.toNat - 0x80)))
  else none

/-- The character of three bytes, if they are one: it is neither overlong nor a
surrogate. -/
def three? (a b c : UInt8) : Option Char :=
  let code := (a.toNat - 0xE0) * 4096 + (b.toNat - 0x80) * 64 + (c.toNat - 0x80)
  if 0xE0 ≤ a && a ≤ 0xEF && isTail b && isTail c && 0x800 ≤ code &&
      !(0xD800 ≤ code && code ≤ 0xDFFF) then
    some (Char.ofNat code)
  else none

/-- The character of four bytes, if they are one: it is neither overlong nor beyond
the last character. -/
def four? (a b c d : UInt8) : Option Char :=
  let code := (a.toNat - 0xF0) * 262144 + (b.toNat - 0x80) * 4096 + (c.toNat - 0x80) * 64 +
    (d.toNat - 0x80)
  if 0xF0 ≤ a && a ≤ 0xF4 && isTail b && isTail c && isTail d && 0x10000 ≤ code &&
      code ≤ 0x10FFFF then
    some (Char.ofNat code)
  else none

/-- Puts a character in front of what was decoded. -/
def put (char : Char) (decoded : List Char × List UInt8) : List Char × List UInt8 :=
  (char :: decoded.1, decoded.2)

/-- The characters that the bytes start with, and the bytes from the first one that
belongs to no character. -/
def decode : List UInt8 → List Char × List UInt8
  | [] => ([], [])
  | a :: afterA =>
    if a < 0x80 then put (Char.ofNat a.toNat) (decode afterA)
    else
      match afterA with
      | [] => ([], [a])
      | b :: afterB =>
        match two? a b with
        | some char => put char (decode afterB)
        | none =>
          match afterB with
          | [] => ([], [a, b])
          | c :: afterC =>
            match three? a b c with
            | some char => put char (decode afterC)
            | none =>
              match afterC with
              | [] => ([], [a, b, c])
              | d :: afterD =>
                match four? a b c d with
                | some char => put char (decode afterD)
                | none => ([], a :: b :: c :: d :: afterD)

end Ambient.Json.Utf8
