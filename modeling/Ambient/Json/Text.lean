/-
JSON strings, read and passed over.

A string is read in two steps. `readContents` undoes the escapes and gives bytes;
`decodeContents` takes the bytes for UTF-8. An escape above the basic plane is
written as two surrogates, which must both be there and in order. A string that is
passed over needs less: its escapes must be well formed, but surrogates and UTF-8
are not looked at.
-/
import Ambient.Json.Byte
import Ambient.Json.Fault
import Ambient.Json.Utf8

set_option autoImplicit false

namespace Ambient.Json

/-! ## Escapes -/

/-- The number that four hexadecimal digits stand for. -/
def hexCode? (a b c d : UInt8) : Option Nat := do
  return ((← Byte.hexDigit? a) * 16 + (← Byte.hexDigit? b)) * 256 +
    ((← Byte.hexDigit? c) * 16 + (← Byte.hexDigit? d))

/-- Whether a code is the first half of a surrogate pair. -/
def isHighSurrogate (code : Nat) : Bool := 0xD800 ≤ code && code ≤ 0xDBFF

/-- Whether a code is the second half of a surrogate pair. -/
def isLowSurrogate (code : Nat) : Bool := 0xDC00 ≤ code && code ≤ 0xDFFF

/-- The code point of a surrogate pair. -/
def joinSurrogates (high low : Nat) : Nat :=
  (high - 0xD800) * 1024 + (low - 0xDC00) + 0x10000

/-- The bytes of a code point. -/
def codeBytes (code : Nat) : List UInt8 := String.utf8EncodeChar (Char.ofNat code)

/-! ## Reading -/

/-- Puts bytes in front of the contents read so far. -/
def putBytes (bytes : List UInt8) (read : Except Fault (List UInt8 × List UInt8)) :
    Except Fault (List UInt8 × List UInt8) :=
  read.map fun (contents, rest) => (bytes ++ contents, rest)

/-- The contents of a string after its opening quote, with the escapes undone, and
the text after its closing quote. -/
def readContents : List UInt8 → Except Fault (List UInt8 × List UInt8)
  | [] => .error (.here .endOfText [])
  | b :: rest =>
    if b = Byte.quote then .ok ([], rest)
    else if b ≠ Byte.backslash then
      if b < 0x20 then .error (.here .controlCharacter rest)
      else putBytes [b] (readContents rest)
    else
      match rest with
      | [] => .error (.here .endOfText [])
      | e :: afterEscape =>
        if e ≠ Byte.letterU then
          match Byte.escaped? e with
          | some byte => putBytes [byte] (readContents afterEscape)
          | none => .error (.here .badEscape afterEscape)
        else
          match afterEscape with
          | a :: b :: c :: d :: afterCode =>
            match hexCode? a b c d with
            | none => .error (.here .badEscape afterCode)
            | some code =>
              if isLowSurrogate code then .error (.here .loneSurrogate afterCode)
              else if isHighSurrogate code then
                match afterCode with
                | [] => .error (.here .endOfText [])
                | x :: afterX =>
                  if x ≠ Byte.backslash then .error (.here .unfinishedSurrogate afterX)
                  else
                    match afterX with
                    | [] => .error (.here .endOfText [])
                    | y :: afterY =>
                      if y ≠ Byte.letterU then .error (.here .unfinishedSurrogate afterY)
                      else
                        match afterY with
                        | a :: b :: c :: d :: afterPair =>
                          match hexCode? a b c d with
                          | none => .error (.here .badEscape afterPair)
                          | some low =>
                            if isLowSurrogate low then
                              putBytes (codeBytes (joinSurrogates code low))
                                (readContents afterPair)
                            else .error (.here .loneSurrogate afterPair)
                        | _ => .error (.here .endOfText [])
              else putBytes (codeBytes code) (readContents afterCode)
          | _ => .error (.here .endOfText [])

/-- The text that bytes stand for. A fault lies where the string ends, stepped back
by the bytes that could not be decoded. -/
def decodeContents (contents rest : List UInt8) : Except Fault String :=
  match Utf8.decode contents with
  | (chars, []) => .ok (String.ofList chars)
  | (_, undecoded) => .error ⟨.badCharacter, [], ⟨rest.length, undecoded.length⟩⟩

/-- Reads a string after its opening quote. -/
def readString : Reader String := fun text => do
  let (contents, rest) ← readContents text
  return (← decodeContents contents rest, rest)

/-! ## Passing over -/

/-- Passes over a string after its opening quote. A control character is not read. -/
def passString : List UInt8 → Except Fault (List UInt8)
  | [] => .error (.here .endOfText [])
  | b :: rest =>
    if b = Byte.quote then .ok rest
    else if b ≠ Byte.backslash then
      if b < 0x20 then .error (.here .controlCharacter (b :: rest)) else passString rest
    else
      match rest with
      | [] => .error (.here .endOfText [])
      | e :: afterEscape =>
        if e ≠ Byte.letterU then
          match Byte.escaped? e with
          | some _ => passString afterEscape
          | none => .error (.here .badEscape afterEscape)
        else
          match afterEscape with
          | a :: b :: c :: d :: afterCode =>
            match hexCode? a b c d with
            | none => .error (.here .badEscape afterCode)
            | some _ => passString afterCode
          | _ => .error (.here .endOfText [])

end Ambient.Json
