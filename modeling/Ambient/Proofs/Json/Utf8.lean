/-
The bytes of a text are read back as the text.

A character has one to four bytes, and the first byte tells how many: `decode` never takes
the bytes of one character for those of a shorter one. Each length has its lemma, and
`decode_encode` goes through a text by them.
-/
import Ambient.Json.Utf8
import Ambient.Layout.Sink

set_option autoImplicit false

namespace Ambient.Json

/-- The bytes of characters. -/
def encode (text : List Char) : List UInt8 := text.flatMap String.utf8EncodeChar

@[simp] theorem encode_nil : encode [] = [] := rfl

theorem encode_cons (c : Char) (text : List Char) :
    encode (c :: text) = String.utf8EncodeChar c ++ encode text := List.flatMap_cons

@[simp] theorem encode_append (text more : List Char) :
    encode (text ++ more) = encode text ++ encode more := List.flatMap_append

/-- The bytes of a text are those of its characters, one after the other. -/
theorem textBytes_eq_encode (text : String) : Layout.Sink.textBytes text = encode text.toList := by
  conv => lhs; rw [← String.ofList_toList (s := text)]
  rw [Layout.Sink.textBytes, String.toByteArray_ofList, List.utf8Encode, List.data_toByteArray]
  rfl

namespace Utf8

variable (code : Nat)

theorem toNat_ofNat_of_lt {n : Nat} (h : n < 256) : (UInt8.ofNat n).toNat = n := by
  rw [UInt8.toNat_ofNat']
  exact Nat.mod_eq_of_lt h

/-- The bytes of a character after the first. -/
theorem isTail_ofNat (n : Nat) : isTail (.ofNat (n % 0x40 + 0x80)) = true := by
  have hn := toNat_ofNat_of_lt (n := n % 0x40 + 0x80) (by omega)
  have hlow : (0x80 : UInt8).toNat = 0x80 := rfl
  have hhigh : (0xBF : UInt8).toNat = 0xBF := rfl
  simp only [isTail, Bool.and_eq_true, decide_eq_true_eq, UInt8.le_iff_toNat_le, hn, hlow, hhigh]
  omega

/-- Codes up to `0x7FF` have two bytes, with five and six bits of the code. -/
theorem two?_encoded (hlow : 0x80 ≤ code) (hhigh : code ≤ 0x7FF) :
    two? (.ofNat (code / 64 % 0x20 + 0xC0)) (.ofNat (code % 0x40 + 0x80)) =
      some (Char.ofNat code) := by
  have ha := toNat_ofNat_of_lt (n := code / 64 % 0x20 + 0xC0) (by omega)
  have hb := toNat_ofNat_of_lt (n := code % 0x40 + 0x80) (by omega)
  have hfirst : (0xC2 : UInt8).toNat = 0xC2 := rfl
  have hlast : (0xDF : UInt8).toNat = 0xDF := rfl
  have hcode : (code / 64 % 0x20 + 0xC0 - 0xC0) * 64 + (code % 0x40 + 0x80 - 0x80) = code := by
    omega
  rw [two?, if_pos, ha, hb, hcode]
  simp only [Bool.and_eq_true, decide_eq_true_eq, UInt8.le_iff_toNat_le, ha, hfirst, hlast,
    isTail_ofNat, and_true]
  omega

/-- Codes up to `0xFFFF` have three bytes; the surrogates among them are no characters. -/
theorem three?_encoded (hlow : 0x800 ≤ code) (hhigh : code ≤ 0xFFFF)
    (hvalid : code < 0xD800 ∨ 0xDFFF < code) :
    three? (.ofNat (code / 4096 % 0x10 + 0xE0)) (.ofNat (code / 64 % 0x40 + 0x80))
      (.ofNat (code % 0x40 + 0x80)) = some (Char.ofNat code) := by
  have ha := toNat_ofNat_of_lt (n := code / 4096 % 0x10 + 0xE0) (by omega)
  have hb := toNat_ofNat_of_lt (n := code / 64 % 0x40 + 0x80) (by omega)
  have hc := toNat_ofNat_of_lt (n := code % 0x40 + 0x80) (by omega)
  have hfirst : (0xE0 : UInt8).toNat = 0xE0 := rfl
  have hlast : (0xEF : UInt8).toNat = 0xEF := rfl
  -- the payloads of the bytes make up the code, which is not too small and no surrogate
  have hcode : (code / 4096 % 0x10 + 0xE0 - 0xE0) * 4096 + (code / 64 % 0x40 + 0x80 - 0x80) * 64 +
      (code % 0x40 + 0x80 - 0x80) = code := by omega
  rw [three?]
  simp only [ha, hb, hc, hcode]
  rw [if_pos]
  simp only [Bool.and_eq_true, Bool.not_eq_true', Bool.and_eq_false_iff, decide_eq_true_eq,
    decide_eq_false_iff_not, UInt8.le_iff_toNat_le, ha, hfirst, hlast, isTail_ofNat, and_true]
  omega

/-- All further codes have four bytes. -/
theorem four?_encoded (hlow : 0x10000 ≤ code) (hhigh : code ≤ 0x10FFFF) :
    four? (.ofNat (code / 262144 % 0x08 + 0xF0)) (.ofNat (code / 4096 % 0x40 + 0x80))
      (.ofNat (code / 64 % 0x40 + 0x80)) (.ofNat (code % 0x40 + 0x80)) =
        some (Char.ofNat code) := by
  have ha := toNat_ofNat_of_lt (n := code / 262144 % 0x08 + 0xF0) (by omega)
  have hb := toNat_ofNat_of_lt (n := code / 4096 % 0x40 + 0x80) (by omega)
  have hc := toNat_ofNat_of_lt (n := code / 64 % 0x40 + 0x80) (by omega)
  have hd := toNat_ofNat_of_lt (n := code % 0x40 + 0x80) (by omega)
  have hfirst : (0xF0 : UInt8).toNat = 0xF0 := rfl
  have hlast : (0xF4 : UInt8).toNat = 0xF4 := rfl
  have hcode : (code / 262144 % 0x08 + 0xF0 - 0xF0) * 262144 +
      (code / 4096 % 0x40 + 0x80 - 0x80) * 4096 + (code / 64 % 0x40 + 0x80 - 0x80) * 64 +
      (code % 0x40 + 0x80 - 0x80) = code := by omega
  rw [four?]
  simp only [ha, hb, hc, hd, hcode]
  rw [if_pos]
  simp only [Bool.and_eq_true, decide_eq_true_eq, UInt8.le_iff_toNat_le, ha, hfirst, hlast,
    isTail_ofNat, and_true]
  omega

/-- A first byte above those of two bytes is not one of two. -/
theorem two?_eq_none {a : UInt8} (h : 0xDF < a.toNat) (b : UInt8) : two? a b = none := by
  have hlast : (0xDF : UInt8).toNat = 0xDF := rfl
  rw [two?, if_neg]
  simp only [Bool.and_eq_true, decide_eq_true_eq, UInt8.le_iff_toNat_le, hlast]
  omega

/-- A first byte above those of three bytes is not one of three. -/
theorem three?_eq_none {a : UInt8} (h : 0xEF < a.toNat) (b c : UInt8) : three? a b c = none := by
  have hlast : (0xEF : UInt8).toNat = 0xEF := rfl
  rw [three?, if_neg]
  simp only [Bool.and_eq_true, decide_eq_true_eq, UInt8.le_iff_toNat_le, hlast]
  omega

/-! ## Decoding -/

section Steps

variable {a b c d : UInt8} {char : Char} {rest : List UInt8}

theorem decode_one (h : a < 0x80) :
    decode (a :: rest) = put (Char.ofNat a.toNat) (decode rest) := by
  rw [decode.eq_def]
  exact if_pos h

/-- Two bytes are taken together where the first one does not stand alone. -/
theorem decode_two (h : ¬ a < 0x80) (htwo : two? a b = some char) :
    decode (a :: b :: rest) = put char (decode rest) := by
  rw [decode.eq_def]
  simp only [if_neg h, htwo]

/-- Three bytes are taken together where the first two do not make a character. -/
theorem decode_three (h : ¬ a < 0x80) (htwo : two? a b = none) (hthree : three? a b c = some char) :
    decode (a :: b :: c :: rest) = put char (decode rest) := by
  rw [decode.eq_def]
  simp only [if_neg h, htwo, hthree]

theorem decode_four (h : ¬ a < 0x80) (htwo : two? a b = none) (hthree : three? a b c = none)
    (hfour : four? a b c d = some char) :
    decode (a :: b :: c :: d :: rest) = put char (decode rest) := by
  rw [decode.eq_def]
  simp only [if_neg h, htwo, hthree, hfour]

end Steps

theorem ofNat_lt_ascii {n : Nat} (h : n < 0x80) : UInt8.ofNat n < 0x80 := by
  rw [UInt8.lt_iff_toNat_lt, toNat_ofNat_of_lt (by omega)]
  exact h

theorem not_ofNat_lt_ascii {n : Nat} (hlow : 0x80 ≤ n) (hhigh : n < 256) :
    ¬ UInt8.ofNat n < 0x80 := by
  rw [UInt8.lt_iff_toNat_lt, toNat_ofNat_of_lt hhigh]
  exact Nat.not_lt_of_le hlow

/-- A character is read off the front of its bytes. -/
theorem decode_utf8EncodeChar_append (char : Char) (rest : List UInt8) :
    decode (String.utf8EncodeChar char ++ rest) = put char (decode rest) := by
  have hchar : Char.ofNat char.val.toNat = char := Char.ofNat_toNat char
  have hvalid : char.val.toNat < 0xD800 ∨ 0xDFFF < char.val.toNat ∧ char.val.toNat < 0x110000 :=
    char.valid
  -- the first byte tells the lengths apart: it is beyond those of every shorter form
  fun_cases String.utf8EncodeChar char
  case case1 code hone =>
    rw [List.cons_append, decode_one (ofNat_lt_ascii (by omega)),
      toNat_ofNat_of_lt (by omega), hchar]
    rfl
  case case2 code hone htwo =>
    have htwo? := two?_encoded code (by omega) htwo
    rw [hchar] at htwo?
    exact decode_two (not_ofNat_lt_ascii (by omega) (by omega)) htwo?
  case case3 code hone htwo hthree =>
    have hthree? := three?_encoded code (by omega) hthree (by omega)
    rw [hchar] at hthree?
    have hfirst := toNat_ofNat_of_lt (n := code / 4096 % 0x10 + 0xE0) (by omega)
    exact decode_three (not_ofNat_lt_ascii (by omega) (by omega)) (two?_eq_none (by omega) _)
      hthree?
  case case4 code hone htwo hthree =>
    have hfour? := four?_encoded code (by omega) (by omega)
    rw [hchar] at hfour?
    have hfirst := toNat_ofNat_of_lt (n := code / 262144 % 0x08 + 0xF0) (by omega)
    exact decode_four (not_ofNat_lt_ascii (by omega) (by omega)) (two?_eq_none (by omega) _)
      (three?_eq_none (by omega) _ _) hfour?

/-- A text is read back from its bytes, and none of them is left. -/
theorem decode_encode (text : List Char) : decode (encode text) = (text, []) := by
  induction text with
  | nil => rfl
  | cons char text ih =>
    rw [encode_cons, decode_utf8EncodeChar_append, ih]
    rfl

end Utf8

end Ambient.Json
