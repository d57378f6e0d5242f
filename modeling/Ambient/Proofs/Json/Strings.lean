/-
Written strings are read back.

The bytes of a unit, a character written as itself or as an escape, are read as the bytes of
the character (`readContents_unit`). A character that is written as itself may have several
bytes, none of which is a quote, a backslash or a control character. The contents are then
the bytes of a text, and `decode_encode` gives the text.
-/
import Ambient.Proofs.Json.Contents
import Ambient.Proofs.Json.Grammar
import Ambient.Proofs.Json.Utf8

set_option autoImplicit false

namespace Ambient.Json

/-! ## Bytes of characters -/

/-- A byte of a character is the character itself, or above all those. -/
theorem eq_or_le_of_mem_utf8EncodeChar {c : Char} {b : UInt8} (hb : b ∈ String.utf8EncodeChar c) :
    (c.toNat ≤ 0x7F ∧ b = .ofNat c.toNat) ∨ 0x80 ≤ b.toNat := by
  have hlarge : ∀ {n : Nat}, 0x80 ≤ n → n < 256 → 0x80 ≤ (UInt8.ofNat n).toNat := by
    intro n hlow hhigh
    rw [Utf8.toNat_ofNat_of_lt hhigh]
    exact hlow
  revert hb
  -- one byte is the character itself; two, three and four all have their highest bit set
  fun_cases String.utf8EncodeChar c
  case case1 code hone =>
    intro hb
    exact .inl ⟨hone, List.mem_singleton.mp hb⟩
  case case2 code hone htwo =>
    simp only [List.mem_cons, List.not_mem_nil, or_false]
    rintro (rfl | rfl)
    · exact .inr (hlarge (by omega) (by omega))
    · exact .inr (hlarge (by omega) (by omega))
  case case3 code hone htwo hthree =>
    simp only [List.mem_cons, List.not_mem_nil, or_false]
    rintro (rfl | rfl | rfl)
    · exact .inr (hlarge (by omega) (by omega))
    · exact .inr (hlarge (by omega) (by omega))
    · exact .inr (hlarge (by omega) (by omega))
  case case4 code hone htwo hthree =>
    simp only [List.mem_cons, List.not_mem_nil, or_false]
    rintro (rfl | rfl | rfl | rfl)
    · exact .inr (hlarge (by omega) (by omega))
    · exact .inr (hlarge (by omega) (by omega))
    · exact .inr (hlarge (by omega) (by omega))
    · exact .inr (hlarge (by omega) (by omega))

/-! ## Hexadecimal digits -/

theorem hexDigit?_of_mem {digit : Char} {value : Nat} (h : (digit, value) ∈ hexDigits) :
    ∃ b, String.utf8EncodeChar digit = [b] ∧ Byte.hexDigit? b = some value := by
  have hall : ∀ pair ∈ hexDigits, String.utf8EncodeChar pair.1 = [.ofNat pair.1.toNat] ∧
      Byte.hexDigit? (.ofNat pair.1.toNat) = some pair.2 := by decide
  exact ⟨_, hall _ h⟩

/-- The digits of a code are read as the code. -/
theorem hexCode?_of_writesCode {code : Nat} {digits : List Char} (h : WritesCode code digits) :
    ∃ a b c d, encode digits = [a, b, c, d] ∧ hexCode? a b c d = some code := by
  obtain ⟨values, hdigits, hlength, rfl⟩ := h
  match values, hlength, hdigits with
  | [va, vb, vc, vd], _, .cons ha (.cons hb (.cons hc (.cons hd .nil))) =>
    obtain ⟨a, hea, ha⟩ := hexDigit?_of_mem ha
    obtain ⟨b, heb, hb⟩ := hexDigit?_of_mem hb
    obtain ⟨c, hec, hc⟩ := hexDigit?_of_mem hc
    obtain ⟨d, hed, hd⟩ := hexDigit?_of_mem hd
    refine ⟨a, b, c, d, ?_, ?_⟩
    · rw [encode_cons, encode_cons, encode_cons, encode_cons, hea, heb, hec, hed]
      rfl
    · -- the four digits are summed by pairs, but written as one number
      have hsum : (va * 16 + vb) * 256 + (vc * 16 + vd) =
          (((0 * 16 + va) * 16 + vb) * 16 + vc) * 16 + vd := by omega
      simp only [hexCode?, ha, hb, hc, hd, Option.bind_eq_bind, Option.bind_some, hsum]
      rfl

/-! ## Units -/

/-- Bytes that stand for themselves are read one after the other. -/
theorem readContents_plainBytes {bytes : List UInt8}
    (h : ∀ b ∈ bytes, b ≠ Byte.quote ∧ b ≠ Byte.backslash ∧ ¬ b < 0x20) (rest : List UInt8) :
    readContents (bytes ++ rest) = putBytes bytes (readContents rest) := by
  induction bytes with
  | nil =>
    rw [List.nil_append]
    cases readContents rest with
    | error fault => rfl
    | ok result => rfl
  | cons b bytes ih =>
    obtain ⟨hquote, hbackslash, hcontrol⟩ := h b List.mem_cons_self
    rw [List.cons_append, readContents_plain hquote hbackslash hcontrol,
      ih fun b hb => h b (List.mem_cons_of_mem _ hb)]
    cases readContents rest with
    | error fault => rfl
    | ok result => rfl

theorem plain_of_mem_utf8EncodeChar {c : Char} (hcontrol : 0x20 ≤ c.toNat) (hquote : c ≠ '"')
    (hbackslash : c ≠ '\\') {b : UInt8} (hb : b ∈ String.utf8EncodeChar c) :
    b ≠ Byte.quote ∧ b ≠ Byte.backslash ∧ ¬ b < 0x20 := by
  have hquoteByte : Byte.quote.toNat = 0x22 := rfl
  have hbackslashByte : Byte.backslash.toNat = 0x5C := rfl
  have hspace : (0x20 : UInt8).toNat = 0x20 := rfl
  have hquoteChar : c.toNat ≠ 0x22 := fun h => hquote (Char.toNat_inj.mp h)
  have hbackslashChar : c.toNat ≠ 0x5C := fun h => hbackslash (Char.toNat_inj.mp h)
  rw [ne_eq, ne_eq, ← UInt8.toNat_inj, ← UInt8.toNat_inj, UInt8.lt_iff_toNat_lt]
  obtain ⟨hascii, rfl⟩ | hlarge := eq_or_le_of_mem_utf8EncodeChar hb
  · rw [Utf8.toNat_ofNat_of_lt (by omega)]
    omega
  · omega

theorem escaped?_of_mem {letter c : Char} (h : (letter, c) ∈ letterEscapes) :
    ∃ e byte, String.utf8EncodeChar letter = [e] ∧ e ≠ Byte.letterU ∧ Byte.escaped? e = some byte ∧
      String.utf8EncodeChar c = [byte] := by
  have hall : ∀ pair ∈ letterEscapes, String.utf8EncodeChar pair.1 = [.ofNat pair.1.toNat] ∧
      UInt8.ofNat pair.1.toNat ≠ Byte.letterU ∧
      Byte.escaped? (.ofNat pair.1.toNat) = some (.ofNat pair.2.toNat) ∧
      String.utf8EncodeChar pair.2 = [.ofNat pair.2.toNat] := by decide
  exact ⟨_, _, hall _ h⟩

/-- No character is a surrogate. -/
theorem not_isSurrogate_toNat (c : Char) :
    ¬ isLowSurrogate c.toNat = true ∧ ¬ isHighSurrogate c.toNat = true := by
  have hvalid : c.toNat < 0xD800 ∨ 0xDFFF < c.toNat ∧ c.toNat < 0x110000 := c.valid
  simp only [isLowSurrogate, isHighSurrogate, Bool.and_eq_true, decide_eq_true_eq]
  omega

/-- The surrogates of a character above the basic plane stand for the character. -/
theorem joinSurrogates_toNat {c : Char} (h : 0x10000 ≤ c.toNat) :
    let high := 0xD800 + (c.toNat - 0x10000) / 0x400
    let low := 0xDC00 + (c.toNat - 0x10000) % 0x400
    ¬ isLowSurrogate high = true ∧ isHighSurrogate high = true ∧ isLowSurrogate low = true ∧
      joinSurrogates high low = c.toNat := by
  have hvalid : c.toNat < 0xD800 ∨ 0xDFFF < c.toNat ∧ c.toNat < 0x110000 := c.valid
  simp only [isLowSurrogate, isHighSurrogate, joinSurrogates, Bool.and_eq_true, decide_eq_true_eq]
  omega

/-- A unit is read as the bytes of its character. -/
theorem readContents_unit {c : Char} {unit : List Char} (h : WritesChar c unit)
    (rest : List UInt8) :
    readContents (encode unit ++ rest) =
      putBytes (String.utf8EncodeChar c) (readContents rest) := by
  cases h with
  | plain hcontrol hquote hbackslash =>
    rw [encode_cons, encode_nil, List.append_nil]
    exact readContents_plainBytes
      (fun _ => plain_of_mem_utf8EncodeChar hcontrol hquote hbackslash) rest
  | letter hletter =>
    obtain ⟨e, byte, hencode, hne, hbyte, hchar⟩ := escaped?_of_mem hletter
    rw [encode_cons, encode_cons, hencode, encode_nil, List.append_nil, hchar]
    exact readContents_letter hne hbyte
  | code hdigits =>
    obtain ⟨ba, bb, bc, bd, hencode, hcode⟩ := hexCode?_of_writesCode hdigits
    obtain ⟨hlow, hhigh⟩ := not_isSurrogate_toNat c
    have hread := readContents_code hcode hlow hhigh rest
    rw [encode_cons, encode_cons, hencode]
    rw [codeBytes, Char.ofNat_toNat] at hread
    exact hread
  | pair hlarge hhigh hlow =>
    obtain ⟨a, b, x, d, hencode, hcode⟩ := hexCode?_of_writesCode hhigh
    obtain ⟨a', b', x', d', hencode', hcode'⟩ := hexCode?_of_writesCode hlow
    obtain ⟨hnotLow, hhigh, hlow, hjoin⟩ := joinSurrogates_toNat hlarge
    have hread := readContents_pair hcode hnotLow hhigh hcode' hlow rest
    rw [hjoin, codeBytes, Char.ofNat_toNat] at hread
    rw [encode_cons, encode_cons, encode_append, hencode, encode_cons, encode_cons, hencode']
    exact hread

/-! ## Strings -/

/-- The units of a string, up to the closing quote, are read as its bytes. -/
theorem readContents_units {text : List Char} {units : List (List Char)}
    (h : List.Forall₂ WritesChar text units) (rest : List UInt8) :
    readContents (encode units.flatten ++ Byte.quote :: rest) = .ok (encode text, rest) := by
  induction h with
  | nil => exact readContents_quote rest
  | cons hunit _ ih =>
    rw [List.flatten_cons, encode_append, List.append_assoc, readContents_unit hunit, ih,
      encode_cons]
    rfl

/-- A written string is read back, whatever follows it. -/
theorem readString_of_writesString {string : String} {text : List Char}
    (h : WritesString string text) :
    ∃ bytes, encode text = Byte.quote :: bytes ∧
      ∀ rest, readString (bytes ++ rest) = .ok (string, rest) := by
  obtain ⟨hunits⟩ := h
  rename_i units
  have hclose : encode ['"'] = [Byte.quote] := rfl
  refine ⟨encode (units.flatten ++ ['"']), rfl, fun rest => ?_⟩
  have hdecode : decodeContents (encode string.toList) rest = .ok string := by
    rw [decodeContents, Utf8.decode_encode]
    simp only [String.ofList_toList]
  rw [encode_append, List.append_assoc, hclose, List.singleton_append, readString,
    readContents_units hunits]
  exact bind_eq_ok_iff.mpr ⟨_, rfl, bind_eq_ok_iff.mpr ⟨_, hdecode, rfl⟩⟩

end Ambient.Json
