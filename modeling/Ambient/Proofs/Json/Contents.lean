/-
The contents of a string, one unit at a time.

What stands between the quotes is a sequence of units: a byte that stands for itself, an
escape of one letter, the code of a character, or a pair of surrogates. Reading a unit
puts its bytes in front of what the rest gives, and this is all that later proofs know of
the reader.
-/
import Ambient.Json.Text

set_option autoImplicit false

namespace Ambient.Json

variable {rest : List UInt8}

/-- A computation in two parts succeeds if both parts do. -/
theorem bind_eq_ok_iff {α β ε : Type} {x : Except ε α} {f : α → Except ε β} {result : β} :
    x >>= f = .ok result ↔ ∃ value, x = .ok value ∧ f value = .ok result := by
  cases x with
  | error fault => exact ⟨nofun, nofun⟩
  | ok value =>
    constructor
    · exact fun h => ⟨value, rfl, h⟩
    · rintro ⟨_, ⟨⟩, h⟩
      exact h

/-- The bytes of a unit stand in front of what is read after it. -/
theorem putBytes_eq_ok_iff {bytes contents : List UInt8}
    {read : Except Fault (List UInt8 × List UInt8)} :
    putBytes bytes read = .ok (contents, rest) ↔
      ∃ further, read = .ok (further, rest) ∧ contents = bytes ++ further := by
  cases read with
  | error fault => exact ⟨nofun, nofun⟩
  | ok result =>
    obtain ⟨further, left⟩ := result
    simp only [putBytes, Except.map, Except.ok.injEq, Prod.mk.injEq]
    constructor
    · rintro ⟨rfl, rfl⟩
      exact ⟨further, ⟨rfl, rfl⟩, rfl⟩
    · rintro ⟨_, ⟨rfl, rfl⟩, rfl⟩
      exact ⟨rfl, rfl⟩

/-- The contents end at the quote. -/
theorem readContents_quote (rest : List UInt8) :
    readContents (Byte.quote :: rest) = .ok ([], rest) := by
  rw [readContents.eq_def]
  exact if_pos rfl

/-- A byte that is neither a quote, a backslash nor a control character stands for itself. -/
theorem readContents_plain {b : UInt8} (hquote : b ≠ Byte.quote)
    (hbackslash : b ≠ Byte.backslash) (hcontrol : ¬ b < 0x20) :
    readContents (b :: rest) = putBytes [b] (readContents rest) := by
  rw [readContents.eq_def]
  simp only [if_neg hquote, if_pos hbackslash, if_neg hcontrol]

/-- What is read after a backslash is an escape. -/
theorem readContents_letter {e byte : UInt8} (hletter : e ≠ Byte.letterU)
    (hbyte : Byte.escaped? e = some byte) :
    readContents (Byte.backslash :: e :: rest) = putBytes [byte] (readContents rest) := by
  have hquote : Byte.backslash ≠ Byte.quote := by decide
  rw [readContents.eq_def]
  simp only [if_neg hquote, ne_eq, not_true_eq_false, if_false, if_pos hletter, hbyte]

/-- A code that is no surrogate stands for its character. -/
theorem readContents_code {a b c d : UInt8} {code : Nat} (hcode : hexCode? a b c d = some code)
    (hlow : ¬ isLowSurrogate code = true) (hhigh : ¬ isHighSurrogate code = true)
    (rest : List UInt8) :
    readContents (Byte.backslash :: Byte.letterU :: a :: b :: c :: d :: rest) =
      putBytes (codeBytes code) (readContents rest) := by
  have hquote : Byte.backslash ≠ Byte.quote := by decide
  rw [readContents.eq_def]
  simp only [if_neg hquote, ne_eq, not_true_eq_false, if_false, hcode, if_neg hlow, if_neg hhigh]

/-- A high surrogate and a low one behind it stand for one character together. -/
theorem readContents_pair {a b c d a' b' c' d' : UInt8} {high low : Nat}
    (hcode : hexCode? a b c d = some high) (hnotLow : ¬ isLowSurrogate high = true)
    (hhigh : isHighSurrogate high = true) (hcode' : hexCode? a' b' c' d' = some low)
    (hlow : isLowSurrogate low = true) (rest : List UInt8) :
    readContents (Byte.backslash :: Byte.letterU :: a :: b :: c :: d ::
        Byte.backslash :: Byte.letterU :: a' :: b' :: c' :: d' :: rest) =
      putBytes (codeBytes (joinSurrogates high low)) (readContents rest) := by
  have hquote : Byte.backslash ≠ Byte.quote := by decide
  rw [readContents.eq_def]
  simp only [if_neg hquote, ne_eq, not_true_eq_false, if_false, hcode, if_neg hnotLow,
    if_pos hhigh, hcode', if_pos hlow]

end Ambient.Json
