/-
What readers make of strings and numbers.

Every string that the grammar allows is passed over, and it is read as a text exactly if it
stands for one (`traced_readString`, `passString_of_writesMarks`). Every number that the
grammar allows is found to end where it ends (`scanNumber_of_writesNumber`), provided that
what follows does not go on with it: digits, a point or an exponent (`Ends`).

Of a fault only the path is kept here: `traced` forgets the cause and the place.
-/
import Ambient.Proofs.Json.Document
import Ambient.Proofs.Json.Extent
import Ambient.Proofs.Json.Strings

set_option autoImplicit false

namespace Ambient.Json

variable {α β : Type} {rest : List UInt8}

/-! ## Faults by their path -/

/-- A result in which a fault is its path. -/
def traced (result : Except Fault α) : Except (List Segment) α := result.mapError Fault.path

@[simp] theorem traced_ok (value : α) : traced (.ok value) = .ok value := rfl

@[simp] theorem traced_error (fault : Fault) :
    traced (.error fault : Except Fault α) = .error fault.path := rfl

/-- The path of a fault in two steps is that of the fault in the first of them, or in the
second. -/
theorem traced_bind (result : Except Fault α) (next : α → Except Fault β) :
    traced (result >>= next) = traced result >>= fun value => traced (next value) := by
  cases result with
  | error fault => rfl
  | ok value => rfl

/-- What is there, or else a fault found in the value itself. -/
def present (value? : Option α) : Except (List Segment) α := value?.elim (.error []) .ok

/-! ## Strings -/

/-- The bytes of a string whose first mark is a code. -/
theorem encode_code {code : Nat} {marks : List Mark} {units : List (List Char)}
    (h : List.Forall₂ WritesMark (.code code :: marks) units) :
    ∃ a b c d tail, hexCode? a b c d = some code ∧ List.Forall₂ WritesMark marks tail ∧
      encode units.flatten =
        Byte.backslash :: Byte.letterU :: a :: b :: c :: d :: encode tail.flatten := by
  obtain _ | @⟨_, _, _, tail, hunit, hunits⟩ := h
  obtain ⟨⟩ | ⟨⟩ | hdigits := hunit
  obtain ⟨a, b, c, d, hencode, hcode⟩ := hexCode?_of_writesCode hdigits
  refine ⟨a, b, c, d, tail, hcode, hunits, ?_⟩
  rw [List.flatten_cons, encode_append, encode_cons, encode_cons, hencode]
  rfl

theorem readContents_char {c : Char} {unit : List Char} (h : WritesMark (.char c) unit)
    (rest : List UInt8) :
    readContents (encode unit ++ rest) =
      putBytes (String.utf8EncodeChar c) (readContents rest) := by
  cases h with
  | plain hcontrol hquote hbackslash =>
    exact readContents_unit (.plain hcontrol hquote hbackslash) rest
  | letter hletter => exact readContents_unit (.letter hletter) rest

theorem traced_putBytes {bytes : List UInt8} {read : Except Fault (List UInt8 × List UInt8)}
    {text? : Option (List Char)}
    (h : traced read = (present text?).map fun text => (encode text, rest)) {c : Char}
    (hbytes : bytes = String.utf8EncodeChar c) :
    traced (putBytes bytes read) =
      (present (text?.map (c :: ·))).map fun text => (encode text, rest) := by
  subst hbytes
  obtain _ | text := text?
  · cases read with
    | error fault => exact h
    | ok result => cases h
  · cases read with
    | error fault => cases h
    | ok result =>
      obtain rfl : result = (encode text, rest) := Except.ok.inj h
      rfl

/-- Neither the end of the string nor another mark makes a pair of the first half of one. -/
theorem traced_readContents_high {marks : List Mark} {units : List (List Char)}
    (hmarks : ∀ low more, marks = .code low :: more → ¬ isLowSurrogate low = true)
    (h : List.Forall₂ WritesMark marks units) {a b c d : UInt8} {high : Nat}
    (hcode : hexCode? a b c d = some high) (hlow : ¬ isLowSurrogate high = true)
    (hhigh : isHighSurrogate high = true) (rest : List UInt8) :
    traced (readContents (Byte.backslash :: Byte.letterU :: a :: b :: c :: d ::
      (encode units.flatten ++ Byte.quote :: rest))) = .error [] := by
  have hquote : Byte.backslash ≠ Byte.quote := by decide
  have hbackslash : Byte.quote ≠ Byte.backslash := by decide
  rw [readContents.eq_def]
  simp only [if_neg hquote, ne_eq, not_true_eq_false, if_false, hcode, if_neg hlow, if_pos hhigh]
  -- a second half is a backslash, the letter and a code, and each mark fails at one of the three
  cases h with
  | nil =>
    simp only [List.flatten_nil, encode_nil, List.nil_append, hbackslash, not_false_eq_true,
      if_true]
    rfl
  | @cons mark unit marks units hunit hunits =>
    cases hunit with
    | @plain c hcontrol hquote hbackslash =>
      obtain ⟨y, bytes, hbytes⟩ :=
        List.exists_cons_of_ne_nil (String.utf8EncodeChar_ne_nil (c := c))
      have hy := (plain_of_mem_utf8EncodeChar hcontrol hquote hbackslash
        (hbytes ▸ List.mem_cons_self)).2.1
      simp only [List.flatten_cons, encode_append, encode_cons, encode_nil, hbytes,
        List.cons_append, hy, not_false_eq_true, if_true]
      rfl
    | @letter c letter hletter =>
      obtain ⟨e, byte, hencode, hne, -, -⟩ := escaped?_of_mem hletter
      have hescape : encode ['\\', letter] = [Byte.backslash, e] := by
        rw [encode_cons, encode_cons, hencode]
        rfl
      rw [List.flatten_cons, encode_append, hescape]
      simp only [List.cons_append, not_true_eq_false, if_false, hne, not_false_eq_true, if_true]
      rfl
    | code hdigits =>
      obtain ⟨a', b', c', d', tail, hcode', -, hencode⟩ :=
        encode_code (.cons (.code hdigits) hunits)
      have hlow' := hmarks _ _ rfl
      simp only [hencode, List.cons_append, not_true_eq_false, if_false, hcode', if_neg hlow']
      rfl

/-- The marks of a string are read as what they stand for. -/
theorem traced_readContents {marks : List Mark} {units : List (List Char)}
    (h : List.Forall₂ WritesMark marks units) (rest : List UInt8) :
    traced (readContents (encode units.flatten ++ Byte.quote :: rest)) =
      (present (characters? marks)).map fun text => (encode text, rest) := by
  -- the cases are those of `characters?`: a pair of surrogates is gone through in one step
  fun_induction characters? marks generalizing units
  case case1 =>
    cases h
    rw [List.flatten_nil, encode_nil, List.nil_append, readContents_quote]
    rfl
  case case2 c marks ih =>
    obtain _ | ⟨hunit, hunits⟩ := h
    rw [List.flatten_cons, encode_append, List.append_assoc, readContents_char hunit]
    exact traced_putBytes (ih hunits) rfl
  case case3 code marks hlow =>
    obtain ⟨a, b, c, d, tail, hcode, -, hencode⟩ := encode_code h
    have hquote : Byte.backslash ≠ Byte.quote := by decide
    rw [hencode, readContents.eq_def]
    simp only [List.cons_append, if_neg hquote, ne_eq, not_true_eq_false, if_false, hcode,
      if_pos hlow]
    rfl
  case case4 high hnotLow hhigh low marks hlow ih =>
    obtain ⟨a, b, c, d, tail, hcode, hunits, hencode⟩ := encode_code h
    obtain ⟨a', b', c', d', tail', hcode', hunits', hencode'⟩ := encode_code hunits
    rw [hencode, hencode']
    simp only [List.cons_append]
    rw [readContents_pair hcode hnotLow hhigh hcode' hlow]
    exact traced_putBytes (ih hunits') rfl
  case case5 high hnotLow hhigh low marks hlow =>
    obtain ⟨a, b, c, d, tail, hcode, hunits, hencode⟩ := encode_code h
    rw [hencode]
    refine traced_readContents_high ?_ hunits hcode hnotLow hhigh rest
    rintro _ _ ⟨⟩
    exact hlow
  case case6 high marks hnotLow hhigh hmarks =>
    obtain ⟨a, b, c, d, tail, hcode, hunits, hencode⟩ := encode_code h
    rw [hencode]
    exact traced_readContents_high (fun low more h => (hmarks low more h).elim) hunits hcode
      hnotLow hhigh rest
  case case7 code marks hlow hhigh ih =>
    obtain ⟨a, b, c, d, tail, hcode, hunits, hencode⟩ := encode_code h
    rw [hencode]
    simp only [List.cons_append]
    rw [readContents_code hcode hlow hhigh]
    exact traced_putBytes (ih hunits) rfl

/-- A string is read as the text that it stands for, if it stands for one. -/
theorem traced_readString {text? : Option String} {text : List Char}
    (h : WritesMarks text? text) :
    ∃ bytes, encode text = Byte.quote :: bytes ∧ ∀ rest,
      traced (readString (bytes ++ rest)) = (present text?).map (·, rest) := by
  obtain ⟨hunits⟩ := h
  rename_i marks units
  refine ⟨encode (units.flatten ++ ['"']), rfl, fun rest => ?_⟩
  have hclose : encode ['"'] = [Byte.quote] := rfl
  rw [encode_append, List.append_assoc, hclose, List.singleton_append, readString, traced_bind,
    traced_readContents hunits]
  cases characters? marks with
  | none => rfl
  | some chars =>
    have hdecode : decodeContents (encode chars) rest = .ok (String.ofList chars) := by
      rw [decodeContents, Utf8.decode_encode]
    change traced (decodeContents (encode chars) rest >>= fun text => pure (text, rest)) = _
    rw [hdecode]
    rfl

/-- A mark is passed over, whether or not it is half of a pair. -/
theorem passString_unit {mark : Mark} {unit : List Char} (h : WritesMark mark unit)
    (rest : List UInt8) : passString (encode unit ++ rest) = passString rest := by
  have hne : Byte.backslash ≠ Byte.quote := by decide
  cases h with
  | plain hcontrol hquote hbackslash =>
    -- no byte of such a character means anything to the loop
    have hplain : ∀ b ∈ String.utf8EncodeChar _, b ≠ Byte.quote ∧ b ≠ Byte.backslash ∧ ¬ b < 0x20 :=
      fun b hb => plain_of_mem_utf8EncodeChar hcontrol hquote hbackslash hb
    rw [encode_cons, encode_nil, List.append_nil]
    generalize String.utf8EncodeChar _ = bytes at hplain
    induction bytes with
    | nil => rfl
    | cons b bytes ih =>
      obtain ⟨⟨hquote, hbackslash, hcontrol⟩, hplain⟩ := List.forall_mem_cons.mp hplain
      rw [List.cons_append, passString.eq_def]
      simp only [if_neg hquote, if_pos hbackslash, if_neg hcontrol]
      exact ih hplain
  | @letter c letter hletter =>
    obtain ⟨e, byte, hencode, hletter, hbyte, -⟩ := escaped?_of_mem hletter
    have hescape : encode ['\\', letter] = [Byte.backslash, e] := by
      rw [encode_cons, encode_cons, hencode]
      rfl
    rw [hescape]
    simp only [List.cons_append, List.nil_append]
    rw [passString.eq_def]
    simp only [if_neg hne, ne_eq, not_true_eq_false, if_false, if_pos hletter, hbyte]
  | code hdigits =>
    have hunits := List.Forall₂.cons (WritesMark.code hdigits) .nil
    obtain ⟨a, b, c, d, tail, hcode, ⟨⟩, hencode⟩ := encode_code hunits
    rw [List.flatten_singleton] at hencode
    rw [hencode]
    simp only [List.cons_append]
    rw [passString.eq_def]
    simp only [if_neg hne, ne_eq, not_true_eq_false, if_false, hcode]
    rfl

theorem passString_marks {marks : List Mark} {units : List (List Char)}
    (h : List.Forall₂ WritesMark marks units) (rest : List UInt8) :
    passString (encode units.flatten ++ Byte.quote :: rest) = .ok rest := by
  induction h with
  | nil =>
    rw [List.flatten_nil, encode_nil, List.nil_append, passString.eq_def]
    exact if_pos rfl
  | cons hunit _ ih =>
    rw [List.flatten_cons, encode_append, List.append_assoc, passString_unit hunit, ih]

/-- A string is passed over whatever it holds. -/
theorem passString_of_writesMarks {text? : Option String} {text : List Char}
    (h : WritesMarks text? text) :
    ∃ bytes, encode text = Byte.quote :: bytes ∧ ∀ rest, passString (bytes ++ rest) = .ok rest := by
  obtain ⟨hunits⟩ := h
  rename_i marks units
  refine ⟨encode (units.flatten ++ ['"']), rfl, fun rest => ?_⟩
  rw [encode_append, List.append_assoc]
  exact passString_marks hunits rest

/-! ## Numbers -/

/-- What follows is no further digit. -/
def NoDigit (rest : List UInt8) : Prop := ∀ b ∈ rest.head?, Byte.isDigit b = false

/-- What follows does not go on with a number. -/
def Ends (rest : List UInt8) : Prop :=
  ∀ b ∈ rest.head?, Byte.isDigit b = false ∧ b ≠ Byte.point ∧ Byte.isExponent b = false

theorem ends_nil : Ends [] := nofun

theorem Ends.noDigit (h : Ends rest) : NoDigit rest := fun b hb => (h b hb).1

theorem digit_of_mem {c : Char} {digit : Nat} (h : (c, digit) ∈ decimalDigits) :
    ∃ b, String.utf8EncodeChar c = [b] ∧ Byte.isDigit b = true ∧ Byte.digit b = digit ∧
      (b = Byte.zero ↔ digit = 0) := by
  have hall : ∀ pair ∈ decimalDigits, String.utf8EncodeChar pair.1 = [.ofNat pair.1.toNat] ∧
      Byte.isDigit (.ofNat pair.1.toNat) = true ∧ Byte.digit (.ofNat pair.1.toNat) = pair.2 ∧
      (UInt8.ofNat pair.1.toNat = Byte.zero ↔ pair.2 = 0) := by decide
  exact ⟨_, hall _ h⟩

theorem lead_of_isDigit {b : UInt8} (h : Byte.isDigit b = true) : Lead.of b = .number := by
  have hquote : (b == Byte.quote) = false := by
    rw [beq_eq_false_iff_ne]
    rintro rfl
    cases h
  have hobject : (b == Byte.objectOpen) = false := by
    rw [beq_eq_false_iff_ne]
    rintro rfl
    cases h
  have hlist : (b == Byte.listOpen) = false := by
    rw [beq_eq_false_iff_ne]
    rintro rfl
    cases h
  simp only [Lead.of, hquote, hobject, hlist, h, Bool.or_true, Bool.false_eq_true, if_false,
    if_true]

theorem spanDigits_of_writesDigits {digits : List Nat} {text : List Char}
    (h : WritesDigits digits text) (hrest : NoDigit rest) :
    spanDigits (encode text ++ rest) = (digits, rest) := by
  induction h with
  | nil =>
    cases rest with
    | nil => rfl
    | cons b rest =>
      have hb : ¬ Byte.isDigit b = true := by
        rw [hrest b rfl]
        decide
      rw [encode_nil, List.nil_append, spanDigits, List.takeWhile_cons_of_neg hb,
        List.dropWhile_cons_of_neg hb]
      rfl
  | cons hdigit _ ih =>
    obtain ⟨b, hencode, hb, rfl, -⟩ := digit_of_mem hdigit
    obtain ⟨hdigits, hleft⟩ := Prod.mk.inj ih
    rw [encode_cons, hencode, List.singleton_append, List.cons_append, spanDigits,
      List.takeWhile_cons_of_pos hb, List.dropWhile_cons_of_pos hb, List.map_cons, hdigits, hleft]

theorem scanWhole_of_writesWhole {whole : List Nat} {text : List Char} (h : WritesWhole whole text)
    (atEnd : Cause) (hrest : NoDigit rest) :
    scanWhole atEnd (encode text ++ rest) = .ok (whole, rest) := by
  cases h with
  | zero =>
    have hzero : encode ['0'] = [Byte.zero] := rfl
    rw [hzero, List.singleton_append, scanWhole.eq_def]
    simp only [if_true]
    cases rest with
    | nil => rfl
    | cons c rest => simp only [hrest c rfl, Bool.false_eq_true, if_false]
  | digits hne hdigits =>
    have hspan := spanDigits_of_writesDigits hdigits hrest
    obtain _ | ⟨hdigit, hdigits⟩ := hdigits
    obtain ⟨b, hencode, hb, -, hzero⟩ := digit_of_mem hdigit
    have hbzero : b ≠ Byte.zero := fun h => hne (hzero.mp h)
    rw [encode_cons, hencode, List.singleton_append, List.cons_append] at hspan ⊢
    rw [scanWhole.eq_def]
    simp only [if_neg hbzero, if_pos hb, hspan]

theorem scanFraction_of_writesFraction {fraction : List Nat} {text : List Char}
    (h : WritesFraction fraction text) (atEnd : Cause) (hrest : NoDigit rest)
    (hpoint : ∀ b ∈ rest.head?, b ≠ Byte.point) :
    scanFraction atEnd (encode text ++ rest) = .ok (fraction, rest) := by
  cases h with
  | none =>
    cases rest with
    | nil => rfl
    | cons b rest =>
      rw [encode_nil, List.nil_append, scanFraction.eq_def]
      exact if_neg (hpoint b rfl)
  | some hne hdigits =>
    have hencode : String.utf8EncodeChar '.' = [Byte.point] := rfl
    rw [encode_cons, hencode, List.singleton_append, List.cons_append, scanFraction.eq_def]
    simp only [if_true, spanDigits_of_writesDigits hdigits hrest]
    cases fraction with
    | nil => exact absurd rfl hne
    | cons digit digits => rfl

/-- What an exponent starts with goes on with no other part of a number. -/
theorem exponent_of_mem {letter : Char} (h : letter ∈ ['e', 'E']) :
    ∃ b, String.utf8EncodeChar letter = [b] ∧ Byte.isExponent b = true ∧
      Byte.isDigit b = false ∧ b ≠ Byte.point := by
  simp only [List.mem_cons, List.not_mem_nil, or_false] at h
  obtain rfl | rfl := h
  · exact ⟨_, rfl, rfl, rfl, by decide⟩
  · exact ⟨_, rfl, rfl, rfl, by decide⟩

theorem sign_ne_of_isDigit {b : UInt8} (h : Byte.isDigit b = true) :
    b ≠ Byte.minus ∧ b ≠ Byte.plus := by
  refine ⟨?_, ?_⟩
  · rintro rfl
    cases h
  · rintro rfl
    cases h

theorem scanSign_encode {negative : Bool} {sign : List Char}
    (h : (negative, sign) ∈ [(true, ['-']), (false, ['+']), (false, [])]) {b : UInt8}
    (hb : Byte.isDigit b = true) (rest : List UInt8) :
    scanSign (encode sign ++ b :: rest) = (negative, b :: rest) := by
  simp only [List.mem_cons, Prod.mk.injEq, List.not_mem_nil, or_false] at h
  obtain ⟨rfl, rfl⟩ | ⟨rfl, rfl⟩ | ⟨rfl, rfl⟩ := h
  · rfl
  · rfl
  · obtain ⟨hminus, hplus⟩ := sign_ne_of_isDigit hb
    rw [encode_nil, List.nil_append, scanSign, if_neg hminus, if_neg hplus]

theorem scanExponent_of_writesExponent {exponent? : Option (Bool × List Nat)} {text : List Char}
    (h : WritesExponent exponent? text) (atEnd : Cause) (hrest : Ends rest) :
    scanExponent atEnd (encode text ++ rest) = .ok (exponent?, rest) := by
  cases h with
  | none =>
    cases rest with
    | nil => rfl
    | cons b rest =>
      rw [encode_nil, List.nil_append, scanExponent.eq_def]
      simp only [(hrest b rfl).2.2, Bool.false_eq_true, if_false]
  | @some letter negative sign text digits hletter hsign hne hdigits =>
    have hspan := spanDigits_of_writesDigits hdigits hrest.noDigit
    obtain ⟨b, hencode, hb, -, -⟩ := exponent_of_mem hletter
    obtain _ | @⟨c, digit, text, digits, hdigit, hdigits⟩ := hdigits
    · exact absurd rfl hne
    obtain ⟨c, hencode', hc, -, -⟩ := digit_of_mem hdigit
    rw [encode_cons, hencode', List.singleton_append, List.cons_append] at hspan
    rw [encode_cons, hencode, encode_append, encode_cons, hencode', List.singleton_append,
      List.cons_append, scanExponent.eq_def]
    simp only [if_pos hb, List.append_assoc, List.cons_append, List.nil_append,
      scanSign_encode hsign hc, if_pos hc, hspan]

/-- What follows the whole part of a number, or its fraction. -/
theorem noDigit_exponent {exponent? : Option (Bool × List Nat)} {text : List Char}
    (h : WritesExponent exponent? text) (hrest : Ends rest) :
    NoDigit (encode text ++ rest) ∧ ∀ b ∈ (encode text ++ rest).head?, b ≠ Byte.point := by
  cases h with
  | none => exact ⟨hrest.noDigit, fun b hb => (hrest b hb).2.1⟩
  | some hletter =>
    obtain ⟨b, hencode, -, hdigit, hpoint⟩ := exponent_of_mem hletter
    rw [encode_cons, hencode]
    refine ⟨?_, ?_⟩
    · rintro _ ⟨⟩
      exact hdigit
    · rintro _ ⟨⟩
      exact hpoint

theorem noDigit_fraction {fraction : List Nat} {text : List Char} (h : WritesFraction fraction text)
    (hrest : NoDigit rest) : NoDigit (encode text ++ rest) := by
  cases h with
  | none => exact hrest
  | some =>
    rintro _ ⟨⟩
    rfl

/-- The first digit of a number is no sign. -/
theorem exists_digit_of_writesWhole {whole : List Nat} {text : List Char}
    (h : WritesWhole whole text) :
    ∃ b bytes, encode text = b :: bytes ∧ Byte.isDigit b = true := by
  cases h with
  | zero => exact ⟨_, _, rfl, rfl⟩
  | digits _ hdigits =>
    obtain _ | ⟨hdigit, -⟩ := hdigits
    obtain ⟨b, hencode, hb, -, -⟩ := digit_of_mem hdigit
    exact ⟨b, _, by rw [encode_cons, hencode, List.singleton_append], hb⟩

/-- A number is read to its end. -/
theorem scanNumber_of_writesNumber {literal : Literal} {text : List Char}
    (h : WritesNumber literal text) (atEnd : Cause) (hrest : Ends rest) :
    ∃ b bytes, encode text = b :: bytes ∧ Lead.of b = .number ∧
      scanNumber atEnd (encode text ++ rest) = .ok (literal, rest) := by
  obtain ⟨hsign, hwhole, hfraction, hexponent⟩ := h
  rename_i negative sign wholeText fractionText exponentText whole fraction exponent?
  -- each part ends where the next one starts, for that does not go on with it
  obtain ⟨hnoDigit, hpoint⟩ := noDigit_exponent hexponent hrest
  have hunsigned : scanUnsigned atEnd negative
      (encode wholeText ++ (encode fractionText ++ (encode exponentText ++ rest))) =
        .ok (⟨negative, whole, fraction, exponent?⟩, rest) := by
    rw [scanUnsigned,
      scanWhole_of_writesWhole hwhole atEnd (noDigit_fraction hfraction hnoDigit)]
    refine bind_eq_ok_iff.mpr ⟨_, rfl, ?_⟩
    refine bind_eq_ok_iff.mpr
      ⟨_, scanFraction_of_writesFraction hfraction atEnd hnoDigit hpoint, ?_⟩
    exact bind_eq_ok_iff.mpr ⟨_, scanExponent_of_writesExponent hexponent atEnd hrest, rfl⟩
  obtain ⟨b, bytes, hbytes, hb⟩ := exists_digit_of_writesWhole hwhole
  simp only [encode_append, List.append_assoc]
  simp only [List.mem_cons, Prod.mk.injEq, List.not_mem_nil, or_false] at hsign
  obtain ⟨rfl, rfl⟩ | ⟨rfl, rfl⟩ := hsign
  · exact ⟨_, _, rfl, rfl, hunsigned⟩
  · rw [hbytes] at hunsigned ⊢
    refine ⟨b, _, rfl, lead_of_isDigit hb, ?_⟩
    rw [encode_nil, List.nil_append, List.cons_append, scanNumber_cons,
      if_neg (sign_ne_of_isDigit hb).1]
    exact hunsigned

/-! ## Around a document -/

/-- What the first byte of a document announces. -/
def Document.lead : Document → Lead
  | .null => .null
  | .flag true => .yes
  | .flag false => .no
  | .number _ => .number
  | .string _ => .text
  | .list _ => .list
  | .object _ => .object

theorem Document.lead_ne_other (document : Document) : document.lead ≠ .other := by
  cases document with
  | flag value => cases value <;> exact nofun
  | _ => exact nofun

/-- A written document starts with the byte that announces it. -/
theorem Document.WrittenAs.exists_lead {document : Document} {text : List Char}
    (h : document.WrittenAs text) :
    ∃ b bytes, encode text = b :: bytes ∧ Lead.of b = document.lead := by
  cases h with
  | null => exact ⟨_, _, rfl, rfl⟩
  | yes => exact ⟨_, _, rfl, rfl⟩
  | no => exact ⟨_, _, rfl, rfl⟩
  | number hnumber =>
    obtain ⟨b, bytes, hbytes, hlead, -⟩ := scanNumber_of_writesNumber hnumber .badNumber ends_nil
    exact ⟨b, bytes, hbytes, hlead⟩
  | string hstring =>
    obtain ⟨bytes, hbytes, -⟩ := passString_of_writesMarks hstring
    exact ⟨_, bytes, hbytes, rfl⟩
  | list => exact ⟨_, _, rfl, rfl⟩
  | object => exact ⟨_, _, rfl, rfl⟩

/-- White space does not go on with a number. -/
theorem ends_blank {blank : List Char} (hblank : Blank blank) (hrest : Ends rest) :
    Ends (encode blank ++ rest) := by
  cases blank with
  | nil => exact hrest
  | cons c blank =>
    have hspace := hblank c List.mem_cons_self
    simp only [List.mem_cons, List.not_mem_nil, or_false] at hspace
    obtain rfl | rfl | rfl | rfl := hspace
    all_goals
      rintro _ ⟨⟩
      exact ⟨rfl, by decide, rfl⟩

/-- Neither does what stands behind a part inside a bracket. -/
theorem ends_further {γ : Type} {writes : γ → List Char → Prop} {items : List γ} {text : List Char}
    (h : Further writes items text) (hrest : Ends rest) : Ends (encode text ++ rest) := by
  cases h with
  | nil hblank => exact ends_blank hblank hrest
  | cons hbefore _ _ _ =>
    rw [encode_append, List.append_assoc]
    refine ends_blank hbefore ?_
    rintro _ ⟨⟩
    exact ⟨rfl, by decide, rfl⟩

end Ambient.Json
