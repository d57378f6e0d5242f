/-
How far a reader looks.

A reader that succeeds has read something, and it would have read the same had more text
followed. There is one exception: a number ends only where something else follows, so
what has been read up to the end of the text may still go on. `Steady` readers are sure of
what they have read once they leave something unread; `SelfEnding` readers always are.
Strings, lists and objects carry their own end, and so does everything that is put together
of values and brackets.

Every loop below is bounded by the number of bytes left, which is another one when more
text follows. The lemmas on loops are therefore stated for any two bounds that suffice.
-/
import Ambient.Json.Skip
import Ambient.Json.Value
import Ambient.Proofs.Json.Contents
import Mathlib.Data.List.Basic

set_option autoImplicit false

namespace Ambient.Json

/-! ## The two kinds of readers -/

variable {α ε : Type} {text rest more : List UInt8}

/-- A reader that reads something, and the same when more text follows, provided that it
leaves something unread. -/
def Steady (read : List UInt8 → Except ε (α × List UInt8)) : Prop :=
  ∀ ⦃text value rest⦄, read text = .ok (value, rest) →
    rest.length < text.length ∧
      (rest ≠ [] → ∀ more, read (text ++ more) = .ok (value, rest ++ more))

/-- A reader that reads something, and the same whatever follows. -/
def SelfEnding (read : List UInt8 → Except ε (α × List UInt8)) : Prop :=
  ∀ ⦃text value rest⦄, read text = .ok (value, rest) →
    rest.length < text.length ∧ ∀ more, read (text ++ more) = .ok (value, rest ++ more)

/-- A reader that finds the end of its value by itself is steady. -/
theorem SelfEnding.steady {read : List UInt8 → Except ε (α × List UInt8)}
    (hread : SelfEnding read) : Steady read :=
  fun _ _ _ h => ⟨(hread h).1, fun _ => (hread h).2⟩

/-! ## White space -/

theorem length_skipSpace_le (text : List UInt8) : (skipSpace text).length ≤ text.length :=
  (List.dropWhile_sublist _).length_le

/-- White space ends in front of the first other byte, whatever follows. -/
theorem skipSpace_append {b : UInt8} (h : skipSpace text = b :: rest) (more : List UInt8) :
    skipSpace (text ++ more) = b :: (rest ++ more) := by
  have hne : (skipSpace text).isEmpty = false := by rw [h]; rfl
  rw [skipSpace, List.dropWhile_append, ← skipSpace, hne, h]
  rfl

theorem length_of_skipSpace {b : UInt8} (h : skipSpace text = b :: rest) :
    rest.length < text.length := by
  have hle := length_skipSpace_le text
  rw [h, List.length_cons] at hle
  omega

/-! ## Identifiers -/

/-- An identifier is compared byte by byte, and ends with its last one. -/
theorem expectBytes_append {wanted : List UInt8} (h : expectBytes wanted text = .ok rest) :
    rest.length ≤ text.length ∧ ∀ more, expectBytes wanted (text ++ more) = .ok (rest ++ more) := by
  induction wanted generalizing text with
  | nil =>
    rw [expectBytes, Except.ok.injEq] at h
    subst h
    exact ⟨Nat.le_refl _, fun more => by rw [expectBytes]⟩
  | cons b wanted ih =>
    cases text with
    | nil => cases h
    | cons c text =>
      rw [expectBytes] at h
      split at h
      · rename_i hc
        obtain ⟨hlength, hmore⟩ := ih h
        refine ⟨Nat.le_succ_of_le hlength, fun more => ?_⟩
        rw [List.cons_append, expectBytes, if_pos hc, hmore]
      · cases h

/-! ## Strings -/

/-- If a unit of a string is read alike in front of any text, what follows the string may
be longer. -/
theorem readContents_extends (unit : List UInt8) {tail bytes contents : List UInt8}
    (hunit : ∀ tail, readContents (unit ++ tail) = putBytes bytes (readContents tail))
    (htail : ∀ ⦃contents⦄, readContents tail = .ok (contents, rest) →
      rest.length < tail.length ∧
        ∀ more, readContents (tail ++ more) = .ok (contents, rest ++ more))
    (h : putBytes bytes (readContents tail) = .ok (contents, rest)) :
    rest.length < (unit ++ tail).length ∧
      ∀ more, readContents (unit ++ tail ++ more) = .ok (contents, rest ++ more) := by
  obtain ⟨further, hread, rfl⟩ := putBytes_eq_ok_iff.mp h
  obtain ⟨hlength, hmore⟩ := htail hread
  refine ⟨by rw [List.length_append]; omega, fun more => ?_⟩
  rw [List.append_assoc, hunit, hmore]
  rfl

/-- By induction on the units of the contents. Each unit is read alike in front of any text, and the
quote ends them. -/
theorem selfEnding_readContents : SelfEnding readContents := by
  intro text contents rest h
  fun_induction readContents text generalizing contents
  -- a unit that cannot be read ends the reading
  all_goals try (cases h; done)
  case case2 tail =>
    obtain ⟨rfl, rfl⟩ := Prod.mk.inj (Except.ok.inj h)
    exact ⟨Nat.lt_succ_self _, fun more => readContents_quote _⟩
  case case4 b tail hquote hbackslash hcontrol ih =>
    exact readContents_extends [b]
      (fun _ => readContents_plain hquote hbackslash hcontrol) ih h
  case case6 b hquote hbackslash e tail hletter byte hbyte ih =>
    rw [not_not] at hbackslash
    subst hbackslash
    exact readContents_extends [_, e]
      (fun _ => readContents_letter hletter hbyte) ih h
  case case15 b hquote hbackslash u hletter a₁ b₁ c₁ d₁ high hcode hnotLow hhigh b' hbackslash' u'
      hletter' a₂ b₂ c₂ d₂ tail low hcode' hlow ih =>
    rw [not_not] at hbackslash hletter hbackslash' hletter'
    subst hbackslash hletter hbackslash' hletter'
    exact readContents_extends [_, _, a₁, b₁, c₁, d₁, _, _, a₂, b₂, c₂, d₂]
      (readContents_pair hcode hnotLow hhigh hcode' hlow) ih h
  case case18 b hquote hbackslash u hletter a₁ b₁ c₁ d₁ tail code hcode hlow hhigh ih =>
    rw [not_not] at hbackslash hletter
    subst hbackslash hletter
    exact readContents_extends [_, _, a₁, b₁, c₁, d₁]
      (readContents_code hcode hlow hhigh) ih h

/-- Whether contents are text does not depend on where they end. -/
theorem decodeContents_eq_ok {contents : List UInt8} {string : String}
    (h : decodeContents contents rest = .ok string) (rest' : List UInt8) :
    decodeContents contents rest' = .ok string := by
  unfold decodeContents at h ⊢
  split at h
  · exact h
  · cases h

/-- A string ends with its quote, whatever follows. -/
theorem selfEnding_readString : SelfEnding readString := by
  intro text string rest h
  rw [readString, bind_eq_ok_iff] at h
  obtain ⟨⟨contents, left⟩, hcontents, h⟩ := h
  obtain ⟨decoded, hdecode, h⟩ := bind_eq_ok_iff.mp h
  cases h
  obtain ⟨hlength, hmore⟩ := selfEnding_readContents hcontents
  refine ⟨hlength, fun more => ?_⟩
  rw [readString, hmore]
  exact bind_eq_ok_iff.mpr ⟨(contents, rest ++ more), rfl,
    bind_eq_ok_iff.mpr ⟨string, decodeContents_eq_ok hdecode _, rfl⟩⟩

/-- A string that is passed over ends with its quote, whatever follows. -/
theorem passString_append (h : passString text = .ok rest) :
    rest.length < text.length ∧ ∀ more, passString (text ++ more) = .ok (rest ++ more) := by
  fun_induction passString text
  all_goals try (cases h; done)
  case case2 tail =>
    cases h
    refine ⟨Nat.lt_succ_self _, fun more => ?_⟩
    rw [List.cons_append, passString.eq_def]
    exact if_pos rfl
  case case4 b tail hquote hbackslash hcontrol ih =>
    obtain ⟨hlength, hmore⟩ := ih h
    refine ⟨Nat.lt_succ_of_lt hlength, fun more => ?_⟩
    rw [List.cons_append, passString.eq_def]
    simp only [if_neg hquote, if_pos hbackslash, if_neg hcontrol, hmore]
  case case6 b hquote hbackslash e tail hletter byte hbyte ih =>
    obtain ⟨hlength, hmore⟩ := ih h
    refine ⟨by simp only [List.length_cons]; omega, fun more => ?_⟩
    rw [List.cons_append, List.cons_append, passString.eq_def]
    simp only [if_neg hquote, if_neg hbackslash, if_pos hletter, hbyte, hmore]
  case case9 b hquote hbackslash u hletter a₁ b₁ c₁ d₁ tail code hcode ih =>
    obtain ⟨hlength, hmore⟩ := ih h
    refine ⟨by simp only [List.length_cons]; omega, fun more => ?_⟩
    simp only [List.cons_append]
    rw [passString.eq_def]
    simp only [if_neg hquote, if_neg hbackslash, if_neg hletter, hcode, hmore]

/-! ## Numbers -/

/-- Digits end in front of the first other byte. At the end of the text there is none, and more
digits might follow. -/
theorem spanDigits_append {digits : List Nat} (h : spanDigits text = (digits, rest)) :
    rest.length ≤ text.length ∧
      (rest ≠ [] → ∀ more, spanDigits (text ++ more) = (digits, rest ++ more)) := by
  obtain ⟨rfl, rfl⟩ := Prod.mk.inj h
  refine ⟨(List.dropWhile_sublist _).length_le, fun hne more => ?_⟩
  have hdrop : (text.dropWhile Byte.isDigit).isEmpty = false := List.isEmpty_eq_false_iff.mpr hne
  -- something is left, so the digits stop before the end and what follows cannot lengthen them
  have htake : (text.takeWhile Byte.isDigit).length ≠ text.length := by
    have hsum := congrArg List.length
      (List.takeWhile_append_dropWhile (p := Byte.isDigit) (l := text))
    have hpos := List.length_pos_iff.mpr hne
    rw [List.length_append] at hsum
    omega
  rw [spanDigits, List.takeWhile_append, List.dropWhile_append, if_neg htake, hdrop]
  rfl

/-- The whole part of a number has a digit. After a zero there must be no other one, which takes
a look at the next byte. -/
theorem scanWhole_append {atEnd : Cause} {digits : List Nat}
    (h : scanWhole atEnd text = .ok (digits, rest)) :
    rest.length < text.length ∧
      (rest ≠ [] → ∀ more, scanWhole atEnd (text ++ more) = .ok (digits, rest ++ more)) := by
  cases text with
  | nil => cases h
  | cons b tail =>
    rw [scanWhole.eq_def] at h
    simp only at h
    split at h
    · -- after a zero the next byte decides whether the literal is refused
      rename_i hzero
      cases tail with
      | nil =>
        cases h
        exact ⟨Nat.lt_succ_self _, fun hne => absurd rfl hne⟩
      | cons c tail =>
        dsimp only at h
        split at h
        · cases h
        · rename_i hdigit
          cases h
          refine ⟨Nat.lt_succ_self _, fun _ more => ?_⟩
          rw [List.cons_append, scanWhole.eq_def]
          simp only [if_pos hzero, List.cons_append, if_neg hdigit]
    · rename_i hzero
      split at h
      · rename_i hdigit
        obtain ⟨hlength, hmore⟩ := spanDigits_append (Except.ok.inj h)
        refine ⟨?_, fun hne more => ?_⟩
        · -- `spanDigits_append` allows for no digit at all, but here the first byte is one
          have hrest := (Prod.mk.inj (Except.ok.inj h)).2
          rw [List.dropWhile_cons_of_pos hdigit] at hrest
          have htail := (List.dropWhile_sublist (p := Byte.isDigit) (l := tail)).length_le
          rw [hrest] at htail
          exact Nat.lt_succ_of_le htail
        · rw [List.cons_append, scanWhole.eq_def]
          simp only [if_neg hzero, if_pos hdigit]
          rw [← List.cons_append, hmore hne]
      · cases h

/-- The fraction is absent unless a point follows, and has a digit then. -/
theorem scanFraction_append {atEnd : Cause} {digits : List Nat}
    (h : scanFraction atEnd text = .ok (digits, rest)) :
    rest.length ≤ text.length ∧
      (rest ≠ [] → ∀ more, scanFraction atEnd (text ++ more) = .ok (digits, rest ++ more)) := by
  cases text with
  | nil =>
    cases h
    exact ⟨Nat.le_refl _, fun hne => absurd rfl hne⟩
  | cons b tail =>
    rw [scanFraction.eq_def] at h
    simp only at h
    split at h
    · rename_i hpoint
      split at h
      · cases h
      · cases h
      · rename_i digits' left hdigits hleft hspan
        cases h
        obtain ⟨hlength, hmore⟩ := spanDigits_append hspan
        refine ⟨Nat.le_succ_of_le hlength, fun hne more => ?_⟩
        rw [List.cons_append, scanFraction.eq_def]
        simp only [if_pos hpoint, hmore hne]
        -- a point without digits has been refused
        cases digits with
        | nil => exact (hleft rfl).elim
        | cons _ _ => rfl
    · rename_i hpoint
      cases h
      refine ⟨Nat.le_refl _, fun _ more => ?_⟩
      rw [List.cons_append, scanFraction.eq_def]
      simp only [if_neg hpoint]

theorem scanSign_append {negative : Bool} {c : UInt8}
    (h : scanSign text = (negative, c :: rest)) :
    rest.length < text.length ∧
      ∀ more, scanSign (text ++ more) = (negative, c :: (rest ++ more)) := by
  cases text with
  | nil => cases h
  | cons b tail =>
    rw [scanSign] at h
    simp only [List.cons_append, scanSign]
    split at h
    · rename_i hminus
      cases h
      refine ⟨by simp only [List.length_cons]; omega, fun more => ?_⟩
      rw [if_pos hminus, List.cons_append]
    · rename_i hminus
      split at h
      · rename_i hplus
        cases h
        refine ⟨by simp only [List.length_cons]; omega, fun more => ?_⟩
        rw [if_neg hminus, if_pos hplus, List.cons_append]
      · rename_i hplus
        cases h
        refine ⟨Nat.lt_succ_self _, fun more => ?_⟩
        rw [if_neg hminus, if_neg hplus]

/-- The exponent is absent unless its letter follows, and has a digit behind its sign then. -/
theorem scanExponent_append {atEnd : Cause} {exponent? : Option (Bool × List Nat)}
    (h : scanExponent atEnd text = .ok (exponent?, rest)) :
    rest.length ≤ text.length ∧
      (rest ≠ [] → ∀ more, scanExponent atEnd (text ++ more) = .ok (exponent?, rest ++ more)) := by
  cases text with
  | nil =>
    cases h
    exact ⟨Nat.le_refl _, fun hne => absurd rfl hne⟩
  | cons b tail =>
    rw [scanExponent.eq_def] at h
    simp only at h
    split at h
    · rename_i hexponent
      split at h
      · cases h
      · rename_i negative c left hsign
        split at h
        · rename_i hdigit
          cases h
          obtain ⟨hsigned, hafter⟩ := scanSign_append hsign
          have hspan : spanDigits (c :: left) =
            ((spanDigits (c :: left)).1, (spanDigits (c :: left)).2) := rfl
          obtain ⟨hlength, hmore⟩ := spanDigits_append hspan
          refine ⟨?_, fun hne more => ?_⟩
          · rw [List.length_cons] at hlength ⊢
            omega
          · rw [List.cons_append, scanExponent.eq_def]
            simp only [if_pos hexponent, hafter, if_pos hdigit]
            rw [← List.cons_append, hmore hne]
        · cases h
    · rename_i hexponent
      cases h
      refine ⟨Nat.le_refl _, fun _ more => ?_⟩
      rw [List.cons_append, scanExponent.eq_def]
      simp only [if_neg hexponent]

/-- A number literal after its sign. -/
def scanUnsigned (atEnd : Cause) (negative : Bool) : Reader Literal := fun text => do
  let (whole, text) ← scanWhole atEnd text
  let (fraction, text) ← scanFraction atEnd text
  let (exponent?, text) ← scanExponent atEnd text
  return (⟨negative, whole, fraction, exponent?⟩, text)

theorem scanNumber_cons (atEnd : Cause) (b : UInt8) (tail : List UInt8) :
    scanNumber atEnd (b :: tail) =
      if b = Byte.minus then scanUnsigned atEnd true tail
      else scanUnsigned atEnd false (b :: tail) := by
  rw [scanNumber]
  by_cases hminus : b = Byte.minus
  · simp only [if_pos hminus]
    rfl
  · simp only [if_neg hminus]
    rfl

/-- The parts of a number one after the other: what is left in the end was left by each of them. -/
theorem steady_scanUnsigned (atEnd : Cause) (negative : Bool) :
    Steady (scanUnsigned atEnd negative) := by
  intro text literal rest h
  rw [scanUnsigned, bind_eq_ok_iff] at h
  obtain ⟨⟨whole, afterWhole⟩, hwhole, h⟩ := h
  obtain ⟨⟨fraction, afterFraction⟩, hfraction, h⟩ := bind_eq_ok_iff.mp h
  obtain ⟨⟨exponent?, afterExponent⟩, hexponent, h⟩ := bind_eq_ok_iff.mp h
  cases h
  obtain ⟨hwholeLength, hwholeMore⟩ := scanWhole_append hwhole
  obtain ⟨hfractionLength, hfractionMore⟩ := scanFraction_append hfraction
  obtain ⟨hexponentLength, hexponentMore⟩ := scanExponent_append hexponent
  refine ⟨by omega, fun hne more => ?_⟩
  -- what is left in the end was left after every part before
  have hpos := List.length_pos_iff.mpr hne
  rw [scanUnsigned, hwholeMore (List.length_pos_iff.mp (by omega))]
  refine bind_eq_ok_iff.mpr ⟨_, rfl, ?_⟩
  refine bind_eq_ok_iff.mpr ⟨_, hfractionMore (List.length_pos_iff.mp (by omega)) more, ?_⟩
  exact bind_eq_ok_iff.mpr ⟨_, hexponentMore hne more, rfl⟩

theorem steady_scanNumber (atEnd : Cause) : Steady (scanNumber atEnd) := by
  intro text literal rest h
  cases text with
  | nil => cases h
  | cons b tail =>
    rw [scanNumber_cons] at h
    simp only [List.cons_append, scanNumber_cons]
    split at h
    · rename_i hminus
      obtain ⟨hlength, hmore⟩ := steady_scanUnsigned atEnd true h
      refine ⟨Nat.lt_succ_of_lt hlength, fun hne more => ?_⟩
      rw [if_pos hminus, hmore hne]
    · rename_i hminus
      obtain ⟨hlength, hmore⟩ := steady_scanUnsigned atEnd false h
      refine ⟨hlength, fun hne more => ?_⟩
      rw [if_neg hminus, ← List.cons_append, hmore hne]

/-- Whether a number is in range does not depend on what follows it. -/
theorem steady_readNumber : Steady readNumber := by
  intro text number rest h
  rw [readNumber, bind_eq_ok_iff] at h
  obtain ⟨⟨literal, left⟩, hscan, h⟩ := h
  dsimp only at h
  split at h
  · rename_i hvalue
    cases h
    obtain ⟨hlength, hmore⟩ := steady_scanNumber .endOfValue hscan
    refine ⟨hlength, fun hne more => ?_⟩
    rw [readNumber, hmore hne]
    refine bind_eq_ok_iff.mpr ⟨_, rfl, ?_⟩
    dsimp only
    rw [hvalue]
    rfl
  · cases h

/-! ## Lists -/

/-- Where the next element of a list starts, or that none does, is known from the bytes up to it. -/
theorem nextElement?_append {first : Bool} {found : Option (List UInt8)}
    (h : nextElement? first text = .ok found) :
    text ≠ [] ∧ (∀ element, found = some element → element.length ≤ text.length) ∧
      ∀ more, nextElement? first (text ++ more) = .ok (found.map (· ++ more)) := by
  rw [nextElement?] at h
  split at h
  · cases h
  rename_i b tail hskip
  have hne : text ≠ [] := by rintro rfl; cases hskip
  have hlength := length_skipSpace_le text
  rw [hskip] at hlength
  have hskipMore := skipSpace_append hskip
  refine ⟨hne, ?_⟩
  split at h
  · rename_i hclose
    cases h
    refine ⟨nofun, fun more => ?_⟩
    rw [nextElement?, hskipMore]
    exact if_pos hclose
  rename_i hclose
  split at h
  · rename_i hfirst
    cases h
    refine ⟨?_, fun more => ?_⟩
    · rintro _ ⟨⟩
      exact hlength
    · rw [nextElement?, hskipMore]
      simp only [if_neg hclose, if_pos hfirst]
      rfl
  rename_i hfirst
  split at h
  · -- behind a comma the list may not close
    rename_i hcomma
    split at h
    · cases h
    rename_i c after hskip'
    split at h
    · cases h
    rename_i hclose'
    cases h
    have hlength' := length_skipSpace_le tail
    rw [hskip'] at hlength'
    refine ⟨?_, fun more => ?_⟩
    · rintro _ ⟨⟩
      rw [List.length_cons] at hlength
      omega
    · rw [nextElement?, hskipMore]
      simp only [if_neg hclose, if_neg hfirst, if_pos hcomma, skipSpace_append hskip',
        if_neg hclose']
      rfl
  · cases h

/-- By induction on the rounds. In every round at least one byte is read, so that rounds that are
more than the bytes of a text are enough for it. -/
theorem readElements_append {read : Reader α} (hread : Steady read) {rounds index : Nat}
    {values : List α} (h : readElements read rounds index text = .ok (values, rest))
    (hrounds : text.length < rounds) :
    rest.length ≤ text.length ∧ rest ≠ [] ∧
      ∀ more rounds', (text ++ more).length < rounds' →
        readElements read rounds' index (text ++ more) = .ok (values, rest ++ more) := by
  induction rounds generalizing index text values with
  | zero => omega
  | succ rounds ih =>
    rw [readElements] at h
    split at h
    · cases h
    · -- the closing bracket comes next
      rename_i hnext
      cases h
      obtain ⟨hne, -, hmore⟩ := nextElement?_append hnext
      refine ⟨Nat.le_refl _, hne, fun more rounds' hrounds' => ?_⟩
      obtain ⟨rounds', rfl⟩ := Nat.exists_eq_add_one_of_ne_zero (Nat.ne_zero_of_lt hrounds')
      rw [readElements, hmore]
      rfl
    · rename_i element hnext
      split at h
      · cases h
      rename_i value left hvalue
      split at h
      · cases h
      rename_i further rest' hfurther
      cases h
      obtain ⟨-, helement, hnextMore⟩ := nextElement?_append hnext
      have hshorter := helement element rfl
      obtain ⟨hleft, hvalueMore⟩ := hread hvalue
      obtain ⟨hrest, hne, hfurtherMore⟩ := ih hfurther (by omega)
      refine ⟨by omega, hne, fun more rounds' hrounds' => ?_⟩
      -- the bracket to come is left unread by this element, so that a steady reader is sure of it
      have hleftPos := List.length_pos_iff.mpr hne
      have hleftNe : left ≠ [] := List.length_pos_iff.mp (by omega)
      obtain ⟨rounds', rfl⟩ := Nat.exists_eq_add_one_of_ne_zero (Nat.ne_zero_of_lt hrounds')
      rw [List.length_append] at hrounds'
      rw [readElements, hnextMore]
      simp only [Option.map_some, hvalueMore hleftNe,
        hfurtherMore more rounds' (by rw [List.length_append]; omega)]

/-- A list ends with its closing bracket, and anything else in the place of it is a fault. -/
theorem closeList_append (h : closeList text = .ok rest) :
    rest.length < text.length ∧ ∀ more, closeList (text ++ more) = .ok (rest ++ more) := by
  rw [closeList] at h
  split at h
  · cases h
  rename_i b tail hskip
  split at h
  · rename_i hclose
    cases h
    refine ⟨length_of_skipSpace hskip, fun more => ?_⟩
    rw [closeList, skipSpace_append hskip]
    exact if_pos hclose
  · -- anything else is refused
    split at h
    · split at h
      · cases h
      · split at h <;> cases h
    · cases h

/-! ## Objects -/

/-- A key that has been found is read alike in front of any text. -/
theorem readString_found_append {found : Option (String × List UInt8)}
    (h : some <$> readString text = .ok found) :
    ∃ key after, found = some (key, after) ∧ after.length < text.length ∧
      ∀ more, some <$> readString (text ++ more) = .ok (some (key, after ++ more)) := by
  cases hread : readString text with
  | error fault =>
    rw [hread] at h
    cases h
  | ok result =>
    rw [hread] at h
    cases h
    obtain ⟨hlength, hmore⟩ := selfEnding_readString hread
    exact ⟨result.1, result.2, rfl, hlength, fun more => by rw [hmore]; rfl⟩

/-- Where the next key of an object starts, or that none does, is known from the bytes up to it. -/
theorem nextKey?_append {first : Bool} {found : Option (String × List UInt8)}
    (h : nextKey? first text = .ok found) :
    (∀ key after, found = some (key, after) → after.length < text.length) ∧
      (found = none → ∃ after, skipSpace text = Byte.objectClose :: after) ∧
      ∀ more, nextKey? first (text ++ more) =
        .ok (found.map fun (key, after) => (key, after ++ more)) := by
  rw [nextKey?] at h
  split at h
  · cases h
  rename_i b tail hskip
  have hlength := length_of_skipSpace hskip
  have hskipMore := skipSpace_append hskip
  split at h
  · rename_i hclose
    cases h
    refine ⟨nofun, fun _ => ⟨tail, hclose ▸ hskip⟩, fun more => ?_⟩
    rw [nextKey?, hskipMore]
    exact if_pos hclose
  rename_i hclose
  split at h
  · rename_i hfirst
    split at h
    · rename_i hquote
      obtain ⟨key, after, rfl, hafter, hmore⟩ := readString_found_append h
      refine ⟨?_, nofun, fun more => ?_⟩
      · rintro _ _ ⟨⟩
        omega
      · rw [nextKey?, hskipMore]
        simp only [if_neg hclose, if_pos hfirst, if_pos hquote, hmore]
        rfl
    · cases h
  rename_i hfirst
  split at h
  · rename_i hcomma
    split at h
    · cases h
    rename_i c after hskip'
    have hlength' := length_of_skipSpace hskip'
    split at h
    · rename_i hquote
      obtain ⟨key, afterKey, rfl, hafter, hmore⟩ := readString_found_append h
      refine ⟨?_, nofun, fun more => ?_⟩
      · rintro _ _ ⟨⟩
        omega
      · rw [nextKey?, hskipMore]
        simp only [if_neg hclose, if_neg hfirst, if_pos hcomma, skipSpace_append hskip',
          if_pos hquote, hmore]
        rfl
    · split at h <;> cases h
  · cases h

theorem expectColon_append (h : expectColon text = .ok rest) :
    rest.length < text.length ∧ ∀ more, expectColon (text ++ more) = .ok (rest ++ more) := by
  rw [expectColon] at h
  split at h
  · cases h
  rename_i b tail hskip
  split at h
  · rename_i hcolon
    cases h
    refine ⟨length_of_skipSpace hskip, fun more => ?_⟩
    rw [expectColon, skipSpace_append hskip]
    exact if_pos hcolon
  · cases h

theorem steady_readEntry {read : Reader α} (hread : Steady read) (key : String) :
    Steady (readEntry read key) := by
  intro text value rest h
  rw [readEntry, bind_eq_ok_iff] at h
  obtain ⟨afterColon, hcolon, h⟩ := h
  split at h
  · rename_i hvalue
    cases h
    obtain ⟨hlength, hmore⟩ := expectColon_append hcolon
    obtain ⟨hlength', hmore'⟩ := hread hvalue
    refine ⟨Nat.lt_trans hlength' hlength, fun hne more => ?_⟩
    rw [readEntry, hmore]
    refine bind_eq_ok_iff.mpr ⟨_, rfl, ?_⟩
    rw [hmore' hne]
  · cases h

/-- The same induction for objects, where an entry is a key, a colon and a value. -/
theorem readEntries_append {σ : Type}
    {enter : String → σ → List UInt8 → Except Stop (σ × List UInt8)}
    (henter : ∀ key state, Steady (enter key state)) {rounds : Nat} {first : Bool}
    {state final : σ} (h : readEntries enter rounds first state text = .ok (final, rest))
    (hrounds : text.length < rounds) :
    rest.length ≤ text.length ∧ (∃ after, skipSpace rest = Byte.objectClose :: after) ∧
      ∀ more rounds', (text ++ more).length < rounds' →
        readEntries enter rounds' first state (text ++ more) = .ok (final, rest ++ more) := by
  induction rounds generalizing first state text with
  | zero => omega
  | succ rounds ih =>
    rw [readEntries] at h
    split at h
    · cases h
    · -- the closing bracket comes next
      rename_i hnext
      cases h
      obtain ⟨-, hclose, hmore⟩ := nextKey?_append hnext
      refine ⟨Nat.le_refl _, hclose rfl, fun more rounds' hrounds' => ?_⟩
      obtain ⟨rounds', rfl⟩ := Nat.exists_eq_add_one_of_ne_zero (Nat.ne_zero_of_lt hrounds')
      rw [readEntries, hmore]
      rfl
    · rename_i key afterKey hnext
      split at h
      · cases h
      rename_i state' left hentry
      obtain ⟨hkey, -, hnextMore⟩ := nextKey?_append hnext
      have hshorter := hkey key afterKey rfl
      obtain ⟨hleft, hentryMore⟩ := henter key state hentry
      obtain ⟨hrest, ⟨after, hclose⟩, hfurtherMore⟩ := ih h (by omega)
      refine ⟨by omega, ⟨after, hclose⟩, fun more rounds' hrounds' => ?_⟩
      -- the bracket to come is left unread by this entry, so that a steady reader is sure of it
      have hpos := length_of_skipSpace hclose
      have hleftNe : left ≠ [] := List.length_pos_iff.mp (by omega)
      obtain ⟨rounds', rfl⟩ := Nat.exists_eq_add_one_of_ne_zero (Nat.ne_zero_of_lt hrounds')
      rw [List.length_append] at hrounds'
      rw [readEntries, hnextMore]
      simp only [Option.map_some, hentryMore hleftNe,
        hfurtherMore more rounds' (by rw [List.length_append]; omega)]

/-- An object whose body stops in front of the closing bracket ends with that bracket. -/
theorem selfEnding_readObject {σ : Type} {body : List UInt8 → Except Stop (σ × List UInt8)}
    (hbody : ∀ {text state rest}, body text = .ok (state, rest) →
      rest.length ≤ text.length ∧ (∃ after, skipSpace rest = Byte.objectClose :: after) ∧
        ∀ more, body (text ++ more) = .ok (state, rest ++ more)) :
    SelfEnding (readObject body) := by
  intro text state rest h
  rw [readObject] at h
  split at h
  · rename_i left hread
    cases h
    obtain ⟨hlength, ⟨after, hclose⟩, hmore⟩ := hbody hread
    have hpass : ∀ more, passObjectClose (left ++ more) = after ++ more := by
      intro more
      rw [passObjectClose, skipSpace_append hclose]
      exact if_pos rfl
    have hpassed : passObjectClose left = after := by
      rw [passObjectClose, hclose]
      exact if_pos rfl
    rw [hpassed]
    refine ⟨Nat.lt_of_lt_of_le (length_of_skipSpace hclose) hlength, fun more => ?_⟩
    rw [readObject, hmore]
    simp only [hpass]
  · cases h
  · cases h

/-! ## Whole values -/

theorem length_lt_roundsFor (text : List UInt8) : text.length < roundsFor text :=
  Nat.lt_succ_self _

/-- A reader that decides by the first byte after white space what to do with the rest. -/
theorem steady_of_branch {read : Reader α} {branch : UInt8 → Reader α}
    (hread : ∀ text, read text =
      match skipSpace text with
      | [] => .error (.next .endOfValue [])
      | b :: tail => branch b tail)
    (hbranch : ∀ {b text value rest}, branch b text = .ok (value, rest) →
      rest.length ≤ text.length ∧
        (rest ≠ [] → ∀ more, branch b (text ++ more) = .ok (value, rest ++ more))) :
    Steady read := by
  intro text value rest h
  rw [hread] at h
  split at h
  · cases h
  · rename_i b tail hskip
    obtain ⟨hlength, hmore⟩ := hbranch h
    refine ⟨Nat.lt_of_le_of_lt hlength (length_of_skipSpace hskip), fun hne more => ?_⟩
    rw [hread, skipSpace_append hskip]
    exact hmore hne more

/-- An identifier is read alike in front of any text. -/
theorem expectBytes_bind_append {wanted : List UInt8} {value result : α}
    (h : (do return (value, ← expectBytes wanted text)) = Except.ok (result, rest)) :
    rest.length ≤ text.length ∧ ∀ more,
      (do return (value, ← expectBytes wanted (text ++ more))) =
        Except.ok (result, rest ++ more) := by
  obtain ⟨left, hread, h⟩ := bind_eq_ok_iff.mp h
  cases h
  obtain ⟨hlength, hmore⟩ := expectBytes_append hread
  exact ⟨hlength, fun more => by rw [hmore]; rfl⟩

/-- The elements of a list and its closing bracket are read alike in front of any text. -/
theorem readElements_closeList_append {read : Reader α} (hread : Steady read) {values : List α}
    {left : List UInt8} (hvalues : readElements read (roundsFor text) 0 text = .ok (values, left))
    (hclose : closeList left = .ok rest) :
    rest.length ≤ text.length ∧ ∀ more,
      readElements read (roundsFor (text ++ more)) 0 (text ++ more) = .ok (values, left ++ more) ∧
        closeList (left ++ more) = .ok (rest ++ more) := by
  obtain ⟨hleft, -, hvaluesMore⟩ := readElements_append hread hvalues (length_lt_roundsFor text)
  obtain ⟨hrest, hcloseMore⟩ := closeList_append hclose
  exact ⟨by omega, fun more => ⟨hvaluesMore more _ (length_lt_roundsFor _), hcloseMore more⟩⟩

theorem readEntries_roundsFor_append {σ : Type}
    {enter : String → σ → List UInt8 → Except Stop (σ × List UInt8)}
    (henter : ∀ key state, Steady (enter key state)) {first : Bool} {state final : σ}
    (h : readEntries enter (roundsFor text) first state text = .ok (final, rest)) :
    rest.length ≤ text.length ∧ (∃ after, skipSpace rest = Byte.objectClose :: after) ∧
      ∀ more, readEntries enter (roundsFor (text ++ more)) first state (text ++ more) =
        .ok (final, rest ++ more) := by
  obtain ⟨hlength, hclose, hmore⟩ := readEntries_append henter h (length_lt_roundsFor text)
  exact ⟨hlength, hclose, fun more => hmore more _ (length_lt_roundsFor _)⟩

/-- Puts an entry in front of the entries of an object read so far. -/
def keepEntry (read : Reader Value) (key : String) (entries : List (String × Value))
    (text : List UInt8) : Except Stop (List (String × Value) × List UInt8) :=
  match readEntry read key text with
  | .ok (value, rest) => .ok ((key, value) :: entries, rest)
  | .error fault => .error (.fault fault)

theorem steady_keepEntry {read : Reader Value} (hread : Steady read) (key : String)
    (entries : List (String × Value)) : Steady (keepEntry read key entries) := by
  intro text state rest h
  rw [keepEntry] at h
  split at h
  · rename_i value left hvalue
    cases h
    obtain ⟨hlength, hmore⟩ := steady_readEntry hread key hvalue
    refine ⟨hlength, fun hne more => ?_⟩
    rw [keepEntry, hmore hne]
  · cases h

/-- **Values are read alike in front of any text that goes on.** Only a number can be longer if
more digits follow; every other value ends itself. -/
theorem steady_readValue (levels : Nat) : Steady (readValue levels) := by
  induction levels using Nat.strongRecOn with
  | ind levels ih =>
    refine steady_of_branch (readValue.eq_def levels) fun {b text value rest} h => ?_
    split at h
    · exact (expectBytes_bind_append h).imp_right fun hmore _ => hmore
    · exact (expectBytes_bind_append h).imp_right fun hmore _ => hmore
    · exact (expectBytes_bind_append h).imp_right fun hmore _ => hmore
    · -- a number takes its first byte along
      obtain ⟨⟨number, left⟩, hnumber, h⟩ := bind_eq_ok_iff.mp h
      cases h
      obtain ⟨hlength, hmore⟩ := steady_readNumber hnumber
      refine ⟨Nat.le_of_lt_succ hlength, fun hne more => ?_⟩
      rw [← List.cons_append, hmore hne]
      rfl
    · obtain ⟨⟨string, left⟩, hstring, h⟩ := bind_eq_ok_iff.mp h
      cases h
      obtain ⟨hlength, hmore⟩ := selfEnding_readString hstring
      refine ⟨Nat.le_of_lt hlength, fun _ more => ?_⟩
      rw [hmore]
      rfl
    · -- a list, unless it stands too deep
      split at h
      · cases h
      rename_i inner
      obtain ⟨⟨items, left⟩, hitems, h⟩ := bind_eq_ok_iff.mp h
      obtain ⟨afterClose, hclose, h⟩ := bind_eq_ok_iff.mp h
      cases h
      obtain ⟨hlength, hmore⟩ :=
        readElements_closeList_append (ih inner (Nat.lt_succ_self inner)) hitems hclose
      refine ⟨hlength, fun _ more => ?_⟩
      dsimp only
      rw [(hmore more).1]
      refine bind_eq_ok_iff.mpr ⟨_, rfl, ?_⟩
      exact bind_eq_ok_iff.mpr ⟨_, (hmore more).2, rfl⟩
    · -- an object, whose entries are kept in turn
      split at h
      · cases h
      rename_i inner
      obtain ⟨⟨entries, left⟩, hentries, h⟩ := bind_eq_ok_iff.mp h
      cases h
      have hentry := steady_keepEntry (ih inner (Nat.lt_succ_self inner))
      have hobject : SelfEnding (readObject fun text =>
          readEntries (keepEntry (readValue inner)) (roundsFor text) true [] text) :=
        selfEnding_readObject fun hbody => readEntries_roundsFor_append hentry hbody
      obtain ⟨hlength, hmore⟩ := hobject hentries
      exact ⟨Nat.le_of_lt hlength, fun _ more => bind_eq_ok_iff.mpr ⟨_, hmore more, rfl⟩⟩
    · cases h

/-! ## Values that are passed over -/

theorem passKey_append (h : passKey text = .ok rest) :
    rest.length < text.length ∧ ∀ more, passKey (text ++ more) = .ok (rest ++ more) := by
  rw [passKey] at h
  split at h
  · cases h
  rename_i b tail hskip
  split at h
  · rename_i hquote
    obtain ⟨afterKey, hkey, hcolon⟩ := bind_eq_ok_iff.mp h
    obtain ⟨hkeyLength, hkeyMore⟩ := passString_append hkey
    obtain ⟨hcolonLength, hcolonMore⟩ := expectColon_append hcolon
    have hlength := length_of_skipSpace hskip
    refine ⟨by omega, fun more => ?_⟩
    rw [passKey, skipSpace_append hskip]
    simp only [if_pos hquote, hkeyMore]
    exact hcolonMore more
  · cases h

theorem passToValue_append {bracket : Bracket} (h : passToValue bracket text = .ok rest) :
    rest.length ≤ text.length ∧
      ∀ more, passToValue bracket (text ++ more) = .ok (rest ++ more) := by
  cases bracket with
  | list =>
    cases h
    exact ⟨Nat.le_refl _, fun _ => rfl⟩
  | object =>
    obtain ⟨hlength, hmore⟩ := passKey_append h
    exact ⟨Nat.le_of_lt hlength, hmore⟩

theorem passScalar_append {lead : Lead} {b : UInt8}
    (h : passScalar lead (b :: text) text = .ok rest) :
    rest.length ≤ text.length ∧
      (rest ≠ [] → ∀ more,
        passScalar lead (b :: (text ++ more)) (text ++ more) = .ok (rest ++ more)) := by
  cases lead with
  | null => exact (expectBytes_append h).imp_right fun hmore _ => hmore
  | yes => exact (expectBytes_append h).imp_right fun hmore _ => hmore
  | no => exact (expectBytes_append h).imp_right fun hmore _ => hmore
  | text =>
    obtain ⟨hlength, hmore⟩ := passString_append h
    exact ⟨Nat.le_of_lt hlength, fun _ => hmore⟩
  | number =>
    obtain ⟨⟨literal, left⟩, hscan, h⟩ := bind_eq_ok_iff.mp h
    cases h
    obtain ⟨hlength, hmore⟩ := steady_scanNumber .badNumber hscan
    refine ⟨Nat.le_of_lt_succ hlength, fun hne more => ?_⟩
    exact bind_eq_ok_iff.mpr ⟨_, hmore hne more, rfl⟩
  | list => cases h
  | object => cases h
  | other => cases h

/-- What a bound on the steps means in each state of the loop: a text that is passed over
within the bound is passed over alike when more text follows and within any greater bound. -/
structure Passing (steps : Nat) : Prop where
  value : ∀ {stack text rest}, passValue steps stack text = .ok rest →
    rest.length < text.length ∧ (rest ≠ [] → ∀ more steps', steps ≤ steps' →
      passValue steps' stack (text ++ more) = .ok (rest ++ more))
  into : ∀ {bracket stack text rest}, passInto steps bracket stack text = .ok rest →
    rest.length < text.length ∧ (rest ≠ [] → ∀ more steps', steps ≤ steps' →
      passInto steps' bracket stack (text ++ more) = .ok (rest ++ more))
  on : ∀ {stack text rest}, passOn steps stack text = .ok rest →
    rest.length ≤ text.length ∧ (rest ≠ [] → ∀ more steps', steps ≤ steps' →
      passOn steps' stack (text ++ more) = .ok (rest ++ more))

theorem Passing.value_succ {steps : Nat} (hsteps : Passing steps) {stack : List Bracket}
    (h : passValue (steps + 1) stack text = .ok rest) :
    rest.length < text.length ∧ (rest ≠ [] → ∀ more steps', steps + 1 ≤ steps' →
      passValue steps' stack (text ++ more) = .ok (rest ++ more)) := by
  rw [passValue] at h
  split at h
  · cases h
  rename_i b tail hskip
  have hlength := length_of_skipSpace hskip
  split at h
  · rename_i hlead
    obtain ⟨hinto, hmore⟩ := hsteps.into h
    refine ⟨by omega, fun hne more steps' hsteps' => ?_⟩
    obtain ⟨steps', rfl⟩ := Nat.exists_eq_add_one_of_ne_zero (Nat.ne_zero_of_lt hsteps')
    rw [passValue, skipSpace_append hskip]
    simp only [hlead]
    exact hmore hne more steps' (by omega)
  · rename_i hlead
    obtain ⟨hinto, hmore⟩ := hsteps.into h
    refine ⟨by omega, fun hne more steps' hsteps' => ?_⟩
    obtain ⟨steps', rfl⟩ := Nat.exists_eq_add_one_of_ne_zero (Nat.ne_zero_of_lt hsteps')
    rw [passValue, skipSpace_append hskip]
    simp only [hlead]
    exact hmore hne more steps' (by omega)
  · -- a value without brackets
    rename_i hlist hobject
    obtain ⟨left, hscalar, h⟩ := bind_eq_ok_iff.mp h
    obtain ⟨hleft, hscalarMore⟩ := passScalar_append hscalar
    obtain ⟨hrest, hmore⟩ := hsteps.on h
    refine ⟨by omega, fun hne more steps' hsteps' => ?_⟩
    obtain ⟨steps', rfl⟩ := Nat.exists_eq_add_one_of_ne_zero (Nat.ne_zero_of_lt hsteps')
    have hpos := List.length_pos_iff.mpr hne
    have hleftNe : left ≠ [] := List.length_pos_iff.mp (by omega)
    rw [passValue, skipSpace_append hskip]
    dsimp only
    split
    · exact (hlist ‹_›).elim
    · exact (hobject ‹_›).elim
    · exact bind_eq_ok_iff.mpr ⟨_, hscalarMore hleftNe more, hmore hne more steps' (by omega)⟩

theorem Passing.into_succ {steps : Nat} (hsteps : Passing steps) {bracket : Bracket}
    {stack : List Bracket} (h : passInto (steps + 1) bracket stack text = .ok rest) :
    rest.length < text.length ∧ (rest ≠ [] → ∀ more steps', steps + 1 ≤ steps' →
      passInto steps' bracket stack (text ++ more) = .ok (rest ++ more)) := by
  rw [passInto] at h
  split at h
  · cases h
  rename_i b tail hskip
  have hlength := length_of_skipSpace hskip
  split at h
  · rename_i hclose
    obtain ⟨hrest, hmore⟩ := hsteps.on h
    refine ⟨by omega, fun hne more steps' hsteps' => ?_⟩
    obtain ⟨steps', rfl⟩ := Nat.exists_eq_add_one_of_ne_zero (Nat.ne_zero_of_lt hsteps')
    rw [passInto, skipSpace_append hskip]
    simp only [if_pos hclose]
    exact hmore hne more steps' (by omega)
  · rename_i hclose
    obtain ⟨left, hto, h⟩ := bind_eq_ok_iff.mp h
    obtain ⟨hleft, htoMore⟩ := passToValue_append hto
    obtain ⟨hrest, hmore⟩ := hsteps.value h
    rw [List.length_cons] at hleft
    refine ⟨by omega, fun hne more steps' hsteps' => ?_⟩
    obtain ⟨steps', rfl⟩ := Nat.exists_eq_add_one_of_ne_zero (Nat.ne_zero_of_lt hsteps')
    rw [passInto, skipSpace_append hskip]
    simp only [if_neg hclose]
    exact bind_eq_ok_iff.mpr ⟨_, htoMore more, hmore hne more steps' (by omega)⟩

theorem Passing.on_succ {steps : Nat} (hsteps : Passing steps) {stack : List Bracket}
    (h : passOn (steps + 1) stack text = .ok rest) :
    rest.length ≤ text.length ∧ (rest ≠ [] → ∀ more steps', steps + 1 ≤ steps' →
      passOn steps' stack (text ++ more) = .ok (rest ++ more)) := by
  cases stack with
  | nil =>
    rw [passOn] at h
    cases h
    exact ⟨Nat.le_refl _, fun _ more steps' _ => by rw [passOn]⟩
  | cons bracket stack =>
    rw [passOn] at h
    split at h
    · cases h
    rename_i b tail hskip
    have hlength := length_of_skipSpace hskip
    split at h
    · rename_i hcomma
      obtain ⟨left, hto, h⟩ := bind_eq_ok_iff.mp h
      obtain ⟨hleft, htoMore⟩ := passToValue_append hto
      obtain ⟨hrest, hmore⟩ := hsteps.value h
      refine ⟨by omega, fun hne more steps' hsteps' => ?_⟩
      obtain ⟨steps', rfl⟩ := Nat.exists_eq_add_one_of_ne_zero (Nat.ne_zero_of_lt hsteps')
      rw [passOn, skipSpace_append hskip]
      simp only [if_pos hcomma]
      exact bind_eq_ok_iff.mpr ⟨_, htoMore more, hmore hne more steps' (by omega)⟩
    rename_i hcomma
    split at h
    · rename_i hclose
      obtain ⟨hrest, hmore⟩ := hsteps.on h
      refine ⟨by omega, fun hne more steps' hsteps' => ?_⟩
      obtain ⟨steps', rfl⟩ := Nat.exists_eq_add_one_of_ne_zero (Nat.ne_zero_of_lt hsteps')
      rw [passOn, skipSpace_append hskip]
      simp only [if_neg hcomma, if_pos hclose]
      exact hmore hne more steps' (by omega)
    · cases h

/-- By induction on the steps, of which every state of the loop takes one. -/
theorem passing (steps : Nat) : Passing steps := by
  induction steps with
  | zero =>
    refine ⟨fun h => ?_, fun h => ?_, fun {stack text rest} h => ?_⟩
    · rw [passValue] at h
      cases h
    · rw [passInto] at h
      cases h
    · cases stack with
      | nil =>
        rw [passOn] at h
        cases h
        exact ⟨Nat.le_refl _, fun _ more steps' _ => by rw [passOn]⟩
      | cons bracket stack =>
        rw [passOn] at h
        cases h
  | succ steps ih => exact ⟨ih.value_succ, ih.into_succ, ih.on_succ⟩

/-- Values are passed over alike in front of any text that goes on. -/
theorem steady_skipValue : Steady skipValue := by
  intro text value rest h
  obtain ⟨left, hpass, h⟩ := bind_eq_ok_iff.mp h
  cases h
  obtain ⟨hlength, hmore⟩ := (passing _).value hpass
  refine ⟨hlength, fun hne more => ?_⟩
  -- the bound is taken from the text, and grows with it
  have hsteps : 2 * text.length + 1 ≤ 2 * (text ++ more).length + 1 := by
    rw [List.length_append]
    omega
  exact bind_eq_ok_iff.mpr ⟨_, hmore hne more _ hsteps, rfl⟩

end Ambient.Json
