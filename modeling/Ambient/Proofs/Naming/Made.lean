/-
The names made for commands and events are told apart.

A made name is a name in pascal case and one of three suffixes, of which one may be
chosen. Two made names can only be equal if one of their suffixes ends in the other, so
that with suffixes that stand apart a made name gives back its kind and the name that it
was made from (`made_inj`). Names of lower camel case are needed for the latter: `ok` and
`Ok` are the same in pascal case.
-/
import Ambient.Naming
import Ambient.Proofs.Text.Uppercase
import Mathlib

set_option autoImplicit false

namespace Ambient.Naming

/-! ## Identifiers -/

/-- A text of ASCII letters and digits. -/
def Alphanumeric (text : String) : Prop := ∀ c ∈ text.toList, c.isAlphanum = true

/-- A name of ASCII letters and digits. -/
def Identifier (name : String) : Prop := name ≠ "" ∧ Alphanumeric name

/-- A name of ASCII letters and digits that starts with a letter in lower case. -/
def LowerCamel (name : String) : Prop :=
  Identifier name ∧ ∀ c ∈ name.toList.head?, c.isLower = true

-- the characters of the text are gone through, not all characters that there are
instance (text : String) : Decidable (Alphanumeric text) := List.decidableBAll _ text.toList

instance (name : String) : Decidable (Identifier name) := inferInstanceAs (Decidable (_ ∧ _))

instance (name : String) : Decidable (LowerCamel name) :=
  @instDecidableAnd _ _ _ (Option.decidableForallMem name.toList.head?)

theorem toNat_lt_of_isAlphanum {c : Char} (hc : c.isAlphanum = true) : c.toNat < 128 := by
  simp only [Char.isAlphanum, Char.isAlpha, Char.isUpper, Char.isLower, Char.isDigit,
    Bool.or_eq_true, Bool.and_eq_true, decide_eq_true_eq, UInt32.le_iff_toNat_le] at hc
  have hnat : c.val.toNat = c.toNat := rfl
  rcases hc with (hc | hc) | hc
  · have hlast : c.toNat ≤ 90 := hc.2
    omega
  · have hlast : c.toNat ≤ 122 := hc.2
    omega
  · have hlast : c.toNat ≤ 57 := hc.2
    omega

theorem Identifier.notMem {name : String} (hname : Identifier name) {c : Char}
    (hc : c.isAlphanum = false) : c ∉ name.toList := by
  intro hmem
  rw [hname.2 c hmem] at hc
  exact Bool.false_ne_true hc.symm

/-! ## Pascal case -/

/-- A letter in lower case is found again from its upper case. -/
theorem toUpper_inj {c d : Char} (hc : c.isLower = true) (hd : d.isLower = true)
    (h : c.toUpper = d.toUpper) : c = d := by
  have hlower : c.toLower = d.toLower := by
    rw [← Char.toLower_toUpper_eq_toLower, h, Char.toLower_toUpper_eq_toLower]
  rwa [Char.toLower_eq_of_not_isUpper (Char.not_isUpper_of_isLower hc),
    Char.toLower_eq_of_not_isUpper (Char.not_isUpper_of_isLower hd)] at hlower

theorem isAlphanum_toUpper {c : Char} (hc : c.isAlphanum = true) :
    c.toUpper.isAlphanum = true := by
  by_cases hlower : c.isLower = true
  · have halpha : c.toUpper.isAlpha = true := by
      rw [Char.isAlpha_toUpper_eq_isAlpha, Char.isAlpha, hlower, Bool.or_true]
    rw [Char.isAlphanum, halpha, Bool.true_or]
  · rwa [Char.toUpper_eq_of_not_isLower hlower]

/-- Pascal case brings in no marks. -/
theorem notMem_pascal {name : String} {mark : Char} (hascii : mark.toNat < 128)
    (hletter : mark.isAlpha = false) (hname : mark ∉ name.toList) :
    mark ∉ (pascal name).toList := by
  unfold pascal
  split
  · exact List.not_mem_nil
  · rename_i first rest hchars
    rw [hchars, List.mem_cons, not_or] at hname
    rw [String.toList_ofList, List.mem_append, not_or]
    exact ⟨fun hmem => hname.1 (Text.eq_of_mem_uppercase hascii hletter hmem), hname.2⟩

/-- An identifier is a first character and more. -/
theorem Identifier.exists_cons {name : String} (hname : Identifier name) :
    ∃ first rest, name.toList = first :: rest ∧
      (pascal name).toList = first.toUpper :: rest := by
  obtain ⟨first, rest, hchars⟩ := List.exists_cons_of_ne_nil
    (fun hnil => hname.1 (String.toList_eq_nil_iff.mp hnil))
  have hfirst : first.isAlphanum = true := hname.2 first (by rw [hchars]; exact List.mem_cons_self)
  refine ⟨first, rest, hchars, ?_⟩
  rw [pascal, hchars, String.toList_ofList,
    Text.uppercase_of_ascii (toNat_lt_of_isAlphanum hfirst)]
  rfl

theorem identifier_pascal {name : String} (hname : Identifier name) :
    Identifier (pascal name) := by
  obtain ⟨first, rest, hchars, hpascal⟩ := hname.exists_cons
  have halphanum := hname.2
  rw [Alphanumeric, hchars] at halphanum
  constructor
  · intro hempty
    rw [hempty] at hpascal
    cases hpascal
  · rw [Alphanumeric, hpascal]
    intro c hc
    rcases List.mem_cons.mp hc with rfl | hc
    · exact isAlphanum_toUpper (halphanum first List.mem_cons_self)
    · exact halphanum c (List.mem_cons_of_mem _ hc)

/-- Pascal case tells names in lower camel case apart. -/
theorem pascal_inj {name other : String} (hname : LowerCamel name) (hother : LowerCamel other)
    (h : pascal name = pascal other) : name = other := by
  obtain ⟨first, rest, hchars, hpascal⟩ := hname.1.exists_cons
  obtain ⟨start, more, hchars', hpascal'⟩ := hother.1.exists_cons
  have hfirst : first.isLower = true := hname.2 first (by rw [hchars]; rfl)
  have hstart : start.isLower = true := hother.2 start (by rw [hchars']; rfl)
  -- only the first characters have changed, and both were in lower case
  rw [← String.toList_inj, hpascal, hpascal', List.cons.injEq] at h
  rw [← String.toList_inj, hchars, hchars', toUpper_inj hfirst hstart h.1, h.2]

/-! ## Made names -/

/-- What names are made for. -/
inductive Kind where
  | result
  | params
  | eventArgs
  deriving DecidableEq, Repr

/-- The name made from a name for a purpose, where results have the suffix `suffix`. -/
def made (suffix : String) : Kind → String → String
  | .result, name => result name suffix
  | .params, name => params name
  | .eventArgs, name => eventArgs name

/-- How the made names of a kind end. -/
def Kind.ending (suffix : String) : Kind → String
  | .result => suffix
  | .params => "Params"
  | .eventArgs => "EventArgs"

/-- A made name is the name in Pascal case with the ending of its kind. -/
theorem made_eq (suffix : String) (kind : Kind) (name : String) :
    made suffix kind name = pascal name ++ kind.ending suffix := by
  cases kind <;> rfl

/-- Neither text ends in the other one. -/
def Apart (first second : String) : Prop :=
  ¬ first.toList <:+ second.toList ∧ ¬ second.toList <:+ first.toList

instance (first second : String) : Decidable (Apart first second) :=
  inferInstanceAs (Decidable (_ ∧ _))

theorem Apart.symm {first second : String} (h : Apart first second) : Apart second first :=
  ⟨h.2, h.1⟩

/-- Whatever stands in front, texts that end differently are different. -/
theorem Apart.append_ne {first second : String} (h : Apart first second) (name other : String) :
    name ++ first ≠ other ++ second := by
  intro heq
  rw [← String.toList_inj, String.toList_append, String.toList_append] at heq
  have hfirst := List.suffix_append name.toList first.toList
  have hsecond := List.suffix_append other.toList second.toList
  rw [heq] at hfirst
  -- of two ends of one text the longer one ends in the shorter one
  rcases Nat.le_total first.toList.length second.toList.length with hle | hle
  · exact h.1 (List.suffix_of_suffix_length_le hfirst hsecond hle)
  · exact h.2 (List.suffix_of_suffix_length_le hsecond hfirst hle)

/-- A suffix of results that stands apart from those of the other kinds. -/
def SafeSuffix (suffix : String) : Prop := Apart suffix "Params" ∧ Apart suffix "EventArgs"

instance (suffix : String) : Decidable (SafeSuffix suffix) :=
  inferInstanceAs (Decidable (_ ∧ _))

theorem apart_endings {suffix : String} (hsafe : SafeSuffix suffix) {kind other : Kind}
    (hne : kind ≠ other) : Apart (kind.ending suffix) (other.ending suffix) := by
  have hfixed : Apart "Params" "EventArgs" := by decide
  cases kind <;> cases other
  · exact absurd rfl hne
  · exact hsafe.1
  · exact hsafe.2
  · exact hsafe.1.symm
  · exact absurd rfl hne
  · exact hfixed
  · exact hsafe.2.symm
  · exact hfixed.symm
  · exact absurd rfl hne

/-- **Made names are told apart**: with a suffix that stands apart from the other two, a
made name gives back its kind and the name in lower camel case that it was made from. -/
theorem made_inj {suffix : String} (hsafe : SafeSuffix suffix) {kind purpose : Kind}
    {name other : String} (hname : LowerCamel name) (hother : LowerCamel other)
    (h : made suffix kind name = made suffix purpose other) : kind = purpose ∧ name = other := by
  rw [made_eq, made_eq] at h
  by_cases hkind : kind = purpose
  · subst hkind
    rw [← String.toList_inj, String.toList_append, String.toList_append,
      List.append_cancel_right_eq, String.toList_inj] at h
    exact ⟨rfl, pascal_inj hname hother h⟩
  · -- the names end differently, whatever they were made from
    exact absurd h ((apart_endings hsafe hkind).append_ne _ _)

theorem alphanumeric_ending {suffix : String} (hsuffix : Alphanumeric suffix) (kind : Kind) :
    Alphanumeric (kind.ending suffix) := by
  have hfixed : Alphanumeric "Params" ∧ Alphanumeric "EventArgs" := by decide
  cases kind
  · exact hsuffix
  · exact hfixed.1
  · exact hfixed.2

theorem identifier_made {suffix : String} (hsuffix : Alphanumeric suffix) {name : String}
    (hname : Identifier name) (kind : Kind) : Identifier (made suffix kind name) := by
  obtain ⟨hne, halphanum⟩ := identifier_pascal hname
  rw [made_eq]
  constructor
  · intro hempty
    rw [← String.toList_eq_nil_iff, String.toList_append, List.append_eq_nil_iff,
      String.toList_eq_nil_iff] at hempty
    exact hne hempty.1
  · intro c hc
    rw [String.toList_append, List.mem_append] at hc
    exact hc.elim (halphanum c) (alphanumeric_ending hsuffix kind c)

end Ambient.Naming
