/-
JSON texts as trees.

A `Document` is what is left of a JSON text when the white space and the choice of escapes
are forgotten: scalars, lists, and objects whose members keep their order and may repeat a
key. Unlike a `Value`, a document need not have a meaning. A number is kept as its digits,
however large it is, and a string may hold half of a surrogate pair, which no text does; such
a string, or key, is `none`.

`WrittenAs` is the grammar of JSON, and `WrittenIn` allows for white space around the whole.
The characters of a string are written as marks, each a character or a code of 16 bits.
-/
import Ambient.Json.Number
import Ambient.Json.Text
import Ambient.Proofs.Json.Grammar

set_option autoImplicit false

namespace Ambient.Json

/-! ## Strings -/

/-- A part of a string: a character, written as itself or by a letter, or a code. -/
inductive Mark where
  | char (c : Char)
  | code (code : Nat)

/-- The ways to write a mark. -/
inductive WritesMark : Mark → List Char → Prop
  | plain {c : Char} : 0x20 ≤ c.toNat → c ≠ '"' → c ≠ '\\' → WritesMark (.char c) [c]
  | letter {c letter : Char} : (letter, c) ∈ letterEscapes → WritesMark (.char c) ['\\', letter]
  | code {code : Nat} {digits : List Char} :
    WritesCode code digits → WritesMark (.code code) ('\\' :: 'u' :: digits)

/-- The characters that marks stand for, if every surrogate is one half of a pair. -/
def characters? : List Mark → Option (List Char)
  | [] => some []
  | .char c :: marks => (characters? marks).map (c :: ·)
  | .code code :: marks =>
    if isLowSurrogate code then none
    else if isHighSurrogate code then
      match marks with
      | .code low :: marks =>
        if isLowSurrogate low then
          (characters? marks).map (Char.ofNat (joinSurrogates code low) :: ·)
        else none
      | _ => none
    else (characters? marks).map (Char.ofNat code :: ·)

/-- Marks stand between quotes. What they stand for is a text, or nothing if a surrogate
stands alone. -/
inductive WritesMarks : Option String → List Char → Prop
  | mk {marks : List Mark} {units : List (List Char)} : List.Forall₂ WritesMark marks units →
    WritesMarks ((characters? marks).map String.ofList) ('"' :: (units.flatten ++ ['"']))

/-- A string of characters that stand for themselves is written as itself. -/
theorem writesMarks_self {string : String} (h : Unescaped string) :
    WritesMarks (some string) ('"' :: (string.toList ++ ['"'])) := by
  have hcharacters : ∀ text, characters? (text.map .char) = some text := by
    intro text
    induction text with
    | nil => rfl
    | cons c text ih => rw [List.map_cons, characters?, ih, Option.map_some]
  have hunits : List.Forall₂ WritesMark (string.toList.map .char) (string.toList.map ([·])) := by
    rw [List.forall₂_map_left_iff, List.forall₂_map_right_iff, List.forall₂_same]
    exact fun c hc => .plain (h c hc).1 (h c hc).2.1 (h c hc).2.2
  have hflatten : (string.toList.map ([·])).flatten = string.toList := by
    rw [← List.flatMap_def, List.flatMap_singleton']
  have hwrites := WritesMarks.mk hunits
  rwa [hcharacters, Option.map_some, String.ofList_toList, hflatten] at hwrites

/-! ## Numbers -/

/-- The decimal digits and their values. -/
def decimalDigits : List (Char × Nat) :=
  [('0', 0), ('1', 1), ('2', 2), ('3', 3), ('4', 4), ('5', 5), ('6', 6), ('7', 7), ('8', 8),
    ('9', 9)]

/-- Digits are written one after the other. -/
def WritesDigits (digits : List Nat) (text : List Char) : Prop :=
  List.Forall₂ (fun digit c => (c, digit) ∈ decimalDigits) digits text

/-- The whole part of a number is zero, or does not start with a zero. -/
inductive WritesWhole : List Nat → List Char → Prop
  | zero : WritesWhole [0] ['0']
  | digits {digit : Nat} {digits : List Nat} {text : List Char} :
    digit ≠ 0 → WritesDigits (digit :: digits) text → WritesWhole (digit :: digits) text

/-- The fraction of a number may be left out, but not its digits alone. -/
inductive WritesFraction : List Nat → List Char → Prop
  | none : WritesFraction [] []
  | some {digits : List Nat} {text : List Char} :
    digits ≠ [] → WritesDigits digits text → WritesFraction digits ('.' :: text)

/-- The exponent of a number may have a sign, and a plus sign says nothing. -/
inductive WritesExponent : Option (Bool × List Nat) → List Char → Prop
  | none : WritesExponent none []
  | some {letter : Char} {negative : Bool} {sign text : List Char} {digits : List Nat} :
    letter ∈ ['e', 'E'] → (negative, sign) ∈ [(true, ['-']), (false, ['+']), (false, [])] →
    digits ≠ [] → WritesDigits digits text →
    WritesExponent (some (negative, digits)) (letter :: (sign ++ text))

/-- The ways to write a number. -/
inductive WritesNumber : Literal → List Char → Prop
  | mk {negative : Bool} {sign wholeText fractionText exponentText : List Char}
    {whole fraction : List Nat} {exponent? : Option (Bool × List Nat)} :
    (negative, sign) ∈ [(true, ['-']), (false, [])] → WritesWhole whole wholeText →
    WritesFraction fraction fractionText → WritesExponent exponent? exponentText →
    WritesNumber ⟨negative, whole, fraction, exponent?⟩
      (sign ++ (wholeText ++ (fractionText ++ exponentText)))

/-- A number without a sign, a fraction and an exponent is written as its whole part. -/
theorem writesNumber_whole {digits : List Nat} {text : List Char} (h : WritesWhole digits text) :
    WritesNumber ⟨false, digits, [], none⟩ text := by
  have hnumber := @WritesNumber.mk false [] text [] [] digits [] none (by simp) h .none .none
  rwa [List.append_nil, List.append_nil] at hnumber

/-- A number is in range if it is a finite double at all. -/
def Literal.InRange (literal : Literal) : Prop := literal.number?.isOk = true

instance (literal : Literal) : Decidable literal.InRange :=
  inferInstanceAs (Decidable (literal.number?.isOk = true))

/-! ## Documents -/

/-- A JSON text without its white space and escapes. -/
inductive Document where
  | null
  | flag (value : Bool)
  | number (literal : Literal)
  | string (text? : Option String)
  | list (items : List Document)
  | object (members : List (Option String × Document))
  deriving Inhabited

/-- A member of an object: its key, a colon and its value, white space around the colon. -/
inductive WritesMember (writes : Document → List Char → Prop) :
    Option String × Document → List Char → Prop
  | mk {key? : Option String} {document : Document} {keyText before after text : List Char} :
    WritesMarks key? keyText → Blank before → Blank after → writes document text →
    WritesMember writes (key?, document) (keyText ++ (before ++ ':' :: (after ++ text)))

namespace Document

/-- The ways to write a document. -/
inductive WrittenAs : Document → List Char → Prop
  | null : WrittenAs .null ['n', 'u', 'l', 'l']
  | yes : WrittenAs (.flag true) ['t', 'r', 'u', 'e']
  | no : WrittenAs (.flag false) ['f', 'a', 'l', 's', 'e']
  | number {literal : Literal} {text : List Char} :
    WritesNumber literal text → WrittenAs (.number literal) text
  | string {text? : Option String} {text : List Char} :
    WritesMarks text? text → WrittenAs (.string text?) text
  | list {items : List Document} {inner : List Char} :
    Inside WrittenAs items inner → WrittenAs (.list items) ('[' :: (inner ++ [']']))
  | object {members : List (Option String × Document)} {inner : List Char} :
    Inside (WritesMember WrittenAs) members inner →
    WrittenAs (.object members) ('\x7b' :: (inner ++ ['\x7d']))

/-- A text that holds one document and white space around it. -/
def WrittenIn (document : Document) (text : String) : Prop :=
  ∃ before inner after, text.toList = before ++ (inner ++ after) ∧ Blank before ∧
    document.WrittenAs inner ∧ Blank after

/-- A document can be read as a value: at most that many brackets are open at once, every
number is in range, and every string and key stands for a text. -/
def Readable : Nat → Document → Prop
  | 0, .list _ | 0, .object _ => False
  | levels + 1, .list items => ∀ item ∈ items, item.Readable levels
  | levels + 1, .object members =>
    ∀ member ∈ members, member.1.isSome = true ∧ member.2.Readable levels
  | _, .number literal => literal.InRange
  | _, .string text? => text?.isSome = true
  | _, _ => True

/-- Induction over a document: a property that lists and objects have if all that is directly
inside them has it. -/
theorem induction {motive : Document → Prop} (null : motive .null)
    (flag : ∀ value, motive (.flag value)) (number : ∀ literal, motive (.number literal))
    (string : ∀ text?, motive (.string text?))
    (list : ∀ items, (∀ item ∈ items, motive item) → motive (.list items))
    (object : ∀ members, (∀ member ∈ members, motive member.2) → motive (.object members))
    (document : Document) : motive document :=
  match document with
  | .null => null
  | .flag value => flag value
  | .number literal => number literal
  | .string text? => string text?
  | .list items => list items fun item _ =>
      induction null flag number string list object item
  | .object members => object members fun member _ =>
      induction null flag number string list object member.2
  termination_by sizeOf document
  decreasing_by
    · rename_i hitem
      have hsize := List.sizeOf_lt_of_mem hitem
      simp only [Document.list.sizeOf_spec]
      omega
    · rename_i hmember
      have hsize := List.sizeOf_lt_of_mem hmember
      obtain ⟨key?, document⟩ := member
      simp only [Document.object.sizeOf_spec, Prod.mk.sizeOf_spec] at hsize ⊢
      omega

end Document

end Ambient.Json
