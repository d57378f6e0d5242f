/-
How JSON values are written.

`Writes value text` says that the characters of `text` are one way to write `value`. There
are many: white space may stand between any two tokens, a character of a string may be
written as itself or as an escape, an escape may use either case of the hexadecimal digits.
Nothing here mentions a reader or bytes. Numbers are left out, for a description holds none.

The inside of a bracket is the same for lists and objects (`Inside`): parts with commas
between them, and white space around each. It is given the way in which one part is written.
-/
import Ambient.Json.Value
import Mathlib.Data.List.Forall2

set_option autoImplicit false

namespace Ambient.Json

/-! ## White space -/

/-- White space: spaces, tabs, line feeds and carriage returns. -/
def Blank (text : List Char) : Prop := ∀ c ∈ text, c ∈ [' ', '\t', '\n', '\r']

theorem blank_nil : Blank [] := List.forall_mem_nil _

/-! ## Strings -/

/-- The hexadecimal digits and their values. -/
def hexDigits : List (Char × Nat) :=
  [('0', 0), ('1', 1), ('2', 2), ('3', 3), ('4', 4), ('5', 5), ('6', 6), ('7', 7), ('8', 8),
    ('9', 9), ('a', 10), ('b', 11), ('c', 12), ('d', 13), ('e', 14), ('f', 15), ('A', 10),
    ('B', 11), ('C', 12), ('D', 13), ('E', 14), ('F', 15)]

/-- Four hexadecimal digits that stand for a code. -/
def WritesCode (code : Nat) (digits : List Char) : Prop :=
  ∃ values : List Nat, List.Forall₂ (fun digit value => (digit, value) ∈ hexDigits) digits values ∧
    values.length = 4 ∧ code = values.foldl (fun code value => code * 16 + value) 0

/-- The escapes of one letter, and what they stand for. -/
def letterEscapes : List (Char × Char) :=
  [('"', '"'), ('\\', '\\'), ('/', '/'), ('b', '\x08'), ('f', '\x0C'), ('n', '\n'), ('r', '\r'),
    ('t', '\t')]

/-- The ways to write a character of a string: as itself, unless it is a quote, a backslash
or a control character; by a letter; by its code; and above the basic plane by the codes of
two surrogates. -/
inductive WritesChar : Char → List Char → Prop
  | plain {c : Char} : 0x20 ≤ c.toNat → c ≠ '"' → c ≠ '\\' → WritesChar c [c]
  | letter {c letter : Char} : (letter, c) ∈ letterEscapes → WritesChar c ['\\', letter]
  | code {c : Char} {digits : List Char} :
    WritesCode c.toNat digits → WritesChar c ('\\' :: 'u' :: digits)
  | pair {c : Char} {high low : List Char} : 0x10000 ≤ c.toNat →
    WritesCode (0xD800 + (c.toNat - 0x10000) / 0x400) high →
    WritesCode (0xDC00 + (c.toNat - 0x10000) % 0x400) low →
    WritesChar c ('\\' :: 'u' :: (high ++ '\\' :: 'u' :: low))

/-- A string stands between quotes. -/
inductive WritesString : String → List Char → Prop
  | mk {string : String} {units : List (List Char)} :
    List.Forall₂ WritesChar string.toList units →
    WritesString string ('"' :: (units.flatten ++ ['"']))

/-- All characters of a string may stand for themselves. -/
def Unescaped (string : String) : Prop :=
  ∀ c ∈ string.toList, 0x20 ≤ c.toNat ∧ c ≠ '"' ∧ c ≠ '\\'

-- the characters of the string are gone through, not all characters that there are
instance (string : String) : Decidable (Unescaped string) :=
  List.decidableBAll _ string.toList

/-- A string of characters that stand for themselves is written as itself. -/
theorem writesString_self {string : String} (h : Unescaped string) :
    WritesString string ('"' :: (string.toList ++ ['"'])) := by
  have hunits : List.Forall₂ WritesChar string.toList (string.toList.map ([·])) := by
    rw [List.forall₂_map_right_iff, List.forall₂_same]
    exact fun c hc => .plain (h c hc).1 (h c hc).2.1 (h c hc).2.2
  have hflatten : (string.toList.map ([·])).flatten = string.toList := by
    rw [← List.flatMap_def, List.flatMap_singleton']
  have hwrites := WritesString.mk hunits
  rwa [hflatten] at hwrites

/-! ## Values -/

section Brackets

variable {α : Type} (writes : α → List Char → Prop)

/-- What stands inside a bracket after a part: more parts, each after a comma, and white
space. -/
inductive Further : List α → List Char → Prop
  | nil {blank : List Char} : Blank blank → Further [] blank
  | cons {item : α} {items : List α} {before after text rest : List Char} :
    Blank before → Blank after → writes item text → Further items rest →
    Further (item :: items) (before ++ ',' :: (after ++ (text ++ rest)))

/-- What stands inside a bracket. -/
inductive Inside : List α → List Char → Prop
  | nil {blank : List Char} : Blank blank → Inside [] blank
  | cons {item : α} {items : List α} {before text rest : List Char} :
    Blank before → writes item text → Further writes items rest →
    Inside (item :: items) (before ++ (text ++ rest))

end Brackets

/-- An entry of an object: its key, a colon and its value, white space around the colon. -/
inductive WritesEntry (writes : Value → List Char → Prop) : String × Value → List Char → Prop
  | mk {key : String} {value : Value} {keyText before after text : List Char} :
    WritesString key keyText → Blank before → Blank after → writes value text →
    WritesEntry writes (key, value) (keyText ++ (before ++ ':' :: (after ++ text)))

/-- The ways to write a value. -/
inductive Writes : Value → List Char → Prop
  | null : Writes .null ['n', 'u', 'l', 'l']
  | yes : Writes (.flag true) ['t', 'r', 'u', 'e']
  | no : Writes (.flag false) ['f', 'a', 'l', 's', 'e']
  | string {string : String} {text : List Char} :
    WritesString string text → Writes (.string string) text
  | list {items : List Value} {inner : List Char} :
    Inside Writes items inner → Writes (.list items) ('[' :: (inner ++ [']']))
  | object {entries : List (String × Value)} {inner : List Char} :
    Inside (WritesEntry Writes) entries inner →
    Writes (.object entries) ('\x7b' :: (inner ++ ['\x7d']))

/-- A text that holds one value and white space around it. -/
inductive WritesText : Value → List Char → Prop
  | mk {value : Value} {before text after : List Char} :
    Blank before → Writes value text → Blank after → WritesText value (before ++ (text ++ after))

/-- At most that many brackets are open at once. -/
def Value.Within : Nat → Value → Prop
  | 0, .list _ | 0, .object _ => False
  | levels + 1, .list items => ∀ item ∈ items, item.Within levels
  | levels + 1, .object entries => ∀ entry ∈ entries, entry.2.Within levels
  | _, _ => True

end Ambient.Json
