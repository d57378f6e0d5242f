/-
Arrays around a reference, and the markers behind its text.

Every array that a reference goes through on the way to its innermost elements is one marker
behind the text of these (`text_eq_marked`), and the look-up takes all markers off before it
looks at anything. So arrays make no difference to what resolves; and as long as the text of
the innermost elements does not end in a marker itself, taking the markers off gives back
this text and, counted, the depth of the arrays around it.
-/
import Ambient.Proofs.Scope.Spelling

set_option autoImplicit false

namespace Ambient.Schema

/-! ## Innermost elements -/

/-- The reference of the innermost elements: arrays are gone through as far as they say what
they are arrays of. -/
def Reference.innermost : Reference → Reference
  | .bare kind? target? => .bare kind? target?
  | .withItems kind? target? items =>
    if kind? = some "array" then items.innermost else .withItems kind? target? items

/-- How many arrays are gone through on the way to the innermost elements. -/
def Reference.depth : Reference → Nat
  | .bare _ _ => 0
  | .withItems kind? _ items => if kind? = some "array" then items.depth + 1 else 0

/-- The innermost elements are no array that says what it is an array of. -/
theorem Reference.shape_innermost (reference : Reference) :
    reference.innermost.shape =
      if reference.innermost.kind? = some "array" then .arrayOfUnknown
      else .ofLeaf reference.innermost.kind? reference.innermost.target? := by
  induction reference with
  | bare kind? target? => rfl
  | withItems kind? target? items ih =>
    rw [Reference.innermost]
    by_cases harray : kind? = some "array"
    · rw [if_pos harray]
      exact ih
    · rw [if_neg harray, Reference.shape, if_neg harray]
      exact (if_neg harray).symm

end Ambient.Schema

namespace Ambient.Scope

open Ambient.Schema

/-! ## The text of an array -/

theorem text_array (items : Reference) :
    (Reference.array items).text = items.text ++ arrayMarker := by
  rw [Reference.text, Reference.array, Reference.shape, if_pos rfl]
  rfl

theorem text_nested (reference : Reference) (count : Nat) :
    (reference.nested count).text = marked reference.text count := by
  induction count with
  | zero => rfl
  | succ count ih => rw [Reference.nested, text_array, ih, marked]

/-- A reference is written as its innermost elements with a marker for every array. -/
theorem text_eq_marked (reference : Reference) :
    reference.text = marked reference.innermost.text reference.depth := by
  induction reference with
  | bare kind? target? => rfl
  | withItems kind? target? items ih =>
    rw [Reference.innermost, Reference.depth]
    by_cases harray : kind? = some "array"
    · rw [if_pos harray, if_pos harray, marked, ← ih, Reference.text, Reference.shape,
        if_pos harray]
      rfl
    · rw [if_neg harray, if_neg harray, marked]

theorem marked_eq_append (base : String) (count : Nat) :
    marked base count = base ++ String.join (List.replicate count arrayMarker) := by
  induction count with
  | zero => exact (String.append_empty).symm
  | succ count ih =>
    rw [marked, ih, List.replicate_succ', String.join_append, String.append_assoc]
    simp

/-! ## Counting markers -/

/-- The number of array markers at the front of a reversed text. -/
def countMarkers : List Char → Nat
  | ']' :: '[' :: rest => countMarkers rest + 1
  | _ => 0

/-- The number of array markers at the end of a text. -/
def markers (text : String) : Nat := countMarkers text.toList.reverse

theorem markers_append_marker (text : String) :
    markers (text ++ arrayMarker) = markers text + 1 := by
  rw [markers, String.toList_append, toList_arrayMarker, List.reverse_append]
  rfl

theorem markers_of_not_endsInMarker {text : String} (htext : ¬ EndsInMarker text) :
    markers text = 0 := by
  unfold markers countMarkers
  split
  · rename_i rest hreverse
    -- a marker that could be counted would stand at the end of the text
    have hends : text = String.ofList rest.reverse ++ arrayMarker := by
      rw [← String.toList_inj, String.toList_append, String.toList_ofList,
        toList_arrayMarker, ← List.reverse_reverse text.toList, hreverse]
      simp
    exact absurd ⟨_, hends⟩ htext
  · rfl

/-- Markers that are written behind a text without any are as many as can be counted. -/
theorem markers_marked {base : String} (hbase : ¬ EndsInMarker base) (count : Nat) :
    markers (marked base count) = count := by
  induction count with
  | zero => exact markers_of_not_endsInMarker hbase
  | succ count ih => rw [marked, markers_append_marker, ih]

/-! ## Arrays do not matter -/

/-- What resolves is decided by what is left when the markers are off. -/
theorem resolves_marked (chain : List Tree.Namespace) (base : String) (count : Nat) :
    resolves chain (marked base count) = resolves chain base := by
  rw [resolves, resolves, target_marked]

/-- **Arrays are markers and nothing else.** A reference in `count` arrays is written as the
reference followed by `count` markers, and resolves in a chain of scopes exactly if the
reference does. Where the text of the innermost elements of a reference, be they a primitive
or a named type, does not end in a marker, taking the markers off the text of the reference
gives this text, and there are as many of them as arrays. -/
theorem arrays_exact :
    (∀ (reference : Reference) (count : Nat),
      (reference.nested count).text =
        reference.text ++ String.join (List.replicate count arrayMarker) ∧
      ∀ chain, resolves chain (reference.nested count).text = resolves chain reference.text) ∧
    ∀ reference : Reference, ¬ EndsInMarker reference.innermost.text →
      target reference.text = reference.innermost.text ∧
        markers reference.text = reference.depth := by
  refine ⟨fun reference count => ⟨?_, fun chain => ?_⟩, fun reference hinnermost => ?_⟩
  · rw [text_nested, marked_eq_append]
  · rw [text_nested, resolves_marked]
  · rw [text_eq_marked reference, target_marked]
    exact ⟨target_of_not_endsInMarker hinnermost, markers_marked hinnermost reference.depth⟩

/-- Two arrays, the outer one with a target that nothing reads, around a name that ends in a
bracket. -/
def bracketedName : Reference := .withItems (some "array") (some "Page") (.array (.named "rows[0]"))

theorem arrays_exact_bracketedName :
    ¬ EndsInMarker bracketedName.innermost.text ∧ bracketedName.text = "rows[0][][]" ∧
      target bracketedName.text = "rows[0]" ∧ markers bracketedName.text = 2 := by
  have hinnermost : ¬ EndsInMarker bracketedName.innermost.text :=
    (isTarget_iff.mpr (by decide : target "rows[0]" = "rows[0]")).2
  obtain ⟨htarget, hmarkers⟩ := arrays_exact.2 bracketedName hinnermost
  exact ⟨hinnermost, by decide, htarget, hmarkers⟩

end Ambient.Scope
