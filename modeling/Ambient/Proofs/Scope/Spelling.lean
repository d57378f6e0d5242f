/-
What taking a reference apart gives.

A reference is a base followed by array markers, and a base is its parts joined by
points. Both descriptions are unique, and they are what `target` and `path` compute:
`isTarget_iff` says so of the markers, `path_join` and `join_path` of the points.
-/
import Ambient.Scope.Reference

set_option autoImplicit false

namespace Ambient.Scope

open Ambient.Schema

/-! ## Array markers -/

/-- A text followed by a number of array markers. -/
def marked (base : String) : Nat → String
  | 0 => base
  | count + 1 => marked base count ++ arrayMarker

/-- Whether the last thing in a text is an array marker. -/
def EndsInMarker (text : String) : Prop := ∃ shorter, text = shorter ++ arrayMarker

/-- The text `base` is the reference without the array markers at its end. -/
def IsTarget (reference base : String) : Prop :=
  (∃ count, reference = marked base count) ∧ ¬ EndsInMarker base

theorem toList_arrayMarker : arrayMarker.toList = ['[', ']'] := by decide

theorem withoutMarkers_append (text : List Char) :
    withoutMarkers (text ++ ['[', ']']) = withoutMarkers text := by
  rw [withoutMarkers, List.reverse_append]
  rfl

@[simp] theorem target_append_marker (text : String) :
    target (text ++ arrayMarker) = target text := by
  rw [target, String.toList_append, toList_arrayMarker, withoutMarkers_append, target]

@[simp] theorem target_marked (base : String) (count : Nat) :
    target (marked base count) = target base := by
  induction count with
  | zero => rfl
  | succ count ih => rw [marked, target_append_marker, ih]

/-- What is left of a reversed text after its markers: the markers come back when they
are written again, and none is left. -/
theorem dropMarkers_spec (text : List Char) :
    (∃ count, String.ofList text.reverse =
        marked (String.ofList (dropMarkers text).reverse) count) ∧
      ¬ EndsInMarker (String.ofList (dropMarkers text).reverse) := by
  fun_induction dropMarkers text with
  | case1 rest ih =>
    -- the marker that is dropped here is written again after the others
    obtain ⟨⟨count, hcount⟩, hnone⟩ := ih
    refine ⟨⟨count + 1, ?_⟩, hnone⟩
    rw [marked, ← hcount, List.reverse_cons, List.reverse_cons, String.ofList_append,
      String.ofList_append, String.append_assoc]
    rfl
  | case2 text hnone =>
    refine ⟨⟨0, rfl⟩, ?_⟩
    rintro ⟨shorter, hshorter⟩
    have hreverse : text = ']' :: '[' :: shorter.toList.reverse := by
      have := congrArg (fun spelled => spelled.toList.reverse) hshorter
      simpa [toList_arrayMarker] using this
    exact hnone _ hreverse

theorem isTarget_target (reference : String) : IsTarget reference (target reference) := by
  have hspec := dropMarkers_spec reference.toList.reverse
  rw [List.reverse_reverse, String.ofList_toList] at hspec
  exact hspec

theorem target_of_not_endsInMarker {base : String} (hbase : ¬ EndsInMarker base) :
    target base = base := by
  obtain ⟨⟨count, hcount⟩, -⟩ := isTarget_target base
  cases count with
  | zero => exact hcount.symm
  | succ count => exact absurd ⟨_, hcount⟩ hbase

/-- A reference has exactly one base, the one that is computed. -/
theorem isTarget_iff {reference base : String} :
    IsTarget reference base ↔ target reference = base := by
  constructor
  · rintro ⟨⟨count, rfl⟩, hbase⟩
    rw [target_marked, target_of_not_endsInMarker hbase]
  · rintro rfl
    exact isTarget_target reference

/-- A text whose last character is no bracket has no marker to lose. -/
theorem not_endsInMarker_of_notMem {text : String} (htext : ']' ∉ text.toList) :
    ¬ EndsInMarker text := by
  rintro ⟨shorter, rfl⟩
  exact htext (by simp [toList_arrayMarker])

/-- A text without an opening bracket has no marker to lose either. -/
theorem not_endsInMarker_of_unopened {text : String} (htext : '[' ∉ text.toList) :
    ¬ EndsInMarker text := by
  rintro ⟨shorter, rfl⟩
  exact htext (by simp [toList_arrayMarker])

/-! ## Points -/

theorem segments_eq_splitOn (text : List Char) : segments text = text.splitOn '.' := by
  induction text with
  | nil => rfl
  | cons c rest ih =>
    rw [segments, List.splitOn_cons_eq_if_modifyHead, ← ih]
    by_cases hpoint : c = '.'
    · rw [if_pos hpoint, if_pos (beq_iff_eq.mpr hpoint)]
    · rw [if_neg hpoint, if_neg (fun heq => hpoint (beq_iff_eq.mp heq))]
      cases hrest : segments rest with
      | nil => exact absurd (ih.symm.trans hrest) (List.splitOn_ne_nil _ _)
      | cons part parts => rfl

theorem notMem_of_mem_segments (text : List Char) : ∀ part ∈ segments text, '.' ∉ part := by
  induction text with
  | nil => simp [segments]
  | cons c rest ih =>
    rw [segments]
    by_cases hpoint : c = '.'
    · rw [if_pos hpoint]
      intro part hpart
      rcases List.mem_cons.mp hpart with rfl | hpart
      · exact List.not_mem_nil
      · exact ih part hpart
    · rw [if_neg hpoint]
      cases hrest : segments rest with
      | nil => simp [Ne.symm hpoint]
      | cons head parts =>
        rw [hrest] at ih
        intro part hpart
        rcases List.mem_cons.mp hpart with rfl | hpart
        · have hhead := ih head List.mem_cons_self
          simp [Ne.symm hpoint, hhead]
        · exact ih part (List.mem_cons_of_mem _ hpart)

theorem toList_point : ".".toList = ['.'] := by decide

theorem path_ne_nil (text : String) : path text ≠ [] := by
  rw [path, segments_eq_splitOn]
  simp

/-- No part of a path holds a point. -/
theorem notMem_of_mem_path {text part : String} (hpart : part ∈ path text) :
    '.' ∉ part.toList := by
  rw [path, List.mem_map] at hpart
  obtain ⟨chars, hchars, rfl⟩ := hpart
  rw [String.toList_ofList]
  exact notMem_of_mem_segments _ chars hchars

/-- The parts of a text give it back. -/
theorem join_path (text : String) : ".".intercalate (path text) = text := by
  rw [← String.toList_inj, String.toList_intercalate, path, List.map_map, toList_point]
  have hparts : (segments text.toList).map (String.toList ∘ String.ofList) =
      segments text.toList := by
    refine (List.map_congr_left fun part _ => ?_).trans (List.map_id _)
    exact String.toList_ofList
  rw [hparts, segments_eq_splitOn, List.intercalate_splitOn]

/-- Parts without points are the parts of the text they make. -/
theorem path_join {parts : List String} (hparts : parts ≠ [])
    (hpoints : ∀ part ∈ parts, '.' ∉ part.toList) :
    path (".".intercalate parts) = parts := by
  have hsplit : parts.map String.toList ≠ [] := by simpa using hparts
  rw [path, String.toList_intercalate, toList_point, segments_eq_splitOn,
    List.splitOn_intercalate '.' (by simpa using hpoints) hsplit, List.map_map]
  refine (List.map_congr_left fun part _ => ?_).trans (List.map_id _)
  exact String.ofList_toList

theorem path_of_notMem {text : String} (htext : '.' ∉ text.toList) : path text = [text] := by
  have hjoin : ".".intercalate [text] = text := by simp
  have hpath := path_join (List.cons_ne_nil text []) (by simpa using htext)
  rwa [hjoin] at hpath

end Ambient.Scope
