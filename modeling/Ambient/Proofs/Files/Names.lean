/-
Names of files: what extension they have, and the order in which they come.

The extension of a name is what stands behind its last point, unless this is its first
character (`extension?_eq_some_iff`). The order of names is the one of their bytes, in which
no two names are equal; so different names have one order that is ascending, however they
are given (`sortNames_eq_of_perm`, `strictlyAscending_sortNames`).
-/
import Ambient.Files.Path
import Mathlib.Data.List.Basic

set_option autoImplicit false

namespace Ambient.Files

/-! ## Extensions -/

/-- The text behind the last point of a name is `extension`, and the point is not its first
character. -/
def HasExtension (name extension : String) : Prop :=
  ∃ stem, stem ≠ "" ∧ name = stem ++ "." ++ extension ∧ '.' ∉ extension.toList

theorem notMem_takeWhile_point (text : List Char) : '.' ∉ text.takeWhile (· ≠ '.') := by
  intro hpoint
  have hkept := List.all_takeWhile (p := fun c => decide (c ≠ '.')) (l := text)
  exact absurd (List.all_eq_true.mp hkept '.' hpoint) (by decide)

theorem takeWhile_point {before : List Char} (hbefore : '.' ∉ before) (after : List Char) :
    (before ++ '.' :: after).takeWhile (· ≠ '.') = before := by
  have hkept : ∀ c ∈ before, decide (c ≠ '.') = true := by
    intro c hc
    exact decide_eq_true fun heq => hbefore (heq ▸ hc)
  rw [List.takeWhile_append_of_pos hkept, List.takeWhile_cons_of_neg (by simp), List.append_nil]

/-- What does not reach the end of a text ends at a point. -/
theorem exists_point_of_takeWhile (text : List Char)
    (hlength : (text.takeWhile (· ≠ '.')).length < text.length) :
    ∃ after, text = text.takeWhile (· ≠ '.') ++ '.' :: after := by
  have hsplit := List.takeWhile_append_dropWhile (p := fun c => decide (c ≠ '.')) (l := text)
  have hhead := List.head?_dropWhile_not (fun c => decide (c ≠ '.')) text
  cases hdrop : text.dropWhile (· ≠ '.') with
  | nil =>
    rw [hdrop, List.append_nil] at hsplit
    rw [hsplit] at hlength
    exact absurd hlength (Nat.lt_irrefl _)
  | cons c after =>
    rw [hdrop] at hsplit hhead
    obtain rfl : c = '.' := by simpa using hhead
    exact ⟨after, hsplit.symm⟩

/-- The extension that is found by looking for the last point is the extension of a name. -/
theorem extension?_eq_some_iff {name extension : String} :
    extension? name = some extension ↔ HasExtension name extension := by
  have hlength : name.length = name.toList.reverse.length := by
    rw [List.length_reverse, String.length_toList]
  simp only [extension?, Option.ite_none_right_eq_some, Option.some.injEq]
  constructor
  · rintro ⟨hless, rfl⟩
    obtain ⟨after, hsplit⟩ := exists_point_of_takeWhile name.toList.reverse (by omega)
    have hpoint := notMem_takeWhile_point name.toList.reverse
    generalize name.toList.reverse.takeWhile (· ≠ '.') = before at hless hsplit hpoint
    refine ⟨String.ofList after.reverse, ?_, ?_, by simpa using hpoint⟩
    · -- without a stem the name would be no longer than the point and what follows it
      intro hstem
      have hafter : after = [] := by simpa [String.ofList_eq_empty_iff] using hstem
      rw [hlength, hsplit, hafter] at hless
      simp at hless
    · rw [← String.toList_inj, ← List.reverse_reverse name.toList, hsplit]
      simp
  · rintro ⟨stem, hstem, rfl, hpoint⟩
    have hreverse : (stem ++ "." ++ extension).toList.reverse =
        extension.toList.reverse ++ '.' :: stem.toList.reverse := by simp
    have hafter : 0 < stem.toList.length :=
      List.length_pos_iff.mpr fun hnil => hstem (String.toList_eq_nil_iff.mp hnil)
    rw [hlength, hreverse, takeWhile_point (by simpa using hpoint)]
    refine ⟨?_, by simp⟩
    simp only [List.length_append, List.length_cons, List.length_reverse]
    omega

/-! ## Ascending order -/

theorem nameBytes_inj {name other : String} : nameBytes name = nameBytes other ↔ name = other := by
  rw [nameBytes, nameBytes, Array.toList_inj, ← String.toByteArray_inj]
  exact ⟨fun h => ByteArray.ext h, congrArg _⟩

/-- Every name comes before the next one, by bytes. -/
def StrictlyAscending (names : List String) : Prop :=
  names.Pairwise fun earlier later => nameBytes earlier < nameBytes later

theorem sortNames_perm (names : List String) : (sortNames names).Perm names :=
  List.mergeSort_perm names nameLE

theorem pairwise_sortNames (names : List String) :
    (sortNames names).Pairwise fun earlier later => nameBytes earlier ≤ nameBytes later := by
  have htrans : ∀ first second third, nameLE first second = true → nameLE second third = true →
      nameLE first third = true :=
    fun first second third hle hnext =>
      decide_eq_true (Std.le_trans (of_decide_eq_true hle) (of_decide_eq_true hnext))
  have htotal : ∀ first second, (nameLE first second || nameLE second first) = true := by
    intro first second
    simpa [nameLE] using Std.le_total
  exact (List.pairwise_mergeSort htrans htotal names).imp of_decide_eq_true

/-- The order in which names are given does not matter. -/
theorem sortNames_eq_of_perm {names others : List String} (hperm : names.Perm others) :
    sortNames names = sortNames others := by
  refine List.Perm.eq_of_pairwise ?_ (pairwise_sortNames names) (pairwise_sortNames others)
    ((sortNames_perm names).trans (hperm.trans (sortNames_perm others).symm))
  intro name other _ _ hle hge
  exact nameBytes_inj.mp (Std.le_antisymm hle hge)

theorem strictlyAscending_sortNames {names : List String} (hdistinct : names.Nodup) :
    StrictlyAscending (sortNames names) := by
  have hsorted := (pairwise_sortNames names).and ((sortNames_perm names).nodup_iff.mpr hdistinct)
  refine hsorted.imp fun {earlier later} h => ?_
  exact Std.lt_of_le_of_ne h.1 fun heq => h.2 (nameBytes_inj.mp heq)

/-- Names have only one strictly ascending order. -/
theorem StrictlyAscending.eq_of_mem_iff {names others : List String}
    (hnames : StrictlyAscending names) (hothers : StrictlyAscending others)
    (hmem : ∀ name, name ∈ names ↔ name ∈ others) : names = others := by
  have hnodup : ∀ {names}, StrictlyAscending names → names.Nodup := by
    intro names hnames
    refine List.Pairwise.imp ?_ hnames
    intro name other hless heq
    rw [heq] at hless
    exact Std.lt_irrefl hless
  refine List.Perm.eq_of_pairwise ?_ hnames hothers
    ((List.perm_ext_iff_of_nodup (hnodup hnames) (hnodup hothers)).mpr hmem)
  intro name other _ _ hless hgreater
  exact absurd (Std.lt_trans hless hgreater) Std.lt_irrefl

end Ambient.Files
