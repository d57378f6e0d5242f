/-
Upper case makes letters and nothing else of ASCII.

What the upper case of a character has among the ASCII characters is a letter or the
character itself, so that no mark of the syntax comes into a text by it. Outside of ASCII
the map is arithmetic on code points, and all that is needed of its tables are bounds.
-/
import Ambient.Text.Uppercase
import Mathlib

set_option autoImplicit false

namespace Ambient.Text

/-- A code point that is no mark: it lies outside of ASCII, or it is a letter. -/
def Unmarked (code : Nat) : Prop := 128 ≤ (Char.ofNat code).toNat ∨ (Char.ofNat code).isAlpha = true

instance (code : Nat) : Decidable (Unmarked code) := inferInstanceAs (Decidable (_ ∨ _))

theorem unmarked_expansions : ∀ entry ∈ caseExpansions, ∀ code ∈ entry.2, Unmarked code := by
  decide +kernel

/-- The images of a run lie outside of ASCII and are characters, unless it is the run of
one character and its image is a letter. -/
theorem unmarked_runs : ∀ run ∈ caseRuns,
    (run.first = run.last ∧ Unmarked run.target) ∨
      (128 ≤ run.target ∧ (run.target + (run.last - run.first)).isValidChar ∧
        (run.target + (run.last - run.first) < 0xD800 ∨ 0xDFFF < run.target)) := by
  decide +kernel

theorem unmarked_run {run : CaseRun} (hrun : run ∈ caseRuns) {code : Nat}
    (hcode : run.covers code = true) : Unmarked (run.target + (code - run.first)) := by
  simp only [CaseRun.covers, Bool.and_eq_true, decide_eq_true_eq] at hcode
  obtain ⟨⟨hfirst, hlast⟩, -⟩ := hcode
  rcases unmarked_runs run hrun with ⟨hsame, htarget⟩ | ⟨hlow, hvalid, hrange⟩
  · have hzero : code - run.first = 0 := by omega
    rwa [hzero, Nat.add_zero]
  · have himage : (run.target + (code - run.first)).isValidChar := by
      rw [Nat.isValidChar] at hvalid ⊢
      omega
    left
    rw [Char.toNat_ofNat, if_pos himage]
    omega

/-- **Upper case brings in no marks**: what it has among the ASCII characters is a letter,
or the character was there before. -/
theorem eq_of_mem_uppercase {c mark : Char} (hascii : mark.toNat < 128)
    (hletter : mark.isAlpha = false) (hmem : mark ∈ uppercase c) : mark = c := by
  have hmarked : ∀ {code : Nat}, mark = Char.ofNat code → ¬ Unmarked code := by
    rintro code rfl (hbeyond | hletter')
    · omega
    · exact absurd hletter' (by rw [hletter]; exact Bool.false_ne_true)
  unfold uppercase at hmem
  split at hmem
  · rw [List.mem_singleton] at hmem
    by_cases hlower : c.isLower = true
    · have halpha : c.toUpper.isAlpha = true := by
        rw [Char.isAlpha_toUpper_eq_isAlpha, Char.isAlpha, hlower, Bool.or_true]
      rw [← hmem, hletter] at halpha
      exact absurd halpha Bool.false_ne_true
    · rwa [Char.toUpper_eq_of_not_isLower hlower] at hmem
  · split at hmem
    · rename_i codes hlookup
      obtain ⟨code, hcode, rfl⟩ := List.mem_map.mp hmem
      obtain ⟨before, after, hsplit, -⟩ := List.lookup_eq_some_iff.mp hlookup
      have hentry : (c.toNat, codes) ∈ caseExpansions := by
        rw [hsplit]
        exact List.mem_append_right _ List.mem_cons_self
      exact absurd (unmarked_expansions _ hentry code hcode) (hmarked rfl)
    · split at hmem
      · rename_i run hfind
        have hrun := List.mem_of_find?_eq_some hfind
        have hcovers : run.covers c.toNat = true := by
          simpa using List.find?_some hfind
        exact absurd (unmarked_run hrun hcovers) (hmarked (List.mem_singleton.mp hmem))
      · exact List.mem_singleton.mp hmem

end Ambient.Text
