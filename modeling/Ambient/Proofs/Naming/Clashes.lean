/-
The suffixes of results that make names clash.

Two of the three endings of made names never change, and the third one may be chosen. Where
an ending ends in another one, what stands before can be moved over to the name: `foo` gets
the same name for its results with the suffix `s` as `fooParam` does, and `foo` for its
parameters (`made_append`). So there is a clash for every suffix that does not stand apart
from the two fixed endings, and `made_inj` says that there is none for the other ones.
-/
import Ambient.Proofs.Naming.Made

set_option autoImplicit false

namespace Ambient.Naming

/-- With the suffix `suffix`, two purposes or names in lower camel case that differ give the
same made name. -/
def Clashes (suffix : String) : Prop :=
  ∃ (kind purpose : Kind) (name other : String), LowerCamel name ∧ LowerCamel other ∧
    (kind, name) ≠ (purpose, other) ∧ made suffix kind name = made suffix purpose other

/-! ## Longer names -/

theorem LowerCamel.append {name rest : String} (hname : LowerCamel name)
    (hrest : Alphanumeric rest) : LowerCamel (name ++ rest) := by
  obtain ⟨first, more, hchars, -⟩ := hname.1.exists_cons
  have hfirst : first.isLower = true := hname.2 first (by rw [hchars]; rfl)
  refine ⟨⟨?_, ?_⟩, ?_⟩
  · intro hempty
    rw [← String.toList_eq_nil_iff, String.toList_append, hchars] at hempty
    cases hempty
  · intro c hc
    rw [String.toList_append, List.mem_append] at hc
    exact hc.elim (hname.1.2 c) (hrest c)
  · intro c hc
    rw [String.toList_append, hchars] at hc
    cases hc
    exact hfirst

/-- Pascal case does not look behind the first character. -/
theorem pascal_append {name : String} (hname : name ≠ "") (rest : String) :
    pascal (name ++ rest) = pascal name ++ rest := by
  obtain ⟨first, more, hchars⟩ := List.exists_cons_of_ne_nil
    (fun hnil => hname (String.toList_eq_nil_iff.mp hnil))
  have hlonger : (name ++ rest).toList = first :: (more ++ rest.toList) := by
    rw [String.toList_append, hchars, List.cons_append]
  rw [pascal, pascal, hlonger, hchars]
  simp only [← String.toList_inj, String.toList_ofList, String.toList_append,
    List.append_assoc]

/-- What one ending has in front of another one can as well be the end of the name. -/
theorem made_append {suffix rest : String} {kind purpose : Kind}
    (hending : purpose.ending suffix = rest ++ kind.ending suffix) {name : String}
    (hname : name ≠ "") : made suffix kind (name ++ rest) = made suffix purpose name := by
  rw [made_eq, made_eq, pascal_append hname, hending, String.append_assoc]

/-! ## Clashes -/

/-- The clash is between `foo` and the longer name that has the rest of the ending. -/
theorem clashes_of_ending {suffix : String} (hsuffix : Alphanumeric suffix)
    (kind purpose : Kind) (hne : kind ≠ purpose)
    (hending : (kind.ending suffix).toList <:+ (purpose.ending suffix).toList) :
    Clashes suffix := by
  obtain ⟨chars, hchars⟩ := hending
  have hsplit : purpose.ending suffix = String.ofList chars ++ kind.ending suffix := by
    rw [← String.toList_inj, String.toList_append, String.toList_ofList, hchars]
  -- the rest of an ending is made of letters and digits, as all endings are
  have hrest : Alphanumeric (String.ofList chars) := by
    intro c hc
    apply alphanumeric_ending hsuffix purpose
    rw [hsplit, String.toList_append]
    exact List.mem_append_left _ hc
  have hname : LowerCamel "foo" := by decide
  exact ⟨kind, purpose, "foo" ++ String.ofList chars, "foo", hname.append hrest, hname,
    fun hsame => hne (congrArg Prod.fst hsame), made_append hsplit (by decide)⟩

theorem not_clashes_of_safeSuffix {suffix : String} (hsafe : SafeSuffix suffix) :
    ¬ Clashes suffix := by
  rintro ⟨kind, purpose, name, other, hname, hother, hne, hmade⟩
  obtain ⟨hkind, hsame⟩ := made_inj hsafe hname hother hmade
  exact hne (Prod.ext hkind hsame)

theorem safeSuffix_result : SafeSuffix "Result" := by decide

/-- **The suffixes that make names clash** are those in which `Params` or `EventArgs` ends, and
those that end in one of them. The usual suffix is not among them. -/
theorem clashes_iff {suffix : String} (hsuffix : Alphanumeric suffix) :
    (Clashes suffix ↔
      (suffix.toList <:+ "Params".toList ∨ suffix.toList <:+ "EventArgs".toList) ∨
        "Params".toList <:+ suffix.toList ∨ "EventArgs".toList <:+ suffix.toList) ∧
      ¬ Clashes "Result" := by
  refine ⟨⟨fun hclashes => ?_, ?_⟩, not_clashes_of_safeSuffix safeSuffix_result⟩
  · -- if none of the four holds, the suffix stands apart
    by_contra hnone
    simp only [not_or] at hnone
    obtain ⟨⟨hparams, hargs⟩, hparams', hargs'⟩ := hnone
    exact not_clashes_of_safeSuffix ⟨⟨hparams, hparams'⟩, ⟨hargs, hargs'⟩⟩ hclashes
  · rintro ((hending | hending) | hending | hending)
    · exact clashes_of_ending hsuffix .result .params (by decide) hending
    · exact clashes_of_ending hsuffix .result .eventArgs (by decide) hending
    · exact clashes_of_ending hsuffix .params .result (by decide) hending
    · exact clashes_of_ending hsuffix .eventArgs .result (by decide) hending

theorem clashes_letter : Alphanumeric "s" ∧ Clashes "s" ∧ Alphanumeric "Response" ∧
    ¬ Clashes "Response" := by
  have hletter : Alphanumeric "s" := by decide
  have hword : Alphanumeric "Response" := by decide
  refine ⟨hletter, (clashes_iff hletter).1.mpr (by decide), hword, ?_⟩
  rw [(clashes_iff hword).1]
  decide

end Ambient.Naming
