/-
What a reference depends on.

The entries of a reference are heard one after the other (`Spelling.hear`), and what they spell
is a fold of that (`referenceOfEntries_eq_foldlM`). So it hinges on each entry of its three
keys, other entries do not matter to it, and none of the three is heard twice. A list of the
fields in order hinges on each of them, too.
-/
import Ambient.Load.Reference
import Ambient.Proofs.Json.Parts

set_option autoImplicit false

namespace Ambient.Load

open Ambient.Json Ambient.Schema

/-! ## Fields of a reference -/

/-- A field of a reference that has been read as a value: a tag, which is the kind or the
target, or the elements. -/
inductive Kept where
  | tag
  | items
  deriving DecidableEq

/-- What is read of a field of a reference. Both may be absent. -/
abbrev Kept.Result : Kept → Type
  | .tag => Option String
  | .items => Option Reference

/-- What a value says in a field. -/
def Kept.interpret : (kept : Kept) → Value → Except Cause kept.Result
  | .tag => optionalText
  | .items => optionalReference

/-- The field of a key. -/
def keptOf? (key : String) : Option Kept :=
  if key = kindKey ∨ key = targetKey then some .tag
  else if key = itemsKey then some .items
  else none

/-- The field at a position. -/
def keptAt? : Nat → Option Kept
  | 0 | 1 => some .tag
  | 2 => some .items
  | _ => none

/-! ## Entries -/

/-- What is said in a field that must not have been seen. -/
def unlessSeen {α : Type} (key : String) (seen? : Option α) (result : Except Cause α) :
    Except Cause α :=
  match seen? with
  | some _ => .error (.repeatedField key)
  | none => result

/-- What an entry adds to the fields that have been seen. -/
def Spelling.hear (spelling : Spelling) (entry : String × Value) : Except Cause Spelling :=
  if entry.1 = kindKey then
    (unlessSeen entry.1 spelling.kind (optionalText entry.2)).map fun kind? =>
      { spelling with kind := some kind? }
  else if entry.1 = targetKey then
    (unlessSeen entry.1 spelling.target (optionalText entry.2)).map fun target? =>
      { spelling with target := some target? }
  else if entry.1 = itemsKey then
    (unlessSeen entry.1 spelling.items (optionalReference entry.2)).map fun items? =>
      { spelling with items := some items? }
  else .ok spelling

theorem referenceOfEntries_eq_foldlM (entries : List (String × Value)) (spelling : Spelling) :
    referenceOfEntries entries spelling =
      (entries.foldlM Spelling.hear spelling).map Spelling.reference := by
  induction entries generalizing spelling with
  | nil => rfl
  | cons entry entries ih =>
    obtain ⟨key, value⟩ := entry
    -- the three fields go on alike once they have not been seen
    have hrest {α : Type} (result : Except Cause α) (store : α → Spelling) :
        (result >>= fun value => referenceOfEntries entries (store value)) =
          ((unlessSeen key none result).map store >>= entries.foldlM Spelling.hear).map
            Spelling.reference := by
      cases result with
      | error cause => rfl
      | ok value => exact ih (store value)
    rw [referenceOfEntries, List.foldlM_cons, Spelling.hear]
    dsimp only
    split
    · cases spelling.kind with
      | some _ => rfl
      | none => exact hrest _ _
    · split
      · cases spelling.target with
        | some _ => rfl
        | none => exact hrest _ _
      · split
        · cases spelling.items with
          | some _ => rfl
          | none => exact hrest _ _
        · exact ih spelling

section Hearing

variable (spelling : Spelling) (value : Value)

theorem hear_kind : spelling.hear (kindKey, value) =
    (unlessSeen kindKey spelling.kind (optionalText value)).map fun kind? =>
      { spelling with kind := some kind? } :=
  if_pos rfl

theorem hear_target : spelling.hear (targetKey, value) =
    (unlessSeen targetKey spelling.target (optionalText value)).map fun target? =>
      { spelling with target := some target? } :=
  (if_neg (show targetKey ≠ kindKey by decide)).trans (if_pos rfl)

theorem hear_items : spelling.hear (itemsKey, value) =
    (unlessSeen itemsKey spelling.items (optionalReference value)).map fun items? =>
      { spelling with items := some items? } :=
  (if_neg (show itemsKey ≠ kindKey by decide)).trans
    ((if_neg (show itemsKey ≠ targetKey by decide)).trans (if_pos rfl))

end Hearing

/-- A key of a reference is one of three. -/
theorem keptOf?_eq_some_iff {key : String} {kept : Kept} :
    keptOf? key = some kept ↔ (key = kindKey ∧ kept = .tag) ∨ (key = targetKey ∧ kept = .tag) ∨
      (key = itemsKey ∧ kept = .items) := by
  refine ⟨fun h => ?_, ?_⟩
  · unfold keptOf? at h
    split at h
    · rename_i htag
      cases h
      exact htag.elim (fun h => .inl ⟨h, rfl⟩) fun h => .inr (.inl ⟨h, rfl⟩)
    · split at h
      · rename_i hitems
        cases h
        exact .inr (.inr ⟨hitems, rfl⟩)
      · cases h
  · rintro (⟨rfl, rfl⟩ | ⟨rfl, rfl⟩ | ⟨rfl, rfl⟩) <;> decide

theorem hear_of_none {key : String} (h : keptOf? key = none) (spelling : Spelling)
    (value : Value) : spelling.hear (key, value) = .ok spelling := by
  unfold keptOf? at h
  split at h
  · cases h
  · rename_i htag
    split at h
    · cases h
    · rename_i hitems
      rw [not_or] at htag
      rw [Spelling.hear, if_neg htag.1, if_neg htag.2, if_neg hitems]

/-- Entries of other keys make no difference. -/
theorem referenceOfEntries_insert {key : String} (h : keptOf? key = none) (value : Value)
    (before after : List (String × Value)) (spelling : Spelling) :
    referenceOfEntries (before ++ (key, value) :: after) spelling =
      referenceOfEntries (before ++ after) spelling := by
  rw [referenceOfEntries_eq_foldlM, referenceOfEntries_eq_foldlM, List.foldlM_append,
    List.foldlM_append]
  refine congrArg (Except.map Spelling.reference) (congrArg _ (funext fun spelling => ?_))
  rw [List.foldlM_cons, hear_of_none h]
  rfl

theorem hinges_unlessSeen {δ ε α : Type} {part : δ → Except ε α} {result : δ → Except Cause α}
    (h : Hinges part result) (key : String) (seen? : Option α) :
    Hinges part fun d => unlessSeen key seen? (result d) := by
  cases seen? with
  | some _ => exact .of_error fun _ => rfl
  | none => exact h

theorem hinges_hear {key : String} {kept : Kept} (h : keptOf? key = some kept)
    (spelling : Spelling) : Hinges kept.interpret fun value => spelling.hear (key, value) := by
  obtain ⟨rfl, rfl⟩ | ⟨rfl, rfl⟩ | ⟨rfl, rfl⟩ := keptOf?_eq_some_iff.mp h
  · simp only [hear_kind]
    exact (hinges_unlessSeen (.refl optionalText) _ _).bind _
  · simp only [hear_target]
    exact (hinges_unlessSeen (.refl optionalText) _ _).bind _
  · simp only [hear_items]
    exact (hinges_unlessSeen (.refl optionalReference) _ _).bind _

/-- A reference hinges on each entry of its keys. -/
theorem hinges_referenceOfEntries {key : String} {kept : Kept} (h : keptOf? key = some kept)
    (before after : List (String × Value)) (spelling : Spelling) :
    Hinges kept.interpret fun value =>
      referenceOfEntries (before ++ (key, value) :: after) spelling := by
  simp only [referenceOfEntries_eq_foldlM, List.foldlM_append, List.foldlM_cons]
  exact (Hinges.after (fun spelling => (hinges_hear h spelling).bind _) _).bind _

/-- A reference that is written as a list hinges on each of its fields. -/
theorem hinges_referenceOfItems {before : List Value} {kept : Kept}
    (h : keptAt? before.length = some kept) (after : List Value) :
    Hinges kept.interpret fun value => referenceOfItems (before ++ value :: after) := by
  match before, h with
  | [], rfl =>
    match after with
    | [] => exact (Hinges.refl optionalText).bind _
    | [_] => exact (Hinges.refl optionalText).bind _
    | _ :: _ :: _ => exact (Hinges.refl optionalText).bind _
  | [kind], rfl =>
    match after with
    | [] => exact .after (fun _ => (Hinges.refl optionalText).bind _) (optionalText kind)
    | _ :: _ => exact .after (fun _ => (Hinges.refl optionalText).bind _) (optionalText kind)
  | [kind, target], rfl =>
    exact .after (fun _ => .after (fun _ => (Hinges.refl optionalReference).bind _)
      (optionalText target)) (optionalText kind)

/-! ## No key twice -/

/-- A fold that refuses a key once it has been seen takes no key twice. -/
theorem count_le_one_of_foldlM {σ ε κ α : Type} [BEq κ] [LawfulBEq κ]
    {step : σ → κ × α → Except ε σ} {key : κ} (seen : σ → Prop)
    (hfresh : ∀ {state value state'}, step state (key, value) = .ok state' →
      ¬ seen state ∧ seen state')
    (hkeep : ∀ {state entry state'}, step state entry = .ok state' → seen state → seen state')
    {entries : List (κ × α)} {state final : σ} (h : entries.foldlM step state = .ok final) :
    (entries.map Prod.fst).count key ≤ 1 ∧ (seen state → key ∉ entries.map Prod.fst) := by
  induction entries generalizing state with
  | nil => exact ⟨Nat.zero_le 1, fun _ => List.not_mem_nil⟩
  | cons entry entries ih =>
    obtain ⟨other, value⟩ := entry
    rw [List.foldlM_cons] at h
    obtain ⟨state', hstep, hrest⟩ := bind_eq_ok_iff.mp h
    obtain ⟨hcount, hnew⟩ := ih hrest
    rw [List.map_cons, List.count_cons]
    by_cases hkey : other = key
    · subst hkey
      obtain ⟨hunseen, hseen⟩ := hfresh hstep
      have hnone := List.count_eq_zero_of_not_mem (hnew hseen)
      exact ⟨by simp only [hnone, beq_self_eq_true, if_true, Nat.zero_add, Nat.le_refl],
        fun h => (hunseen h).elim⟩
    · refine ⟨by rwa [beq_false_of_ne hkey, if_neg Bool.false_ne_true, Nat.add_zero], fun h => ?_⟩
      rw [List.mem_cons, not_or]
      exact ⟨Ne.symm hkey, hnew (hkeep hstep h)⟩

/-- A field that has been seen. -/
def Spelling.Seen (key : String) (spelling : Spelling) : Prop :=
  (key = kindKey ∧ spelling.kind.isSome = true) ∨
    (key = targetKey ∧ spelling.target.isSome = true) ∨
      (key = itemsKey ∧ spelling.items.isSome = true)

theorem map_unlessSeen_eq_ok {α β : Type} {key : String} {seen? : Option α}
    {result : Except Cause α} {store : α → β} {value : β}
    (h : (unlessSeen key seen? result).map store = .ok value) :
    seen? = none ∧ ∃ stored, store stored = value := by
  cases seen? with
  | some _ => cases h
  | none => cases result with
    | error cause => cases h
    | ok stored => exact ⟨rfl, stored, Except.ok.inj h⟩

theorem seen_of_hear {key : String} (hkey : (keptOf? key).isSome = true)
    {spelling spelling' : Spelling} {value : Value}
    (h : spelling.hear (key, value) = .ok spelling') :
    ¬ spelling.Seen key ∧ spelling'.Seen key := by
  have hkindTarget : kindKey ≠ targetKey := by decide
  have hkindItems : kindKey ≠ itemsKey := by decide
  have htargetItems : targetKey ≠ itemsKey := by decide
  obtain ⟨kept, hkept⟩ := Option.isSome_iff_exists.mp hkey
  obtain ⟨rfl, -⟩ | ⟨rfl, -⟩ | ⟨rfl, -⟩ := keptOf?_eq_some_iff.mp hkept
  · rw [hear_kind] at h
    obtain ⟨hfresh, stored, rfl⟩ := map_unlessSeen_eq_ok h
    simp [Spelling.Seen, hfresh, hkindTarget, hkindItems]
  · rw [hear_target] at h
    obtain ⟨hfresh, stored, rfl⟩ := map_unlessSeen_eq_ok h
    simp [Spelling.Seen, hfresh, hkindTarget.symm, htargetItems]
  · rw [hear_items] at h
    obtain ⟨hfresh, stored, rfl⟩ := map_unlessSeen_eq_ok h
    simp [Spelling.Seen, hfresh, hkindItems.symm, htargetItems.symm]

theorem Spelling.Seen.hear {key : String} {spelling spelling' : Spelling} {entry : String × Value}
    (hseen : spelling.Seen key) (h : spelling.hear entry = .ok spelling') :
    spelling'.Seen key := by
  unfold Spelling.hear at h
  unfold Spelling.Seen at hseen ⊢
  split at h
  · obtain ⟨-, stored, rfl⟩ := map_unlessSeen_eq_ok h
    exact hseen.imp_left fun h => ⟨h.1, rfl⟩
  · split at h
    · obtain ⟨-, stored, rfl⟩ := map_unlessSeen_eq_ok h
      exact hseen.imp_right (Or.imp_left fun h => ⟨h.1, rfl⟩)
    · split at h
      · obtain ⟨-, stored, rfl⟩ := map_unlessSeen_eq_ok h
        exact hseen.imp_right (Or.imp_right fun h => ⟨h.1, rfl⟩)
      · cases h
        exact hseen

/-- A reference is spelled by entries in which none of its keys occurs twice. -/
theorem count_le_one_of_referenceOfEntries {key : String} (hkey : (keptOf? key).isSome = true)
    {entries : List (String × Value)} {spelling : Spelling} {reference : Reference}
    (h : referenceOfEntries entries spelling = .ok reference) :
    (entries.map Prod.fst).count key ≤ 1 := by
  rw [referenceOfEntries_eq_foldlM] at h
  cases hheard : entries.foldlM Spelling.hear spelling with
  | error cause =>
    rw [hheard] at h
    cases h
  | ok final =>
    exact (count_le_one_of_foldlM (Spelling.Seen key) (seen_of_hear hkey)
      (fun h hseen => hseen.hear h) hheard).1

end Ambient.Load
