/-
Members with an unknown key.

The objects of a description may have members that nobody asked for. A domain, a command and an
event pass over them, whatever they are. A type, a property and the elements of a reference keep
them until the object has ended, for the reference may be among them; there a member must have a
value, although that value is not looked at. This is all that a member with an unknown key does
(`loadDomain_insert`).
-/
import Ambient.Proofs.Load.Places

set_option autoImplicit false

namespace Ambient.Load

open Ambient.Json Ambient.Schema
open Ambient.Layout.Sink (textBytes)

/-- The objects that pass over the members they do not know. -/
def Want.PassesOver (want : Want) : Prop :=
  ∃ kind : Kind, want = .direct (.record kind) ∧ kind.holdsReference = false

section Insertion

variable {want : Want} {levels : Nat} {key : String} {member : Document}

/-- A member that is passed over makes no difference. -/
theorem decode_insert_ignored {kind : Kind} (hholds : kind.holdsReference = false)
    (hkey : kind.member? key = none) (before after : List (Option String × Document)) :
    (Shape.record kind).decode (levels + 1) (.object (before ++ (some key, member) :: after)) =
      (Shape.record kind).decode (levels + 1) (.object (before ++ after)) := by
  obtain ⟨hfield, -⟩ := Kind.member?_eq_none_iff.mp hkey
  change decodeMembers (kind.form.accept (kind.decoders levels) _) _ _ >>= _ =
    decodeMembers (kind.form.accept (kind.decoders levels) _) _ _ >>= _
  rw [decodeMembers_append, decodeMembers_append]
  refine congrArg (· >>= kind.form.settled) (congrArg _ (funext fun draft => ?_))
  rw [decodeMembers, Form.accept, find?_decoders_of_none hfield,
    kind.others_eq_ignored hholds]
  rfl

/-- A member that is kept makes no difference if it has a value, and otherwise it is a fault. -/
theorem toOption_decode_insert_kept {kind : Kind} (hholds : kind.holdsReference = true)
    (hkey : kind.member? key = none) (before after : List (Option String × Document)) :
    ((Shape.record kind).decode (levels + 1)
        (.object (before ++ (some key, member) :: after))).toOption =
      (member.value levels).toOption.bind fun _ =>
        ((Shape.record kind).decode (levels + 1) (.object (before ++ after))).toOption := by
  obtain ⟨hfield, hkept⟩ := Kind.member?_eq_none_iff.mp hkey
  obtain ⟨store, hothers⟩ := kind.exists_others_eq_kept hholds
  change (kind.form.decode (kind.decoders levels) _ _).toOption = _ >>=
    fun _ => (kind.form.decode (kind.decoders levels) _ _).toOption
  rw [Form.decode_kept (find?_decoders_of_none hfield levels) hothers,
    Form.decode_append hothers]
  simp only [referenceOfEntries_insert (hkept hholds), toOption_bind, inside, toOption_mapError]
  cases (member.value levels).toOption with
  | none => exact Option.bind_fun_none _
  | some value => rfl

/-- Elements of a reference keep a member in the same way. -/
theorem toOption_decode_insert_items (hkey : keptOf? key = none)
    (before after : List (Option String × Document)) :
    (Kept.items.decode (levels + 1)
        (.object (before ++ (some key, member) :: after))).toOption =
      (member.value levels).toOption.bind fun _ =>
        (Kept.items.decode (levels + 1) (.object (before ++ after))).toOption := by
  rw [Kept.decode, Kept.decode, value_object_bind, value_object_append]
  simp only [Kept.interpret, optionalReference, referenceOfEntries_insert hkey, toOption_bind,
    inside, toOption_mapError]
  cases (member.value levels).toOption with
  | none => exact Option.bind_fun_none _
  | some value => rfl

/-- An object is no field of a reference but elements. -/
theorem toOption_decode_tag_object (members : List (Option String × Document)) :
    (Kept.tag.decode (levels + 1) (.object members)).toOption = none := by
  rw [Kept.decode, Document.value]
  cases decodeMembers (keep (Document.value levels)) [] members <;> rfl

/-- What an unknown member does to an object that keeps it. -/
theorem toOption_decode_insert (hkey : want.member? key = none) (hkeeps : ¬ want.PassesOver)
    (before after : List (Option String × Document)) :
    (want.decode (levels + 1) (.object (before ++ (some key, member) :: after))).toOption =
      (member.value levels).toOption.bind fun _ =>
        (want.decode (levels + 1) (.object (before ++ after))).toOption := by
  cases want with
  | direct shape =>
    cases shape with
    | record kind =>
      have hholds : kind.holdsReference = true := by
        by_contra hholds
        exact hkeeps ⟨kind, rfl, Bool.not_eq_true _ ▸ hholds⟩
      exact toOption_decode_insert_kept hholds hkey before after
    | _ => exact (Option.bind_fun_none _).symm
  | kept field =>
    cases field with
    | tag =>
      change (Kept.tag.decode _ _).toOption = Option.bind _ fun _ => (Kept.tag.decode _ _).toOption
      rw [toOption_decode_tag_object, toOption_decode_tag_object]
      exact (Option.bind_fun_none _).symm
    | items => exact toOption_decode_insert_items (Option.map_eq_none_iff.mp hkey) before after

theorem decode_insert_of_passesOver (hkey : want.member? key = none) (hpasses : want.PassesOver)
    (before after : List (Option String × Document)) :
    want.decode (levels + 1) (.object (before ++ (some key, member) :: after)) =
      want.decode (levels + 1) (.object (before ++ after)) := by
  obtain ⟨kind, rfl, hholds⟩ := hpasses
  exact decode_insert_ignored hholds hkey before after

/-- A key that stands for no text is a fault of every object. -/
theorem toOption_decode_insert_none (before after : List (Option String × Document)) :
    (want.decode (levels + 1) (.object (before ++ (none, member) :: after))).toOption = none := by
  have hmembers {σ : Type} (enter : String → σ → Document → Except (List Segment) σ) (state : σ) :
      (decodeMembers enter state (before ++ (none, member) :: after)).toOption = none := by
    rw [decodeMembers_append, toOption_bind]
    exact Option.bind_fun_none _
  cases want with
  | direct shape =>
    cases shape with
    | record kind =>
      change (decodeMembers (kind.form.accept (kind.decoders levels) _) _ _ >>= _).toOption = none
      rw [toOption_bind, hmembers]
      rfl
    | _ => rfl
  | kept field =>
    change (Kept.decode _ field _).toOption = none
    rw [Kept.decode, Document.value, toOption_bind, toOption_map, hmembers]
    rfl

end Insertion

/-- **Members with an unknown key.** A member is inserted into an object of a text that loads. If
its key stands for a text, and if the object passes over the member or it can be read within the
brackets that may still be opened, then the text loads as before. Otherwise it does not load. -/
theorem loadDomain_insert {place : List Frame} {want : Want} {key? : Option String}
    (hplace : Want.whole.at? place = some want) (hkey : ∀ key ∈ key?, want.member? key = none)
    (before after : List (Option String × Document)) {member : Document} {text text' : String}
    (htext : (fill place (.object (before ++ after))).WrittenIn text)
    (htext' : (fill place (.object (before ++ (key?, member) :: after))).WrittenIn text')
    {source : Domain} (hload : loadDomain (textBytes text) = .ok source) :
    (key?.isSome = true ∧ (want.PassesOver ∨ member.Readable (126 - place.length)) →
      loadDomain (textBytes text') = .ok source) ∧
    (¬ (key?.isSome = true ∧ (want.PassesOver ∨ member.Readable (126 - place.length))) →
      ∃ error, loadDomain (textBytes text') = .error error) := by
  -- the object itself stands at one level more than what is inside it
  obtain ⟨levels, hlevels⟩ : ∃ levels, deepest - place.length = levels + 1 := by
    refine Nat.exists_eq_add_one_of_ne_zero fun hzero => ?_
    obtain ⟨error, herror⟩ := exists_error_of_place hplace htext (by
      rw [hzero, decode_zero_object]
      rfl)
    rw [herror] at hload
    cases hload
  obtain rfl : levels = 126 - place.length := by
    rw [deepest] at hlevels
    omega
  obtain _ | key := key?
  · refine ⟨nofun, fun _ => exists_error_of_place hplace htext' ?_⟩
    rw [hlevels, toOption_decode_insert_none]
  have hkey := hkey key rfl
  simp only [Option.isSome_some, true_and]
  constructor
  · intro hmember
    rw [← toOption_eq_some_iff] at hload ⊢
    rw [← hload]
    refine toOption_loadDomain_congr hplace htext' htext ?_
    rw [hlevels]
    by_cases hpasses : want.PassesOver
    · rw [decode_insert_of_passesOver hkey hpasses]
    · obtain ⟨value, hvalue⟩ := readable_iff_exists.mp (hmember.resolve_left hpasses)
      rw [toOption_decode_insert hkey hpasses, hvalue]
      rfl
  · intro hmember
    obtain ⟨hpasses, hreadable⟩ := not_or.mp hmember
    refine exists_error_of_place hplace htext' ?_
    have hvalue : (member.value (126 - place.length)).toOption = none := by
      rw [Option.eq_none_iff_forall_ne_some]
      intro value hvalue
      exact hreadable (readable_iff_exists.mpr ⟨value, toOption_eq_some_iff.mp hvalue⟩)
    rw [hlevels, toOption_decode_insert hkey hpasses, hvalue]
    rfl

/-- A description with one type, which says nothing. -/
def plainType : String := "\x7b\"types\":[\x7b\x7d]\x7d"

theorem plainType_written : (fill onlyType (.object [])).WrittenIn plainType :=
  writtenIn_onlyType (.object (.nil blank_nil)) (by simp [plainType])

/-- A number that is a finite double. -/
def oneLiteral : Literal := ⟨false, [1], [], none⟩

/-- A number that is no finite double. -/
def hugeLiteral : Literal := ⟨false, [1], [], some (false, [4, 0, 0])⟩

theorem oneLiteral_written : WritesNumber oneLiteral ['1'] :=
  writesNumber_whole (.digits Nat.one_ne_zero (.cons (by simp [decimalDigits]) .nil))

theorem hugeLiteral_written : WritesNumber hugeLiteral ['1', 'e', '4', '0', '0'] :=
  @WritesNumber.mk false [] ['1'] [] ['e', '4', '0', '0'] [1] [] (some (false, [4, 0, 0])) (by simp)
    (.digits Nat.one_ne_zero (.cons (by simp [decimalDigits]) .nil)) .none
    (@WritesExponent.some 'e' false [] ['4', '0', '0'] [4, 0, 0] (by simp) (by simp) (by simp)
      (.cons (by simp [decimalDigits]) (.cons (by simp [decimalDigits])
        (.cons (by simp [decimalDigits]) .nil))))

/-- The list of a one, where no type has a field. -/
theorem loadDomain_insert_list :
    loadDomain (textBytes "\x7b\"types\":[\x7b\"x\":[1]\x7d]\x7d") = .ok { types := [{}] } := by
  have hwritten : (fill onlyType (.object [(some "x", .list [.number oneLiteral])])).WrittenIn
      "\x7b\"types\":[\x7b\"x\":[1]\x7d]\x7d" :=
    writtenIn_onlyType (.object (.cons blank_nil (.mk (writesMarks_self (by decide)) blank_nil
      blank_nil (.list (.cons blank_nil (.number oneLiteral_written) (.nil blank_nil))))
        (.nil blank_nil))) (by simp)
  have hreadable : (Document.list [.number oneLiteral]).Readable (126 - onlyType.length) :=
    List.forall_mem_singleton.mpr (show oneLiteral.number?.isOk = true by decide)
  have hkey : ∀ key ∈ some "x", (Want.direct (.record .definition)).member? key = none := by
    rintro _ ⟨⟩
    rfl
  exact (loadDomain_insert at?_onlyType hkey [] [] plainType_written hwritten rfl).1
    ⟨rfl, .inr hreadable⟩

/-- A number that is no finite double is not ignored, not even where nobody asked for it. -/
theorem unknown_members_not_all_ignored :
    ¬ ∀ (place : List Frame) (want : Want) (key : String)
      (before after : List (Option String × Document)) (member : Document) (text text' : String)
      (source : Domain), Want.whole.at? place = some want → want.member? key = none →
      (fill place (.object (before ++ after))).WrittenIn text →
      (fill place (.object (before ++ (some key, member) :: after))).WrittenIn text' →
      loadDomain (textBytes text) = .ok source → loadDomain (textBytes text') = .ok source := by
  intro hignored
  have hwritten : (fill onlyType (.object [(some "x", .number hugeLiteral)])).WrittenIn
      "\x7b\"types\":[\x7b\"x\":1e400\x7d]\x7d" :=
    writtenIn_onlyType (.object (.cons blank_nil (.mk (writesMarks_self (by decide)) blank_nil
      blank_nil (.number hugeLiteral_written)) (.nil blank_nil))) (by simp)
  have hload := hignored onlyType _ "x" [] [] (.number hugeLiteral) plainType _ _ at?_onlyType rfl
    plainType_written hwritten rfl
  rw [← toOption_eq_some_iff, toOption_loadDomain hwritten] at hload
  cases hload

end Ambient.Load
