/-
The places of a description.

What is wanted at a place follows from the frames around it (`Want.at?`): a record, a list of
records, a text, a flag, or a field of a reference. Whatever a document holds elsewhere, what it
is decoded to hinges on what is decoded at such a place (`hinges_at`). Fields of a reference are
read as values first, and their faults are then faults of the record that holds the reference;
at all other places the whole traces the part (`traces_inner`).
-/
import Ambient.Proofs.Load.References
import Ambient.Proofs.Load.Shapes

set_option autoImplicit false

namespace Ambient.Load

open Ambient.Json Ambient.Schema
open Ambient.Layout.Sink (textBytes)

/-! ## What is wanted where -/

/-- What is wanted at a place. -/
inductive Want where
  | direct (shape : Shape)
  | kept (kept : Kept)
  deriving DecidableEq

/-- What is wanted of a whole text. -/
abbrev Want.whole : Want := .direct (.record .domain)

/-- What is read where something is wanted. -/
abbrev Want.Result : Want → Type
  | .direct shape => shape.Result
  | .kept field => field.Result

/-- Decodes a field of a reference: a value, and then what it says. -/
def Kept.decode (levels : Nat) (kept : Kept) (document : Document) :
    Except (List Segment) kept.Result :=
  document.value levels >>= fun value => (kept.interpret value).mapError fun _ => []

/-- Decodes what is wanted. -/
def Want.decode (levels : Nat) : (want : Want) → Document → Except (List Segment) want.Result
  | .direct shape => shape.decode levels
  | .kept field => field.decode levels

/-- The kinds that hold a reference among their own fields. -/
def Kind.holdsReference : Kind → Bool
  | .definition | .property => true
  | .domain | .command | .event => false

/-- What is wanted in a member of a record, if its key is known. -/
def Kind.member? (kind : Kind) (key : String) : Option Want :=
  match kind.fields.find? (·.key == key) with
  | some field => some (.direct field.shape)
  | none => if kind.holdsReference then (keptOf? key).map .kept else none

/-- What is wanted in a member of an object, if its key is known. -/
def Want.member? : Want → String → Option Want
  | .direct (.record kind), key => kind.member? key
  | .kept .items, key => (keptOf? key).map .kept
  | _, _ => none

/-- What is wanted in an element of a list, if there is one at its position. -/
def Want.element? : Want → Nat → Option Want
  | .direct (.records kind), _ => some (.direct (.record kind))
  | .direct (.record kind), index =>
    if kind.holdsReference then none else kind.fields[index]?.map (.direct ·.shape)
  | .kept .items, index => (keptAt? index).map .kept
  | _, _ => none

/-- What is wanted in the hole of a frame. -/
def Want.inner? (want : Want) : Frame → Option Want
  | .element before _ => want.element? before.length
  | .member _ key _ => want.member? key

/-- What is wanted at a place. -/
def Want.at? : Want → List Frame → Option Want
  | want, [] => some want
  | want, frame :: place => (want.inner? frame).bind (·.at? place)

/-! ## Records -/

section Kinds

variable {kind : Kind}

theorem Kind.others_eq_ignored (h : kind.holdsReference = false) : kind.form.others = .ignored := by
  cases kind <;> first | rfl | cases h

theorem Kind.exists_others_eq_kept (h : kind.holdsReference = true) :
    ∃ store : Reference → kind.Record → kind.Record,
      kind.form.others = .kept fun entries record =>
        referenceOfEntries entries {} >>= fun reference => .ok (store reference record) := by
  cases kind with
  | definition => exact ⟨fun reference definition => { definition with reference }, rfl⟩
  | property => exact ⟨fun reference property => { property with reference }, rfl⟩
  | _ => cases h

/-- The decoders of the fields of a kind. -/
def Kind.decoders (levels : Nat) (kind : Kind) : List (FieldDecoder kind.Record) :=
  kind.fields.map fun field => field.decoder (field.shape.decode levels)

theorem find?_decoders (levels : Nat) (key : String) :
    (kind.decoders levels).find? (·.key == key) =
      (kind.fields.find? (·.key == key)).map fun field =>
        field.decoder (field.shape.decode levels) :=
  List.find?_map

theorem find?_decoders_of_none {key : String} (h : kind.fields.find? (·.key == key) = none)
    (levels : Nat) : (kind.decoders levels).find? (·.key == key) = none := by
  rw [find?_decoders, h]
  rfl

theorem Kind.member?_eq_none_iff {key : String} :
    kind.member? key = none ↔ kind.fields.find? (·.key == key) = none ∧
      (kind.holdsReference = true → keptOf? key = none) := by
  rw [Kind.member?]
  cases kind.fields.find? (·.key == key) <;> cases kind.holdsReference <;> simp

theorem traces_decoder {ρ : Type} (field : Field ρ)
    (decode : Document → Except (List Segment) field.shape.Result) (record : ρ) :
    Traces [] decode ((field.decoder decode).decode record) :=
  (Traces.refl decode).map _

end Kinds

/-! ## Frames -/

section Frames

variable {frame : Frame} {shape : Shape}

/-- A part that is read straight from the text is a record of a list, or a field of a record by
its position or by its key. -/
theorem inner?_direct_cases {inner : Shape}
    (h : (Want.direct shape).inner? frame = some (.direct inner)) :
    (∃ kind before after, shape = .records kind ∧ inner = .record kind ∧
      frame = .element before after) ∨
    (∃ (kind : Kind) (field : Field kind.Record) (before after : List Document),
      shape = .record kind ∧ inner = field.shape ∧ frame = .element before after ∧
        kind.holdsReference = false ∧ kind.fields[before.length]? = some field) ∨
    (∃ (kind : Kind) (field : Field kind.Record) (before : List (Option String × Document))
      (key : String) (after : List (Option String × Document)),
      shape = .record kind ∧ inner = field.shape ∧ frame = .member before key after ∧
        kind.fields.find? (·.key == key) = some field) := by
  cases frame with
  | element before after =>
    cases shape with
    | text => cases h
    | flag => cases h
    | records kind =>
      cases h
      exact .inl ⟨kind, before, after, rfl, rfl, rfl⟩
    | record kind =>
      change (if kind.holdsReference then none else _) = _ at h
      split at h
      · cases h
      · rename_i hholds
        obtain ⟨field, hfield, hinner⟩ := Option.map_eq_some_iff.mp h
        cases hinner
        exact .inr (.inl ⟨kind, field, before, after, rfl, rfl, rfl,
          Bool.not_eq_true _ ▸ hholds, hfield⟩)
  | member before key after =>
    cases shape with
    | text => cases h
    | flag => cases h
    | records kind => cases h
    | record kind =>
      change kind.member? key = _ at h
      rw [Kind.member?] at h
      split at h
      · rename_i field hfield
        cases h
        exact .inr (.inr ⟨kind, field, before, key, after, rfl, rfl, rfl, hfield⟩)
      · split at h
        · obtain ⟨_, -, hkept⟩ := Option.map_eq_some_iff.mp h
          cases hkept
        · cases h

/-- The whole traces a part that is read straight from the text. -/
theorem traces_inner {inner : Shape} (h : (Want.direct shape).inner? frame = some (.direct inner))
    (levels : Nat) :
    Traces [frame.segment] (inner.decode levels) fun document =>
      shape.decode (levels + 1) (frame.fill document) := by
  obtain ⟨kind, before, after, rfl, rfl, rfl⟩ |
    ⟨kind, field, before, after, rfl, rfl, rfl, hholds, hfield⟩ |
    ⟨kind, field, before, key, after, rfl, rfl, rfl, hfield⟩ := inner?_direct_cases h
  · have hrecord : Traces [.index (0 + before.length)] ((Shape.record kind).decode levels) _ :=
      traces_decodeElements 0 before after
    rwa [Nat.zero_add] at hrecord
  · have hdecoder : (kind.decoders levels)[before.length]? =
        some (field.decoder (field.shape.decode levels)) := by
      rw [Kind.decoders, List.getElem?_map, hfield]
      rfl
    have hrecord := Form.traces_decodePositions (traces_decoder field (field.shape.decode levels))
      hdecoder 0 kind.form.absent after
    simp only [Frame.segment, Frame.fill, Shape.decode, Form.decode, kind.others_eq_ignored hholds]
    rwa [Nat.zero_add] at hrecord
  · have hdecoder : (kind.decoders levels).find? (·.key == key) =
        some (field.decoder (field.shape.decode levels)) := by
      rw [find?_decoders, hfield]
      rfl
    exact Form.traces_decode_field hdecoder (traces_decoder field (field.shape.decode levels))
      before after

/-- A part that is kept is a member of a record that holds a reference. -/
theorem exists_of_inner?_kept {field : Kept}
    (h : (Want.direct shape).inner? frame = some (.kept field)) :
    ∃ kind before key after, shape = .record kind ∧ frame = .member before key after ∧
      kind.holdsReference = true ∧ kind.fields.find? (·.key == key) = none ∧
        keptOf? key = some field := by
  cases frame with
  | element before after =>
    cases shape with
    | text => cases h
    | flag => cases h
    | records kind => cases h
    | record kind =>
      change (if kind.holdsReference then none else _) = _ at h
      split at h
      · cases h
      · obtain ⟨_, -, hdirect⟩ := Option.map_eq_some_iff.mp h
        cases hdirect
  | member before key after =>
    cases shape with
    | text => cases h
    | flag => cases h
    | records kind => cases h
    | record kind =>
      change kind.member? key = _ at h
      rw [Kind.member?] at h
      split at h
      · cases h
      · rename_i hfield
        split at h
        · rename_i hholds
          obtain ⟨_, hkept, hsame⟩ := Option.map_eq_some_iff.mp h
          cases hsame
          exact ⟨kind, before, key, after, rfl, rfl, hholds, hfield, hkept⟩
        · cases h

/-- A part that is kept is read as a value in the course of the whole. -/
theorem traces_value_inner {field : Kept}
    (h : (Want.direct shape).inner? frame = some (.kept field)) (levels : Nat) :
    Traces [frame.segment] (Document.value levels) fun document =>
      shape.decode (levels + 1) (frame.fill document) := by
  obtain ⟨kind, before, key, after, rfl, rfl, hholds, hfield, -⟩ := exists_of_inner?_kept h
  obtain ⟨store, hothers⟩ := kind.exists_others_eq_kept hholds
  have hdecoder := find?_decoders_of_none hfield levels
  change Traces [.key key] _ fun document => kind.form.decode (kind.decoders levels) _
    (.object (before ++ (some key, document) :: after))
  simp only [Form.decode_kept hdecoder hothers]
  exact .after (fun first => ((Traces.refl _).inside (.key key)).bind _) _

/-- The whole hinges on what a part says that is kept. -/
theorem hinges_kept_inner {field : Kept}
    (h : (Want.direct shape).inner? frame = some (.kept field)) (levels : Nat) :
    Hinges (field.decode levels) fun document =>
      shape.decode (levels + 1) (frame.fill document) := by
  obtain ⟨kind, before, key, after, rfl, rfl, hholds, hfield, hkept⟩ := exists_of_inner?_kept h
  obtain ⟨store, hothers⟩ := kind.exists_others_eq_kept hholds
  have hdecoder := find?_decoders_of_none hfield levels
  change Hinges _ fun document => kind.form.decode (kind.decoders levels) _
    (.object (before ++ (some key, document) :: after))
  simp only [Form.decode_kept hdecoder hothers]
  refine .after (fun first => Hinges.lift (.after (fun rest => ?_) _) _ _) _
  exact ((hinges_referenceOfEntries hkept first.kept.reverse rest.kept.reverse {}).bind
    fun reference => .ok (store reference rest.record)).mapError _

/-- Elements of a reference hinge on the fields directly inside them. -/
theorem hinges_items_inner {inner : Want} (h : (Want.kept .items).inner? frame = some inner)
    (levels : Nat) :
    Hinges (inner.decode levels) fun document =>
      Kept.items.decode (levels + 1) (frame.fill document) := by
  cases frame with
  | element before after =>
    obtain ⟨field, hfield, rfl⟩ := Option.map_eq_some_iff.mp h
    change Hinges _ fun document => (Document.list (before ++ document :: after)).value
      (levels + 1) >>= fun value => (optionalReference value).mapError fun _ => []
    simp only [value_list_bind]
    cases hfirst : decodeElements (Document.value levels) 0 before with
    | error fault => exact .of_error fun _ => rfl
    | ok first =>
      -- every element in front has a value, so the position among the values is the same
      rw [← length_of_decodeElements hfirst] at hfield ⊢
      refine Hinges.lift (.after (fun rest => ?_) _) _ _
      exact ((hinges_referenceOfItems hfield rest).map some).mapError _
  | member before key after =>
    obtain ⟨field, hfield, rfl⟩ := Option.map_eq_some_iff.mp h
    change Hinges _ fun document => (Document.object
      (before ++ (some key, document) :: after)).value (levels + 1) >>= fun value =>
        (optionalReference value).mapError fun _ => []
    simp only [value_object_bind]
    refine .after (fun first => Hinges.lift (.after (fun rest => ?_) _) _ _) _
    exact ((hinges_referenceOfEntries hfield first.reverse rest.reverse {}).map some).mapError _

/-- **The whole hinges on its parts.** -/
theorem hinges_inner {want inner : Want} (h : want.inner? frame = some inner) (levels : Nat) :
    Hinges (inner.decode levels) fun document =>
      want.decode (levels + 1) (frame.fill document) := by
  cases want with
  | direct shape =>
    cases inner with
    | direct inner => exact (traces_inner h levels).hinges
    | kept field => exact hinges_kept_inner h levels
  | kept field =>
    cases field with
    | tag => cases frame <;> cases h
    | items => exact hinges_items_inner h levels

/-- Nothing is decoded of a bracket that may not be opened. -/
theorem decode_zero_object (want : Want) (members : List (Option String × Document)) :
    want.decode 0 (.object members) = .error [] := by
  cases want with
  | direct shape => cases shape <;> rfl
  | kept field => rfl

theorem decode_zero_list (want : Want) (items : List Document) :
    want.decode 0 (.list items) = .error [] := by
  cases want with
  | direct shape => cases shape <;> rfl
  | kept field => rfl

/-- What is decoded at a place decides, together with the frames, what is decoded of the whole. -/
theorem hinges_at {want hole : Want} {place : List Frame} (h : want.at? place = some hole)
    (levels : Nat) :
    Hinges (hole.decode (levels - place.length)) fun document =>
      want.decode levels (fill place document) := by
  induction place generalizing want levels with
  | nil =>
    obtain rfl : want = hole := Option.some.inj h
    exact .refl _
  | cons frame place ih =>
    obtain ⟨inner, hinner, hat⟩ := Option.bind_eq_some_iff.mp h
    obtain _ | levels := levels
    · cases frame with
      | element => exact .of_error fun _ => decode_zero_list want _
      | member => exact .of_error fun _ => decode_zero_object want _
    · rw [List.length_cons, Nat.add_sub_add_right]
      exact (ih hat levels).trans ((hinges_inner hinner levels).comp (fill place))

end Frames

/-! ## Texts -/

section Texts

variable {place : List Frame} {want : Want} {document document' : Document} {text text' : String}

/-- A text loads as another one does that differs at one place, if what is wanted there is
decoded to the same. -/
theorem toOption_loadDomain_congr (hplace : Want.whole.at? place = some want)
    (htext : (fill place document).WrittenIn text) (htext' : (fill place document').WrittenIn text')
    (hdecode : (want.decode (deepest - place.length) document).toOption =
      (want.decode (deepest - place.length) document').toOption) :
    (loadDomain (textBytes text)).toOption = (loadDomain (textBytes text')).toOption := by
  rw [toOption_loadDomain htext, toOption_loadDomain htext']
  exact (hinges_at hplace deepest).toOption_congr hdecode

/-- A text does not load if something at one of its places is not what is wanted there. -/
theorem exists_error_of_place (hplace : Want.whole.at? place = some want)
    (htext : (fill place document).WrittenIn text)
    (hdecode : (want.decode (deepest - place.length) document).toOption = none) :
    ∃ error, loadDomain (textBytes text) = .error error := by
  rw [← toOption_eq_none_iff, toOption_loadDomain htext]
  exact (hinges_at hplace deepest).toOption_eq_none hdecode

/-- The place of a type that is all that a description has. -/
def onlyType : List Frame := [.member [] "types" [], .element [] []]

theorem at?_onlyType : Want.whole.at? onlyType = some (.direct (.record .definition)) := rfl

/-- A text that holds one type and nothing else. -/
theorem writtenIn_onlyType {document : Document} {inner : List Char}
    (h : document.WrittenAs inner) {text : String}
    (htext : text.toList = "\x7b\"types\":[".toList ++ (inner ++ "]\x7d".toList)) :
    (fill onlyType document).WrittenIn text := by
  have hwritten : (fill onlyType document).WrittenAs _ :=
    .object (.cons blank_nil (.mk (writesMarks_self (by decide)) blank_nil blank_nil
      (.list (.cons blank_nil h (.nil blank_nil)))) (.nil blank_nil))
  refine ⟨[], _, [], ?_, blank_nil, hwritten, blank_nil⟩
  rw [htext]
  simp

end Texts

end Ambient.Load
