/-
Where the error is.

A number is not wanted anywhere in a description. Put in the place of anything else it is found
where it stands, and the error has its path. Only in a field of a reference it is read as a
value first, and what the reference says is known when its record has ended: the error is then
that of the record, unless the number cannot even be read.

The main statement is `loadDomain_number`. It goes by induction over the frames around the
number, up to the field of a reference that it is in.
-/
import Ambient.Proofs.Load.Faithful
import Ambient.Proofs.Load.Places

set_option autoImplicit false

namespace Ambient.Load

open Ambient.Json Ambient.Schema
open Ambient.Layout.Sink (textBytes)

/-! ## Numbers -/

/-- A number is refused where it stands. -/
theorem decode_number (shape : Shape) (levels : Nat) (literal : Literal) :
    shape.decode levels (.number literal) = .error [] := by
  cases levels <;> cases shape <;> rfl

/-- A number that has a value says nothing in a field of a reference. -/
theorem toOption_decode_number (want : Want) (levels : Nat) (literal : Literal) :
    (want.decode levels (.number literal)).toOption = none := by
  cases want with
  | direct shape =>
    change (shape.decode levels _).toOption = none
    rw [decode_number]
    rfl
  | kept field =>
    change (Kept.decode levels field _).toOption = none
    rw [Kept.decode, Document.value_number]
    cases literal.number? <;> cases field <;> rfl

theorem readable_number_iff (levels : Nat) (literal : Literal) :
    (Document.number literal).Readable levels ↔ literal.InRange := by
  cases levels <;> exact Iff.rfl

/-! ## Fields of a reference -/

/-- Whether the hole of a frame is a field of a reference. -/
def holdsKept : Frame → Bool
  | .element _ _ => false
  | .member _ key _ => (keptOf? key).isSome

/-- Where an error is known at a place: a field of a reference belongs to the record that holds
the reference. -/
def located (place : List Frame) : List Frame := place.takeWhile (!holdsKept ·)

section Fields

variable {frame : Frame} {shape : Shape} {levels : Nat} {document document' : Document}

theorem keptOf?_field (kind : Kind) : ∀ field ∈ kind.fields, keptOf? field.key = none := by
  cases kind <;> simp [Kind.fields, keptOf?, kindKey, targetKey, itemsKey]

theorem holdsKept_of_direct {inner : Shape}
    (h : (Want.direct shape).inner? frame = some (.direct inner)) : holdsKept frame = false := by
  obtain ⟨_, _, _, -, -, rfl⟩ | ⟨_, _, _, _, -, -, rfl, -, -⟩ |
    ⟨kind, field, before, key, after, -, -, rfl, hfield⟩ := inner?_direct_cases h
  · rfl
  · rfl
  · have hkey : field.key = key := by
      have hfound := List.find?_some hfield
      exact beq_iff_eq.mp hfound
    rw [holdsKept, ← hkey, keptOf?_field kind field (List.mem_of_find?_eq_some hfield)]
    rfl

theorem holdsKept_of_kept {field : Kept}
    (h : (Want.direct shape).inner? frame = some (.kept field)) : holdsKept frame = true := by
  obtain ⟨kind, before, key, after, -, rfl, -, -, hkept⟩ := exists_of_inner?_kept h
  exact Option.isSome_iff_exists.mpr ⟨field, hkept⟩

/-- A field of a reference that has a value, but says nothing, is a fault of the record. -/
theorem decode_kept_field {field : Kept} (h : (Want.direct shape).inner? frame = some (.kept field))
    {record : shape.Result} (hdecode : shape.decode (levels + 1) (frame.fill document) = .ok record)
    {value : Value} (hvalue : document'.value levels = .ok value)
    (hfield : (field.decode levels document').toOption = none) :
    shape.decode (levels + 1) (frame.fill document') = .error [] := by
  obtain ⟨kind, before, key, after, rfl, rfl, hholds, hmember, hkept⟩ := exists_of_inner?_kept h
  obtain ⟨store, hothers⟩ := kind.exists_others_eq_kept hholds
  have hdecoder := find?_decoders_of_none hmember levels
  change kind.form.decode (kind.decoders levels) (Document.value levels)
    (.object (before ++ (some key, document) :: after)) = _ at hdecode
  change kind.form.decode (kind.decoders levels) (Document.value levels)
    (.object (before ++ (some key, document') :: after)) = _
  rw [Form.decode_kept hdecoder hothers] at hdecode ⊢
  -- the other members are decoded as before, whatever the value of this one
  obtain ⟨first, hfirst, hdecode⟩ := bind_eq_ok_iff.mp hdecode
  obtain ⟨_, -, hdecode⟩ := bind_eq_ok_iff.mp hdecode
  obtain ⟨rest, hrest, -⟩ := bind_eq_ok_iff.mp hdecode
  have hinterpret : (field.interpret value).toOption = none := by
    rw [Kept.decode, hvalue] at hfield
    rwa [← toOption_mapError]
  have hreference := (hinges_referenceOfEntries hkept first.kept.reverse rest.kept.reverse
    {}).toOption_eq_none hinterpret
  obtain ⟨cause, hcause⟩ := toOption_eq_none_iff.mp hreference
  rw [hfirst, hvalue]
  change (decodeMembers _ _ after >>= _) = _
  rw [hrest]
  change ((referenceOfEntries _ {} >>= _).mapError _) = _
  rw [hcause]
  rfl

/-- A number in a field of a reference, as deep inside it as may be. -/
theorem decode_number_kept {field : Kept} {want : Want} {place : List Frame}
    (h : (Want.direct shape).inner? frame = some (.kept field))
    (hplace : (Want.kept field).at? place = some want) {record : shape.Result}
    (hdecode : shape.decode (levels + 1) (frame.fill (fill place document)) = .ok record)
    (literal : Literal) :
    shape.decode (levels + 1) (frame.fill (fill place (.number literal))) =
      .error (if literal.InRange then [] else frame.segment :: pathTo place) := by
  have htraces := (traces_value_fill levels place).trans
    ((traces_value_inner h levels).comp (fill place))
  split
  · -- the field has a value again, in which the number says nothing
    rename_i hrange
    have hvalue := (traces_value_inner h levels).comp (fill place)
    have hreadable : (fill place document).Readable levels :=
      readable_iff_exists.mpr (hvalue.exists_part hdecode)
    obtain ⟨value, hvalue⟩ := readable_iff_exists.mp (readable_fill hreadable
      ((readable_number_iff _ literal).mpr hrange))
    refine decode_kept_field h hdecode hvalue ?_
    exact (hinges_at hplace levels).toOption_eq_none (toOption_decode_number want _ literal)
  · -- the value of the field is at fault, and where the number is
    rename_i hrange
    have hnumber : (Document.number literal).value (levels - place.length) = .error [] := by
      rw [Document.value_number]
      cases hvalue : literal.number? with
      | error unread => rfl
      | ok number => exact (hrange (by rw [Literal.InRange, hvalue]; rfl)).elim
    have herror := htraces.eq_error hdecode hnumber
    rwa [List.append_nil] at herror

end Fields

/-- A number in the place of anything that is decoded. -/
theorem decode_number_fill {shape : Shape} {want : Want} {place : List Frame}
    (hplace : (Want.direct shape).at? place = some want) {levels : Nat} {hole : Document}
    {record : shape.Result} (hdecode : shape.decode levels (fill place hole) = .ok record)
    (literal : Literal) :
    shape.decode levels (fill place (.number literal)) =
      .error (pathTo (if literal.InRange then located place else place)) := by
  induction place generalizing shape levels with
  | nil =>
    refine (decode_number shape levels literal).trans ?_
    split <;> rfl
  | cons frame place ih =>
    obtain ⟨inner, hinner, hat⟩ := Option.bind_eq_some_iff.mp hplace
    obtain _ | levels := levels
    · cases frame with
      | element => cases (decode_zero_list (.direct shape) _).symm.trans hdecode
      | member => cases (decode_zero_object (.direct shape) _).symm.trans hdecode
    cases inner with
    | direct inner =>
      have htraces := (traces_inner hinner levels).comp (fill place)
      obtain ⟨part, hpart⟩ := htraces.exists_part hdecode
      have hlocated : located (frame :: place) = frame :: located place := by
        rw [located, List.takeWhile_cons, holdsKept_of_direct hinner]
        rfl
      refine (htraces.eq_error hdecode (ih hat hpart)).trans ?_
      rw [hlocated]
      split <;> rfl
    | kept field =>
      -- from here on inwards nothing is located any more
      have hlocated : located (frame :: place) = [] := by
        rw [located, List.takeWhile_cons, holdsKept_of_kept hinner]
        rfl
      refine (decode_number_kept hinner hat hdecode literal).trans ?_
      rw [hlocated]
      split <;> rfl

/-- What a written domain writes is decoded to it. -/
theorem decode_of_written {source : Domain} {document : Document} {text : String}
    (hsource : source.Written 127 text) (htext : document.WrittenIn text) :
    (Shape.record .domain).decode deepest document = .ok source := by
  rw [← toOption_eq_some_iff, ← toOption_loadDomain htext, toOption_eq_some_iff]
  obtain ⟨value, hspelled, hdepth, hwritten⟩ := hsource
  rw [textBytes_eq_encode]
  generalize text.toList = chars at hwritten
  obtain ⟨hbefore, hvalue, hafter⟩ := hwritten
  rename_i before inner after
  have hread := yields_domainForm hspelled hdepth hbefore hvalue (encode after)
  rw [← encode_append, List.append_assoc] at hread
  rw [loadDomain, load, deepest, hread]

/-- **Where the error is.** In a text that writes a domain one value is replaced by a number. The
text does not load, and the error has the path of the number, or else of the record whose
reference it is in. -/
theorem loadDomain_number {source : Domain} {place : List Frame} {want : Want} {hole : Document}
    {literal : Literal} {written text : String} (hsource : source.Written 127 written)
    (hwritten : (fill place hole).WrittenIn written) (hplace : Want.whole.at? place = some want)
    (htext : (fill place (.number literal)).WrittenIn text) :
    ∃ error, loadDomain (textBytes text) = .error error ∧
      error.path = pathText (pathTo (if literal.InRange then located place else place)) :=
  exists_error_of_decode htext
    (decode_number_fill hplace (decode_of_written hsource hwritten) literal)

/-! ## A tag -/

/-- The place of the kind of a type that is all there is. -/
def onlyTag : List Frame := onlyType ++ [.member [] "type" []]

theorem writtenIn_onlyTag {document : Document} {inner : List Char} (h : document.WrittenAs inner)
    {text : String}
    (htext : text.toList = "\x7b\"types\":[\x7b\"type\":".toList ++ (inner ++ "\x7d]\x7d".toList)) :
    (fill onlyTag document).WrittenIn text := by
  have hmember : WritesMember Document.WrittenAs (some "type", document) _ :=
    .mk (writesMarks_self (by decide)) blank_nil blank_nil h
  have hobject : (Document.object [(some "type", document)]).WrittenAs _ :=
    .object (.cons blank_nil hmember (.nil blank_nil))
  refine writtenIn_onlyType hobject ?_
  rw [htext]
  simp

/-- A type whose kind is a string. -/
def taggedSource : Domain := { types := [{ reference := .bare (some "string") none }] }

/-- The text of such a description. -/
def taggedText : String := "\x7b\"types\":[\x7b\"type\":\"string\"\x7d]\x7d"

theorem taggedText_written : (fill onlyTag (.string (some "string"))).WrittenIn taggedText :=
  writtenIn_onlyTag (.string (writesMarks_self (by decide))) (by simp [taggedText])

theorem taggedSource_written : taggedSource.Written 127 taggedText := by
  let declared : Value := .object [("type", .string "string")]
  refine ⟨.object [("types", .list [declared])], ?_, ?_, ?_⟩
  · have hdeclared :
        Spelled (Definition.slots { reference := .bare (some "string") none }) declared :=
      ⟨_, rfl, by decide, by simp [Definition.slots, Reference.slots, textSlot, optionSlot],
        by simp [Definition.slots, Reference.slots, textSlot, listSlot, optionSlot]⟩
    exact ⟨_, rfl, by decide, by simp [taggedSource, Domain.slots, textSlot, listSlot, hdeclared],
      by simp [taggedSource, Domain.slots, textSlot, listSlot]⟩
  · simp [Value.Within, declared]
  · have hdeclared : Writes declared _ :=
      .object (.cons blank_nil (.mk (writesString_self (by decide)) blank_nil blank_nil
        (.string (writesString_self (by decide)))) (.nil blank_nil))
    exact .mk blank_nil (.object (.cons blank_nil (.mk (writesString_self (by decide)) blank_nil
      blank_nil (.list (.cons blank_nil hdeclared (.nil blank_nil)))) (.nil blank_nil))) blank_nil

theorem loadDomain_number_tag :
    ∃ error, loadDomain (textBytes "\x7b\"types\":[\x7b\"type\":3\x7d]\x7d") = .error error ∧
      error.path = "types[0]" := by
  have hthree : WritesNumber ⟨false, [3], [], none⟩ ['3'] :=
    writesNumber_whole (.digits (by decide) (.cons (by simp [decimalDigits]) .nil))
  exact loadDomain_number taggedSource_written taggedText_written
    (show Want.whole.at? onlyTag = some (.kept .tag) from rfl)
    (writtenIn_onlyTag (.number hthree) (by simp))

/-- An integer with so many digits that it is no finite double. -/
def longLiteral : Literal := ⟨false, 1 :: List.replicate 309 0, [], none⟩

/-- Its digits, which are all that is written of it. -/
def longDigits : List Char := '1' :: List.replicate 309 '0'

theorem longLiteral_written : WritesNumber longLiteral longDigits := by
  have hzeros (n : Nat) : WritesDigits (List.replicate n 0) (List.replicate n '0') := by
    induction n with
    | zero => exact .nil
    | succ n ih => exact .cons (by simp [decimalDigits]) ih
  exact writesNumber_whole
    (.digits Nat.one_ne_zero (.cons (by simp [decimalDigits]) (hzeros 309)))

theorem longLiteral_not_inRange : ¬ longLiteral.InRange := by decide +kernel

/-- The record that holds the reference is not always where the error is. -/
theorem tags_not_all_in_record :
    ¬ ∀ (source : Domain) (place : List Frame) (want : Want) (hole : Document) (literal : Literal)
      (written text : String), source.Written 127 written → (fill place hole).WrittenIn written →
      Want.whole.at? place = some want → literal.isWhole = true →
      (fill place (.number literal)).WrittenIn text →
      ∃ error, loadDomain (textBytes text) = .error error ∧
        error.path = pathText (pathTo (located place)) := by
  intro hlocated
  have hwritten := writtenIn_onlyTag (.number longLiteral_written) String.toList_ofList
  obtain ⟨error, herror, hpath⟩ := hlocated _ onlyTag (.kept .tag) _ longLiteral _ _
    taggedSource_written taggedText_written rfl rfl hwritten
  obtain ⟨other, hother, hpath'⟩ := exists_error_of_decode hwritten
    (decode_number_fill (show Want.whole.at? onlyTag = some (.kept .tag) from rfl)
      (decode_of_written taggedSource_written taggedText_written) longLiteral)
  rw [herror] at hother
  cases hother
  rw [hpath, if_neg longLiteral_not_inRange] at hpath'
  revert hpath'
  decide

end Ambient.Load
