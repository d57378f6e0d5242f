/-
What a description is read as.

The records of a description are of five kinds, and what their fields hold is of few shapes.
The forms of the loader are the kinds with their fields (`Kind.form_fields`), so that a text is
decoded by recursion over the levels of its document: `Shape.decode`. Loading a text gives what
is decoded of the document that it writes, and of an error the path (`loadDomain_of_writtenIn`).
-/
import Ambient.Load.Domain
import Ambient.Proofs.Json.Parts

set_option autoImplicit false

namespace Ambient.Load

open Ambient.Json Ambient.Schema
open Ambient.Layout.Sink (textBytes)

/-! ## Kinds and shapes -/

/-- The records of a description. -/
inductive Kind where
  | domain
  | definition
  | property
  | command
  | event
  deriving DecidableEq

/-- What is read straight from a text. -/
inductive Shape where
  | text
  | flag
  | record (kind : Kind)
  | records (kind : Kind)
  deriving DecidableEq

/-- The record of a kind. -/
abbrev Kind.Record : Kind → Type
  | .domain => Domain
  | .definition => Definition
  | .property => Property
  | .command => Command
  | .event => Event

/-- What is read of a shape. -/
abbrev Shape.Result : Shape → Type
  | .text => String
  | .flag => Bool
  | .record kind => kind.Record
  | .records kind => List kind.Record

/-- The form by which the record of a kind is read from an object or a list. -/
def Kind.form : (kind : Kind) → Form kind.Record
  | .domain => domainForm
  | .definition => definitionForm
  | .property => propertyForm
  | .command => commandForm
  | .event => eventForm

/-- The reader of a shape, given the levels left for brackets. A text and a flag have none. -/
def Shape.read : (shape : Shape) → Nat → Reader shape.Result
  | .text => fun _ => readText
  | .flag => fun _ => readFlag
  | .record kind => kind.form.read
  | .records kind => readList kind.form.read

/-- A field of a record. -/
structure Field (ρ : Type) where
  key : String
  shape : Shape
  store : shape.Result → ρ → ρ

/-- The fields of a kind, but for those of a reference. -/
def Kind.fields : (kind : Kind) → List (Field kind.Record)
  | .domain =>
    [⟨"domain", .text, fun name domain => { domain with name }⟩,
      ⟨"description", .text, fun description domain => { domain with description }⟩,
      ⟨"types", .records .definition, fun types domain => { domain with types }⟩,
      ⟨"commands", .records .command, fun commands domain => { domain with commands }⟩,
      ⟨"events", .records .event, fun events domain => { domain with events }⟩]
  | .definition =>
    [⟨"id", .text, fun id definition => { definition with id }⟩,
      ⟨"description", .text, fun description definition => { definition with description }⟩,
      ⟨"properties", .records .property,
        fun properties definition => { definition with properties }⟩]
  | .property =>
    [⟨"name", .text, fun name property => { property with name }⟩,
      ⟨"optional", .flag, fun optional property => { property with optional }⟩,
      ⟨"description", .text, fun description property => { property with description }⟩]
  | .command =>
    [⟨"name", .text, fun name command => { command with name }⟩,
      ⟨"description", .text, fun description command => { command with description }⟩,
      ⟨"parameters", .records .property, fun parameters command => { command with parameters }⟩,
      ⟨"returns", .records .property, fun returns command => { command with returns }⟩]
  | .event =>
    [⟨"name", .text, fun name event => { event with name }⟩,
      ⟨"description", .text, fun description event => { event with description }⟩,
      ⟨"parameters", .records .property, fun parameters event => { event with parameters }⟩]

/-- The reader of a field. -/
def Field.reader {ρ : Type} (field : Field ρ) : FieldReader ρ :=
  .of field.key field.shape.read field.store

/-- The decoder of a field, given that of its shape. -/
def Field.decoder {ρ : Type} (field : Field ρ)
    (decode : Document → Except (List Segment) field.shape.Result) : FieldDecoder ρ where
  key := field.key
  decode record document := (decode document).map (field.store · record)

theorem Kind.form_fields (kind : Kind) : kind.form.fields = kind.fields.map Field.reader := by
  cases kind <;> rfl

/-! ## Decoding -/

/-- Decodes what is of a shape. At most that many brackets are open at once. -/
def Shape.decode : Nat → (shape : Shape) → Document → Except (List Segment) shape.Result
  | _, .text => Document.text
  | _, .flag => Document.asFlag
  | 0, .record _ => fun _ => .error []
  | 0, .records _ => fun _ => .error []
  | levels + 1, .record kind =>
    kind.form.decode (kind.fields.map fun field => field.decoder (decode levels field.shape))
      (Document.value levels)
  | levels + 1, .records kind => Document.elements (decode levels (.record kind))

theorem decodedBy_field {ρ : Type} {field : Field ρ} {levels : Nat}
    {decode : Document → Except (List Segment) field.shape.Result}
    (h : Decodes (field.shape.read levels) decode) :
    field.reader.DecodedBy levels (field.decoder decode) where
  key := rfl
  decodes record := by
    intro document blank text rest hblank htext hrest
    change traced (field.shape.read levels _ >>= _) = _
    rw [traced_bind, h hblank htext hrest]
    change _ = ((decode document).map _).map _
    cases decode document <;> rfl

/-- What is of a shape is read as it is decoded. -/
theorem decodes_read (levels : Nat) (shape : Shape) :
    Decodes (shape.read levels) (shape.decode levels) := by
  induction levels generalizing shape with
  | zero =>
    cases shape with
    | text => exact decodes_readText
    | flag => exact decodes_readFlag
    | record kind => exact Form.decodes_form_zero kind.form
    | records kind => exact decodes_readList_zero kind.form.read
  | succ levels ih =>
    cases shape with
    | text => exact decodes_readText
    | flag => exact decodes_readFlag
    | record kind =>
      refine Form.decodes_form ?_ (decodes_readValue levels)
      rw [kind.form_fields, List.forall₂_map_left_iff, List.forall₂_map_right_iff,
        List.forall₂_same]
      exact fun field _ => decodedBy_field (ih field.shape)
    | records kind => exact decodes_readList (ih (.record kind))

/-- **Loading is decoding.** A text gives the domain that its document is decoded to, or else an
error with the path of the fault. -/
theorem mapError_loadDomain {document : Document} {text : String} (h : document.WrittenIn text) :
    (loadDomain (textBytes text)).mapError LoadError.path =
      ((Shape.record .domain).decode deepest document).mapError pathText := by
  obtain ⟨before, inner, after, htext, hbefore, hinner, hafter⟩ := h
  have hread := decodes_read deepest (.record .domain) hbefore hinner
    (ends_blank hafter ends_nil)
  have hbytes : textBytes text = encode (before ++ inner) ++ (encode after ++ []) := by
    rw [textBytes_eq_encode, htext, List.append_nil, ← encode_append, List.append_assoc]
  rw [loadDomain, load, hbytes]
  change traced (domainForm.read deepest _) = _ at hread
  cases hdecode : (Shape.record .domain).decode deepest document with
  | error path =>
    rw [hdecode] at hread
    obtain ⟨fault, hfault, rfl⟩ := traced_eq_error_iff.mp hread
    rw [hfault]
    rfl
  | ok source =>
    rw [hdecode] at hread
    rw [traced_eq_ok_iff.mp hread]
    rfl

section Loading

variable {document : Document} {text : String}

theorem toOption_loadDomain (h : document.WrittenIn text) :
    (loadDomain (textBytes text)).toOption =
      ((Shape.record .domain).decode deepest document).toOption := by
  have hload := congrArg Except.toOption (mapError_loadDomain h)
  rwa [toOption_mapError, toOption_mapError] at hload

/-- The error of a text has the path of the fault. -/
theorem exists_error_of_decode (h : document.WrittenIn text) {path : List Segment}
    (hdecode : (Shape.record .domain).decode deepest document = .error path) :
    ∃ error, loadDomain (textBytes text) = .error error ∧ error.path = pathText path := by
  have hload := mapError_loadDomain h
  rw [hdecode] at hload
  cases hresult : loadDomain (textBytes text) with
  | error error =>
    rw [hresult] at hload
    exact ⟨error, rfl, Except.error.inj hload⟩
  | ok source =>
    rw [hresult] at hload
    cases hload

end Loading

end Ambient.Load
