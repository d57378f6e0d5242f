/-
What records are read as.

Readers of strings, flags and lists refuse every document of another kind, and they do so at
the document itself. A record is decoded member by member, as its form says: `Form.decode` is
given a decoder for every field, and one for the values that the form keeps aside. It is what
the form reads (`decodes_form`), if the decoders are what the fields read.
-/
import Ambient.Json.Record
import Ambient.Proofs.Json.Values

set_option autoImplicit false

namespace Ambient.Json

variable {α ρ : Type}

/-! ## Strings, flags and lists -/

/-- Nothing but a string is decoded. -/
def Document.text : Document → Except (List Segment) String
  | .string text? => present text?
  | _ => .error []

/-- Nothing but a flag is decoded. -/
def Document.asFlag : Document → Except (List Segment) Bool
  | .flag value => .ok value
  | _ => .error []

/-- Nothing but a list is decoded, given the decoder of its elements. -/
def Document.elements (decode : Document → Except (List Segment) α) :
    Document → Except (List Segment) (List α)
  | .list items => decodeElements decode 0 items
  | _ => .error []

/-- A document of another kind than the wanted one is refused where it stands. -/
theorem traced_refuse (wanted : String) {document : Document} {text : List Char}
    {rest : List UInt8} (htext : document.WrittenAs text) (hrest : Ends rest) :
    traced (refuse wanted (encode text ++ rest) : Except Fault α) = .error [] := by
  -- to say what was found instead it is read, and that may be a fault of its own
  have hfound : traced (readFound (encode text ++ rest)) = .error [] ∨
      ∃ result, readFound (encode text ++ rest) = .ok result := by
    cases htext with
    | null => exact .inr ⟨_, rfl⟩
    | yes => exact .inr ⟨_, rfl⟩
    | no => exact .inr ⟨_, rfl⟩
    | @number literal text hnumber =>
      obtain ⟨b, bytes, hbytes, hlead, hread⟩ := traced_readNumber hnumber hrest
      rw [hbytes, List.cons_append, readFound, hlead]
      dsimp only
      cases hnumber : literal.number? with
      | error unread =>
        rw [hnumber] at hread
        rw [traced_bind, hread]
        exact .inl rfl
      | ok number =>
        rw [hnumber] at hread
        rw [traced_eq_ok_iff.mp hread]
        exact .inr ⟨_, rfl⟩
    | @string text? text hstring =>
      obtain ⟨bytes, hbytes, hread⟩ := traced_readString hstring
      rw [hbytes]
      obtain _ | string := text?
      · refine .inl ?_
        change traced (readString (bytes ++ rest) >>= _) = _
        rw [traced_bind, hread]
        rfl
      · refine .inr ⟨(.string string, rest), ?_⟩
        change readString (bytes ++ rest) >>= _ = _
        rw [traced_eq_ok_iff.mp (hread rest)]
        rfl
    | list => exact .inr ⟨_, rfl⟩
    | object => exact .inr ⟨_, rfl⟩
  rw [refuse]
  obtain hfault | ⟨result, hresult⟩ := hfound
  · rw [traced_bind, hfault]
    rfl
  · rw [hresult]
    rfl

/-- A reader that wants one kind of document decodes it, if it refuses the others. -/
theorem decodes_of_lead {read : Reader α} {branch : UInt8 → Reader α}
    {decode : Document → Except (List Segment) α} (wanted : String)
    (hread : ∀ text, read text =
      match skipSpace text with
      | [] => .error (.next .endOfValue [])
      | b :: tail => branch b tail)
    (hdecode : ∀ {document text b bytes rest}, document.WrittenAs text → Ends rest →
      encode text = b :: bytes → Lead.of b = document.lead →
      traced (branch b (bytes ++ rest)) = (decode document).map (·, rest) ∨
        branch b (bytes ++ rest) = refuse wanted (encode text ++ rest) ∧
          decode document = .error []) :
    Decodes read decode := by
  intro document blank text rest hblank htext hrest
  obtain ⟨b, bytes, hbytes, hlead⟩ := htext.exists_lead
  have hbranch := read_of_branch hread hblank (hlead ▸ document.lead_ne_other) (bytes ++ rest)
  rw [encode_append, List.append_assoc, hbytes, List.cons_append, hbranch]
  obtain hwanted | ⟨hother, hrefused⟩ := hdecode htext hrest hbytes hlead
  · exact hwanted
  · rw [hother, hrefused]
    exact traced_refuse wanted htext hrest

theorem decodes_readText : Decodes readText Document.text := by
  refine decodes_of_lead wantedString readText.eq_def ?_
  intro document text b bytes rest htext hrest hbytes hlead
  cases htext with
  | string hstring =>
    obtain ⟨bytes', hbytes', hread⟩ := traced_readString hstring
    obtain ⟨rfl, rfl⟩ := List.cons.inj (hbytes.symm.trans hbytes')
    exact .inl (hread rest)
  | _ => exact .inr ⟨by rw [hbytes]; simp only [hlead]; rfl, rfl⟩

theorem decodes_readFlag : Decodes readFlag Document.asFlag := by
  refine decodes_of_lead "a boolean" readFlag.eq_def ?_
  intro document text b bytes rest htext hrest hbytes hlead
  cases htext with
  | yes =>
    obtain ⟨rfl, rfl⟩ := List.cons.inj hbytes
    exact .inl rfl
  | no =>
    obtain ⟨rfl, rfl⟩ := List.cons.inj hbytes
    exact .inl rfl
  | _ => exact .inr ⟨by rw [hbytes]; simp only [hlead]; rfl, rfl⟩

theorem decodes_readList {read : Nat → Reader α} {levels : Nat}
    {decode : Document → Except (List Segment) α} (hread : Decodes (read levels) decode) :
    Decodes (readList read (levels + 1)) (Document.elements decode) := by
  refine decodes_of_lead "a sequence" (readList.eq_def read (levels + 1)) ?_
  intro document text b bytes rest htext hrest hbytes hlead
  cases htext with
  | @list items inner hitems =>
    obtain ⟨rfl, rfl⟩ := List.cons.inj hbytes
    exact .inl (traced_readElements_closeList hread hitems id rest)
  | _ => exact .inr ⟨by rw [hbytes]; simp only [hlead]; rfl, rfl⟩

theorem decodes_readList_zero (read : Nat → Reader α) :
    Decodes (readList read 0) fun _ => .error [] := by
  refine decodes_of_lead "a sequence" (readList.eq_def read 0) ?_
  intro document text b bytes rest htext hrest hbytes hlead
  cases htext with
  | list =>
    obtain ⟨rfl, rfl⟩ := List.cons.inj hbytes
    exact .inl rfl
  | _ => exact .inr ⟨by rw [hbytes]; simp only [hlead]; rfl, rfl⟩

/-! ## Records -/

/-- What is passed over is a document, whatever it is. -/
theorem decodes_skipValue : Decodes skipValue fun _ => .ok () := by
  intro document blank text rest hblank htext hrest
  rw [skipValue_of_writtenAs hblank htext hrest]
  rfl

/-- Decodes the value of a field into a record. -/
structure FieldDecoder (ρ : Type) where
  key : String
  decode : ρ → Document → Except (List Segment) ρ

/-- A field reads what its decoder says, given the levels left for brackets. -/
structure FieldReader.DecodedBy (field : FieldReader ρ) (levels : Nat)
    (decoder : FieldDecoder ρ) : Prop where
  key : field.key = decoder.key
  decodes : ∀ record, Decodes (field.read levels record) (decoder.decode record)

namespace Form

/-- What a member does to a draft: a field is stored unless it has occurred before, and of
other members the form says whether they are passed over or kept. -/
def accept (form : Form ρ) (fields : List (FieldDecoder ρ))
    (value : Document → Except (List Segment) Value) (key : String) (draft : Draft ρ)
    (document : Document) : Except (List Segment) (Draft ρ) :=
  match fields.find? (·.key == key) with
  | some field =>
    if key ∈ draft.seen then .error []
    else (inside (.key key) (field.decode draft.record document)).map fun record =>
      { draft with record, seen := key :: draft.seen }
  | none =>
    match form.others with
    | .ignored => .ok draft
    | .kept _ => (keep value key draft.kept document).map fun kept => { draft with kept }

/-- The record of a draft, or a fault of the object as a whole. -/
def settled (form : Form ρ) (draft : Draft ρ) : Except (List Segment) ρ :=
  (form.settle draft).mapError fun _ => []

/-- Decodes a list of fields in order, the first of them at position `index`. Trailing ones
may be absent, but nothing may follow them. -/
def decodePositions : List (FieldDecoder ρ) → Nat → ρ → List Document →
    Except (List Segment) ρ
  | _, _, record, [] => .ok record
  | [], _, _, _ :: _ => .error []
  | field :: fields, index, record, item :: items => do
    decodePositions fields (index + 1) (← inside (.index index) (field.decode record item)) items

/-- Decodes a record. -/
def decode (form : Form ρ) (fields : List (FieldDecoder ρ))
    (value : Document → Except (List Segment) Value) : Document → Except (List Segment) ρ
  | .object members =>
    decodeMembers (form.accept fields value) { record := form.absent } members >>= form.settled
  | .list items =>
    match form.others with
    | .ignored => decodePositions fields 0 form.absent items
    | .kept _ => .error []
  | _ => .error []

section Records

variable {form : Form ρ} {levels : Nat} {fields : List (FieldReader ρ)}
  {decoders : List (FieldDecoder ρ)} {value : Document → Except (List Segment) Value}

/-- The field of a key and its decoder are found together. -/
theorem find?_of_decodedBy (h : List.Forall₂ (FieldReader.DecodedBy · levels ·) fields decoders)
    (key : String) :
    (fields.find? (·.key == key) = none ∧ decoders.find? (·.key == key) = none) ∨
      ∃ field decoder, fields.find? (·.key == key) = some field ∧
        decoders.find? (·.key == key) = some decoder ∧ field.key = key ∧
          field.DecodedBy levels decoder := by
  induction h with
  | nil => exact .inl ⟨rfl, rfl⟩
  | @cons field decoder fields decoders hfield _ ih =>
    by_cases hkey : field.key = key
    · refine .inr ⟨field, decoder, ?_, ?_, hkey, hfield⟩
      · exact List.find?_cons_of_pos (beq_iff_eq.mpr hkey)
      · exact List.find?_cons_of_pos (beq_iff_eq.mpr (hfield.key ▸ hkey))
    · rw [List.find?_cons_of_neg (by rwa [beq_iff_eq]),
        List.find?_cons_of_neg (by rwa [beq_iff_eq, ← hfield.key])]
      exact ih

/-- What a member does to the keys of a draft: that of a field is new and is seen from then on,
and of the others the form may keep the member. -/
theorem accept_cases {key : String} {draft draft' : Draft ρ} {document : Document}
    (h : form.accept decoders value key draft document = .ok draft') :
    ((decoders.find? (·.key == key)).isSome = true ∧ key ∉ draft.seen ∧
      draft'.seen = key :: draft.seen ∧ draft'.kept = draft.kept) ∨
    (decoders.find? (·.key == key) = none ∧ draft'.seen = draft.seen ∧
      ((∃ settle, form.others = .kept settle) →
        ∃ kept, draft'.kept = (key, kept) :: draft.kept)) := by
  unfold accept at h
  cases hfield : decoders.find? (·.key == key) with
  | some field =>
    rw [hfield] at h
    dsimp only at h
    split at h
    · cases h
    · rename_i hnew
      cases hrecord : inside (.key key) (field.decode draft.record document) with
      | error fault =>
        rw [hrecord] at h
        cases h
      | ok record =>
        rw [hrecord] at h
        cases h
        exact .inl ⟨rfl, hnew, rfl, rfl⟩
  | none =>
    rw [hfield] at h
    dsimp only at h
    split at h
    · rename_i hothers
      cases h
      refine .inr ⟨rfl, rfl, fun ⟨settle, hkept⟩ => ?_⟩
      rw [hothers] at hkept
      cases hkept
    · cases hkept : inside (.key key) (value document) with
      | error fault =>
        rw [keep, hkept] at h
        cases h
      | ok kept =>
        rw [keep, hkept] at h
        cases h
        exact .inr ⟨rfl, rfl, fun _ => ⟨kept, rfl⟩⟩

theorem accepts_enter
    (hfields : List.Forall₂ (FieldReader.DecodedBy · levels ·) form.fields decoders)
    (hvalue : Decodes (readValue levels) value) :
    Accepts (form.enter levels) (form.accept decoders value) := by
  intro key draft document before after text rest hbefore hafter htext hrest
  rw [enter, accept, field?]
  obtain ⟨hfield, hdecoder⟩ | ⟨field, decoder, hfield, hdecoder, rfl, hdecodes⟩ :=
    find?_of_decodedBy hfields key
  · rw [hfield, hdecoder]
    dsimp only
    rw [halted_fault, enterOther]
    cases form.others with
    | ignored =>
      have hentry := decodes_skipValue.readEntry key hbefore hafter htext hrest
      change traced (readEntry skipValue key _ >>= _) = _
      rw [traced_bind, hentry]
      rfl
    | kept settle =>
      have hentry := hvalue.readEntry key hbefore hafter htext hrest
      change traced (readEntry (readValue levels) key _ >>= _) = _
      rw [traced_bind, hentry]
      dsimp only [keep]
      cases inside (.key key) (value document) <;> rfl
  · rw [hfield, hdecoder]
    dsimp only
    split
    · rfl
    · rw [halted_fault, enterField]
      have hentry := (hdecodes.decodes draft.record).readEntry field.key hbefore hafter htext hrest
      change traced (readEntry _ field.key _ >>= _) = _
      rw [traced_bind, hentry]
      cases inside (.key field.key) (decoder.decode draft.record document) <;> rfl

/-- Reads the fields of a record that is written as a list, and the closing bracket. -/
def readFields (levels : Nat) (fields : List (FieldReader ρ)) (index : Nat) (record : ρ) :
    Reader ρ := fun text => do
  let (record, rest) ← readPositions levels fields index record text
  return (record, ← closeList rest)

theorem readFields_blank {blank : List Char} (hblank : Blank blank) (index : Nat) (record : ρ)
    (rest : List UInt8) :
    readFields levels fields index record (encode blank ++ Byte.listClose :: rest) =
      .ok (record, rest) := by
  have hread : readPositions levels fields index record (encode blank ++ Byte.listClose :: rest) =
      .ok (record, encode blank ++ Byte.listClose :: rest) := by
    cases fields with
    | nil => rfl
    | cons field fields => rw [readPositions, nextElement?_blank hblank]
  rw [readFields, hread]
  refine bind_eq_ok_iff.mpr ⟨_, rfl, ?_⟩
  exact bind_eq_ok_iff.mpr ⟨_, closeList_blank hblank rest, rfl⟩

/-- More than the fields is refused, whatever it is. -/
theorem traced_readFields_nil {bytes tail : List UInt8} {b : UInt8}
    (hbytes : skipSpace bytes = b :: tail) (hclose : b ≠ Byte.listClose) (index : Nat)
    (record : ρ) : traced (readFields levels [] index record bytes) = .error [] := by
  have hmore : traced (closeList bytes) = .error [] := by
    rw [closeList, hbytes]
    simp only [if_neg hclose]
    split
    · split
      · rfl
      · split <;> rfl
    · rfl
  obtain ⟨fault, hfault, hpath⟩ := traced_eq_error_iff.mp hmore
  change traced (closeList bytes >>= _) = _
  rw [hfault, ← hpath]
  rfl

/-- One field that is read by its position. -/
theorem traced_readFields_cons {field : FieldReader ρ} {decoder : FieldDecoder ρ} {index : Nat}
    {item : Document} {items : List Document} {bytes element left rest : List UInt8} {record : ρ}
    (hnext : nextElement? (index == 0) bytes = .ok (some element))
    (hitem : traced (field.read levels record element) =
      (decoder.decode record item).map (·, left))
    (hitems : ∀ record, traced (readFields levels fields (index + 1) record left) =
      (decodePositions decoders (index + 1) record items).map (·, rest)) :
    traced (readFields levels (field :: fields) index record bytes) =
      (decodePositions (decoder :: decoders) index record (item :: items)).map (·, rest) := by
  rw [readFields, readPositions, hnext, decodePositions]
  dsimp only
  cases hrecord : decoder.decode record item with
  | error path =>
    rw [hrecord] at hitem
    obtain ⟨fault, hfault, rfl⟩ := traced_eq_error_iff.mp hitem
    rw [hfault]
    rfl
  | ok record =>
    rw [hrecord] at hitem
    rw [traced_eq_ok_iff.mp hitem]
    exact hitems record

theorem traced_readFields_further {index : Nat} (hindex : index ≠ 0)
    (hfields : List.Forall₂ (FieldReader.DecodedBy · levels ·) fields decoders)
    {items : List Document} {text : List Char} (h : Further Document.WrittenAs items text)
    (record : ρ) (rest : List UInt8) :
    traced (readFields levels fields index record (encode text ++ Byte.listClose :: rest)) =
      (decodePositions decoders index record items).map (·, rest) := by
  induction hfields generalizing index items text record with
  | nil =>
    cases h with
    | nil hblank => rw [readFields_blank hblank]; rfl
    | @cons item items before after text more hbefore hafter hitem hmore =>
      have hcomma : String.utf8EncodeChar ',' = [Byte.comma] := rfl
      rw [encode_append, encode_cons, hcomma, List.append_assoc]
      exact traced_readFields_nil (skipSpace_blank_cons (b := Byte.comma) hbefore rfl _) (by decide)
        index record
  | @cons field decoder fields decoders hfield _ ih =>
    cases h with
    | nil hblank => rw [readFields_blank hblank]; rfl
    | @cons item items before after text more hbefore hafter hitem hmore =>
      obtain ⟨b, bytes, hbytes, hlead⟩ := hitem.exists_lead_append more
      have hends : Ends (encode more ++ Byte.listClose :: rest) :=
        ends_further hmore (ends_close .list rest)
      refine traced_readFields_cons ?_ ((hfield.decodes record).read_append hitem hends)
        fun record => ih (Nat.succ_ne_zero index) hmore record
      rw [beq_false_of_ne hindex, nextElement?_comma hbefore hafter hbytes hlead]

theorem traced_readFields_inside
    (hfields : List.Forall₂ (FieldReader.DecodedBy · levels ·) fields decoders)
    {items : List Document} {text : List Char} (h : Inside Document.WrittenAs items text)
    (record : ρ) (rest : List UInt8) :
    traced (readFields levels fields 0 record (encode text ++ Byte.listClose :: rest)) =
      (decodePositions decoders 0 record items).map (·, rest) := by
  cases h with
  | nil hblank =>
    rw [readFields_blank hblank]
    cases decoders <;> rfl
  | @cons item items before text more hbefore hitem hmore =>
    obtain ⟨b, bytes, hbytes, hlead⟩ := hitem.exists_lead_append more
    cases hfields with
    | nil =>
      obtain ⟨hspace, hclose⟩ := isSpace_eq_false_of_lead hlead
      rw [encode_append, hbytes, List.append_assoc, List.cons_append]
      exact traced_readFields_nil (skipSpace_blank_cons hbefore hspace _) hclose 0 record
    | @cons field decoder fields decoders hfield hfields =>
      have hends : Ends (encode more ++ Byte.listClose :: rest) :=
        ends_further hmore (ends_close .list rest)
      refine traced_readFields_cons ?_ ((hfield.decodes record).read_append hitem hends)
        fun record => traced_readFields_further (Nat.succ_ne_zero 0) hfields hmore record rest
      rw [beq_self_eq_true, nextElement?_first hbefore hbytes hlead]

/-- The body of an object is a record once its members have been read. -/
theorem halted_readBody {members : List (Option String × Document)} {bytes left : List UInt8}
    (hread : halted (readEntries (form.enter levels) (roundsFor bytes) true
      { record := form.absent } bytes) =
        (decodeMembers (form.accept decoders value) { record := form.absent } members).map
          (·, left)) :
    halted (form.readBody levels bytes) = (form.decode decoders value (.object members)).map
      (·, left) := by
  rw [readBody, decode]
  cases hdraft : decodeMembers (form.accept decoders value) { record := form.absent } members with
  | error path =>
    rw [hdraft] at hread
    obtain ⟨stop, hstop, rfl⟩ := halted_eq_error_iff.mp hread
    rw [hstop]
    rfl
  | ok draft =>
    rw [hdraft] at hread
    rw [halted_eq_ok_iff.mp hread, ok_bind, ok_bind, settled]
    dsimp only
    cases form.settle draft <;> rfl

/-- **Records.** A form decodes every document if its fields do. -/
theorem decodes_form
    (hfields : List.Forall₂ (FieldReader.DecodedBy · levels ·) form.fields decoders)
    (hvalue : Decodes (readValue levels) value) :
    Decodes (form.read (levels + 1)) (form.decode decoders value) := by
  refine decodes_of_lead form.wanted (Form.read.eq_def form (levels + 1)) ?_
  intro document text b bytes rest htext hrest hbytes hlead
  cases htext with
  | @object members inner hmembers =>
    obtain ⟨rfl, rfl⟩ := List.cons.inj hbytes
    obtain ⟨left, hread, hclose⟩ := halted_readEntries_roundsFor
      (accepts_enter hfields hvalue) hmembers { record := form.absent } rest
    exact .inl (traced_readObject (halted_readBody hread) hclose)
  | @list items inner hitems =>
    obtain ⟨rfl, rfl⟩ := List.cons.inj hbytes
    -- a list of fields has no place for other members, so a form that keeps them refuses it
    cases hothers : form.others with
    | ignored =>
      refine .inl ?_
      have hread := traced_readFields_inside hfields hitems form.absent rest
      rw [← encode_append_listClose] at hread
      rw [decode, hothers]
      simp only [hlead]
      exact hread
    | kept settle =>
      refine .inr ⟨?_, ?_⟩
      · rw [hbytes, hlead]
        rfl
      · rw [decode, hothers]
  | _ => exact .inr ⟨by rw [hbytes]; simp only [hlead]; rfl, rfl⟩

/-- No form decodes anything where no bracket may be opened. -/
theorem decodes_form_zero (form : Form ρ) : Decodes (form.read 0) fun _ => .error [] := by
  refine decodes_of_lead form.wanted (Form.read.eq_def form 0) ?_
  intro document text b bytes rest htext hrest hbytes hlead
  cases htext with
  | object =>
    obtain ⟨rfl, rfl⟩ := List.cons.inj hbytes
    exact .inl rfl
  | list =>
    obtain ⟨rfl, rfl⟩ := List.cons.inj hbytes
    cases form.others with
    | ignored => exact .inl rfl
    | kept settle => exact .inr ⟨rfl, rfl⟩
  | _ => exact .inr ⟨by rw [hbytes]; simp only [hlead]; rfl, rfl⟩

end Records

end Form

end Ambient.Json
