/-
Reading a text is decoding a document.

What a reader makes of a text depends on the document that the text writes, and on nothing
else: neither white space nor the choice of escapes matters, nor what follows the text. Such a
reader is a function of documents (`Decodes`), and this holds of its failures too, as far as
the path of the fault goes. The functions are built along the tree: elements one after the
other (`decodeElements`), members one after the other (`decodeMembers`), a segment of the path
being put in front wherever a value lies inside another.
-/
import Ambient.Proofs.Json.Passing

set_option autoImplicit false

namespace Ambient.Json

variable {α β σ : Type}

/-! ## Functions of documents -/

/-- A reader gives what a function of documents gives, whatever the text of the document. -/
def Decodes (read : Reader α) (decode : Document → Except (List Segment) α) : Prop :=
  ∀ ⦃document blank text rest⦄, Blank blank → document.WrittenAs text → Ends rest →
    traced (read (encode (blank ++ text) ++ rest)) = (decode document).map (·, rest)

/-- A result inside another value. -/
def inside (segment : Segment) (result : Except (List Segment) α) : Except (List Segment) α :=
  result.mapError (segment :: ·)

/-- Decodes elements, the first of them at position `index`. -/
def decodeElements (decode : Document → Except (List Segment) α) :
    Nat → List Document → Except (List Segment) (List α)
  | _, [] => .ok []
  | index, item :: items => do
    let value ← inside (.index index) (decode item)
    let values ← decodeElements decode (index + 1) items
    return value :: values

/-- Decodes members into a state. A key that is no text is a fault of the object. -/
def decodeMembers (enter : String → σ → Document → Except (List Segment) σ) :
    σ → List (Option String × Document) → Except (List Segment) σ
  | state, [] => .ok state
  | _, (none, _) :: _ => .error [.unknownKey]
  | state, (some key, document) :: members => do
    decodeMembers enter (← enter key state document) members

theorem ok_bind {ε : Type} (value : α) (next : α → Except ε β) :
    (Except.ok value >>= next) = next value := rfl

theorem traced_eq_ok_iff {result : Except Fault α} {value : α} :
    traced result = .ok value ↔ result = .ok value := by
  cases result with
  | error fault => exact ⟨nofun, nofun⟩
  | ok result => exact Iff.of_eq (by rw [traced_ok, Except.ok.injEq, Except.ok.injEq])

theorem traced_eq_error_iff {result : Except Fault α} {path : List Segment} :
    traced result = .error path ↔ ∃ fault, result = .error fault ∧ fault.path = path := by
  cases result with
  | error fault =>
    rw [traced_error, Except.error.injEq]
    exact ⟨fun h => ⟨fault, rfl, h⟩, fun ⟨_, h, hpath⟩ => Except.error.inj h ▸ hpath⟩
  | ok result => exact ⟨nofun, nofun⟩

theorem traced_map (result : Except Fault α) (f : α → β) :
    traced (result.map f) = (traced result).map f := by
  cases result <;> rfl

/-! ## Lists -/

section Lists

variable {read : Reader α} {decode : Document → Except (List Segment) α} {items : List Document}
  {text : List Char}

/-- A document that other text follows inside a bracket. -/
theorem Document.WrittenAs.exists_lead_append {document : Document} {text : List Char}
    (h : document.WrittenAs text) (more : List Char) :
    ∃ b bytes, encode (text ++ more) = b :: bytes ∧ Lead.of b ≠ .other := by
  obtain ⟨b, bytes, hbytes, hlead⟩ := h.exists_lead
  refine ⟨b, bytes ++ encode more, ?_, hlead ▸ document.lead_ne_other⟩
  rw [encode_append, hbytes, List.cons_append]

/-- An element is read off the front of what stands inside a bracket. -/
theorem Decodes.read_append (hread : Decodes read decode) {item : Document}
    (hitem : item.WrittenAs text) {more : List Char} {rest : List UInt8}
    (hmore : Ends (encode more ++ rest)) :
    traced (read (encode (text ++ more) ++ rest)) =
      (decode item).map (·, encode more ++ rest) := by
  have h := hread blank_nil hitem hmore
  rwa [List.nil_append, ← List.append_assoc, ← encode_append] at h

/-- One round of the loop over the elements. -/
theorem traced_readElements_cons {item : Document} {index rounds : Nat}
    {bytes element left blank : List UInt8}
    (hnext : nextElement? (index == 0) bytes = .ok (some element))
    (hitem : traced (read element) = (decode item).map (·, left))
    (hitems : traced (readElements read rounds (index + 1) left) =
      (decodeElements decode (index + 1) items).map (·, blank)) :
    traced (readElements read (rounds + 1) index bytes) =
      (decodeElements decode index (item :: items)).map (·, blank) := by
  rw [readElements, hnext, decodeElements]
  -- the first fault is that of this element, or else one of those behind it
  cases hvalue : decode item with
  | error path =>
    rw [hvalue] at hitem
    obtain ⟨fault, hfault, rfl⟩ := traced_eq_error_iff.mp hitem
    simp only [hfault]
    rfl
  | ok value =>
    rw [hvalue] at hitem
    simp only [traced_eq_ok_iff.mp hitem]
    cases hvalues : decodeElements decode (index + 1) items with
    | error path =>
      rw [hvalues] at hitems
      obtain ⟨fault, hfault, rfl⟩ := traced_eq_error_iff.mp hitems
      simp only [hfault]
      rfl
    | ok values =>
      rw [hvalues] at hitems
      simp only [traced_eq_ok_iff.mp hitems]
      rfl

theorem traced_readElements_further (hread : Decodes read decode)
    (h : Further Document.WrittenAs items text) {rounds index : Nat} (hindex : index ≠ 0)
    (hrounds : items.length < rounds) (rest : List UInt8) :
    ∃ blank, Blank blank ∧
      traced (readElements read rounds index (encode text ++ Byte.listClose :: rest)) =
        (decodeElements decode index items).map (·, encode blank ++ Byte.listClose :: rest) := by
  induction h generalizing rounds index with
  | @nil blank hblank =>
    obtain ⟨rounds, rfl⟩ := Nat.exists_eq_add_one_of_ne_zero (Nat.ne_zero_of_lt hrounds)
    refine ⟨blank, hblank, ?_⟩
    rw [readElements, nextElement?_blank hblank]
    rfl
  | @cons item items before after text more hbefore hafter hitem hmore ih =>
    obtain ⟨rounds, rfl⟩ := Nat.exists_eq_add_one_of_ne_zero (Nat.ne_zero_of_lt hrounds)
    obtain ⟨blank, hblank, hrest⟩ := ih (Nat.succ_ne_zero index) (Nat.lt_of_succ_lt_succ hrounds)
    obtain ⟨b, bytes, hbytes, hlead⟩ := hitem.exists_lead_append more
    have hends : Ends (encode more ++ Byte.listClose :: rest) :=
      ends_further hmore (ends_close .list rest)
    refine ⟨blank, hblank, traced_readElements_cons ?_ (hread.read_append hitem hends) hrest⟩
    rw [beq_false_of_ne hindex, nextElement?_comma hbefore hafter hbytes hlead]

theorem traced_readElements_inside (hread : Decodes read decode)
    (h : Inside Document.WrittenAs items text) {rounds : Nat} (hrounds : items.length < rounds)
    (rest : List UInt8) :
    ∃ blank, Blank blank ∧
      traced (readElements read rounds 0 (encode text ++ Byte.listClose :: rest)) =
        (decodeElements decode 0 items).map (·, encode blank ++ Byte.listClose :: rest) := by
  obtain ⟨rounds, rfl⟩ := Nat.exists_eq_add_one_of_ne_zero (Nat.ne_zero_of_lt hrounds)
  cases h with
  | nil hblank =>
    refine ⟨text, hblank, ?_⟩
    rw [readElements, nextElement?_blank hblank]
    rfl
  | @cons item items before text more hbefore hitem hmore =>
    obtain ⟨blank, hblank, hrest⟩ := traced_readElements_further hread hmore (Nat.succ_ne_zero 0)
      (Nat.lt_of_succ_lt_succ hrounds) rest
    obtain ⟨b, bytes, hbytes, hlead⟩ := hitem.exists_lead_append more
    have hends : Ends (encode more ++ Byte.listClose :: rest) :=
      ends_further hmore (ends_close .list rest)
    refine ⟨blank, hblank, traced_readElements_cons ?_ (hread.read_append hitem hends) hrest⟩
    rw [beq_self_eq_true, nextElement?_first hbefore hbytes hlead]

theorem Document.WrittenAs.ne_nil {document : Document} {text : List Char}
    (h : document.WrittenAs text) : text ≠ [] := by
  rintro rfl
  obtain ⟨b, bytes, hbytes, -⟩ := h.exists_lead
  cases hbytes

/-- A list is decoded from after its opening bracket to after its closing one. -/
theorem traced_readElements_closeList (hread : Decodes read decode)
    (h : Inside Document.WrittenAs items text) (f : List α → β) (rest : List UInt8) :
    traced (readElements read (roundsFor (encode (text ++ [']']) ++ rest)) 0
        (encode (text ++ [']']) ++ rest) >>= fun result =>
          closeList result.2 >>= fun rest => .ok (f result.1, rest)) =
      (decodeElements decode 0 items).map fun values => (f values, rest) := by
  have hrounds :=
    length_lt_roundsFor_of_inside Document.WrittenAs.ne_nil h (Byte.listClose :: rest)
  obtain ⟨blank, hblank, hread⟩ := traced_readElements_inside hread h hrounds rest
  rw [encode_append_listClose, traced_bind, hread]
  cases decodeElements decode 0 items with
  | error path => rfl
  | ok values =>
    change traced (closeList (encode blank ++ Byte.listClose :: rest) >>= _) = _
    rw [closeList_blank hblank]
    rfl

end Lists

/-! ## Objects -/

/-- The path of what ends the reading of an object, seen from the object. -/
def Stop.path : Stop → List Segment
  | .fault found => found.path
  | .refused _ _ => []

/-- A result in which what ends the reading of an object is its path. -/
def halted (result : Except Stop α) : Except (List Segment) α := result.mapError Stop.path

theorem halted_fault (result : Except Fault α) :
    halted (result.mapError .fault) = traced result := by
  cases result <;> rfl

theorem halted_eq_ok_iff {result : Except Stop α} {value : α} :
    halted result = .ok value ↔ result = .ok value := by
  cases result with
  | error stop => exact ⟨nofun, nofun⟩
  | ok result =>
    exact Iff.of_eq (by rw [halted, Except.mapError, Except.ok.injEq, Except.ok.injEq])

theorem halted_eq_error_iff {result : Except Stop α} {path : List Segment} :
    halted result = .error path ↔ ∃ stop, result = .error stop ∧ stop.path = path := by
  cases result with
  | error stop =>
    rw [halted, Except.mapError, Except.error.injEq]
    exact ⟨fun h => ⟨stop, rfl, h⟩, fun ⟨_, h, hpath⟩ => Except.error.inj h ▸ hpath⟩
  | ok result => exact ⟨nofun, nofun⟩

/-- What a member does to the state depends on its key and its document. -/
def Accepts (enter : String → σ → List UInt8 → Except Stop (σ × List UInt8))
    (decode : String → σ → Document → Except (List Segment) σ) : Prop :=
  ∀ key state ⦃document before after text rest⦄, Blank before → Blank after →
    document.WrittenAs text → Ends rest →
    halted (enter key state (encode (before ++ ':' :: (after ++ text)) ++ rest)) =
      (decode key state document).map (·, rest)

/-- The value of a member is read behind its colon. -/
theorem Decodes.readEntry {read : Reader α} {decode : Document → Except (List Segment) α}
    (hread : Decodes read decode) (key : String) {document : Document}
    {before after text : List Char} {rest : List UInt8} (hbefore : Blank before)
    (hafter : Blank after) (htext : document.WrittenAs text) (hrest : Ends rest) :
    traced (readEntry read key (encode (before ++ ':' :: (after ++ text)) ++ rest)) =
      (inside (.key key) (decode document)).map (·, rest) := by
  have hcolon : String.utf8EncodeChar ':' = [Byte.colon] := rfl
  have hexpect : expectColon (encode (before ++ ':' :: (after ++ text)) ++ rest) =
      .ok (encode (after ++ text) ++ rest) := by
    rw [encode_append, encode_cons, hcolon]
    simp only [List.append_assoc, List.cons_append, List.nil_append]
    rw [expectColon, skipSpace_blank_cons hbefore rfl]
    exact if_pos rfl
  have hvalue := hread hafter htext hrest
  rw [Json.readEntry, hexpect, traced_bind, traced_ok]
  cases hdecode : decode document with
  | error path =>
    rw [hdecode] at hvalue
    obtain ⟨fault, hfault, rfl⟩ := traced_eq_error_iff.mp hvalue
    rw [ok_bind, hfault]
    rfl
  | ok value =>
    rw [hdecode] at hvalue
    rw [ok_bind, traced_eq_ok_iff.mp hvalue]
    rfl

section Objects

variable {enter : String → σ → List UInt8 → Except Stop (σ × List UInt8)}
  {decode : String → σ → Document → Except (List Segment) σ}
  {members : List (Option String × Document)} {key? : Option String} {text keyText : List Char}

theorem traced_nextKey?_first {before : List Char} (hbefore : Blank before)
    (hkey : WritesMarks key? keyText) (rest : List UInt8) :
    traced (nextKey? true (encode (before ++ keyText) ++ rest)) =
      (present key?).map fun key => some (key, rest) := by
  obtain ⟨bytes, hbytes, hread⟩ := traced_readString hkey
  have hne : Byte.quote ≠ Byte.objectClose := by decide
  rw [encode_append, List.append_assoc, hbytes, List.cons_append, nextKey?,
    skipSpace_blank_cons hbefore rfl]
  simp only [if_neg hne, if_true]
  change traced ((readString (bytes ++ rest)).map some) = _
  rw [traced_map, hread]
  cases key? <;> rfl

theorem traced_nextKey?_comma {before after : List Char} (hbefore : Blank before)
    (hafter : Blank after) (hkey : WritesMarks key? keyText) (rest : List UInt8) :
    traced (nextKey? false (encode (before ++ ',' :: (after ++ keyText)) ++ rest)) =
      (present key?).map fun key => some (key, rest) := by
  obtain ⟨bytes, hbytes, hread⟩ := traced_readString hkey
  have hcomma : String.utf8EncodeChar ',' = [Byte.comma] := rfl
  have hne : Byte.comma ≠ Byte.objectClose := by decide
  have hquote : Byte.isSpace Byte.quote = false := rfl
  rw [encode_append, encode_cons, encode_append, hcomma, hbytes]
  simp only [List.append_assoc, List.cons_append, List.nil_append]
  rw [nextKey?, skipSpace_blank_cons hbefore rfl]
  simp only [if_neg hne, Bool.false_eq_true, if_false, if_true, skipSpace_blank_cons hafter hquote]
  change traced ((readString (bytes ++ rest)).map some) = _
  rw [traced_map, hread]
  cases key? <;> rfl

/-- One round of the loop over the members. -/
theorem halted_readEntries_cons (haccepts : Accepts enter decode) {first : Bool}
    {document : Document} {before after text : List Char} {bytes left blank : List UInt8}
    {rounds : Nat}
    (hnext : traced (nextKey? first bytes) = (present key?).map fun key =>
      some (key, encode (before ++ ':' :: (after ++ text)) ++ left))
    (hbefore : Blank before) (hafter : Blank after) (htext : document.WrittenAs text)
    (hleft : Ends left) {state : σ}
    (hmembers : ∀ state, halted (readEntries enter rounds false state left) =
      (decodeMembers decode state members).map (·, blank)) :
    halted (readEntries enter (rounds + 1) first state bytes) =
      (decodeMembers decode state ((key?, document) :: members)).map (·, blank) := by
  rw [readEntries]
  obtain _ | key := key?
  · -- a key that stands for no text cannot be named in a path either
    obtain ⟨fault, hfault, hpath⟩ := traced_eq_error_iff.mp hnext
    rw [hfault, decodeMembers]
    change Except.error (Segment.unknownKey :: fault.path) = _
    rw [hpath]
    rfl
  · have henter := haccepts key state hbefore hafter htext hleft
    rw [traced_eq_ok_iff.mp hnext, decodeMembers]
    dsimp only
    cases hstate : decode key state document with
    | error path =>
      rw [hstate] at henter
      obtain ⟨stop, hstop, rfl⟩ := halted_eq_error_iff.mp henter
      rw [hstop]
      rfl
    | ok state =>
      rw [hstate] at henter
      rw [halted_eq_ok_iff.mp henter]
      exact hmembers state

theorem halted_readEntries_further (haccepts : Accepts enter decode)
    (h : Further (WritesMember Document.WrittenAs) members text) {rounds : Nat}
    (hrounds : members.length < rounds) (rest : List UInt8) :
    ∃ blank, Blank blank ∧ ∀ state,
      halted (readEntries enter rounds false state (encode text ++ Byte.objectClose :: rest)) =
        (decodeMembers decode state members).map (·, encode blank ++ Byte.objectClose :: rest) := by
  induction h generalizing rounds with
  | @nil blank hblank =>
    obtain ⟨rounds, rfl⟩ := Nat.exists_eq_add_one_of_ne_zero (Nat.ne_zero_of_lt hrounds)
    refine ⟨blank, hblank, fun state => ?_⟩
    rw [readEntries, nextKey?_blank hblank]
    rfl
  | @cons member members before after text more hbefore hafter hmember hmore ih =>
    obtain ⟨rounds, rfl⟩ := Nat.exists_eq_add_one_of_ne_zero (Nat.ne_zero_of_lt hrounds)
    obtain ⟨blank, hblank, hrest⟩ := ih (Nat.lt_of_succ_lt_succ hrounds)
    obtain ⟨hkey, hbeforeColon, hafterColon, hvalue⟩ := hmember
    rename_i keyText beforeColon afterColon valueText
    have hends : Ends (encode more ++ Byte.objectClose :: rest) :=
      ends_further hmore (ends_close .object rest)
    -- the key, the value behind its colon, and the members that follow
    have hsplit : encode (before ++ ',' :: (after ++
          (keyText ++ (beforeColon ++ ':' :: (afterColon ++ valueText)) ++ more))) ++
            Byte.objectClose :: rest =
        encode (before ++ ',' :: (after ++ keyText)) ++
          (encode (beforeColon ++ ':' :: (afterColon ++ valueText)) ++
            (encode more ++ Byte.objectClose :: rest)) := by
      simp only [encode_append, encode_cons, List.append_assoc]
    refine ⟨blank, hblank, fun state => ?_⟩
    rw [hsplit]
    exact halted_readEntries_cons haccepts (traced_nextKey?_comma hbefore hafter hkey _)
      hbeforeColon hafterColon hvalue hends hrest

theorem halted_readEntries_inside (haccepts : Accepts enter decode)
    (h : Inside (WritesMember Document.WrittenAs) members text) {rounds : Nat}
    (hrounds : members.length < rounds) (state : σ) (rest : List UInt8) :
    ∃ blank, Blank blank ∧
      halted (readEntries enter rounds true state (encode text ++ Byte.objectClose :: rest)) =
        (decodeMembers decode state members).map (·, encode blank ++ Byte.objectClose :: rest) := by
  obtain ⟨rounds, rfl⟩ := Nat.exists_eq_add_one_of_ne_zero (Nat.ne_zero_of_lt hrounds)
  cases h with
  | nil hblank =>
    refine ⟨text, hblank, ?_⟩
    rw [readEntries, nextKey?_blank hblank]
    rfl
  | @cons member members before text more hbefore hmember hmore =>
    obtain ⟨blank, hblank, hrest⟩ :=
      halted_readEntries_further haccepts hmore (Nat.lt_of_succ_lt_succ hrounds) rest
    obtain ⟨hkey, hbeforeColon, hafterColon, hvalue⟩ := hmember
    rename_i keyText beforeColon afterColon valueText
    have hends : Ends (encode more ++ Byte.objectClose :: rest) :=
      ends_further hmore (ends_close .object rest)
    -- as behind a comma, with nothing but white space in front of the key
    have hsplit : encode (before ++
          (keyText ++ (beforeColon ++ ':' :: (afterColon ++ valueText)) ++ more)) ++
            Byte.objectClose :: rest =
        encode (before ++ keyText) ++
          (encode (beforeColon ++ ':' :: (afterColon ++ valueText)) ++
            (encode more ++ Byte.objectClose :: rest)) := by
      simp only [encode_append, encode_cons, List.append_assoc]
    refine ⟨blank, hblank, ?_⟩
    rw [hsplit]
    exact halted_readEntries_cons haccepts (traced_nextKey?_first hbefore hkey _) hbeforeColon
      hafterColon hvalue hends hrest

theorem WritesMember.ne_nil {member : Option String × Document} {text : List Char}
    (h : WritesMember Document.WrittenAs member text) : text ≠ [] := by
  obtain ⟨⟨_⟩, -, -, -⟩ := h
  exact List.cons_ne_nil _ _

/-- Members are decoded from after the opening bracket, and the closing one comes next. -/
theorem halted_readEntries_roundsFor (haccepts : Accepts enter decode)
    (h : Inside (WritesMember Document.WrittenAs) members text) (state : σ) (rest : List UInt8) :
    ∃ left, halted (readEntries enter (roundsFor (encode (text ++ ['\x7d']) ++ rest)) true state
        (encode (text ++ ['\x7d']) ++ rest)) = (decodeMembers decode state members).map (·, left) ∧
      passObjectClose left = rest := by
  have hrounds := length_lt_roundsFor_of_inside WritesMember.ne_nil h (Byte.objectClose :: rest)
  obtain ⟨blank, hblank, hread⟩ := halted_readEntries_inside haccepts h hrounds state rest
  rw [encode_append_objectClose]
  exact ⟨_, hread, passObjectClose_blank hblank rest⟩

/-- An object that is refused as a whole has the path of the object. -/
theorem traced_readObject {body : List UInt8 → Except Stop (σ × List UInt8)}
    {bytes left rest : List UInt8} {result : Except (List Segment) σ}
    (hbody : halted (body bytes) = result.map (·, left)) (hclose : passObjectClose left = rest) :
    traced (readObject body bytes) = result.map (·, rest) := by
  rw [readObject]
  cases result with
  | error path =>
    obtain ⟨stop, hstop, rfl⟩ := halted_eq_error_iff.mp hbody
    rw [hstop]
    cases stop <;> rfl
  | ok state =>
    rw [halted_eq_ok_iff.mp hbody]
    simp only [hclose]
    rfl

end Objects

end Ambient.Json
