/-
What whole values are read as.

A value that is kept aside is read whole, whatever it is, and so it has to have a meaning:
`Document.value` is the value that a document stands for. The reader gives just that
(`decodes_readValue`), and it gives anything at all exactly if the document is readable
(`value_isOk_iff`).
-/
import Ambient.Proofs.Json.Decoding

set_option autoImplicit false

namespace Ambient.Json

variable {α : Type}

/-- Keeps the value of a member. -/
def keep (decode : Document → Except (List Segment) α) (key : String) (kept : List (String × α))
    (document : Document) : Except (List Segment) (List (String × α)) :=
  (inside (.key key) (decode document)).map fun value => (key, value) :: kept

/-- The value that a document stands for. At most that many brackets are open at once. -/
def Document.value : Nat → Document → Except (List Segment) Value
  | _, .null => .ok .null
  | _, .flag value => .ok (.flag value)
  | _, .number literal => (literal.number?.map .number).mapError fun _ => []
  | _, .string text? => (present text?).map .string
  | 0, .list _ | 0, .object _ => .error []
  | levels + 1, .list items => (decodeElements (value levels) 0 items).map .list
  | levels + 1, .object members =>
    (decodeMembers (keep (value levels)) [] members).map fun entries => .object entries.reverse

section Scalars

variable (levels : Nat)

theorem Document.value_null : Document.null.value levels = .ok .null := by
  cases levels <;> rfl

theorem Document.value_flag (value : Bool) :
    (Document.flag value).value levels = .ok (.flag value) := by
  cases levels <;> rfl

/-- A number has a value if it is in range. -/
theorem Document.value_number (literal : Literal) :
    (Document.number literal).value levels =
      (literal.number?.map .number).mapError fun _ => [] := by
  cases levels <;> rfl

/-- A string has a value if it stands for a text. -/
theorem Document.value_string (text? : Option String) :
    (Document.string text?).value levels = (present text?).map .string := by
  cases levels <;> rfl

end Scalars

/-! ## Readable documents -/

theorem isOk_map {ε β : Type} (result : Except ε α) (f : α → β) :
    (result.map f).isOk = result.isOk := by
  cases result <;> rfl

theorem isOk_mapError {ε ε' : Type} (result : Except ε α) (f : ε → ε') :
    (result.mapError f).isOk = result.isOk := by
  cases result <;> rfl

section Readable

variable {decode : Document → Except (List Segment) α} {readable : Document → Prop}

/-- All elements of a list are decoded if each of them can be, wherever it stands. -/
theorem decodeElements_isOk_iff {items : List Document}
    (h : ∀ item ∈ items, (decode item).isOk = true ↔ readable item) (index : Nat) :
    (decodeElements decode index items).isOk = true ↔ ∀ item ∈ items, readable item := by
  induction items generalizing index with
  | nil => exact iff_of_true rfl (List.forall_mem_nil _)
  | cons item items ih =>
    obtain ⟨hitem, hitems⟩ := List.forall_mem_cons.mp h
    rw [List.forall_mem_cons, ← hitem, ← ih hitems (index + 1), decodeElements]
    cases decode item with
    | error path => exact iff_of_false Bool.false_ne_true fun h => Bool.false_ne_true h.1
    | ok value =>
      change ((decodeElements decode (index + 1) items).map (value :: ·)).isOk = true ↔ _
      rw [isOk_map]
      exact (and_iff_right rfl).symm

/-- All members of an object are kept if each key stands for a text and each value can be
decoded. -/
theorem decodeMembers_keep_isOk_iff {members : List (Option String × Document)}
    (h : ∀ member ∈ members, (decode member.2).isOk = true ↔ readable member.2)
    (kept : List (String × α)) :
    (decodeMembers (keep decode) kept members).isOk = true ↔
      ∀ member ∈ members, member.1.isSome = true ∧ readable member.2 := by
  induction members generalizing kept with
  | nil => exact iff_of_true rfl (List.forall_mem_nil _)
  | cons member members ih =>
    obtain ⟨key?, document⟩ := member
    obtain ⟨hmember, hmembers⟩ := List.forall_mem_cons.mp h
    rw [List.forall_mem_cons, ← hmember]
    obtain _ | key := key?
    · exact iff_of_false Bool.false_ne_true fun h => Bool.false_ne_true h.1.1
    · rw [decodeMembers, keep]
      cases decode document with
      | error path => exact iff_of_false Bool.false_ne_true fun h => Bool.false_ne_true h.1.2
      | ok value =>
        exact (ih hmembers _).trans (and_iff_right ⟨rfl, rfl⟩).symm

end Readable

/-- A document stands for a value exactly if it is readable. -/
theorem value_isOk_iff (levels : Nat) (document : Document) :
    (document.value levels).isOk = true ↔ document.Readable levels := by
  induction levels using Nat.strongRecOn generalizing document with
  | ind levels ih =>
    cases document with
    | null => cases levels <;> exact iff_of_true rfl trivial
    | flag value => cases levels <;> exact iff_of_true rfl trivial
    | number literal =>
      rw [Document.value_number, isOk_mapError, isOk_map]
      cases levels <;> exact Iff.rfl
    | string text? => cases levels <;> cases text? <;> exact Iff.rfl
    | list items =>
      obtain _ | levels := levels
      · exact iff_of_false Bool.false_ne_true id
      rw [Document.value, isOk_map, Document.Readable]
      exact decodeElements_isOk_iff (fun item _ => ih levels (Nat.lt_succ_self levels) item) 0
    | object members =>
      obtain _ | levels := levels
      · exact iff_of_false Bool.false_ne_true id
      rw [Document.value, isOk_map, Document.Readable]
      exact decodeMembers_keep_isOk_iff
        (fun member _ => ih levels (Nat.lt_succ_self levels) member.2) []

/-! ## Reading -/

/-- An entry that is kept is read as its value is, in front of the entries before it. -/
theorem accepts_keepEntry {read : Reader Value} {decode : Document → Except (List Segment) Value}
    (hread : Decodes read decode) : Accepts (keepEntry read) (keep decode) := by
  intro key kept document before after text rest hbefore hafter htext hrest
  have hentry := hread.readEntry key hbefore hafter htext hrest
  rw [keepEntry, keep]
  cases hvalue : inside (.key key) (decode document) with
  | error path =>
    rw [hvalue] at hentry
    obtain ⟨fault, hfault, rfl⟩ := traced_eq_error_iff.mp hentry
    rw [hfault]
    rfl
  | ok value =>
    rw [hvalue] at hentry
    rw [traced_eq_ok_iff.mp hentry]
    rfl

/-- A number is known by its first byte, and read up to what ends it. -/
theorem traced_readNumber {literal : Literal} {text : List Char} {rest : List UInt8}
    (htext : WritesNumber literal text) (hrest : Ends rest) :
    ∃ b bytes, encode text = b :: bytes ∧ Lead.of b = .number ∧
      traced (readNumber (b :: (bytes ++ rest))) =
        (literal.number?.mapError fun _ => []).map (·, rest) := by
  obtain ⟨b, bytes, hbytes, hlead, hscan⟩ := scanNumber_of_writesNumber htext .endOfValue hrest
  rw [hbytes, List.cons_append] at hscan
  refine ⟨b, bytes, hbytes, hlead, ?_⟩
  rw [readNumber, hscan, ok_bind]
  dsimp only
  cases literal.number? <;> rfl

/-- **Whole values.** The reader of values decodes every document, and a fault has its path. -/
theorem decodes_readValue (levels : Nat) : Decodes (readValue levels) (Document.value levels) := by
  -- on the levels: what is inside a bracket is read at one level less
  induction levels using Nat.strongRecOn with
  | ind levels ih =>
    intro document blank text rest hblank htext hrest
    have hbranch {b : UInt8} (hb : Lead.of b ≠ .other) (bytes : List UInt8) :=
      read_of_branch (readValue.eq_def levels) hblank hb bytes
    rw [encode_append, List.append_assoc]
    cases htext with
    | null =>
      rw [Document.value_null]
      exact (congrArg traced (hbranch (b := 0x6E) (by decide) _)).trans rfl
    | yes =>
      rw [Document.value_flag]
      exact (congrArg traced (hbranch (b := 0x74) (by decide) _)).trans rfl
    | no =>
      rw [Document.value_flag]
      exact (congrArg traced (hbranch (b := 0x66) (by decide) _)).trans rfl
    | @number literal text hnumber =>
      obtain ⟨b, bytes, hbytes, hlead, hread⟩ := traced_readNumber hnumber hrest
      rw [hbytes, List.cons_append, hbranch (by rw [hlead]; decide), hlead, Document.value_number]
      dsimp only
      rw [traced_bind, hread]
      cases literal.number? <;> rfl
    | @string text? text hstring =>
      obtain ⟨bytes, hbytes, hread⟩ := traced_readString hstring
      rw [hbytes, List.cons_append, hbranch (by decide), Document.value_string]
      change traced (readString (bytes ++ rest) >>= _) = _
      rw [traced_bind, hread]
      cases text? <;> rfl
    | @list items inner hitems =>
      refine (congrArg traced (hbranch (b := Byte.listOpen) (by decide) _)).trans ?_
      obtain _ | levels := levels
      · rfl
      refine (traced_readElements_closeList (ih levels (Nat.lt_succ_self levels)) hitems Value.list
        rest).trans ?_
      rw [Document.value]
      cases decodeElements (Document.value levels) 0 items <;> rfl
    | @object members inner hmembers =>
      refine (congrArg traced (hbranch (b := Byte.objectOpen) (by decide) _)).trans ?_
      obtain _ | levels := levels
      · rfl
      obtain ⟨left, hread, hclose⟩ := halted_readEntries_roundsFor
        (accepts_keepEntry (ih levels (Nat.lt_succ_self levels))) hmembers [] rest
      change traced (readObject (readEntries (keepEntry (readValue levels))
        (roundsFor (encode (inner ++ ['\x7d']) ++ rest)) true [])
        (encode (inner ++ ['\x7d']) ++ rest) >>= _) = _
      rw [traced_bind, traced_readObject hread hclose, Document.value]
      cases decodeMembers (keep (Document.value levels)) [] members <;> rfl

end Ambient.Json
