/-
Every written domain is read back.

A record is read entry by entry. What it holds after some entries depends only on which of
its keys have occurred, not on their order: it is `fill` of these keys, the record in which
the other fields hold their default. Every field takes `fill keys` to `fill (key :: keys)`
(`Fits`), and once all entries have been read no field that is left out would have held
anything else. The entries that are no fields of the record are those of its reference, and
they are kept in the order in which they occur.

The main statement is `loadDomain_of_written`.
-/
import Ambient.Load.Domain
import Ambient.Proofs.Json.Reading
import Ambient.Proofs.Load.Spelling

set_option autoImplicit false

namespace Ambient.Load

open Ambient.Json Ambient.Schema
open Ambient.Layout.Sink (textBytes)

/-! ## Texts, flags and lists -/

section Values

variable {α : Type}

theorem yields_readText (text : String) : Yields readText text (.string text) := by
  intro blank written hblank hitem rest
  obtain ⟨⟩ | ⟨⟩ | ⟨⟩ | hstring := hitem
  obtain ⟨bytes, hbytes, hread⟩ := readString_of_writesString hstring
  rw [encode_append, List.append_assoc, hbytes, List.cons_append,
    read_of_branch readText.eq_def hblank (by decide)]
  exact hread rest

theorem yields_readFlag (flag : Bool) : Yields readFlag flag (.flag flag) := by
  intro blank written hblank hitem rest
  rw [encode_append, List.append_assoc]
  cases hitem with
  | yes => exact (read_of_branch (b := 0x74) readFlag.eq_def hblank (by decide) _).trans rfl
  | no => exact (read_of_branch (b := 0x66) readFlag.eq_def hblank (by decide) _).trans rfl

theorem yields_readList {read : Nat → Reader α} {levels : Nat} {values : List α}
    {items : List Value} (h : List.Forall₂ (Yields (read levels)) values items) :
    Yields (readList read (levels + 1)) values (.list items) := by
  intro blank written hblank hitem rest
  rw [encode_append, List.append_assoc]
  cases hitem with
  | list hitems =>
    obtain ⟨left, hread, hclose⟩ := readElements_closeList_inside h hitems rest
    refine (read_of_branch (b := Byte.listOpen) (readList.eq_def read (levels + 1)) hblank
      (by decide) _).trans ?_
    refine bind_eq_ok_iff.mpr ⟨_, hread, ?_⟩
    exact bind_eq_ok_iff.mpr ⟨_, hclose, rfl⟩

end Values

/-! ## Fields -/

section Fields

variable {α ρ : Type} {levels : Nat} {fill : List String → ρ} {key : String}

/-- A field reads every spelling of its slot, whatever other fields have been read. -/
structure Fits (levels : Nat) (fill : List String → ρ) (field : FieldReader ρ) (slot : Slot) :
    Prop where
  key : field.key = slot.key
  yields : ∀ item, slot.Spells item → item.Within levels → ∀ keys,
    Yields (field.read levels (fill keys)) (fill (slot.key :: keys)) item

theorem fits_of (slot : Slot) {read : Nat → Reader α} {store : α → ρ → ρ} {value : α}
    (hread : ∀ item, slot.Spells item → item.Within levels → Yields (read levels) value item)
    (hstore : ∀ keys, store value (fill keys) = fill (slot.key :: keys)) :
    Fits levels fill (.of slot.key read store) slot where
  key := rfl
  yields item hspells hdepth keys := by
    intro blank text hblank hitem rest
    rw [← hstore]
    exact bind_eq_ok_iff.mpr ⟨_, hread item hspells hdepth hblank hitem rest, rfl⟩

theorem fits_textField {store : String → ρ → ρ} {text : String}
    (hstore : ∀ keys, store text (fill keys) = fill (key :: keys)) :
    Fits levels fill (textField key store) (textSlot key text) := by
  refine fits_of (textSlot key text) (fun item hspells _ => ?_) hstore
  rw [show item = .string text from hspells]
  exact yields_readText text

theorem fits_flagField {store : Bool → ρ → ρ} {flag : Bool}
    (hstore : ∀ keys, store flag (fill keys) = fill (key :: keys)) :
    Fits levels fill (.of key (fun _ => readFlag) store) (flagSlot key flag) := by
  refine fits_of (flagSlot key flag) (fun item hspells _ => ?_) hstore
  rw [show item = .flag flag from hspells]
  exact yields_readFlag flag

/-- A list of records fits if every record is read back at any depth. -/
theorem fits_listField {form : Form α} {slots : α → List Slot}
    (hform : ∀ {levels element item}, Spelled (slots element) item → item.Within levels →
      Yields (form.read levels) element item)
    {store : List α → ρ → ρ} {elements : List α}
    (hstore : ∀ keys, store elements (fill keys) = fill (key :: keys)) :
    Fits levels fill (.of key (readList form.read) store) (listSlot key slots elements) := by
  refine fits_of (listSlot key slots elements) ?_ hstore
  rintro _ ⟨items, rfl, hitems⟩ hdepth
  obtain _ | levels := levels
  · exact hdepth.elim
  change ∀ item ∈ items, item.Within levels at hdepth
  refine yields_readList ?_
  -- the records of the list are spelled one by one, each within the levels of the list
  clear hstore
  induction hitems with
  | nil => exact .nil
  | cons hhead _ ih =>
    obtain ⟨hdepth, hdepths⟩ := List.forall_mem_cons.mp hdepth
    exact .cons (hform hhead hdepth) (ih hdepths)

end Fields

/-! ## Entries -/

section Entries

variable {ρ : Type} {form : Form ρ} {levels : Nat} {draft : Draft ρ} {key : String} {value : Value}

theorem entersAs_field {field : FieldReader ρ} (hfield : form.field? key = some field)
    (hnew : key ∉ draft.seen) {record : ρ}
    (hyields : Yields (field.read levels draft.record) record value) :
    EntersAs (form.enter levels) key value draft
      { draft with record := record, seen := key :: draft.seen } := by
  intro before after text hbefore hafter hvalue rest
  have hkey : field.key = key := by
    have hfound := List.find?_some hfield
    exact beq_iff_eq.mp hfound
  have hread := readEntry_of_yields hyields field.key hbefore hafter hvalue rest
  have hentry : Form.enterField field levels draft
      (encode (before ++ ':' :: (after ++ text)) ++ rest) =
      .ok ({ draft with record := record, seen := field.key :: draft.seen }, rest) :=
    bind_eq_ok_iff.mpr ⟨_, hread, rfl⟩
  rw [Form.enter, hfield]
  simp only [if_neg hnew, hentry, hkey]
  rfl

theorem entersAs_kept (hfield : form.field? key = none)
    {settle : List (String × Value) → ρ → Except Cause ρ} (hothers : form.others = .kept settle)
    (hdepth : value.Within levels) :
    EntersAs (form.enter levels) key value draft
      { draft with kept := (key, value) :: draft.kept } := by
  intro before after text hbefore hafter hvalue rest
  have hread := readEntry_of_yields (yields_readValue hdepth) key hbefore hafter hvalue rest
  have hentry : form.enterOther levels key draft
      (encode (before ++ ':' :: (after ++ text)) ++ rest) =
      .ok ({ draft with kept := (key, value) :: draft.kept }, rest) := by
    rw [Form.enterOther, hothers]
    exact bind_eq_ok_iff.mpr ⟨_, hread, rfl⟩
  rw [Form.enter, hfield]
  simp only [hentry]
  rfl

end Entries

/-! ## Records -/

section Records

variable {ρ : Type} {form : Form ρ} {levels : Nat} {fill : List String → ρ}
  {own extra : List Slot} {entries : List (String × Value)}

/-- The field of a slot is found by its key. -/
theorem field?_of_mem {fields : List (FieldReader ρ)} {slot : Slot}
    (hfields : List.Forall₂ (Fits levels fill) fields own) (hslot : slot ∈ own)
    (hnodup : (own.map Slot.key).Nodup) :
    ∃ field, fields.find? (·.key == slot.key) = some field ∧ Fits levels fill field slot := by
  induction hfields with
  | nil => exact (List.not_mem_nil hslot).elim
  | @cons field slot' fields own hfield _ ih =>
    obtain ⟨hnew, hnodup⟩ := List.nodup_cons.mp hnodup
    obtain rfl | hslot := List.mem_cons.mp hslot
    · exact ⟨field, List.find?_cons_of_pos (beq_iff_eq.mpr hfield.key), hfield⟩
    · have hne : ¬ (field.key == slot.key) = true := by
        rw [beq_iff_eq, hfield.key]
        intro h
        exact hnew (h ▸ List.mem_map_of_mem hslot)
      rw [List.find?_cons_of_neg (p := fun field : FieldReader ρ => field.key == slot.key) hne]
      exact ih hslot hnodup

theorem field?_eq_none {fields : List (FieldReader ρ)} {key : String}
    (hfields : List.Forall₂ (Fits levels fill) fields own) (hkey : key ∉ own.map Slot.key) :
    fields.find? (·.key == key) = none := by
  induction hfields with
  | nil => rfl
  | cons hfield _ ih =>
    rw [List.map_cons, List.mem_cons, not_or] at hkey
    rw [List.find?_cons_of_neg, ih hkey.2]
    rw [beq_iff_eq, hfield.key]
    exact Ne.symm hkey.1

/-- The entries of a form's own fields. -/
def ownEntries (form : Form ρ) (entries : List (String × Value)) : List (String × Value) :=
  entries.filter fun entry => (form.field? entry.1).isSome

/-- The entries that are no fields of a form. -/
def otherEntries (form : Form ρ) (entries : List (String × Value)) : List (String × Value) :=
  entries.filter fun entry => (form.field? entry.1).isNone

/-- What is read of an entry: a field, or a value that is kept. -/
def Takes (form : Form ρ) (levels : Nat) (fill : List String → ρ) (entry : String × Value) : Prop :=
  match form.field? entry.1 with
  | some field => ∀ keys, Yields (field.read levels (fill keys)) (fill (entry.1 :: keys)) entry.2
  | none => (∃ settle, form.others = .kept settle) ∧ entry.2.Within levels

/-- The draft after some entries. -/
def draftOf (form : Form ρ) (fill : List String → ρ) (keys : List String)
    (kept entries : List (String × Value)) : Draft ρ where
  record := fill (((ownEntries form entries).map Prod.fst).reverse ++ keys)
  seen := ((ownEntries form entries).map Prod.fst).reverse ++ keys
  kept := (otherEntries form entries).reverse ++ kept

theorem draftOf_own {keys : List String} {kept : List (String × Value)} {entry : String × Value}
    (hfield : (form.field? entry.1).isSome = true) :
    draftOf form fill keys kept (entry :: entries) =
      draftOf form fill (entry.1 :: keys) kept entries := by
  have hother : (form.field? entry.1).isNone = false := by
    rw [← Option.not_isSome, hfield]
    rfl
  simp only [draftOf, ownEntries, otherEntries, List.filter_cons, hfield, hother, if_true,
    Bool.false_eq_true, if_false, List.map_cons, List.reverse_cons, List.append_assoc,
    List.singleton_append]

theorem draftOf_other {keys : List String} {kept : List (String × Value)} {entry : String × Value}
    (hfield : form.field? entry.1 = none) :
    draftOf form fill keys kept (entry :: entries) =
      draftOf form fill keys (entry :: kept) entries := by
  simp only [draftOf, ownEntries, otherEntries, List.filter_cons, hfield, Option.isSome_none,
    Option.isNone_none, if_true, Bool.false_eq_true, if_false, List.reverse_cons,
    List.append_assoc, List.singleton_append]

/-- The entries of a record lead to its draft, in whatever order they come. -/
theorem enters_draftOf (htakes : ∀ entry ∈ entries, Takes form levels fill entry)
    (hnodup : (entries.map Prod.fst).Nodup) {keys : List String}
    (hkeys : ∀ key ∈ entries.map Prod.fst, key ∉ keys) (kept : List (String × Value)) :
    Enters (form.enter levels) { record := fill keys, seen := keys, kept := kept } entries
      (draftOf form fill keys kept entries) := by
  induction entries generalizing keys kept with
  | nil => exact .nil
  | cons entry entries ih =>
    obtain ⟨key, value⟩ := entry
    obtain ⟨htake, htakes⟩ := List.forall_mem_cons.mp htakes
    obtain ⟨hnew, hnodup⟩ := List.nodup_cons.mp hnodup
    obtain ⟨hkey, hkeys⟩ := List.forall_mem_cons.mp hkeys
    rw [Takes] at htake
    split at htake
    · -- a field of the form: its key has been seen from here on
      rename_i field hfield
      rw [draftOf_own (by rw [hfield]; rfl)]
      refine .cons (entersAs_field hfield hkey (htake keys)) (ih htakes hnodup ?_ kept)
      intro other hother
      rw [List.mem_cons, not_or]
      exact ⟨fun h => hnew (h ▸ hother), hkeys other hother⟩
    · -- another entry, which is kept until the object has been read
      rename_i hfield
      obtain ⟨⟨settle, hothers⟩, hdepth⟩ := htake
      rw [draftOf_other hfield]
      exact .cons (entersAs_kept hfield hothers hdepth)
        (ih htakes hnodup hkeys ((key, value) :: kept))

/-- An entry belongs to a slot of the form's own, and then to a field, or to an extra one. -/
theorem own_or_extra_of_mem (hfields : List.Forall₂ (Fits levels fill) form.fields own)
    (hnodup : ((own ++ extra).map Slot.key).Nodup) (hfills : Fills (own ++ extra) entries)
    {entry : String × Value} (hentry : entry ∈ entries) :
    (∃ slot ∈ own, slot.key = entry.1 ∧ slot.Spells entry.2 ∧
      ∃ field, form.field? entry.1 = some field ∧ Fits levels fill field slot) ∨
    (∃ slot ∈ extra, slot.key = entry.1 ∧ slot.Spells entry.2 ∧ form.field? entry.1 = none) := by
  rw [List.map_append] at hnodup
  obtain ⟨hown, -, hdisjoint⟩ := List.nodup_append.mp hnodup
  obtain ⟨slot, hslot, hkey, hspells⟩ := hfills.spelled entry hentry
  obtain hslot | hslot := List.mem_append.mp hslot
  · exact .inl ⟨slot, hslot, hkey, hspells, hkey ▸ field?_of_mem hfields hslot hown⟩
  · refine .inr ⟨slot, hslot, hkey, hspells, field?_eq_none hfields fun hmem => ?_⟩
    exact hdisjoint _ hmem _ (List.mem_map_of_mem hslot) hkey.symm

theorem takes_of_fills (hfields : List.Forall₂ (Fits levels fill) form.fields own)
    (hnodup : ((own ++ extra).map Slot.key).Nodup)
    (hothers : ∀ slot ∈ extra, ∃ settle, form.others = .kept settle)
    (hfills : Fills (own ++ extra) entries) (hdepth : ∀ entry ∈ entries, entry.2.Within levels) :
    ∀ entry ∈ entries, Takes form levels fill entry := by
  intro entry hentry
  rw [Takes]
  obtain ⟨slot, -, hkey, hspells, field, hfield, hfits⟩ | ⟨slot, hslot, -, -, hfield⟩ :=
    own_or_extra_of_mem hfields hnodup hfills hentry
  · rw [hfield, ← hkey]
    exact hfits.yields entry.2 hspells (hdepth entry hentry)
  · rw [hfield]
    exact ⟨hothers slot hslot, hdepth entry hentry⟩

/-- The entries that are no fields fill the extra slots. -/
theorem fills_otherEntries (hfields : List.Forall₂ (Fits levels fill) form.fields own)
    (hnodup : ((own ++ extra).map Slot.key).Nodup) (hfills : Fills (own ++ extra) entries) :
    Fills extra (otherEntries form entries) where
  nodup := hfills.nodup.sublist (List.filter_sublist.map Prod.fst)
  spelled entry hentry := by
    obtain ⟨hentry, hnone⟩ := List.mem_filter.mp hentry
    obtain ⟨slot, -, -, -, field, hfield, -⟩ | ⟨slot, hslot, hkey, hspells, -⟩ :=
      own_or_extra_of_mem hfields hnodup hfills hentry
    · rw [hfield] at hnone
      cases hnone
    · exact ⟨slot, hslot, hkey, hspells⟩
  omitted slot hslot hkey := by
    refine hfills.omitted slot (List.mem_append_right own hslot) fun hmem => hkey ?_
    rw [List.map_append] at hnodup
    obtain ⟨-, -, hdisjoint⟩ := List.nodup_append.mp hnodup
    obtain ⟨entry, hentry, hsame⟩ := List.mem_map.mp hmem
    have hnone : form.field? entry.1 = none := by
      refine field?_eq_none hfields fun hmem => ?_
      exact hdisjoint _ hmem _ (List.mem_map_of_mem hslot) hsame
    exact List.mem_map.mpr ⟨entry, List.mem_filter.mpr ⟨hentry, by rw [hnone]; rfl⟩, hsame⟩

/-- A field that has not been read holds its default. -/
theorem default_of_ownEntries (hfields : List.Forall₂ (Fits levels fill) form.fields own)
    (hnodup : ((own ++ extra).map Slot.key).Nodup) (hfills : Fills (own ++ extra) entries)
    {slot : Slot} (hslot : slot ∈ own) (hkey : slot.key ∉ (ownEntries form entries).map Prod.fst) :
    slot.Default := by
  refine hfills.omitted slot (List.mem_append_left extra hslot) fun hmem => hkey ?_
  rw [List.map_append] at hnodup
  obtain ⟨hown, -, -⟩ := List.nodup_append.mp hnodup
  obtain ⟨field, hfield, -⟩ := field?_of_mem hfields hslot hown
  obtain ⟨entry, hentry, hsame⟩ := List.mem_map.mp hmem
  have hsome : (form.field? entry.1).isSome = true := by
    rw [hsame, Form.field?, hfield]
    rfl
  exact List.mem_map.mpr ⟨entry, List.mem_filter.mpr ⟨hentry, hsome⟩, hsame⟩

/-- **A record is read back** from an object whose entries fill its slots. The form knows the
record by what it has read of it: the fields of some keys, and the other entries. -/
theorem yields_form (fill : List String → ρ) {record : ρ} (hnil : fill [] = form.absent)
    (hfields : ∀ levels, List.Forall₂ (Fits levels fill) form.fields own)
    (hnodup : ((own ++ extra).map Slot.key).Nodup)
    (hothers : ∀ slot ∈ extra, ∃ settle, form.others = .kept settle)
    (hsettle : ∀ keys kept, (∀ slot ∈ own, slot.key ∉ keys → slot.Default) → Fills extra kept →
      form.settle { record := fill keys, seen := keys, kept := kept.reverse } = .ok record)
    {item : Value} (hspelled : Spelled (own ++ extra) item) (hdepth : item.Within levels) :
    Yields (form.read levels) record item := by
  obtain ⟨entries, rfl, hfills⟩ := hspelled
  obtain _ | levels := levels
  · exact hdepth.elim
  have hfields := hfields levels
  have henters := enters_draftOf (takes_of_fills hfields hnodup hothers hfills hdepth) hfills.nodup
    (fun key _ => List.not_mem_nil) []
  -- a field that no entry fills was omitted and holds its default, so the draft is the record
  have hdraft : form.settle (draftOf form fill [] [] entries) = .ok record := by
    rw [draftOf, List.append_nil, List.append_nil]
    refine hsettle _ _ (fun slot hslot hkey => ?_) (fills_otherEntries hfields hnodup hfills)
    rw [List.mem_reverse] at hkey
    exact default_of_ownEntries hfields hnodup hfills hslot hkey
  intro blank text hblank hitem rest
  cases hitem with
  | @object _ inner hinner =>
    obtain ⟨left, hread, hclose⟩ := readEntries_roundsFor_inside henters hinner rest
    have hbody : form.readBody levels (encode (inner ++ ['\x7d']) ++ rest) =
        .ok (record, left) := by
      rw [hnil] at hread
      refine bind_eq_ok_iff.mpr ⟨_, hread, ?_⟩
      dsimp only
      rw [hdraft]
      rfl
    rw [encode_append, List.append_assoc]
    refine (read_of_branch (b := Byte.objectOpen) (Form.read.eq_def form (levels + 1)) hblank
      (by decide) _).trans ?_
    exact readObject_of_body hbody hclose

end Records

/-! ## References -/

section References

variable {kind? target? : Option String} {items? : Option Reference} {itemsSlot : Slot}

/-- The fields of a reference as far as their keys have occurred. -/
def spellingOf (kind? target? : Option String) (items? : Option Reference) (keys : List String) :
    Spelling where
  kind := if kindKey ∈ keys then some kind? else none
  target := if targetKey ∈ keys then some target? else none
  items := if itemsKey ∈ keys then some items? else none

theorem optionalText_elim (text? : Option String) :
    optionalText (text?.elim .null .string) = .ok text? := by
  cases text? <;> rfl

theorem referenceOfEntries_kind {entries : List (String × Value)} {keys : List String}
    (hfresh : kindKey ∉ keys) :
    referenceOfEntries ((kindKey, kind?.elim .null .string) :: entries)
        (spellingOf kind? target? items? keys) =
      referenceOfEntries entries (spellingOf kind? target? items? (kindKey :: keys)) := by
  have htarget : targetKey ≠ kindKey := by decide
  have hitems : itemsKey ≠ kindKey := by decide
  rw [referenceOfEntries, if_pos rfl]
  simp only [spellingOf, if_neg hfresh, optionalText_elim, List.mem_cons, true_or, if_true,
    htarget, hitems, false_or]
  rfl

theorem referenceOfEntries_target {entries : List (String × Value)} {keys : List String}
    (hfresh : targetKey ∉ keys) :
    referenceOfEntries ((targetKey, target?.elim .null .string) :: entries)
        (spellingOf kind? target? items? keys) =
      referenceOfEntries entries (spellingOf kind? target? items? (targetKey :: keys)) := by
  have hkind : kindKey ≠ targetKey := by decide
  have hitems : itemsKey ≠ targetKey := by decide
  rw [referenceOfEntries, if_neg hkind.symm, if_pos rfl]
  simp only [spellingOf, if_neg hfresh, optionalText_elim, List.mem_cons, true_or, if_true,
    hkind, hitems, false_or]
  rfl

theorem referenceOfEntries_items {entries : List (String × Value)} {keys : List String}
    {value : Value} (hvalue : optionalReference value = .ok items?) (hfresh : itemsKey ∉ keys) :
    referenceOfEntries ((itemsKey, value) :: entries) (spellingOf kind? target? items? keys) =
      referenceOfEntries entries (spellingOf kind? target? items? (itemsKey :: keys)) := by
  have hkind : kindKey ≠ itemsKey := by decide
  have htarget : targetKey ≠ itemsKey := by decide
  rw [referenceOfEntries, if_neg hkind.symm, if_neg htarget.symm, if_pos rfl]
  simp only [spellingOf, if_neg hfresh, hvalue, List.mem_cons, true_or, if_true, hkind, htarget,
    false_or]
  rfl

/-- Entries take the fields of a reference from one set of keys to a larger one. -/
theorem referenceOfEntries_spellingOf {entries : List (String × Value)}
    (hkey : itemsSlot.key = itemsKey)
    (hitems : ∀ value, itemsSlot.Spells value → optionalReference value = .ok items?)
    (hspelled : ∀ entry ∈ entries, ∃ slot ∈ [optionSlot kindKey kind?, optionSlot targetKey target?,
      itemsSlot], slot.key = entry.1 ∧ slot.Spells entry.2)
    (hnodup : (entries.map Prod.fst).Nodup) {keys : List String}
    (hkeys : ∀ key ∈ entries.map Prod.fst, key ∉ keys) :
    referenceOfEntries entries (spellingOf kind? target? items? keys) =
      .ok (spellingOf kind? target? items? ((entries.map Prod.fst).reverse ++ keys)).reference := by
  induction entries generalizing keys with
  | nil => rfl
  | cons entry entries ih =>
    obtain ⟨key, value⟩ := entry
    obtain ⟨⟨slot, hslot, hsame, hspells⟩, hspelled⟩ := List.forall_mem_cons.mp hspelled
    obtain ⟨hnew, hnodup⟩ := List.nodup_cons.mp hnodup
    obtain ⟨hfresh, hkeys⟩ := List.forall_mem_cons.mp hkeys
    have hnext : ∀ other ∈ entries.map Prod.fst, other ∉ key :: keys := by
      intro other hother
      rw [List.mem_cons, not_or]
      exact ⟨fun h => hnew (h ▸ hother), hkeys other hother⟩
    rw [List.map_cons, List.reverse_cons, List.append_assoc, List.singleton_append,
      ← ih hspelled hnodup hnext]
    simp only [List.mem_cons, List.not_mem_nil, or_false] at hslot
    obtain rfl | rfl | rfl := hslot
    · obtain rfl : kindKey = key := hsame
      obtain rfl : value = kind?.elim .null .string := hspells
      exact referenceOfEntries_kind hfresh
    · obtain rfl : targetKey = key := hsame
      obtain rfl : value = target?.elim .null .string := hspells
      exact referenceOfEntries_target hfresh
    · obtain rfl : itemsKey = key := hkey.symm.trans hsame
      exact referenceOfEntries_items (hitems value hspells) hfresh

/-- Entries that fill the slots of a reference spell it, if those of its elements do. -/
theorem referenceOfEntries_eq (items? : Option Reference) {entries : List (String × Value)}
    (hkey : itemsSlot.key = itemsKey)
    (hitems : ∀ value, itemsSlot.Spells value → optionalReference value = .ok items?)
    (hdefault : itemsSlot.Default → items? = none)
    (hfills : Fills [optionSlot kindKey kind?, optionSlot targetKey target?, itemsSlot] entries) :
    referenceOfEntries entries {} = .ok (.ofFields kind? target? items?) := by
  have hread := referenceOfEntries_spellingOf hkey hitems hfills.spelled hfills.nodup
    (fun key _ => List.not_mem_nil)
  have hstart : spellingOf kind? target? items? [] = {} := rfl
  rw [hstart, List.append_nil] at hread
  rw [hread]
  -- a key that has not occurred leaves its field absent, as omitting it says
  have hopted {α : Type} {key : String} {field? : Option α}
      (hfield : key ∉ entries.map Prod.fst → field? = none) :
      (if key ∈ (entries.map Prod.fst).reverse then some field? else none).join = field? := by
    by_cases hmem : key ∈ entries.map Prod.fst
    · rw [if_pos (List.mem_reverse.mpr hmem)]
      rfl
    · rw [if_neg (fun h => hmem (List.mem_reverse.mp h)), hfield hmem]
      rfl
  rw [Spelling.reference, spellingOf, hopted, hopted, hopted]
  · intro hmissing
    refine hdefault (hfills.omitted itemsSlot ?_ (hkey ▸ hmissing))
    exact List.mem_cons_of_mem _ (List.mem_cons_of_mem _ List.mem_cons_self)
  · exact hfills.omitted (optionSlot targetKey target?) (List.mem_cons_of_mem _ List.mem_cons_self)
  · exact hfills.omitted (optionSlot kindKey kind?) List.mem_cons_self

/-- **A reference is read back** from the entries that fill its slots. -/
theorem referenceOfEntries_of_fills (reference : Reference) {entries : List (String × Value)}
    (hfills : Fills reference.slots entries) :
    referenceOfEntries entries {} = .ok reference := by
  induction reference generalizing entries with
  | bare kind? target? =>
    refine referenceOfEntries_eq none rfl ?_ (fun _ => rfl) hfills
    rintro value rfl
    rfl
  | withItems kind? target? items ih =>
    refine referenceOfEntries_eq (some items) rfl ?_ False.elim hfills
    rintro value ⟨entries, rfl, hfills⟩
    rw [optionalReference, ih hfills]
    rfl

end References

/-! ## Domains -/

section Domains

variable {levels : Nat} {item : Value}

theorem keys_slots (reference : Reference) :
    reference.slots.map Slot.key = ["type", "$ref", "items"] := by
  cases reference <;> rfl

/-- What has been read of a field, by whether its key has occurred. -/
def heard {α : Type} [Inhabited α] (keys : List String) (key : String) (value : α) : α :=
  if key ∈ keys then value else default

theorem heard_eq {α : Type} [Inhabited α] {keys : List String} {key : String} {value : α}
    (h : key ∉ keys → value = default) : heard keys key value = value := by
  unfold heard
  split
  · rfl
  · rename_i hmissing
    exact (h hmissing).symm

section Heard

variable {keys : List String} {key : String}

theorem heard_text {text : String}
    (h : (textSlot key text).key ∉ keys → (textSlot key text).Default) :
    heard keys key text = text := heard_eq h

theorem heard_flag {flag : Bool}
    (h : (flagSlot key flag).key ∉ keys → (flagSlot key flag).Default) :
    heard keys key flag = flag := heard_eq h

theorem heard_list {α : Type} {slots : α → List Slot} {elements : List α}
    (h : (listSlot key slots elements).key ∉ keys → (listSlot key slots elements).Default) :
    heard keys key elements = elements := heard_eq h

end Heard

/-- A property as far as its keys have occurred. -/
def propertyOf (slot : Property) (keys : List String) : Property where
  name := heard keys "name" slot.name
  optional := heard keys "optional" slot.optional
  description := heard keys "description" slot.description

theorem yields_propertyForm {slot : Property} (hspelled : Spelled slot.slots item)
    (hdepth : item.Within levels) : Yields (propertyForm.read levels) slot item := by
  refine yields_form (propertyOf slot) rfl (fun levels => ?_) ?_ ?_ ?_ hspelled hdepth
  · refine .cons (fits_textField fun keys => ?_) (.cons (fits_flagField fun keys => ?_)
      (.cons (fits_textField fun keys => ?_) .nil))
    all_goals simp [propertyOf, heard]
  · rw [List.map_append, keys_slots]
    show ["name", "optional", "description", "type", "$ref", "items"].Nodup
    decide
  · exact fun _ _ => ⟨_, rfl⟩
  · intro keys kept hdefault hfills
    simp only [List.forall_mem_cons] at hdefault
    obtain ⟨hname, hoptional, hdescription, -⟩ := hdefault
    refine bind_eq_ok_iff.mpr ⟨slot.reference, ?_, ?_⟩
    · rw [List.reverse_reverse]
      exact referenceOfEntries_of_fills slot.reference hfills
    · rw [propertyOf, heard_text hname, heard_flag hoptional, heard_text hdescription]
      rfl

/-- A type as far as its keys have occurred. -/
def definitionOf (declared : Definition) (keys : List String) : Definition where
  id := heard keys "id" declared.id
  description := heard keys "description" declared.description
  properties := heard keys "properties" declared.properties

theorem yields_definitionForm {declared : Definition} (hspelled : Spelled declared.slots item)
    (hdepth : item.Within levels) : Yields (definitionForm.read levels) declared item := by
  refine yields_form (definitionOf declared) rfl (fun levels => ?_) ?_ ?_ ?_ hspelled hdepth
  · refine .cons (fits_textField fun keys => ?_) (.cons (fits_textField fun keys => ?_)
      (.cons (fits_listField yields_propertyForm fun keys => ?_) .nil))
    all_goals simp [definitionOf, heard]
  · rw [List.map_append, keys_slots]
    show ["id", "description", "properties", "type", "$ref", "items"].Nodup
    decide
  · exact fun _ _ => ⟨_, rfl⟩
  · intro keys kept hdefault hfills
    simp only [List.forall_mem_cons] at hdefault
    obtain ⟨hid, hdescription, hproperties, -⟩ := hdefault
    refine bind_eq_ok_iff.mpr ⟨declared.reference, ?_, ?_⟩
    · rw [List.reverse_reverse]
      exact referenceOfEntries_of_fills declared.reference hfills
    · rw [definitionOf, heard_text hid, heard_text hdescription, heard_list hproperties]
      rfl

/-- A command as far as its keys have occurred. -/
def commandOf (command : Command) (keys : List String) : Command where
  name := heard keys "name" command.name
  description := heard keys "description" command.description
  parameters := heard keys "parameters" command.parameters
  returns := heard keys "returns" command.returns

theorem yields_commandForm {command : Command} (hspelled : Spelled command.slots item)
    (hdepth : item.Within levels) : Yields (commandForm.read levels) command item := by
  rw [← List.append_nil command.slots] at hspelled
  refine yields_form (commandOf command) rfl (fun levels => ?_) ?_ ?_ ?_ hspelled hdepth
  · refine .cons (fits_textField fun keys => ?_) (.cons (fits_textField fun keys => ?_)
      (.cons (fits_listField yields_propertyForm fun keys => ?_)
        (.cons (fits_listField yields_propertyForm fun keys => ?_) .nil)))
    all_goals simp [commandOf, heard]
  · show ["name", "description", "parameters", "returns"].Nodup
    decide
  · exact List.forall_mem_nil _
  · intro keys kept hdefault _
    simp only [Command.slots, List.forall_mem_cons] at hdefault
    obtain ⟨hname, hdescription, hparameters, hreturns, -⟩ := hdefault
    rw [commandOf, heard_text hname, heard_text hdescription, heard_list hparameters,
      heard_list hreturns]
    rfl

/-- An event as far as its keys have occurred. -/
def eventOf (event : Event) (keys : List String) : Event where
  name := heard keys "name" event.name
  description := heard keys "description" event.description
  parameters := heard keys "parameters" event.parameters

theorem yields_eventForm {event : Event} (hspelled : Spelled event.slots item)
    (hdepth : item.Within levels) : Yields (eventForm.read levels) event item := by
  rw [← List.append_nil event.slots] at hspelled
  refine yields_form (eventOf event) rfl (fun levels => ?_) ?_ ?_ ?_ hspelled hdepth
  · refine .cons (fits_textField fun keys => ?_) (.cons (fits_textField fun keys => ?_)
      (.cons (fits_listField yields_propertyForm fun keys => ?_) .nil))
    all_goals simp [eventOf, heard]
  · show ["name", "description", "parameters"].Nodup
    decide
  · exact List.forall_mem_nil _
  · intro keys kept hdefault _
    simp only [Event.slots, List.forall_mem_cons] at hdefault
    obtain ⟨hname, hdescription, hparameters, -⟩ := hdefault
    rw [eventOf, heard_text hname, heard_text hdescription, heard_list hparameters]
    rfl

/-- A domain as far as its keys have occurred. -/
def domainOf (source : Domain) (keys : List String) : Domain where
  name := heard keys "domain" source.name
  description := heard keys "description" source.description
  types := heard keys "types" source.types
  commands := heard keys "commands" source.commands
  events := heard keys "events" source.events

theorem yields_domainForm {source : Domain} (hspelled : Spelled source.slots item)
    (hdepth : item.Within levels) : Yields (domainForm.read levels) source item := by
  rw [← List.append_nil source.slots] at hspelled
  refine yields_form (domainOf source) rfl (fun levels => ?_) ?_ ?_ ?_ hspelled hdepth
  · refine .cons (fits_textField fun keys => ?_) (.cons (fits_textField fun keys => ?_)
      (.cons (fits_listField yields_definitionForm fun keys => ?_)
        (.cons (fits_listField yields_commandForm fun keys => ?_)
          (.cons (fits_listField yields_eventForm fun keys => ?_) .nil))))
    all_goals simp [domainOf, heard]
  · show ["domain", "description", "types", "commands", "events"].Nodup
    decide
  · exact List.forall_mem_nil _
  · intro keys kept hdefault _
    simp only [Domain.slots, List.forall_mem_cons] at hdefault
    obtain ⟨hname, hdescription, htypes, hcommands, hevents, -⟩ := hdefault
    rw [domainOf, heard_text hname, heard_text hdescription, heard_list htypes,
      heard_list hcommands, heard_list hevents]
    rfl

end Domains

/-- **Every written domain is read back.** A text that writes a domain, with at most 127
brackets open at once, loads as that domain: the order of the keys, the white space, the
escapes and the fields that are left out make no difference. -/
theorem loadDomain_of_written {source : Domain} {text : String} (h : source.Written 127 text) :
    loadDomain (textBytes text) = .ok source := by
  obtain ⟨value, hspelled, hdepth, htext⟩ := h
  rw [textBytes_eq_encode]
  generalize text.toList = chars at htext
  obtain ⟨hbefore, hvalue, hafter⟩ := htext
  rename_i before inner after
  have hread := yields_domainForm hspelled hdepth hbefore hvalue (encode after)
  rw [← encode_append, List.append_assoc] at hread
  rw [loadDomain, load, deepest, hread]

/-- A domain with one type, an array of what is named `A`. -/
def arraySource : Domain := { name := "P", types := [{ reference := .array (.named "A") }] }

/-- A text of it, with white space, an escape, and no key where one would look for it. -/
def arrayText : String :=
  "\x7b \"types\" : [\x7b\"items\":\x7b\"$ref\":\"\\u0041\"\x7d,\"type\":\"array\"\x7d]," ++
    "\"domain\":\"P\" \x7d"

theorem arraySource_written : arraySource.Written 127 arrayText := by
  let items : Value := .object [("$ref", .string "A")]
  let declared : Value := .object [("items", items), ("type", .string "array")]
  refine ⟨.object [("types", .list [declared]), ("domain", .string "P")], ?_, ?_, ?_⟩
  · have hitems : Spelled (Reference.named "A").slots items :=
      ⟨_, rfl, by decide, by simp [Reference.slots, Reference.named, optionSlot],
        by simp [Reference.slots, Reference.named, optionSlot]⟩
    have hdeclared : Spelled (Definition.slots { reference := .array (.named "A") }) declared :=
      ⟨_, rfl, by decide,
        by simp [Definition.slots, Reference.slots, Reference.array, textSlot, optionSlot, hitems],
        by simp [Definition.slots, Reference.slots, Reference.array, textSlot, listSlot,
          optionSlot]⟩
    exact ⟨_, rfl, by decide, by simp [arraySource, Domain.slots, textSlot, listSlot, hdeclared],
      by simp [arraySource, Domain.slots, textSlot, listSlot]⟩
  · simp [Value.Within, declared, items]
  · have hspace : Blank [' '] := List.forall_mem_singleton.mpr List.mem_cons_self
    have hescape : WritesChar 'A' ['\\', 'u', '0', '0', '4', '1'] :=
      .code ⟨[0, 0, 4, 1], by simp [hexDigits], rfl, rfl⟩
    have htarget := @WritesString.mk "A" _ (.cons hescape .nil)
    have hitems : Writes items _ :=
      .object (.cons blank_nil (.mk (writesString_self (by decide)) blank_nil blank_nil
        (.string htarget)) (.nil blank_nil))
    have hkind : WritesEntry Writes ("type", .string "array") _ :=
      .mk (writesString_self (by decide)) blank_nil blank_nil
        (.string (writesString_self (by decide)))
    have hdeclared : Writes declared _ :=
      .object (.cons blank_nil (.mk (writesString_self (by decide)) blank_nil blank_nil hitems)
        (.cons blank_nil blank_nil hkind (.nil blank_nil)))
    have hname : WritesEntry Writes ("domain", .string "P") _ :=
      .mk (writesString_self (by decide)) blank_nil blank_nil
        (.string (writesString_self (by decide)))
    exact .mk blank_nil (.object (.cons hspace (.mk (writesString_self (by decide)) hspace hspace
      (.list (.cons blank_nil hdeclared (.nil blank_nil))))
        (.cons blank_nil blank_nil hname (.nil hspace)))) blank_nil

theorem loadDomain_arrayText :
    arraySource.Written 127 arrayText ∧ loadDomain (textBytes arrayText) = .ok arraySource :=
  ⟨arraySource_written, loadDomain_of_written arraySource_written⟩

end Ambient.Load
