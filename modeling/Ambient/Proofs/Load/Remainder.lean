/-
What follows a domain in its text.

Every record ends with its own bracket, so the reader of a domain never looks past the
bracket it ends with. The main statement, `loadDomain_append`, is that a text that loads
still loads as the same domain whatever is put after it: nothing looks for the end of the
text, neither white space nor anything else has to come there.
-/
import Ambient.Layout.Sink
import Ambient.Load.Domain
import Ambient.Proofs.Json.Extent

set_option autoImplicit false

namespace Ambient.Json

variable {α ρ : Type} {text rest : List UInt8}

/-! ## Values of a wanted kind -/

/-- A value of another kind than the wanted one is always refused. -/
theorem refuse_ne_ok {wanted : String} {value : α} : refuse wanted text ≠ .ok value := by
  intro h
  obtain ⟨⟨found, left⟩, -, h⟩ := bind_eq_ok_iff.mp h
  cases h

/-- A reader that decides by the first byte after white space what to do with the rest,
and finds the end of it. -/
theorem selfEnding_of_branch {read : Reader α} {branch : UInt8 → Reader α}
    (hread : ∀ text, read text =
      match skipSpace text with
      | [] => .error (.next .endOfValue [])
      | b :: tail => branch b tail)
    (hbranch : ∀ {b text value rest}, branch b text = .ok (value, rest) →
      rest.length ≤ text.length ∧ ∀ more, branch b (text ++ more) = .ok (value, rest ++ more)) :
    SelfEnding read := by
  intro text value rest h
  rw [hread] at h
  split at h
  · cases h
  · rename_i b tail hskip
    obtain ⟨hlength, hmore⟩ := hbranch h
    refine ⟨Nat.lt_of_le_of_lt hlength (length_of_skipSpace hskip), fun more => ?_⟩
    rw [hread, skipSpace_append hskip]
    exact hmore more

/-- A text ends with its quote. -/
theorem selfEnding_readText : SelfEnding readText := by
  refine selfEnding_of_branch readText.eq_def fun {b text value rest} h => ?_
  split at h
  · obtain ⟨hlength, hmore⟩ := selfEnding_readString h
    exact ⟨Nat.le_of_lt hlength, hmore⟩
  · exact absurd h refuse_ne_ok

/-- A flag ends with its last letter, which is known from its first one. -/
theorem selfEnding_readFlag : SelfEnding readFlag := by
  refine selfEnding_of_branch readFlag.eq_def fun {b text value rest} h => ?_
  split at h
  · exact expectBytes_bind_append h
  · exact expectBytes_bind_append h
  · exact absurd h refuse_ne_ok

/-- A list ends with its bracket, if its elements do not depend on what follows them. -/
theorem selfEnding_readList {read : Nat → Reader α} (hread : ∀ levels, Steady (read levels))
    (levels : Nat) : SelfEnding (readList read levels) := by
  refine selfEnding_of_branch (readList.eq_def read levels) fun {b text value rest} h => ?_
  split at h
  · cases h
  · rename_i inner hlead
    obtain ⟨⟨values, left⟩, hvalues, h⟩ := bind_eq_ok_iff.mp h
    obtain ⟨afterClose, hclose, h⟩ := bind_eq_ok_iff.mp h
    cases h
    obtain ⟨hlength, hmore⟩ := readElements_closeList_append (hread inner) hvalues hclose
    refine ⟨hlength, fun more => bind_eq_ok_iff.mpr ⟨_, (hmore more).1, ?_⟩⟩
    exact bind_eq_ok_iff.mpr ⟨_, (hmore more).2, rfl⟩
  · exact absurd h refuse_ne_ok

/-! ## Records -/

/-- The value of a field is read alike in front of any text that goes on. -/
def FieldReader.Steady (field : FieldReader ρ) : Prop :=
  ∀ levels record, Json.Steady (field.read levels record)

/-- Storing a value looks at no text. -/
theorem FieldReader.steady_of {read : Nat → Reader α} (hread : ∀ levels, Json.Steady (read levels))
    (key : String) (store : α → ρ → ρ) : (FieldReader.of key read store).Steady := by
  intro levels record text value rest h
  obtain ⟨⟨stored, left⟩, hstored, h⟩ := bind_eq_ok_iff.mp h
  cases h
  obtain ⟨hlength, hmore⟩ := hread levels hstored
  exact ⟨hlength, fun hne more => bind_eq_ok_iff.mpr ⟨_, hmore hne more, rfl⟩⟩

namespace Form

variable {form : Form ρ}

theorem mapError_eq_ok_iff {ε ε' : Type} {f : ε → ε'} {x : Except ε α} {value : α} :
    x.mapError f = .ok value ↔ x = .ok value := by
  cases x with
  | error fault => exact ⟨nofun, nofun⟩
  | ok result => rw [Except.mapError, Except.ok.injEq, Except.ok.injEq]

/-- An unknown member is passed over or kept, and either is done alike in front of more text. -/
theorem steady_enterOther (levels : Nat) (key : String) (draft : Draft ρ) :
    Steady (form.enterOther levels key draft) := by
  intro text result rest h
  unfold enterOther at h ⊢
  split at h
  · obtain ⟨⟨skipped, left⟩, hskip, h⟩ := bind_eq_ok_iff.mp h
    cases h
    obtain ⟨hlength, hmore⟩ := steady_readEntry steady_skipValue key hskip
    exact ⟨hlength, fun hne more => bind_eq_ok_iff.mpr ⟨_, hmore hne more, rfl⟩⟩
  · obtain ⟨⟨value, left⟩, hvalue, h⟩ := bind_eq_ok_iff.mp h
    cases h
    obtain ⟨hlength, hmore⟩ := steady_readEntry (steady_readValue levels) key hvalue
    exact ⟨hlength, fun hne more => bind_eq_ok_iff.mpr ⟨_, hmore hne more, rfl⟩⟩

/-- A known member is read by the reader of its field. -/
theorem steady_enterField {field : FieldReader ρ} (hfield : field.Steady) (levels : Nat)
    (draft : Draft ρ) : Steady (enterField field levels draft) := by
  intro text result rest h
  obtain ⟨⟨record, left⟩, hrecord, h⟩ := bind_eq_ok_iff.mp h
  cases h
  obtain ⟨hlength, hmore⟩ := steady_readEntry (hfield levels draft.record) field.key hrecord
  exact ⟨hlength, fun hne more => bind_eq_ok_iff.mpr ⟨_, hmore hne more, rfl⟩⟩

/-- Whether a key is known, and whether it has been seen before, does not depend on what follows. -/
theorem steady_enter (hfields : ∀ field ∈ form.fields, field.Steady) (levels : Nat) (key : String)
    (draft : Draft ρ) : Steady (form.enter levels key draft) := by
  intro text result rest h
  unfold enter at h ⊢
  split at h
  · obtain ⟨hlength, hmore⟩ := steady_enterOther levels key draft (mapError_eq_ok_iff.mp h)
    exact ⟨hlength, fun hne more => mapError_eq_ok_iff.mpr (hmore hne more)⟩
  · rename_i field hfield
    split at h
    · cases h
    rename_i hseen
    have hmem := List.mem_of_find?_eq_some hfield
    obtain ⟨hlength, hmore⟩ :=
      steady_enterField (hfields field hmem) levels draft (mapError_eq_ok_iff.mp h)
    refine ⟨hlength, fun hne more => ?_⟩
    rw [if_neg hseen]
    exact mapError_eq_ok_iff.mpr (hmore hne more)

/-- The body of an object is read up to the bracket that closes it, and this bracket is there. -/
theorem readBody_append (hfields : ∀ field ∈ form.fields, field.Steady) {levels : Nat}
    {record : ρ} (h : form.readBody levels text = .ok (record, rest)) :
    rest.length ≤ text.length ∧ (∃ after, skipSpace rest = Byte.objectClose :: after) ∧
      ∀ more, form.readBody levels (text ++ more) = .ok (record, rest ++ more) := by
  obtain ⟨⟨draft, left⟩, hentries, h⟩ := bind_eq_ok_iff.mp h
  dsimp only at h
  split at h
  · rename_i settled hsettle
    cases h
    obtain ⟨hlength, hclose, hmore⟩ :=
      readEntries_roundsFor_append (steady_enter hfields levels) hentries
    refine ⟨hlength, hclose, fun more => bind_eq_ok_iff.mpr ⟨_, hmore more, ?_⟩⟩
    dsimp only
    rw [hsettle]
    rfl
  · cases h

/-- The fields of a list are read one position after the other, by induction on the fields that are
left. -/
theorem readPositions_append {levels : Nat} {fields : List (FieldReader ρ)}
    (hfields : ∀ field ∈ fields, field.Steady) {index : Nat} {record final : ρ}
    (h : readPositions levels fields index record text = .ok (final, rest)) :
    rest.length ≤ text.length ∧ (rest ≠ [] → ∀ more,
      readPositions levels fields index record (text ++ more) = .ok (final, rest ++ more)) := by
  induction fields generalizing index record text with
  | nil =>
    cases h
    exact ⟨Nat.le_refl _, fun _ _ => rfl⟩
  | cons field fields ih =>
    rw [readPositions] at h
    split at h
    · cases h
    · rename_i hnext
      cases h
      obtain ⟨-, -, hmore⟩ := nextElement?_append hnext
      refine ⟨Nat.le_refl _, fun _ more => ?_⟩
      rw [readPositions, hmore]
      rfl
    · rename_i element hnext
      split at h
      · cases h
      rename_i record' left hvalue
      obtain ⟨-, helement, hnextMore⟩ := nextElement?_append hnext
      have hshorter := helement element rfl
      obtain ⟨hleft, hvalueMore⟩ := hfields field List.mem_cons_self levels record hvalue
      obtain ⟨hrest, hmore⟩ := ih (fun f hf => hfields f (List.mem_cons_of_mem _ hf)) h
      refine ⟨by omega, fun hne more => ?_⟩
      -- what is left in the end was left after this element already
      have hpos := List.length_pos_iff.mpr hne
      have hleftNe : left ≠ [] := List.length_pos_iff.mp (by omega)
      rw [readPositions, hnextMore]
      simp only [Option.map_some, hvalueMore hleftNe]
      exact hmore hne more

/-- A record ends with its bracket. -/
theorem selfEnding_read (hfields : ∀ field ∈ form.fields, field.Steady) (levels : Nat) :
    SelfEnding (form.read levels) := by
  refine selfEnding_of_branch (read.eq_def form levels) fun {b text value rest} h => ?_
  split at h
  · cases h
  · obtain ⟨hlength, hmore⟩ := selfEnding_readObject (readBody_append hfields) h
    exact ⟨Nat.le_of_lt hlength, hmore⟩
  · cases h
  · -- a record in positions, whose bracket is closed after the last one
    obtain ⟨⟨record, left⟩, hrecord, h⟩ := bind_eq_ok_iff.mp h
    obtain ⟨afterClose, hclose, h⟩ := bind_eq_ok_iff.mp h
    cases h
    obtain ⟨hleft, hrecordMore⟩ := readPositions_append hfields hrecord
    obtain ⟨hlength, hcloseMore⟩ := closeList_append hclose
    have hleftNe : left ≠ [] := List.length_pos_iff.mp (by omega)
    refine ⟨by omega, fun more => bind_eq_ok_iff.mpr ⟨_, hrecordMore hleftNe more, ?_⟩⟩
    exact bind_eq_ok_iff.mpr ⟨_, hcloseMore more, rfl⟩
  · exact absurd h refuse_ne_ok

end Form

end Ambient.Json

namespace Ambient.Load

open Ambient.Json Ambient.Schema
open Ambient.Layout.Sink (textBytes)

/-! ## Domains -/

theorem steady_textField {ρ : Type} (key : String) (store : String → ρ → ρ) :
    (textField key store).Steady :=
  FieldReader.steady_of (fun _ => selfEnding_readText.steady) key store

theorem steady_listField {α ρ : Type} {form : Form α}
    (hfields : ∀ field ∈ form.fields, field.Steady) (key : String) (store : List α → ρ → ρ) :
    (FieldReader.of key (readList form.read) store).Steady :=
  have hread : ∀ levels, Steady (form.read levels) := fun levels =>
    (Form.selfEnding_read hfields levels).steady
  FieldReader.steady_of (fun levels => (selfEnding_readList hread levels).steady) key store

theorem steady_propertyForm : ∀ field ∈ propertyForm.fields, field.Steady := by
  simp only [propertyForm, List.forall_mem_cons]
  exact ⟨steady_textField _ _, FieldReader.steady_of (fun _ => selfEnding_readFlag.steady) _ _,
    steady_textField _ _, List.forall_mem_nil _⟩

theorem steady_definitionForm : ∀ field ∈ definitionForm.fields, field.Steady := by
  simp only [definitionForm, List.forall_mem_cons]
  exact ⟨steady_textField _ _, steady_textField _ _, steady_listField steady_propertyForm _ _,
    List.forall_mem_nil _⟩

theorem steady_commandForm : ∀ field ∈ commandForm.fields, field.Steady := by
  simp only [commandForm, List.forall_mem_cons]
  exact ⟨steady_textField _ _, steady_textField _ _, steady_listField steady_propertyForm _ _,
    steady_listField steady_propertyForm _ _, List.forall_mem_nil _⟩

theorem steady_eventForm : ∀ field ∈ eventForm.fields, field.Steady := by
  simp only [eventForm, List.forall_mem_cons]
  exact ⟨steady_textField _ _, steady_textField _ _, steady_listField steady_propertyForm _ _,
    List.forall_mem_nil _⟩

theorem steady_domainForm : ∀ field ∈ domainForm.fields, field.Steady := by
  simp only [domainForm, List.forall_mem_cons]
  exact ⟨steady_textField _ _, steady_textField _ _, steady_listField steady_definitionForm _ _,
    steady_listField steady_commandForm _ _, steady_listField steady_eventForm _ _,
    List.forall_mem_nil _⟩

/-- **What follows a domain is ignored.** A text that loads as a domain loads as the same
domain whatever is put after it. -/
theorem loadDomain_append {text : List UInt8} {source : Domain} (h : loadDomain text = .ok source)
    (more : List UInt8) : loadDomain (text ++ more) = .ok source := by
  unfold loadDomain load at h ⊢
  split at h
  · rename_i value rest hread
    cases h
    rw [(Form.selfEnding_read steady_domainForm deepest hread).2 more]
  · cases h

/-- A second domain, and anything else, may follow the first one. -/
theorem loadDomain_page_append :
    loadDomain (textBytes "\x7b\"domain\":\"Page\"\x7d") = .ok { name := "Page" } ∧
      loadDomain (textBytes "\x7b\"domain\":\"Page\"\x7d" ++
        textBytes "\x7b\"domain\":\"DOM\"\x7d x") = .ok { name := "Page" } :=
  ⟨rfl, loadDomain_append rfl _⟩

/-- No text that follows a domain, not even one that starts with a letter, keeps the domain
from being loaded. -/
theorem loadDomain_append_letter_not_refused :
    ¬ ∀ (text more : List UInt8) (b : UInt8) (source : Domain), loadDomain text = .ok source →
      Byte.isSpace b = false → ∃ error, loadDomain (text ++ b :: more) = .error error := by
  intro hwhole
  obtain ⟨error, herror⟩ := hwhole (textBytes "{}") [] 0x78 {} rfl rfl
  have hloads : loadDomain (textBytes "{}" ++ [0x78]) = .ok {} := rfl
  rw [hloads] at herror
  cases herror

end Ambient.Load
