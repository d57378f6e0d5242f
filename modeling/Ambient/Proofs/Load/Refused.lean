/-
What no description holds.

At the place of a record nothing stands but an object, or, where the record keeps none of its
members, a list of its fields in order (`loadDomain_not_record`). And an object has no key twice
that it knows: a field is seen to have occurred before, and of the members that a record keeps
the reference takes each once (`loadDomain_repeated`).
-/
import Ambient.Proofs.Load.Places

set_option autoImplicit false

namespace Ambient.Load

open Ambient.Json Ambient.Schema
open Ambient.Layout.Sink (textBytes)

/-! ## Other documents than records -/

/-- A document that is not the record that is wanted: no object, and no list either where the
record may be written as one. Elements of a reference may also be absent. -/
def Want.Excludes : Want → Document → Prop
  | .direct (.record _), .object _ => False
  | .direct (.record kind), .list _ => kind.holdsReference = true
  | .direct (.record _), _ => True
  | .kept .items, .object _ | .kept .items, .list _ | .kept .items, .null => False
  | .kept .items, _ => True
  | _, _ => False

theorem toOption_decode_excluded {want : Want} {document : Document}
    (h : want.Excludes document) (levels : Nat) :
    (want.decode levels document).toOption = none := by
  cases want with
  | direct shape =>
    cases shape with
    | record kind =>
      obtain _ | levels := levels
      · rfl
      cases document with
      | object members => exact h.elim
      | list items =>
        obtain ⟨store, hothers⟩ := kind.exists_others_eq_kept h
        change (kind.form.decode (kind.decoders levels) (Document.value levels)
          (.list items)).toOption = none
        rw [Form.decode, hothers]
        rfl
      | _ => rfl
    | _ => cases document <;> exact h.elim
  | kept field =>
    cases field with
    | tag => cases document <;> exact h.elim
    | items =>
      change (Document.value levels document >>= _).toOption = none
      cases document with
      | null => exact h.elim
      | list items => exact h.elim
      | object members => exact h.elim
      | flag value => rw [Document.value_flag]; rfl
      | number literal => rw [Document.value_number]; cases literal.number? <;> rfl
      | string text? => rw [Document.value_string]; cases text? <;> rfl

/-- **Records are objects.** A text with anything else at the place of a record does not load,
but for the lists that a domain, a command, an event or the elements of a reference may be. -/
theorem loadDomain_not_record {place : List Frame} {want : Want} {document : Document}
    {text : String} (hplace : Want.whole.at? place = some want) (hother : want.Excludes document)
    (htext : (fill place document).WrittenIn text) :
    ∃ error, loadDomain (textBytes text) = .error error :=
  exists_error_of_place hplace htext (toOption_decode_excluded hother _)

theorem loadDomain_type_list :
    ∃ error, loadDomain (textBytes "\x7b\"types\":[[]]\x7d") = .error error :=
  loadDomain_not_record at?_onlyType (show Want.Excludes _ (.list []) from rfl)
    (writtenIn_onlyType (.list (.nil blank_nil)) (by simp))

/-- A list may be a domain, one with fewer fields than there are. -/
theorem lists_not_all_refused :
    ¬ ∀ (place : List Frame) (kind : Kind) (document : Document) (text : String),
      Want.whole.at? place = some (.direct (.record kind)) →
      (∀ members, document ≠ .object members) → (fill place document).WrittenIn text →
      ∃ error, loadDomain (textBytes text) = .error error := by
  intro hrefused
  have hwritten : (Document.list []).WrittenIn "[]" :=
    ⟨[], _, [], rfl, blank_nil, .list (.nil blank_nil), blank_nil⟩
  obtain ⟨error, herror⟩ := hrefused [] .domain (.list []) "[]" rfl nofun hwritten
  have hload : loadDomain (textBytes "[]") = .ok {} := rfl
  rw [hload] at herror
  cases herror

/-! ## Repeated keys -/

theorem decodeMembers_eq_foldlM {σ : Type}
    (enter : String → σ → Document → Except (List Segment) σ) (state : σ)
    (members : List (Option String × Document)) :
    decodeMembers enter state members = members.foldlM (fun state member =>
      match member.1 with
      | none => .error [.unknownKey]
      | some key => enter key state member.2) state := by
  induction members generalizing state with
  | nil => rfl
  | cons member members ih =>
    obtain ⟨_ | key, document⟩ := member
    · rfl
    · rw [decodeMembers, List.foldlM_cons]
      exact congrArg _ (funext ih)

/-- What counts the keys that are kept counts those of the members. -/
theorem count_of_decodeMembers {σ : Type}
    {enter : String → σ → Document → Except (List Segment) σ} {key : String} (count : σ → Nat)
    (h : ∀ {other state document state'}, enter other state document = .ok state' →
      count state' = count state + if other = key then 1 else 0)
    {members : List (Option String × Document)} {state final : σ}
    (hfinal : decodeMembers enter state members = .ok final) :
    count final = count state + (members.map Prod.fst).count (some key) := by
  induction members generalizing state with
  | nil =>
    cases hfinal
    rfl
  | cons member members ih =>
    obtain ⟨_ | other, document⟩ := member
    · cases hfinal
    · obtain ⟨state', hstate', hrest⟩ := bind_eq_ok_iff.mp hfinal
      rw [ih hrest, h hstate', List.map_cons, List.count_cons, Nat.add_assoc,
        Nat.add_comm (List.count _ _)]
      simp only [beq_iff_eq, Option.some.injEq]

section Repeated

variable {ρ : Type} {form : Form ρ} {fields : List (FieldDecoder ρ)}
  {value : Document → Except (List Segment) Value} {key : String}
  {members : List (Option String × Document)} {draft final : Draft ρ}

/-- A field occurs once at most. -/
theorem count_le_one_of_field (hfield : (fields.find? (·.key == key)).isSome = true)
    (h : decodeMembers (form.accept fields value) draft members = .ok final) :
    (members.map Prod.fst).count (some key) ≤ 1 := by
  rw [decodeMembers_eq_foldlM] at h
  refine (count_le_one_of_foldlM (fun draft : Draft ρ => key ∈ draft.seen) ?_ ?_ h).1
  · intro draft document draft' hdraft'
    obtain ⟨-, hnew, hseen, -⟩ | ⟨hnone, -, -⟩ := Form.accept_cases hdraft'
    · exact ⟨hnew, hseen ▸ List.mem_cons_self⟩
    · rw [hnone] at hfield
      cases hfield
  · rintro draft ⟨_ | other, document⟩ draft' hdraft' hmem
    · cases hdraft'
    · obtain ⟨-, -, hseen, -⟩ | ⟨-, hseen, -⟩ := Form.accept_cases hdraft'
      · exact hseen ▸ List.mem_cons_of_mem _ hmem
      · exact hseen ▸ hmem

/-- Members that are kept are kept as often as they occur. -/
theorem count_kept (hfield : fields.find? (·.key == key) = none)
    (hothers : ∃ settle, form.others = .kept settle)
    (h : decodeMembers (form.accept fields value) draft members = .ok final) :
    (final.kept.map Prod.fst).count key =
      (draft.kept.map Prod.fst).count key + (members.map Prod.fst).count (some key) := by
  refine count_of_decodeMembers (fun draft : Draft ρ => (draft.kept.map Prod.fst).count key)
    (fun {other draft document draft'} hdraft' => ?_) h
  obtain ⟨hsome, -, -, hkept⟩ | ⟨-, -, hkept⟩ := Form.accept_cases hdraft'
  · have hne : other ≠ key := by
      rintro rfl
      rw [hfield] at hsome
      cases hsome
    rw [hkept, if_neg hne, Nat.add_zero]
  · obtain ⟨kept, hkept⟩ := hkept hothers
    rw [hkept, List.map_cons, List.count_cons]
    simp only [beq_iff_eq]

theorem count_keep {α : Type} {decode : Document → Except (List Segment) α} (key : String)
    {kept entries : List (String × α)}
    (h : decodeMembers (keep decode) kept members = .ok entries) :
    (entries.map Prod.fst).count key =
      (kept.map Prod.fst).count key + (members.map Prod.fst).count (some key) := by
  refine count_of_decodeMembers
    (fun entries : List (String × α) => (entries.map Prod.fst).count key)
    (fun {other kept document kept'} hkept' => ?_) h
  rw [keep] at hkept'
  cases hvalue : inside (.key other) (decode document) with
  | error fault =>
    rw [hvalue] at hkept'
    cases hkept'
  | ok value =>
    rw [hvalue] at hkept'
    cases hkept'
    rw [List.map_cons, List.count_cons]
    simp only [beq_iff_eq]

/-- A record is decoded only of members in which no key occurs twice that it knows. -/
theorem count_le_one_of_record {kind : Kind} (hkey : (kind.member? key).isSome = true)
    {levels : Nat} {record : kind.Record}
    (h : (Shape.record kind).decode (levels + 1) (.object members) = .ok record) :
    (members.map Prod.fst).count (some key) ≤ 1 := by
  obtain ⟨final, hfinal, hsettled⟩ := bind_eq_ok_iff.mp h
  change decodeMembers (kind.form.accept (kind.decoders levels) _) _ members = _ at hfinal
  rw [Kind.member?] at hkey
  split at hkey
  · rename_i field hfield
    refine count_le_one_of_field ?_ hfinal
    rw [find?_decoders, hfield]
    rfl
  · rename_i hfield
    split at hkey
    · rename_i hholds
      rw [Option.isSome_map] at hkey
      obtain ⟨store, hothers⟩ := kind.exists_others_eq_kept hholds
      -- all of the members are kept, and the reference is settled of what is kept
      have hcount := count_kept (find?_decoders_of_none hfield levels) ⟨_, hothers⟩ hfinal
      rw [List.map_nil, List.count_nil, Nat.zero_add] at hcount
      rw [Form.settled, Form.settle, hothers] at hsettled
      dsimp only at hsettled
      cases hreference : referenceOfEntries final.kept.reverse {} with
      | error cause =>
        rw [hreference] at hsettled
        cases hsettled
      | ok reference =>
        have hle := count_le_one_of_referenceOfEntries hkey hreference
        rwa [List.map_reverse, List.count_reverse, hcount] at hle
    · cases hkey

/-- So are the elements of a reference. -/
theorem count_le_one_of_items (hkey : (keptOf? key).isSome = true) {levels : Nat}
    {items? : Option Reference}
    (h : Kept.items.decode (levels + 1) (.object members) = .ok items?) :
    (members.map Prod.fst).count (some key) ≤ 1 := by
  rw [Kept.decode, Document.value] at h
  cases hentries : decodeMembers (keep (Document.value levels)) [] members with
  | error fault =>
    rw [hentries] at h
    cases h
  | ok entries =>
    rw [hentries] at h
    have hcount := count_keep key hentries
    rw [List.map_nil, List.count_nil, Nat.zero_add] at hcount
    cases hreference : referenceOfEntries entries.reverse {} with
    | error cause =>
      change ((some <$> referenceOfEntries entries.reverse {}).mapError fun _ => []) = _ at h
      rw [hreference] at h
      cases h
    | ok reference =>
      have hle := count_le_one_of_referenceOfEntries hkey hreference
      rwa [List.map_reverse, List.count_reverse, hcount] at hle

theorem toOption_decode_repeated {want : Want} (hkey : (want.member? key).isSome = true)
    (hcount : 2 ≤ (members.map Prod.fst).count (some key)) (levels : Nat) :
    (want.decode levels (.object members)).toOption = none := by
  obtain _ | levels := levels
  · rw [decode_zero_object]
    rfl
  rw [Option.eq_none_iff_forall_ne_some]
  intro result hresult
  rw [toOption_eq_some_iff] at hresult
  refine absurd hcount (Nat.not_le_of_lt (Nat.lt_succ_of_le ?_))
  cases want with
  | direct shape =>
    cases shape with
    | record kind => exact count_le_one_of_record hkey hresult
    | _ => cases hkey
  | kept field =>
    cases field with
    | tag => cases hkey
    | items => exact count_le_one_of_items (Option.isSome_map.symm.trans hkey) hresult

end Repeated

/-- **No key twice.** A text does not load if one of its objects has a key twice that it knows. -/
theorem loadDomain_repeated {place : List Frame} {want : Want} {key : String}
    (hplace : Want.whole.at? place = some want) (hkey : (want.member? key).isSome = true)
    {members : List (Option String × Document)}
    (hcount : 2 ≤ (members.map Prod.fst).count (some key)) {text : String}
    (htext : (fill place (.object members)).WrittenIn text) :
    ∃ error, loadDomain (textBytes text) = .error error :=
  exists_error_of_place hplace htext (toOption_decode_repeated hkey hcount _)

/-- Elements with two kinds. -/
def twiceText : String :=
  "\x7b\"types\":[\x7b\"items\":\x7b\"type\":\"a\",\"type\":\"b\"\x7d\x7d]\x7d"

theorem loadDomain_repeated_type : ∃ error, loadDomain (textBytes twiceText) = .error error := by
  let members : List (Option String × Document) :=
    [(some "type", .string (some "a")), (some "type", .string (some "b"))]
  have hmembers : (Document.object members).WrittenAs _ :=
    .object (.cons blank_nil (.mk (writesMarks_self (by decide)) blank_nil blank_nil
      (.string (writesMarks_self (by decide)))) (.cons blank_nil blank_nil
        (.mk (writesMarks_self (by decide)) blank_nil blank_nil
          (.string (writesMarks_self (by decide)))) (.nil blank_nil)))
  have hwritten : (fill (onlyType ++ [.member [] "items" []]) (.object members)).WrittenIn
      twiceText :=
    writtenIn_onlyType (.object (.cons blank_nil (.mk (writesMarks_self (by decide)) blank_nil
      blank_nil hmembers) (.nil blank_nil))) (by simp [twiceText])
  exact loadDomain_repeated (show Want.whole.at? _ = some (.kept .items) from rfl)
    (show (Want.member? _ "type").isSome = true from rfl) (by decide) hwritten

end Ambient.Load
