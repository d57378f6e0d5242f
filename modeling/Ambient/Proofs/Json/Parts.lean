/-
What a document depends on.

A frame is a list or an object with a hole in place of one value, and a place is a list of
frames, the outermost first. What is decoded of a document as a whole may depend on what is
decoded of the part at some place, and on nothing else that is there. There are two degrees of
this. The whole may only *hinge on* the part: equal parts give equal wholes, and no part, no
whole. Or it *traces* the part: then in addition a fault in the part is the fault of the whole,
its path continued, unless the whole is at fault for another reason, whatever the part.

Both are kept when decoders are put together in the ways in which they are.
-/
import Ambient.Proofs.Json.Forms

set_option autoImplicit false

namespace Ambient.Json

/-! ## Frames -/

/-- A list or an object with a hole in place of one value. -/
inductive Frame where
  | element (before after : List Document)
  | member (before : List (Option String × Document)) (key : String)
    (after : List (Option String × Document))

namespace Frame

/-- Puts a document into the hole. -/
def fill : Frame → Document → Document
  | .element before after, document => .list (before ++ document :: after)
  | .member before key after, document => .object (before ++ (some key, document) :: after)

/-- The step into the hole. -/
def segment : Frame → Segment
  | .element before _ => .index before.length
  | .member _ key _ => .key key

end Frame

/-- Puts a document at a place. -/
def fill (place : List Frame) (document : Document) : Document :=
  place.foldr Frame.fill document

/-- The path to a place. -/
def pathTo (place : List Frame) : List Segment := place.map Frame.segment

/-! ## Hinging and tracing -/

section Parts

variable {δ δ' ε ε' ε'' α β γ : Type}

/-- The whole is given by the part, and there is no whole without it. -/
def Hinges (part : δ → Except ε α) (whole : δ → Except ε' β) : Prop :=
  ∃ next : α → Option β, ∀ d, (whole d).toOption = (part d).toOption.bind next

/-- The whole goes on from the part, a fault of which it continues by a path, or else it is
at fault whatever the part is. -/
def Traces (path : List Segment) (part : δ → Except (List Segment) α)
    (whole : δ → Except (List Segment) β) : Prop :=
  (∃ fault, ∀ d, whole d = .error fault) ∨
    ∃ next : α → Except (List Segment) β, ∀ d,
      whole d = (part d).mapError (path ++ ·) >>= next

@[simp] theorem toOption_bind (result : Except ε α) (next : α → Except ε β) :
    (result >>= next).toOption = result.toOption.bind fun value => (next value).toOption := by
  cases result <;> rfl

@[simp] theorem toOption_mapError (result : Except ε α) (f : ε → ε') :
    (result.mapError f).toOption = result.toOption := by
  cases result <;> rfl

@[simp] theorem toOption_map (result : Except ε α) (f : α → β) :
    (result.map f).toOption = result.toOption.map f := by
  cases result <;> rfl

theorem toOption_eq_some_iff {result : Except ε α} {value : α} :
    result.toOption = some value ↔ result = .ok value := by
  cases result <;> simp [Except.toOption]

theorem toOption_eq_none_iff {result : Except ε α} :
    result.toOption = none ↔ ∃ fault, result = .error fault := by
  cases result <;> simp [Except.toOption]

namespace Hinges

variable {part : δ → Except ε α} {middle : δ → Except ε' β} {whole : δ → Except ε'' γ}

theorem refl (part : δ → Except ε α) : Hinges part part :=
  ⟨some, fun _ => (Option.bind_fun_some _).symm⟩

theorem trans (h : Hinges part middle) (h' : Hinges middle whole) : Hinges part whole := by
  obtain ⟨next, hnext⟩ := h
  obtain ⟨next', hnext'⟩ := h'
  refine ⟨fun value => (next value).bind next', fun d => ?_⟩
  rw [hnext', hnext, Option.bind_assoc]

/-- The part may be looked at through what it stands in. -/
theorem comp (h : Hinges part whole) (f : δ' → δ) :
    Hinges (fun d => part (f d)) fun d => whole (f d) :=
  h.imp fun _ hnext d => hnext (f d)

theorem of_error {fault : ε''} (h : ∀ d, whole d = .error fault) : Hinges part whole :=
  ⟨fun _ => none, fun d => by rw [h, Option.bind_fun_none]; rfl⟩

theorem bind (h : Hinges part whole) (next : γ → Except ε'' β) :
    Hinges part fun d => whole d >>= next := by
  obtain ⟨step, hstep⟩ := h
  refine ⟨fun value => (step value).bind fun value => (next value).toOption, fun d => ?_⟩
  rw [toOption_bind, hstep, Option.bind_assoc]

theorem map (h : Hinges part whole) (f : γ → β) : Hinges part fun d => (whole d).map f :=
  h.bind fun value => .ok (f value)

theorem mapError {φ : Type} (h : Hinges part whole) (f : ε'' → φ) :
    Hinges part fun d => (whole d).mapError f := by
  obtain ⟨next, hnext⟩ := h
  exact ⟨next, fun d => by rw [toOption_mapError, hnext]⟩

/-- What hinges on what is made of a value, when the value itself is what differs. -/
theorem lift {value : δ → Except (List Segment) α} {part : α → Except ε β}
    {whole : α → Except (List Segment) γ} (h : Hinges part whole) (segment : Segment)
    (f : ε → List Segment) :
    Hinges (fun d => value d >>= fun value => (part value).mapError f)
      fun d => inside segment (value d) >>= whole := by
  obtain ⟨next, hnext⟩ := h
  refine ⟨next, fun d => ?_⟩
  simp only [toOption_bind, toOption_mapError, inside, hnext, Option.bind_assoc]

/-- What comes before the part does not depend on it. -/
theorem after {whole : β → δ → Except ε'' γ} (h : ∀ value, Hinges part (whole value))
    (result : Except ε'' β) : Hinges part fun d => result >>= (whole · d) := by
  cases result with
  | error fault => exact of_error fun _ => rfl
  | ok value => exact h value

/-- Two parts give two wholes, equal ones if they are equal. -/
theorem toOption_congr (h : Hinges part whole) {d d' : δ}
    (hpart : (part d).toOption = (part d').toOption) :
    (whole d).toOption = (whole d').toOption := by
  obtain ⟨next, hnext⟩ := h
  rw [hnext, hnext, hpart]

theorem toOption_eq_none (h : Hinges part whole) {d : δ} (hpart : (part d).toOption = none) :
    (whole d).toOption = none := by
  obtain ⟨next, hnext⟩ := h
  rw [hnext, hpart]
  rfl

end Hinges

namespace Traces

variable {path path' : List Segment} {part : δ → Except (List Segment) α}
  {middle : δ → Except (List Segment) β} {whole : δ → Except (List Segment) γ}

theorem refl (part : δ → Except (List Segment) α) : Traces [] part part := by
  refine .inr ⟨.ok, fun d => ?_⟩
  cases part d <;> rfl

theorem of_error {fault : List Segment} (h : ∀ d, whole d = .error fault) :
    Traces path part whole :=
  .inl ⟨fault, h⟩

theorem hinges (h : Traces path part whole) : Hinges part whole := by
  obtain ⟨fault, hfault⟩ | ⟨next, hnext⟩ := h
  · exact .of_error hfault
  · exact ⟨fun value => (next value).toOption, fun d => by rw [hnext, toOption_bind,
      toOption_mapError]⟩

theorem trans (h : Traces path part middle) (h' : Traces path' middle whole) :
    Traces (path' ++ path) part whole := by
  obtain ⟨fault', hfault'⟩ | ⟨next', hnext'⟩ := h'
  · exact .of_error hfault'
  · obtain ⟨fault, hfault⟩ | ⟨next, hnext⟩ := h
    · exact .of_error fun d => by rw [hnext', hfault]; rfl
    · refine .inr ⟨fun value => (next value).mapError (path' ++ ·) >>= next', fun d => ?_⟩
      rw [hnext', hnext]
      cases part d with
      | error fault => simp [Except.mapError, bind, Except.bind]
      | ok value => rfl

theorem comp (h : Traces path part whole) (f : δ' → δ) :
    Traces path (fun d => part (f d)) fun d => whole (f d) :=
  h.imp (fun ⟨fault, hfault⟩ => ⟨fault, fun d => hfault (f d)⟩)
    fun ⟨next, hnext⟩ => ⟨next, fun d => hnext (f d)⟩

theorem bind (h : Traces path part whole) (next : γ → Except (List Segment) β) :
    Traces path part fun d => whole d >>= next := by
  obtain ⟨fault, hfault⟩ | ⟨step, hstep⟩ := h
  · exact .of_error fun d => by rw [hfault]; rfl
  · refine .inr ⟨fun value => step value >>= next, fun d => ?_⟩
    rw [← bind_assoc, ← hstep]

theorem map (h : Traces path part whole) (f : γ → β) :
    Traces path part fun d => (whole d).map f :=
  h.bind fun value => .ok (f value)

theorem after {whole : β → δ → Except (List Segment) γ}
    (h : ∀ value, Traces path part (whole value)) (result : Except (List Segment) β) :
    Traces path part fun d => result >>= (whole · d) := by
  cases result with
  | error fault => exact of_error fun _ => rfl
  | ok value => exact h value

theorem inside (segment : Segment) (h : Traces path part whole) :
    Traces (segment :: path) part fun d => Json.inside segment (whole d) := by
  have hinside : Traces [segment] whole fun d => Json.inside segment (whole d) := by
    refine .inr ⟨.ok, fun d => ?_⟩
    dsimp only
    cases whole d <;> rfl
  exact h.trans hinside

/-- There is no whole without the part. -/
theorem exists_part (h : Traces path part whole) {d : δ} {value : γ}
    (hwhole : whole d = .ok value) : ∃ value, part d = .ok value := by
  cases hpart : part d with
  | ok value => exact ⟨value, rfl⟩
  | error fault =>
    have hnone := h.hinges.toOption_eq_none (d := d) (by rw [hpart]; rfl)
    rw [hwhole] at hnone
    cases hnone

/-- A fault of the part is the fault of the whole, if there is a whole with another part. -/
theorem eq_error (h : Traces path part whole) {d d' : δ} {value : γ} {fault : List Segment}
    (hwhole : whole d = .ok value) (hpart : part d' = .error fault) :
    whole d' = .error (path ++ fault) := by
  obtain ⟨other, hother⟩ | ⟨next, hnext⟩ := h
  · rw [hother] at hwhole
    cases hwhole
  · rw [hnext, hpart]
    rfl

end Traces

end Parts

/-! ## Lists and objects -/

section Brackets

variable {α σ : Type} {decode : Document → Except (List Segment) α}

theorem decodeElements_append (index : Nat) (before after : List Document) :
    decodeElements decode index (before ++ after) =
      decodeElements decode index before >>= fun first =>
        decodeElements decode (index + before.length) after >>= fun rest =>
          .ok (first ++ rest) := by
  induction before generalizing index with
  | nil =>
    change decodeElements decode index after = decodeElements decode index after >>= _
    cases decodeElements decode index after <;> rfl
  | cons item before ih =>
    rw [List.cons_append, decodeElements, decodeElements, ih, List.length_cons,
      Nat.add_comm before.length, ← Nat.add_assoc]
    simp only [bind_assoc]
    refine congrArg _ (funext fun value => congrArg _ (funext fun values => ?_))
    exact congrArg _ (funext fun rest => rfl)

/-- An element of a list. -/
theorem traces_decodeElements (index : Nat) (before after : List Document) :
    Traces [.index (index + before.length)] decode fun document =>
      decodeElements decode index (before ++ document :: after) := by
  simp only [decodeElements_append]
  exact .after (fun first => (((Traces.refl decode).inside _).bind _).bind _) _

theorem length_of_decodeElements {index : Nat} {items : List Document} {values : List α}
    (h : decodeElements decode index items = .ok values) : values.length = items.length := by
  induction items generalizing index values with
  | nil =>
    cases h
    rfl
  | cons item items ih =>
    obtain ⟨value, -, h⟩ := bind_eq_ok_iff.mp h
    obtain ⟨rest, hrest, h⟩ := bind_eq_ok_iff.mp h
    cases h
    rw [List.length_cons, List.length_cons, ih hrest]

variable {enter : String → σ → Document → Except (List Segment) σ}

theorem decodeMembers_append (state : σ) (before after : List (Option String × Document)) :
    decodeMembers enter state (before ++ after) =
      decodeMembers enter state before >>= (decodeMembers enter · after) := by
  induction before generalizing state with
  | nil => rfl
  | cons member before ih =>
    obtain ⟨_ | key, document⟩ := member
    · rfl
    · rw [List.cons_append, decodeMembers, decodeMembers, bind_assoc]
      exact congrArg _ (funext ih)

/-- A member of an object. -/
theorem traces_decodeMembers {path : List Segment} {part : Document → Except (List Segment) α}
    {key : String} (h : ∀ state, Traces path part (enter key state)) (state : σ)
    (before after : List (Option String × Document)) :
    Traces path part fun document =>
      decodeMembers enter state (before ++ (some key, document) :: after) := by
  simp only [decodeMembers_append]
  exact .after (fun state => (h state).bind _) _

/-- What a member does to the state may be done to a part of the state, if every member leaves
the other part alone. -/
theorem decodeMembers_map {f : σ → σ}
    (h : ∀ key state document, enter key (f state) document = (enter key state document).map f)
    (state : σ) (members : List (Option String × Document)) :
    decodeMembers enter (f state) members = (decodeMembers enter state members).map f := by
  induction members generalizing state with
  | nil => rfl
  | cons member members ih =>
    obtain ⟨_ | key, document⟩ := member
    · rfl
    · rw [decodeMembers, decodeMembers, h]
      cases enter key state document with
      | error path => rfl
      | ok state => exact ih state

theorem decodeMembers_keep (kept : List (String × α)) (members : List (Option String × Document)) :
    decodeMembers (keep decode) kept members =
      (decodeMembers (keep decode) [] members).map (· ++ kept) := by
  refine decodeMembers_map (f := (· ++ kept)) (fun key state document => ?_) [] members
  rw [keep, keep]
  cases inside (.key key) (decode document) <;> rfl

end Brackets

/-! ## Whole values -/

section Parted

variable {β : Type} (levels : Nat) (document : Document) (next : Value → Except (List Segment) β)

/-- A list is read up to one of its elements, that element, and the others. -/
theorem value_list_bind (before after : List Document) :
    (Document.list (before ++ document :: after)).value (levels + 1) >>= next =
      decodeElements (Document.value levels) 0 before >>= fun first =>
        inside (.index before.length) (document.value levels) >>= fun value =>
          decodeElements (Document.value levels) (before.length + 1) after >>= fun rest =>
            next (.list (first ++ value :: rest)) := by
  rw [Document.value, decodeElements_append, Nat.zero_add]
  cases decodeElements (Document.value levels) 0 before with
  | error fault => rfl
  | ok first =>
    change (decodeElements (Document.value levels) before.length (document :: after) >>= _).map _
      >>= _ = inside (.index before.length) (document.value levels) >>= _
    rw [decodeElements]
    cases inside (.index before.length) (document.value levels) with
    | error fault => rfl
    | ok value => cases decodeElements (Document.value levels) (before.length + 1) after <;> rfl

/-- An object is read up to anywhere, and from there. -/
theorem value_object_append (before after : List (Option String × Document)) :
    (Document.object (before ++ after)).value (levels + 1) >>= next =
      decodeMembers (keep (Document.value levels)) [] before >>= fun first =>
        decodeMembers (keep (Document.value levels)) [] after >>= fun rest =>
          next (.object (first.reverse ++ rest.reverse)) := by
  rw [Document.value, decodeMembers_append]
  cases decodeMembers (keep (Document.value levels)) [] before with
  | error fault => rfl
  | ok first =>
    -- members are kept in front of those that are there, and put in order at the end
    change (decodeMembers _ first after).map _ >>= _ = decodeMembers _ [] after >>= _
    rw [decodeMembers_keep]
    cases decodeMembers (keep (Document.value levels)) [] after with
    | error fault => rfl
    | ok rest =>
      change next (.object (rest ++ first).reverse) = next _
      rw [List.reverse_append]

/-- An object is read up to one of its members, that member, and the others. -/
theorem value_object_bind (before after : List (Option String × Document)) (key : String) :
    (Document.object (before ++ (some key, document) :: after)).value (levels + 1) >>= next =
      decodeMembers (keep (Document.value levels)) [] before >>= fun first =>
        inside (.key key) (document.value levels) >>= fun value =>
          decodeMembers (keep (Document.value levels)) [] after >>= fun rest =>
            next (.object (first.reverse ++ (key, value) :: rest.reverse)) := by
  rw [value_object_append]
  refine congrArg _ (funext fun first => ?_)
  rw [decodeMembers, keep]
  cases inside (.key key) (document.value levels) with
  | error fault => rfl
  | ok value =>
    change decodeMembers _ [(key, value)] after >>= _ = decodeMembers _ [] after >>= _
    rw [decodeMembers_keep]
    cases decodeMembers (keep (Document.value levels)) [] after with
    | error fault => rfl
    | ok rest =>
      change next (.object (first.reverse ++ (rest ++ [(key, value)]).reverse)) = next _
      rw [List.reverse_append, List.reverse_singleton, List.singleton_append]

end Parted

/-- A value directly inside another. -/
theorem traces_value (levels : Nat) (frame : Frame) :
    Traces [frame.segment] (Document.value levels) fun document =>
      (frame.fill document).value (levels + 1) := by
  cases frame with
  | element before after =>
    have h : Traces [.index (0 + before.length)] (Document.value levels) _ :=
      traces_decodeElements 0 before after
    rw [Nat.zero_add] at h
    exact h.map Value.list
  | member before key after =>
    have h (kept : List (String × Value)) :
        Traces [.key key] (Document.value levels) (keep (Document.value levels) key kept) :=
      ((Traces.refl _).inside (.key key)).map _
    exact (traces_decodeMembers h [] before after).map
      fun entries : List (String × Value) => Value.object entries.reverse

/-- A value at any place inside another. -/
theorem traces_value_fill (levels : Nat) (place : List Frame) :
    Traces (pathTo place) (Document.value (levels - place.length)) fun document =>
      (fill place document).value levels := by
  induction place generalizing levels with
  | nil => exact .refl _
  | cons frame place ih =>
    obtain _ | levels := levels
    · -- no level is left for the frame, whatever is in it
      exact .inl ⟨[], fun document => by cases frame <;> rfl⟩
    · rw [List.length_cons, Nat.add_sub_add_right]
      exact (ih levels).trans ((traces_value levels frame).comp (fill place))

theorem readable_iff_exists {levels : Nat} {document : Document} :
    document.Readable levels ↔ ∃ value, document.value levels = .ok value := by
  rw [← value_isOk_iff]
  cases document.value levels with
  | error fault => exact iff_of_false Bool.false_ne_true (by rintro ⟨_, ⟨⟩⟩)
  | ok value => exact iff_of_true rfl ⟨value, rfl⟩

/-- What is put in the place of a part that can be read may be anything that can be read. -/
theorem readable_fill {place : List Frame} {levels : Nat} {document document' : Document}
    (h : (fill place document).Readable levels)
    (hdocument : document'.Readable (levels - place.length)) :
    (fill place document').Readable levels := by
  induction place generalizing levels with
  | nil => exact hdocument
  | cons frame place ih =>
    obtain _ | levels := levels
    · cases frame <;> exact h.elim
    rw [List.length_cons, Nat.add_sub_add_right] at hdocument
    cases frame with
    | element before after =>
      change ∀ item ∈ before ++ fill place document :: after, item.Readable levels at h
      change ∀ item ∈ before ++ fill place document' :: after, item.Readable levels
      rw [List.forall_mem_append, List.forall_mem_cons] at h ⊢
      exact ⟨h.1, ih h.2.1 hdocument, h.2.2⟩
    | member before key after =>
      change ∀ member ∈ before ++ (some key, fill place document) :: after,
        member.1.isSome = true ∧ member.2.Readable levels at h
      change ∀ member ∈ before ++ (some key, fill place document') :: after,
        member.1.isSome = true ∧ member.2.Readable levels
      rw [List.forall_mem_append, List.forall_mem_cons] at h ⊢
      exact ⟨h.1, ⟨rfl, ih h.2.1.2 hdocument⟩, h.2.2⟩

/-! ## Records -/

namespace Form

section Records

variable {ρ α : Type} {form : Form ρ} {fields : List (FieldDecoder ρ)} {field : FieldDecoder ρ}
  {value : Document → Except (List Segment) Value} {key : String} {path : List Segment}
  {part : Document → Except (List Segment) α}

/-- The value of a field. -/
theorem traces_decode_field (hfield : fields.find? (·.key == key) = some field)
    (h : ∀ record, Traces path part (field.decode record))
    (before after : List (Option String × Document)) :
    Traces (.key key :: path) part fun document =>
      form.decode fields value (.object (before ++ (some key, document) :: after)) := by
  have haccept (draft : Draft ρ) :
      Traces (.key key :: path) part (form.accept fields value key draft) := by
    unfold accept
    rw [hfield]
    dsimp only
    split
    · exact .of_error fun _ => rfl
    · exact ((h draft.record).inside (.key key)).map _
  exact (traces_decodeMembers haccept { record := form.absent } before after).bind _

/-- A field that is given by its position. -/
theorem traces_decodePositions (h : ∀ record, Traces [] part (field.decode record))
    {before : List Document} (hfield : fields[before.length]? = some field) (index : Nat)
    (record : ρ) (after : List Document) :
    Traces [.index (index + before.length)] part fun document =>
      decodePositions fields index record (before ++ document :: after) := by
  induction before generalizing fields index record with
  | nil =>
    cases fields with
    | nil => cases hfield
    | cons other fields =>
      obtain rfl : other = field := Option.some.inj hfield
      exact ((h record).inside (.index index)).bind _
  | cons item before ih =>
    cases fields with
    | nil => cases hfield
    | cons other fields =>
      rw [List.length_cons, Nat.add_comm before.length, ← Nat.add_assoc]
      exact .after (fun record => ih hfield (index + 1) record) _

/-! ### Members that are kept -/

/-- What is kept already makes no difference to the members that come. -/
theorem decodeMembers_accept (draft : Draft ρ) (members : List (Option String × Document)) :
    decodeMembers (form.accept fields value) draft members =
      (decodeMembers (form.accept fields value) { draft with kept := [] } members).map
        fun rest => { rest with kept := rest.kept ++ draft.kept } := by
  refine decodeMembers_map
    (f := fun rest : Draft ρ => { rest with kept := rest.kept ++ draft.kept })
    (fun key rest document => ?_) { draft with kept := [] } members
  unfold accept
  split
  · split
    · rfl
    · cases inside (.key key) _ <;> rfl
  · split
    · rfl
    · unfold keep
      cases inside (.key key) (value document) <;> rfl

variable {settle : List (String × Value) → ρ → Except Cause ρ}

/-- The record of a draft and further members, when it keeps their values. -/
theorem decodeMembers_settled (hothers : form.others = .kept settle) (draft : Draft ρ)
    (members : List (Option String × Document)) :
    decodeMembers (form.accept fields value) draft members >>= form.settled =
      decodeMembers (form.accept fields value) { draft with kept := [] } members >>= fun rest =>
        (settle (draft.kept.reverse ++ rest.kept.reverse) rest.record).mapError fun _ => [] := by
  rw [decodeMembers_accept]
  cases decodeMembers (form.accept fields value) { draft with kept := [] } members with
  | error fault => rfl
  | ok rest =>
    change form.settled { rest with kept := rest.kept ++ draft.kept } = (settle _ _).mapError _
    rw [settled, Form.settle, hothers]
    dsimp only
    rw [List.reverse_append]

/-- The record of an object that is parted anywhere, when it keeps values. -/
theorem decode_append (hothers : form.others = .kept settle)
    (before after : List (Option String × Document)) :
    form.decode fields value (.object (before ++ after)) =
      decodeMembers (form.accept fields value) { record := form.absent } before >>= fun first =>
        decodeMembers (form.accept fields value) { first with kept := [] } after >>= fun rest =>
          (settle (first.kept.reverse ++ rest.kept.reverse) rest.record).mapError fun _ => [] := by
  rw [decode, decodeMembers_append, bind_assoc]
  exact congrArg _ (funext fun first => decodeMembers_settled hothers first after)

/-- The record of an object with a member that is kept: the members before it, its value, and
those after it. -/
theorem decode_kept (hfield : fields.find? (·.key == key) = none)
    (hothers : form.others = .kept settle) (before after : List (Option String × Document))
    (document : Document) :
    form.decode fields value (.object (before ++ (some key, document) :: after)) =
      decodeMembers (form.accept fields value) { record := form.absent } before >>= fun first =>
        inside (.key key) (value document) >>= fun value' =>
          decodeMembers (form.accept fields value) { first with kept := [] } after >>= fun rest =>
            (settle (first.kept.reverse ++ (key, value') :: rest.kept.reverse)
              rest.record).mapError fun _ => [] := by
  rw [decode, decodeMembers_append, bind_assoc]
  refine congrArg _ (funext fun first => ?_)
  rw [decodeMembers, accept, hfield, hothers, keep]
  dsimp only
  cases inside (.key key) (value document) with
  | error fault => rfl
  | ok value' =>
    refine (decodeMembers_settled hothers { first with kept := (key, value') :: first.kept }
      after).trans ?_
    simp only [List.reverse_cons, List.append_assoc, List.singleton_append]
    rfl

end Records

end Form

end Ambient.Json
