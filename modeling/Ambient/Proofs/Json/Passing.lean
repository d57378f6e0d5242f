/-
Every document is passed over.

A value whose content does not matter has to be well formed and nothing else: brackets may be
nested to any depth, a number may be of any size, and a surrogate may stand alone
(`skipValue_of_writtenAs`).

The loop over the open brackets is bounded by a number of steps. A document takes a number of
steps of its own, at most two for every byte of it, and leaves the others to what follows. It
is the same count whatever brackets are open around it, so the parts inside a bracket add up
(`passOn_further`).
-/
import Ambient.Json.Skip
import Ambient.Proofs.Json.Reading
import Ambient.Proofs.Json.Tokens

set_option autoImplicit false

namespace Ambient.Json

/-! ## Parts inside a bracket -/

/-- A part between two commas is passed over in a number of steps, and starts with a byte that
is neither white space nor the closing bracket. -/
structure Passed (bracket : Bracket) (text : List Char) : Prop where
  starts : ∃ b bytes, encode text = b :: bytes ∧ Byte.isSpace b = false ∧ b ≠ bracket.close
  steps : ∃ steps ≤ 2 * (encode text).length, ∀ n stack blank rest, Blank blank → Ends rest →
    (passToValue bracket (encode (blank ++ text) ++ rest) >>=
      passValue (n + steps) (bracket :: stack)) = passOn n (bracket :: stack) rest

section Parts

variable {γ : Type} {writes : γ → List Char → Prop} {bracket : Bracket} {items : List γ}
  {text : List Char}

theorem close_ne_comma (bracket : Bracket) : Byte.comma ≠ bracket.close := by
  cases bracket <;> decide

theorem isSpace_close (bracket : Bracket) : Byte.isSpace bracket.close = false := by
  cases bracket <;> rfl

theorem ends_close (bracket : Bracket) (rest : List UInt8) : Ends (bracket.close :: rest) := by
  cases bracket
  all_goals
    rintro _ ⟨⟩
    exact ⟨rfl, by decide, rfl⟩

/-- The loop goes on behind a part, past the other parts and the closing bracket. -/
theorem passOn_further (hitems : ∀ item ∈ items, ∀ text, writes item text → Passed bracket text)
    (h : Further writes items text) :
    ∃ steps ≤ 2 * (encode text).length + 1, ∀ n stack rest,
      passOn (n + steps) (bracket :: stack) (encode text ++ bracket.close :: rest) =
        passOn n stack rest := by
  induction h with
  | @nil blank hblank =>
    -- the step past the closing bracket is the one that no byte of the text pays for
    refine ⟨1, by omega, fun n stack rest => ?_⟩
    rw [passOn, skipSpace_blank_cons hblank (isSpace_close bracket)]
    simp only [if_neg (close_ne_comma bracket).symm, if_true]
  | @cons item items before after text more hbefore hafter hitem hmore ih =>
    obtain ⟨hhead, htail⟩ := List.forall_mem_cons.mp hitems
    obtain ⟨steps, hsteps, hpass⟩ := (hhead text hitem).steps
    obtain ⟨steps', hsteps', hpass'⟩ := ih htail
    have hcomma : String.utf8EncodeChar ',' = [Byte.comma] := rfl
    -- a step for the comma, and then those of this part and of the further ones
    refine ⟨steps' + steps + 1, ?_, fun n stack rest => ?_⟩
    · simp only [encode_append, encode_cons, hcomma, List.length_append, List.length_cons,
        List.length_nil]
      omega
    · have hends : Ends (encode more ++ bracket.close :: rest) :=
        ends_further hmore (ends_close bracket rest)
      have hitem := hpass (n + steps') stack after _ hafter hends
      rw [encode_append, encode_cons, hcomma, List.append_assoc, List.singleton_append,
        List.cons_append, ← Nat.add_assoc, ← Nat.add_assoc, passOn,
        skipSpace_blank_cons hbefore rfl]
      simp only [if_true]
      rw [← List.append_assoc after, encode_append, List.append_assoc]
      exact hitem.trans (hpass' n stack rest)

/-- What stands inside a bracket is passed over, and the closing bracket with it. -/
theorem passInto_inside (hitems : ∀ item ∈ items, ∀ text, writes item text → Passed bracket text)
    (h : Inside writes items text) :
    ∃ steps ≤ 2 * (encode text).length + 2, ∀ n stack rest,
      passInto (n + steps) bracket stack (encode text ++ bracket.close :: rest) =
        passOn n stack rest := by
  cases h with
  | nil hblank =>
    refine ⟨1, by omega, fun n stack rest => ?_⟩
    rw [passInto, skipSpace_blank_cons hblank (isSpace_close bracket)]
    simp only [if_true]
  | @cons item items before text more hbefore hitem hmore =>
    obtain ⟨hhead, htail⟩ := List.forall_mem_cons.mp hitems
    obtain ⟨⟨b, bytes, hbytes, hspace, hclose⟩, steps, hsteps, hpass⟩ := hhead text hitem
    obtain ⟨steps', hsteps', hpass'⟩ := passOn_further htail hmore
    refine ⟨steps' + steps + 1, ?_, fun n stack rest => ?_⟩
    · simp only [encode_append, List.length_append]
      omega
    · have hends : Ends (encode more ++ bracket.close :: rest) :=
        ends_further hmore (ends_close bracket rest)
      have hitem := hpass (n + steps') stack [] _ blank_nil hends
      rw [List.nil_append, hbytes, List.cons_append] at hitem
      rw [encode_append, encode_append, hbytes, List.append_assoc, List.append_assoc,
        List.cons_append, ← Nat.add_assoc, ← Nat.add_assoc, passInto,
        skipSpace_blank_cons hbefore hspace]
      simp only [if_neg hclose]
      exact hitem.trans (hpass' n stack rest)

end Parts

/-! ## Documents -/

/-- A document takes at most two steps for every byte of it. -/
def Skipped (text : List Char) : Prop :=
  ∃ steps ≤ 2 * (encode text).length, ∀ n stack blank rest, Blank blank → Ends rest →
    passValue (n + steps) stack (encode (blank ++ text) ++ rest) = passOn n stack rest

theorem passed_list {document : Document} {text : List Char} (h : document.WrittenAs text)
    (hskipped : Skipped text) : Passed .list text := by
  obtain ⟨b, bytes, hbytes, hlead⟩ := h.exists_lead
  obtain ⟨hspace, hclose⟩ := isSpace_eq_false_of_lead (hlead ▸ document.lead_ne_other)
  obtain ⟨steps, hsteps, hpass⟩ := hskipped
  exact ⟨⟨b, bytes, hbytes, hspace, hclose⟩, steps, hsteps, fun n stack blank rest =>
    hpass n (.list :: stack) blank rest⟩

/-- A key and its colon are passed over. -/
theorem passKey_of_writesMarks {key? : Option String} {keyText before after : List Char}
    (hkey : WritesMarks key? keyText) (hbefore : Blank before) (hafter : Blank after)
    (rest : List UInt8) :
    passKey (encode (before ++ (keyText ++ (after ++ [':']))) ++ rest) = .ok rest := by
  obtain ⟨bytes, hbytes, hpass⟩ := passString_of_writesMarks hkey
  have hcolon : encode [':'] = [Byte.colon] := rfl
  simp only [encode_append, List.append_assoc, hbytes, hcolon, List.cons_append, List.nil_append]
  rw [passKey, skipSpace_blank_cons hbefore rfl]
  simp only [if_true, hpass]
  refine bind_eq_ok_iff.mpr ⟨_, rfl, ?_⟩
  rw [expectColon, skipSpace_blank_cons hafter rfl]
  exact if_pos rfl

theorem passed_object {member : Option String × Document} {text : List Char}
    (h : WritesMember Document.WrittenAs member text)
    (hskipped : ∀ text, member.2.WrittenAs text → Skipped text) : Passed .object text := by
  obtain ⟨hkey, hbefore, hafter, hvalue⟩ := h
  rename_i key? document keyText before after text
  obtain ⟨steps, hsteps, hpass⟩ := hskipped text hvalue
  obtain ⟨bytes, hbytes, -⟩ := passString_of_writesMarks hkey
  have hmember : encode (keyText ++ (before ++ ':' :: (after ++ text))) =
      Byte.quote :: (bytes ++ encode (before ++ ':' :: (after ++ text))) := by
    rw [encode_append, hbytes, List.cons_append]
  refine ⟨⟨_, _, hmember, rfl, by decide⟩, steps, ?_, fun n stack blank rest hblank hrest => ?_⟩
  · simp only [encode_append, encode_cons, List.length_append]
    omega
  · -- the key and the colon first, then the value behind white space
    have hsplit : encode (blank ++ (keyText ++ (before ++ ':' :: (after ++ text)))) ++ rest =
        encode (blank ++ (keyText ++ (before ++ [':']))) ++ (encode (after ++ text) ++ rest) := by
      simp only [encode_append, encode_cons, encode_nil, List.append_assoc, List.append_nil]
    rw [passToValue, hsplit, passKey_of_writesMarks hkey hblank hbefore]
    exact hpass n (.object :: stack) after rest hafter hrest

theorem skipped_scalar {text : List Char} {b : UInt8} {bytes : List UInt8}
    (hbytes : encode text = b :: bytes) (hlist : Lead.of b ≠ .list) (hobject : Lead.of b ≠ .object)
    (hother : Lead.of b ≠ .other)
    (hpass : ∀ rest, Ends rest →
      passScalar (Lead.of b) (b :: (bytes ++ rest)) (bytes ++ rest) = .ok rest) :
    Skipped text := by
  -- one step, which the first byte pays for
  refine ⟨1, by rw [hbytes, List.length_cons]; omega, fun n stack blank rest hblank hrest => ?_⟩
  rw [encode_append, List.append_assoc, hbytes, List.cons_append, passValue,
    skipSpace_blank_cons hblank (isSpace_eq_false_of_lead hother).1]
  dsimp only
  split
  · exact (hlist ‹_›).elim
  · exact (hobject ‹_›).elim
  · exact (congrArg (· >>= passOn n stack) (hpass rest hrest)).trans rfl

theorem skipped_bracket (bracket : Bracket) (b : UInt8) {γ : Type}
    {writes : γ → List Char → Prop} {items : List γ} {inner text : List Char}
    (hbytes : encode text = b :: (encode inner ++ [bracket.close]))
    (hinto : ∀ n stack rest, passValue (n + 1) stack (b :: rest) = passInto n bracket stack rest)
    (hspace : Byte.isSpace b = false)
    (hitems : ∀ item ∈ items, ∀ text, writes item text → Passed bracket text)
    (h : Inside writes items inner) : Skipped text := by
  obtain ⟨steps, hsteps, hpass⟩ := passInto_inside hitems h
  refine ⟨steps + 1, ?_, fun n stack blank rest hblank _ => ?_⟩
  · rw [hbytes, List.length_cons, List.length_append, List.length_singleton]
    omega
  · have hskip : passValue (n + steps + 1) stack (encode blank ++ b ::
          (encode inner ++ bracket.close :: rest)) =
        passValue (n + steps + 1) stack (b :: (encode inner ++ bracket.close :: rest)) := by
      rw [passValue, passValue, skipSpace_blank_cons hblank hspace, skipSpace_cons hspace]
    rw [encode_append, List.append_assoc, hbytes, List.cons_append, List.append_assoc,
      List.singleton_append, ← Nat.add_assoc, hskip, hinto, hpass]

theorem skipped (document : Document) : ∀ text, document.WrittenAs text → Skipped text := by
  induction document using Document.induction with
  | null =>
    rintro _ ⟨⟩
    exact skipped_scalar rfl nofun nofun nofun fun rest _ => rfl
  | flag value =>
    rintro _ (⟨⟩ | ⟨⟩)
    · exact skipped_scalar rfl nofun nofun nofun fun rest _ => rfl
    · exact skipped_scalar rfl nofun nofun nofun fun rest _ => rfl
  | number literal =>
    rintro text (_ | _ | _ | hnumber)
    -- its first byte is the same whatever follows it
    obtain ⟨b, bytes, hbytes, hlead, -⟩ := scanNumber_of_writesNumber hnumber .badNumber ends_nil
    refine skipped_scalar hbytes (by rw [hlead]; exact nofun) (by rw [hlead]; exact nofun)
      (by rw [hlead]; exact nofun) fun rest hrest => ?_
    obtain ⟨-, -, -, -, hscan⟩ := scanNumber_of_writesNumber hnumber .badNumber hrest
    rw [hbytes, List.cons_append] at hscan
    rw [hlead, passScalar, hscan]
    rfl
  | string text? =>
    rintro text (_ | _ | _ | _ | hstring)
    obtain ⟨bytes, hbytes, hpass⟩ := passString_of_writesMarks hstring
    exact skipped_scalar hbytes nofun nofun nofun fun rest _ => hpass rest
  | list items ih =>
    rintro _ (_ | _ | _ | _ | _ | hitems)
    refine skipped_bracket .list Byte.listOpen ?_ (fun _ _ _ => rfl) rfl ?_ hitems
    · rw [encode_cons, encode_append]
      rfl
    · exact fun item hitem text htext => passed_list htext (ih item hitem text htext)
  | object members ih =>
    rintro _ (_ | _ | _ | _ | _ | _ | hmembers)
    refine skipped_bracket .object Byte.objectOpen ?_ (fun _ _ _ => rfl) rfl ?_ hmembers
    · rw [encode_cons, encode_append]
      rfl
    · exact fun member hmember text htext => passed_object htext (ih member hmember)

/-- **Every document is passed over**, whatever stands in it, up to where it ends. -/
theorem skipValue_of_writtenAs {document : Document} {blank text : List Char}
    (hblank : Blank blank) (h : document.WrittenAs text) {rest : List UInt8} (hrest : Ends rest) :
    skipValue (encode (blank ++ text) ++ rest) = .ok ((), rest) := by
  obtain ⟨steps, hsteps, hpass⟩ := skipped document text h
  rw [skipValue]
  -- the loop is given two steps for every byte up to the end, more than the document takes
  have hbound : ∃ n, 2 * (encode (blank ++ text) ++ rest).length + 1 = n + steps := by
    refine ⟨2 * (encode (blank ++ text) ++ rest).length + 1 - steps, ?_⟩
    simp only [encode_append, List.length_append]
    omega
  obtain ⟨n, hn⟩ := hbound
  rw [hn, hpass n [] blank rest hblank hrest, passOn]
  rfl

end Ambient.Json
