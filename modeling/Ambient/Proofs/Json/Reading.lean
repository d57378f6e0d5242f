/-
Written values are read back.

`Yields read value item` says that a reader makes `value` of every way to write `item`, with
white space in front and anything at all behind. What a reader makes of the elements of a
list or of the entries of an object decides what it makes of the whole (`readElements_inside`,
`readEntries_inside`): the loops only have to be led past commas and white space.

An object is read into a state, one entry after the other; `Enters` are the runs of states
that the entries lead through.
-/
import Ambient.Proofs.Json.Extent
import Ambient.Proofs.Json.Strings

set_option autoImplicit false

namespace Ambient.Json

variable {α σ ε : Type}

/-! ## Readers of written values -/

/-- A reader takes a value off the front of a text that starts with those bytes. -/
def Reads (read : List UInt8 → Except ε (α × List UInt8)) (value : α) (bytes : List UInt8) : Prop :=
  ∀ rest, read (bytes ++ rest) = .ok (value, rest)

/-- A reader makes a value of every way to write an item. -/
def Yields (read : Reader α) (value : α) (item : Value) : Prop :=
  ∀ ⦃blank text⦄, Blank blank → Writes item text → Reads read value (encode (blank ++ text))

/-! ## White space -/

theorem skipSpace_blank {blank : List Char} (h : Blank blank) (rest : List UInt8) :
    skipSpace (encode blank ++ rest) = skipSpace rest := by
  induction blank with
  | nil => rfl
  | cons c blank ih =>
    have hspace : ∀ c ∈ [' ', '\t', '\n', '\r'], ∃ b, String.utf8EncodeChar c = [b] ∧
        Byte.isSpace b = true := by
      simp only [List.forall_mem_cons]
      exact ⟨⟨_, rfl, rfl⟩, ⟨_, rfl, rfl⟩, ⟨_, rfl, rfl⟩, ⟨_, rfl, rfl⟩, List.forall_mem_nil _⟩
    obtain ⟨b, hb, hb'⟩ := hspace c (h c List.mem_cons_self)
    rw [encode_cons, hb, List.singleton_append, List.cons_append, skipSpace,
      List.dropWhile_cons_of_pos hb', ← skipSpace]
    exact ih fun c hc => h c (List.mem_cons_of_mem _ hc)

theorem skipSpace_cons {b : UInt8} (h : Byte.isSpace b = false) (rest : List UInt8) :
    skipSpace (b :: rest) = b :: rest :=
  List.dropWhile_cons_of_neg (by rw [h]; decide)

/-- White space in front of another byte. -/
theorem skipSpace_blank_cons {blank : List Char} (hblank : Blank blank) {b : UInt8}
    (hb : Byte.isSpace b = false) (rest : List UInt8) :
    skipSpace (encode blank ++ b :: rest) = b :: rest := by
  rw [skipSpace_blank hblank, skipSpace_cons hb]

/-- What announces a value is neither white space nor a closing bracket. -/
theorem isSpace_eq_false_of_lead {b : UInt8} (h : Lead.of b ≠ .other) :
    Byte.isSpace b = false ∧ b ≠ Byte.listClose := by
  constructor
  · rw [Bool.eq_false_iff]
    intro hspace
    simp only [Byte.isSpace, Bool.or_eq_true, beq_iff_eq] at hspace
    obtain ((rfl | rfl) | rfl) | rfl := hspace
    all_goals exact h rfl
  · rintro rfl
    exact h rfl

/-- A written value starts with a byte that announces it. -/
theorem exists_lead_of_writes {item : Value} {text : List Char} (h : Writes item text) :
    ∃ b bytes, encode text = b :: bytes ∧ Lead.of b ≠ .other := by
  cases h with
  | null => exact ⟨_, _, rfl, by decide⟩
  | yes => exact ⟨_, _, rfl, by decide⟩
  | no => exact ⟨_, _, rfl, by decide⟩
  | string hstring =>
    obtain ⟨bytes, hbytes, -⟩ := readString_of_writesString hstring
    exact ⟨_, _, hbytes, by decide⟩
  | list => exact ⟨_, _, rfl, by decide⟩
  | object => exact ⟨_, _, rfl, by decide⟩

/-! ## Sizes -/

theorem length_le_length_encode (text : List Char) : text.length ≤ (encode text).length := by
  induction text with
  | nil => exact Nat.le_refl _
  | cons c text ih =>
    have hpos : 0 < (String.utf8EncodeChar c).length :=
      List.length_pos_iff.mpr String.utf8EncodeChar_ne_nil
    rw [encode_cons, List.length_append, List.length_cons]
    omega

section Inside

variable {β : Type} {writes : β → List Char → Prop} {items : List β} {text : List Char}

/-- There are no more parts than characters. -/
theorem length_le_of_further (h : Further writes items text) : items.length ≤ text.length := by
  induction h with
  | nil => exact Nat.zero_le _
  | cons _ _ _ _ ih =>
    simp only [List.length_cons, List.length_append]
    omega

theorem length_le_of_inside (hwrites : ∀ {item text}, writes item text → text ≠ [])
    (h : Inside writes items text) : items.length ≤ text.length := by
  cases h with
  | nil => exact Nat.zero_le _
  | cons _ hitem hfurther =>
    have hpos := List.length_pos_iff.mpr (hwrites hitem)
    have hle := length_le_of_further hfurther
    simp only [List.length_cons, List.length_append]
    omega

/-- The rounds that a loop is given are enough for all of the parts, and one more. -/
theorem length_lt_roundsFor_of_inside (hwrites : ∀ {item text}, writes item text → text ≠ [])
    (h : Inside writes items text) (rest : List UInt8) :
    items.length < roundsFor (encode text ++ rest) := by
  -- every part takes a byte at least
  have hitems := length_le_of_inside hwrites h
  have htext := length_le_length_encode text
  rw [roundsFor, List.length_append]
  omega

end Inside

/-! ## Closing brackets -/

theorem encode_append_listClose (text : List Char) (rest : List UInt8) :
    encode (text ++ [']']) ++ rest = encode text ++ Byte.listClose :: rest := by
  rw [encode_append, List.append_assoc]
  rfl

theorem encode_append_objectClose (text : List Char) (rest : List UInt8) :
    encode (text ++ ['\x7d']) ++ rest = encode text ++ Byte.objectClose :: rest := by
  rw [encode_append, List.append_assoc]
  rfl

theorem closeList_blank {blank : List Char} (hblank : Blank blank) (rest : List UInt8) :
    closeList (encode blank ++ Byte.listClose :: rest) = .ok rest := by
  rw [closeList, skipSpace_blank_cons hblank rfl]
  exact if_pos rfl

theorem passObjectClose_blank {blank : List Char} (hblank : Blank blank) (rest : List UInt8) :
    passObjectClose (encode blank ++ Byte.objectClose :: rest) = rest := by
  rw [passObjectClose, skipSpace_blank_cons hblank rfl]
  exact if_pos rfl

theorem ne_nil_of_writes {item : Value} {text : List Char} (h : Writes item text) : text ≠ [] := by
  rintro rfl
  obtain ⟨b, bytes, hbytes, -⟩ := exists_lead_of_writes h
  cases hbytes

/-! ## Lists -/

section Lists

variable {read : Reader α} {values : List α} {items : List Value} {text : List Char}

theorem nextElement?_blank {blank : List Char} (hblank : Blank blank) (first : Bool)
    (rest : List UInt8) :
    nextElement? first (encode blank ++ Byte.listClose :: rest) = .ok none := by
  rw [nextElement?, skipSpace_blank_cons hblank rfl]
  exact if_pos rfl

theorem nextElement?_first {before front : List Char} (hbefore : Blank before) {b : UInt8}
    {bytes : List UInt8} (hfront : encode front = b :: bytes) (hlead : Lead.of b ≠ .other)
    (rest : List UInt8) :
    nextElement? true (encode (before ++ front) ++ rest) = .ok (some (encode front ++ rest)) := by
  obtain ⟨hspace, hclose⟩ := isSpace_eq_false_of_lead hlead
  rw [encode_append, List.append_assoc, hfront, List.cons_append, nextElement?,
    skipSpace_blank_cons hbefore hspace]
  simp only [if_neg hclose, if_true]

theorem nextElement?_comma {before after front : List Char} (hbefore : Blank before)
    (hafter : Blank after) {b : UInt8} {bytes : List UInt8} (hfront : encode front = b :: bytes)
    (hlead : Lead.of b ≠ .other) (rest : List UInt8) :
    nextElement? false (encode (before ++ ',' :: (after ++ front)) ++ rest) =
      .ok (some (encode front ++ rest)) := by
  obtain ⟨hspace, hclose⟩ := isSpace_eq_false_of_lead hlead
  have hcomma : String.utf8EncodeChar ',' = [Byte.comma] := rfl
  have hne : Byte.comma ≠ Byte.listClose := by decide
  rw [encode_append, encode_cons, encode_append, hcomma, hfront]
  simp only [List.append_assoc, List.cons_append, List.nil_append]
  rw [nextElement?, skipSpace_blank_cons hbefore rfl]
  simp only [if_neg hne, Bool.false_eq_true, if_false, if_true, skipSpace_blank_cons hafter hspace,
    if_neg hclose]

/-- A value that other text follows inside a bracket. -/
theorem encode_item_append {item : Value} {text : List Char} (hitem : Writes item text)
    (more : List Char) : ∃ b bytes, encode (text ++ more) = b :: bytes ∧ Lead.of b ≠ .other := by
  obtain ⟨b, bytes, hbytes, hlead⟩ := exists_lead_of_writes hitem
  exact ⟨b, bytes ++ encode more, by rw [encode_append, hbytes, List.cons_append], hlead⟩

/-- A value is read off the front of what stands inside a bracket. -/
theorem Yields.read_append {value : α} {item : Value} (h : Yields read value item)
    {text : List Char} (hitem : Writes item text) (more : List Char) (rest : List UInt8) :
    read (encode (text ++ more) ++ rest) = .ok (value, encode more ++ rest) := by
  have hread := h blank_nil hitem (encode more ++ rest)
  rwa [List.nil_append, ← List.append_assoc, ← encode_append] at hread

/-- The loop over the elements goes on after an element, and stops in front of the closing
bracket. -/
theorem readElements_further (hitems : List.Forall₂ (Yields read) values items)
    (htext : Further Writes items text) {rounds index : Nat} (hindex : index ≠ 0)
    (hrounds : items.length < rounds) (rest : List UInt8) :
    ∃ blank, Blank blank ∧ readElements read rounds index (encode text ++ Byte.listClose :: rest) =
      .ok (values, encode blank ++ Byte.listClose :: rest) := by
  induction htext generalizing values rounds index with
  | @nil blank hblank =>
    cases hitems
    obtain ⟨rounds, rfl⟩ := Nat.exists_eq_add_one_of_ne_zero (Nat.ne_zero_of_lt hrounds)
    refine ⟨blank, hblank, ?_⟩
    rw [readElements, nextElement?_blank hblank]
  | @cons item items before after text more hbefore hafter hitem _ ih =>
    obtain _ | ⟨hhead, htail⟩ := hitems
    obtain ⟨rounds, rfl⟩ := Nat.exists_eq_add_one_of_ne_zero (Nat.ne_zero_of_lt hrounds)
    obtain ⟨blank, hblank, hread⟩ :=
      ih htail (Nat.succ_ne_zero index) (Nat.lt_of_succ_lt_succ hrounds)
    obtain ⟨b, bytes, hbytes, hlead⟩ := encode_item_append hitem more
    refine ⟨blank, hblank, ?_⟩
    rw [readElements, beq_false_of_ne hindex, nextElement?_comma hbefore hafter hbytes hlead]
    simp only [hhead.read_append hitem, hread]

theorem readElements_inside (hitems : List.Forall₂ (Yields read) values items)
    (htext : Inside Writes items text) {rounds : Nat} (hrounds : items.length < rounds)
    (rest : List UInt8) :
    ∃ blank, Blank blank ∧ readElements read rounds 0 (encode text ++ Byte.listClose :: rest) =
      .ok (values, encode blank ++ Byte.listClose :: rest) := by
  obtain ⟨rounds, rfl⟩ := Nat.exists_eq_add_one_of_ne_zero (Nat.ne_zero_of_lt hrounds)
  cases htext with
  | @nil blank hblank =>
    cases hitems
    refine ⟨text, hblank, ?_⟩
    rw [readElements, nextElement?_blank hblank]
  | @cons item items before text more hbefore hitem hfurther =>
    obtain _ | ⟨hhead, htail⟩ := hitems
    obtain ⟨blank, hblank, hread⟩ := readElements_further htail hfurther (Nat.succ_ne_zero 0)
      (Nat.lt_of_succ_lt_succ hrounds) rest
    obtain ⟨b, bytes, hbytes, hlead⟩ := encode_item_append hitem more
    refine ⟨blank, hblank, ?_⟩
    rw [readElements, beq_self_eq_true, nextElement?_first hbefore hbytes hlead]
    simp only [hhead.read_append hitem, hread]

/-- A list is read from after its opening bracket to after its closing one. -/
theorem readElements_closeList_inside (hitems : List.Forall₂ (Yields read) values items)
    (htext : Inside Writes items text) (rest : List UInt8) :
    ∃ left, readElements read (roundsFor (encode (text ++ [']']) ++ rest)) 0
        (encode (text ++ [']']) ++ rest) = .ok (values, left) ∧
      closeList left = .ok rest := by
  have hrounds := length_lt_roundsFor_of_inside ne_nil_of_writes htext (Byte.listClose :: rest)
  obtain ⟨blank, hblank, hread⟩ := readElements_inside hitems htext hrounds rest
  rw [encode_append_listClose]
  exact ⟨_, hread, closeList_blank hblank rest⟩

end Lists

/-! ## Objects -/

/-- An entry takes the reading of an object from one state to another, however it is
written. -/
def EntersAs (enter : String → σ → List UInt8 → Except Stop (σ × List UInt8)) (key : String)
    (value : Value) (state state' : σ) : Prop :=
  ∀ ⦃before after text⦄, Blank before → Blank after → Writes value text →
    Reads (enter key state) state' (encode (before ++ ':' :: (after ++ text)))

/-- Entries take the reading of an object from one state to another. -/
inductive Enters (enter : String → σ → List UInt8 → Except Stop (σ × List UInt8)) :
    σ → List (String × Value) → σ → Prop
  | nil {state : σ} : Enters enter state [] state
  | cons {key : String} {value : Value} {entries : List (String × Value)} {state state' final : σ} :
    EntersAs enter key value state state' → Enters enter state' entries final →
    Enters enter state ((key, value) :: entries) final

/-- The value of an entry is read after its colon. -/
theorem readEntry_of_yields {read : Reader α} {value : α} {item : Value}
    (h : Yields read value item) (key : String) {before after text : List Char}
    (hbefore : Blank before) (hafter : Blank after) (hitem : Writes item text) :
    Reads (readEntry read key) value (encode (before ++ ':' :: (after ++ text))) := by
  intro rest
  have hcolon : String.utf8EncodeChar ':' = [Byte.colon] := rfl
  have hread := h hafter hitem rest
  have hexpect : expectColon (encode (before ++ ':' :: (after ++ text)) ++ rest) =
      .ok (encode (after ++ text) ++ rest) := by
    rw [encode_append, encode_cons, hcolon]
    simp only [List.append_assoc, List.cons_append, List.nil_append]
    rw [expectColon, skipSpace_blank_cons hbefore rfl]
    exact if_pos rfl
  rw [readEntry, hexpect]
  refine bind_eq_ok_iff.mpr ⟨_, rfl, ?_⟩
  rw [hread]

section Objects

variable {enter : String → σ → List UInt8 → Except Stop (σ × List UInt8)} {state final : σ}
  {entries : List (String × Value)} {text : List Char}

theorem nextKey?_blank {blank : List Char} (hblank : Blank blank) (first : Bool)
    (rest : List UInt8) :
    nextKey? first (encode blank ++ Byte.objectClose :: rest) = .ok none := by
  rw [nextKey?, skipSpace_blank_cons hblank rfl]
  exact if_pos rfl

theorem nextKey?_first {before keyText : List Char} {key : String} (hbefore : Blank before)
    (hkey : WritesString key keyText) (rest : List UInt8) :
    nextKey? true (encode (before ++ keyText) ++ rest) = .ok (some (key, rest)) := by
  obtain ⟨bytes, hbytes, hread⟩ := readString_of_writesString hkey
  have hne : Byte.quote ≠ Byte.objectClose := by decide
  rw [encode_append, List.append_assoc, hbytes, List.cons_append, nextKey?,
    skipSpace_blank_cons hbefore rfl]
  simp only [if_neg hne, if_true, hread]
  rfl

theorem nextKey?_comma {before after keyText : List Char} {key : String} (hbefore : Blank before)
    (hafter : Blank after) (hkey : WritesString key keyText) (rest : List UInt8) :
    nextKey? false (encode (before ++ ',' :: (after ++ keyText)) ++ rest) =
      .ok (some (key, rest)) := by
  obtain ⟨bytes, hbytes, hread⟩ := readString_of_writesString hkey
  have hcomma : String.utf8EncodeChar ',' = [Byte.comma] := rfl
  have hne : Byte.comma ≠ Byte.objectClose := by decide
  have hquote : Byte.isSpace Byte.quote = false := rfl
  rw [encode_append, encode_cons, encode_append, hcomma, hbytes]
  simp only [List.append_assoc, List.cons_append, List.nil_append]
  rw [nextKey?, skipSpace_blank_cons hbefore rfl]
  simp only [if_neg hne, Bool.false_eq_true, if_false, if_true, skipSpace_blank_cons hafter hquote,
    hread]
  rfl

/-- The loop over the entries goes on after an entry, and stops in front of the closing
bracket. -/
theorem readEntries_further (hentries : Enters enter state entries final)
    (htext : Further (WritesEntry Writes) entries text) {rounds : Nat}
    (hrounds : entries.length < rounds) (rest : List UInt8) :
    ∃ blank, Blank blank ∧
      readEntries enter rounds false state (encode text ++ Byte.objectClose :: rest) =
        .ok (final, encode blank ++ Byte.objectClose :: rest) := by
  induction htext generalizing state rounds with
  | @nil blank hblank =>
    cases hentries
    obtain ⟨rounds, rfl⟩ := Nat.exists_eq_add_one_of_ne_zero (Nat.ne_zero_of_lt hrounds)
    refine ⟨blank, hblank, ?_⟩
    rw [readEntries, nextKey?_blank hblank]
  | @cons entry entries before after text more hbefore hafter hentry _ ih =>
    obtain _ | ⟨hhead, htail⟩ := hentries
    obtain ⟨hkey, hbeforeColon, hafterColon, hvalue⟩ := hentry
    rename_i keyText beforeColon afterColon valueText
    obtain ⟨rounds, rfl⟩ := Nat.exists_eq_add_one_of_ne_zero (Nat.ne_zero_of_lt hrounds)
    obtain ⟨blank, hblank, hread⟩ := ih htail (Nat.lt_of_succ_lt_succ hrounds)
    -- the key, the value behind its colon, and the entries that follow
    have hsplit : encode (before ++ ',' :: (after ++
          (keyText ++ (beforeColon ++ ':' :: (afterColon ++ valueText)) ++ more))) ++
            Byte.objectClose :: rest =
        encode (before ++ ',' :: (after ++ keyText)) ++
          (encode (beforeColon ++ ':' :: (afterColon ++ valueText)) ++
            (encode more ++ Byte.objectClose :: rest)) := by
      simp only [encode_append, encode_cons, List.append_assoc]
    refine ⟨blank, hblank, ?_⟩
    rw [hsplit, readEntries, nextKey?_comma hbefore hafter hkey]
    simp only [hhead hbeforeColon hafterColon hvalue (encode more ++ Byte.objectClose :: rest),
      hread]

theorem readEntries_inside (hentries : Enters enter state entries final)
    (htext : Inside (WritesEntry Writes) entries text) {rounds : Nat}
    (hrounds : entries.length < rounds) (rest : List UInt8) :
    ∃ blank, Blank blank ∧
      readEntries enter rounds true state (encode text ++ Byte.objectClose :: rest) =
        .ok (final, encode blank ++ Byte.objectClose :: rest) := by
  obtain ⟨rounds, rfl⟩ := Nat.exists_eq_add_one_of_ne_zero (Nat.ne_zero_of_lt hrounds)
  cases htext with
  | nil hblank =>
    cases hentries
    refine ⟨text, hblank, ?_⟩
    rw [readEntries, nextKey?_blank hblank]
  | @cons entry entries before text more hbefore hentry hfurther =>
    obtain _ | ⟨hhead, htail⟩ := hentries
    obtain ⟨hkey, hbeforeColon, hafterColon, hvalue⟩ := hentry
    rename_i keyText beforeColon afterColon valueText
    obtain ⟨blank, hblank, hread⟩ :=
      readEntries_further htail hfurther (Nat.lt_of_succ_lt_succ hrounds) rest
    -- as behind a comma, with nothing but white space in front of the key
    have hsplit : encode (before ++
          (keyText ++ (beforeColon ++ ':' :: (afterColon ++ valueText)) ++ more)) ++
            Byte.objectClose :: rest =
        encode (before ++ keyText) ++
          (encode (beforeColon ++ ':' :: (afterColon ++ valueText)) ++
            (encode more ++ Byte.objectClose :: rest)) := by
      simp only [encode_append, encode_cons, List.append_assoc]
    refine ⟨blank, hblank, ?_⟩
    rw [hsplit, readEntries, nextKey?_first hbefore hkey]
    simp only [hhead hbeforeColon hafterColon hvalue (encode more ++ Byte.objectClose :: rest),
      hread]

theorem ne_nil_of_writesEntry {entry : String × Value} {text : List Char}
    (h : WritesEntry Writes entry text) : text ≠ [] := by
  obtain ⟨⟨_⟩, -, -, -⟩ := h
  exact List.cons_ne_nil _ _

/-- The entries of an object are read from after its opening bracket up to its closing one. -/
theorem readEntries_roundsFor_inside (hentries : Enters enter state entries final)
    (htext : Inside (WritesEntry Writes) entries text) (rest : List UInt8) :
    ∃ left, readEntries enter (roundsFor (encode (text ++ ['\x7d']) ++ rest)) true state
        (encode (text ++ ['\x7d']) ++ rest) = .ok (final, left) ∧
      passObjectClose left = rest := by
  have hrounds :=
    length_lt_roundsFor_of_inside ne_nil_of_writesEntry htext (Byte.objectClose :: rest)
  obtain ⟨blank, hblank, hread⟩ := readEntries_inside hentries htext hrounds rest
  rw [encode_append_objectClose]
  exact ⟨_, hread, passObjectClose_blank hblank rest⟩

theorem readObject_of_body {body : List UInt8 → Except Stop (σ × List UInt8)}
    {bytes left rest : List UInt8} (hbody : body bytes = .ok (final, left))
    (hclose : passObjectClose left = rest) : readObject body bytes = .ok (final, rest) := by
  rw [readObject, hbody]
  simp only [hclose]

end Objects

/-! ## Whole values -/

/-- Entries that are kept are kept in order. -/
theorem enters_keepEntry {read : Reader Value} {entries : List (String × Value)}
    (hentries : ∀ entry ∈ entries, Yields read entry.2 entry.2) (kept : List (String × Value)) :
    Enters (keepEntry read) kept entries (entries.reverse ++ kept) := by
  induction entries generalizing kept with
  | nil => exact .nil
  | cons entry entries ih =>
    obtain ⟨key, value⟩ := entry
    rw [List.reverse_cons, List.append_assoc]
    refine .cons (fun _ _ _ hbefore hafter hvalue rest => ?_)
      (ih (fun entry hentry => hentries entry (List.mem_cons_of_mem _ hentry))
        ((key, value) :: kept))
    rw [keepEntry, readEntry_of_yields (hentries _ List.mem_cons_self) key hbefore hafter hvalue]

/-- The branch that a reader takes after white space and the byte that announces a value. -/
theorem read_of_branch {read : Reader α} {branch : UInt8 → Reader α}
    (hread : ∀ text, read text =
      match skipSpace text with
      | [] => .error (.next .endOfValue [])
      | b :: tail => branch b tail) {blank : List Char} (hblank : Blank blank) {b : UInt8}
    (hb : Lead.of b ≠ .other) (bytes : List UInt8) :
    read (encode blank ++ b :: bytes) = branch b bytes := by
  rw [hread, skipSpace_blank_cons hblank (isSpace_eq_false_of_lead hb).1]

/-- **A written value is read back**, whatever the order of its entries, as long as there are
levels for its brackets. -/
theorem yields_readValue {levels : Nat} {item : Value} (hdepth : item.Within levels) :
    Yields (readValue levels) item item := by
  induction levels using Nat.strongRecOn generalizing item with
  | ind levels ih =>
    intro blank text hblank hitem rest
    have hbranch {b : UInt8} (hb : Lead.of b ≠ .other) (bytes : List UInt8) :=
      read_of_branch (readValue.eq_def levels) hblank hb bytes
    rw [encode_append, List.append_assoc]
    cases hitem with
    | null => exact (hbranch (b := 0x6E) (by decide) _).trans rfl
    | yes => exact (hbranch (b := 0x74) (by decide) _).trans rfl
    | no => exact (hbranch (b := 0x66) (by decide) _).trans rfl
    | string hstring =>
      obtain ⟨bytes, hbytes, hread⟩ := readString_of_writesString hstring
      rw [hbytes, List.cons_append, hbranch (by decide)]
      exact bind_eq_ok_iff.mpr ⟨_, hread rest, rfl⟩
    | @list items inner hitems =>
      obtain _ | levels := levels
      · exact hdepth.elim
      have hyields : List.Forall₂ (Yields (readValue levels)) items items :=
        List.forall₂_same.mpr fun item hitem =>
          ih levels (Nat.lt_succ_self levels) (hdepth item hitem)
      obtain ⟨left, hread, hclose⟩ := readElements_closeList_inside hyields hitems rest
      refine (hbranch (b := Byte.listOpen) (by decide) _).trans ?_
      refine bind_eq_ok_iff.mpr ⟨_, hread, ?_⟩
      exact bind_eq_ok_iff.mpr ⟨_, hclose, rfl⟩
    | @object entries inner hentries =>
      obtain _ | levels := levels
      · exact hdepth.elim
      have henters : Enters (keepEntry (readValue levels)) [] entries (entries.reverse ++ []) :=
        enters_keepEntry
          (fun entry hentry => ih levels (Nat.lt_succ_self levels) (hdepth entry hentry)) []
      obtain ⟨left, hread, hclose⟩ := readEntries_roundsFor_inside henters hentries rest
      refine (hbranch (b := Byte.objectOpen) (by decide) _).trans ?_
      -- the last entry that has been read stands first, and the reader turns them round
      refine bind_eq_ok_iff.mpr ⟨_, readObject_of_body hread hclose, ?_⟩
      simp only [List.append_nil, List.reverse_reverse]
      rfl

end Ambient.Json
