/-
A text without its comments.

A comment goes from two slashes to the end of the line, or from a slash and a star to the
next star and slash. What is left of a text without its comments and its white space is
its bare text.

A text is read from left to right, and what a piece of it shows depends on what the piece
is read in: in code, in a comment up to the end of the line, or in one up to its closing
mark. `Shows` says what a piece shows and in what it leaves off, whatever follows, so that
pieces can be put together. Two pieces that are read in code, leave off in code and show
the same are alike, and one may stand for the other anywhere in a text.
-/
import Mathlib.Data.List.Basic

set_option autoImplicit false

namespace Ambient.Text

/-! ## Bare texts -/

/-- White space, as Unicode has it. -/
def isBlank (c : Char) : Bool :=
  (0x9 ≤ c.toNat && c.toNat ≤ 0xD) || c == ' ' || c.toNat == 0x85 || c.toNat == 0xA0 ||
    c.toNat == 0x1680 || (0x2000 ≤ c.toNat && c.toNat ≤ 0x200A) || c.toNat == 0x2028 ||
    c.toNat == 0x2029 || c.toNat == 0x202F || c.toNat == 0x205F || c.toNat == 0x3000

/-- What a text is read in: in no comment, in one that goes to the end of the line, or in
one that goes to its closing mark. -/
inductive Mode where
  | code
  | line
  | block
  deriving DecidableEq, Repr

/-- The rest of a text without its comments. -/
def strip : Mode → List Char → List Char
  | .code, '/' :: '/' :: rest => strip .line rest
  | .code, '/' :: '*' :: rest => strip .block rest
  | .code, c :: rest => c :: strip .code rest
  | .line, '\n' :: rest => '\n' :: strip .code rest
  | .line, _ :: rest => strip .line rest
  | .block, '*' :: '/' :: rest => strip .code rest
  | .block, _ :: rest => strip .block rest
  | _, [] => []

/-- The rest of a text without its comments and its white space. -/
def bareFrom (mode : Mode) (rest : List Char) : List Char :=
  (strip mode rest).filter fun c => !isBlank c

/-- A text without its comments and its white space. -/
def bare (text : String) : List Char := bareFrom .code text.toList

example : bare "a /* b */ c // d\n/* e" = ['a', 'c'] := by decide

/-! ## One step of reading -/

theorem strip_code_cons {c : Char} (hc : c ≠ '/') (rest : List Char) :
    strip .code (c :: rest) = c :: strip .code rest :=
  strip.eq_3 c rest (fun _ hslash _ => hc hslash) (fun _ hslash _ => hc hslash)

/-- A slash starts a comment only together with what comes right after it. -/
theorem strip_code_slash {d : Char} (hslash : d ≠ '/') (hstar : d ≠ '*') (rest : List Char) :
    strip .code ('/' :: d :: rest) = '/' :: strip .code (d :: rest) := by
  refine strip.eq_3 '/' (d :: rest) ?_ ?_
  · exact fun _ _ hrest => hslash (List.cons.inj hrest).1
  · exact fun _ _ hrest => hstar (List.cons.inj hrest).1

theorem bareFrom_code_slash {d : Char} (hslash : d ≠ '/') (hstar : d ≠ '*') (rest : List Char) :
    bareFrom .code ('/' :: d :: rest) = '/' :: bareFrom .code (d :: rest) := by
  rw [bareFrom, strip_code_slash hslash hstar, List.filter_cons_of_pos (by decide), bareFrom]

theorem strip_line_cons {c : Char} (hc : c ≠ '\n') (rest : List Char) :
    strip .line (c :: rest) = strip .line rest :=
  strip.eq_5 c rest hc

theorem strip_block_cons {c : Char} (hc : c ≠ '*') (rest : List Char) :
    strip .block (c :: rest) = strip .block rest :=
  strip.eq_7 c rest fun _ hstar _ => hc hstar

/-- A star ends a comment only together with what comes right after it. -/
theorem strip_block_star {d : Char} (hslash : d ≠ '/') (rest : List Char) :
    strip .block ('*' :: d :: rest) = strip .block (d :: rest) :=
  strip.eq_7 '*' (d :: rest) fun _ _ hrest => hslash (List.cons.inj hrest).1

/-! ## What a piece shows -/

/-- Read in `mode`, a piece shows `seen` and leaves off in `next`, whatever follows. -/
def Shows (mode : Mode) (piece seen : List Char) (next : Mode) : Prop :=
  ∀ rest, bareFrom mode (piece ++ rest) = seen ++ bareFrom next rest

theorem shows_nil (mode : Mode) : Shows mode [] [] mode := fun _ => rfl

theorem Shows.append {mode next last : Mode} {first second seen more : List Char}
    (hfirst : Shows mode first seen next) (hsecond : Shows next second more last) :
    Shows mode (first ++ second) (seen ++ more) last := by
  intro rest
  rw [List.append_assoc, hfirst, hsecond, List.append_assoc]

/-- Code without a slash shows itself. -/
theorem shows_code {piece : List Char} (hpiece : '/' ∉ piece) :
    Shows .code piece (piece.filter fun c => !isBlank c) .code := by
  induction piece with
  | nil => exact shows_nil .code
  | cons c piece ih =>
    rw [List.mem_cons, not_or] at hpiece
    intro rest
    rw [List.cons_append, bareFrom, strip_code_cons (Ne.symm hpiece.1), ← List.singleton_append,
      List.filter_append, ← bareFrom, ih hpiece.2, ← List.append_assoc, ← List.filter_append,
      List.singleton_append]

/-- White space shows nothing. -/
theorem shows_blank {piece : List Char} (hpiece : ∀ c ∈ piece, isBlank c = true) :
    Shows .code piece [] .code := by
  have hslash : '/' ∉ piece := fun hmem => absurd (hpiece '/' hmem) (by decide)
  have hseen : piece.filter (fun c => !isBlank c) = [] := by
    rw [List.filter_eq_nil_iff]
    intro c hc
    rw [hpiece c hc]
    decide
  rw [← hseen]
  exact shows_code hslash

/-! ## Comments -/

/-- A comment up to the end of the line, from its inside on. -/
theorem shows_line {comment : List Char} (hcomment : '\n' ∉ comment) :
    Shows .line (comment ++ ['\n']) [] .code := by
  induction comment with
  | nil => exact fun rest => rfl
  | cons c comment ih =>
    rw [List.mem_cons, not_or] at hcomment
    intro rest
    rw [List.cons_append, List.cons_append, bareFrom, strip_line_cons (Ne.symm hcomment.1),
      ← bareFrom, ih hcomment.2]

/-- A comment up to the end of the line shows nothing, also inside of another one. -/
theorem shows_remark {mode : Mode} (hmode : mode ≠ .block) {comment : List Char}
    (hcomment : '\n' ∉ comment) :
    Shows mode ('/' :: '/' :: (comment ++ ['\n'])) [] .code := by
  cases mode with
  | code => exact shows_line hcomment
  | line =>
    have hslashes : '\n' ∉ '/' :: '/' :: comment := by simpa using hcomment
    have hshows := shows_line hslashes
    exact hshows
  | block => exact absurd rfl hmode

/-- A comment up to its closing mark, from its inside on. -/
theorem shows_block {comment : List Char} (hcomment : ¬ ['*', '/'] <:+: comment) :
    Shows .block (comment ++ [' ', '*', '/']) [] .code := by
  induction comment with
  | nil => exact fun rest => rfl
  | cons c comment ih =>
    have hrest := ih fun hinside => hcomment (hinside.trans (List.suffix_cons c comment).isInfix)
    intro rest
    by_cases hc : c = '*'
    · -- what comes after a star is no slash, be it in the comment or behind it
      rw [hc] at hcomment ⊢
      cases comment with
      | nil => exact hrest rest
      | cons d comment =>
        have hd : d ≠ '/' := by
          rintro rfl
          exact hcomment ⟨[], comment, rfl⟩
        rw [List.cons_append, List.cons_append, List.cons_append, List.cons_append, bareFrom,
          strip_block_star hd, ← bareFrom]
        exact hrest rest
    · rw [List.cons_append, List.cons_append, bareFrom, strip_block_cons hc, ← bareFrom, hrest]

/-- A comment between its marks shows nothing. -/
theorem shows_note {comment : List Char} (hcomment : ¬ ['*', '/'] <:+: comment) :
    Shows .code (' ' :: '/' :: '*' :: ' ' :: (comment ++ [' ', '*', '/'])) [] .code :=
  shows_block hcomment

/-! ## Rows -/

/-- How a row ends: right away, or with a comment. -/
inductive EndsRow : List Char → Prop where
  | plain : EndsRow ['\n']
  | remark {comment : List Char} : '\n' ∉ comment →
    EndsRow (' ' :: '/' :: '/' :: (comment ++ ['\n']))

theorem EndsRow.shows {mode : Mode} (hmode : mode ≠ .block) {tail : List Char}
    (htail : EndsRow tail) : Shows mode tail [] .code := by
  cases htail with
  | plain =>
    cases mode with
    | code => exact fun rest => rfl
    | line => exact fun rest => rfl
    | block => exact absurd rfl hmode
  | remark hcomment =>
    have hspace : Shows mode [' '] [] mode := by
      cases mode <;> exact fun rest => rfl
    exact hspace.append (shows_remark hmode hcomment)

theorem EndsRow.exists_cons {tail : List Char} (htail : EndsRow tail) :
    ∃ c more, tail = c :: more ∧ c ≠ '/' ∧ c ≠ '*' := by
  cases htail with
  | plain => exact ⟨_, _, rfl, by decide, by decide⟩
  | remark => exact ⟨_, _, rfl, by decide, by decide⟩

/-- A slash in code shows itself if neither a slash nor a star comes right after it. -/
theorem shows_slash {piece seen : List Char}
    (hpiece : ∃ c more, piece = c :: more ∧ c ≠ '/' ∧ c ≠ '*')
    (hshows : Shows .code piece seen .code) : Shows .code ('/' :: piece) ('/' :: seen) .code := by
  obtain ⟨c, more, rfl, hslash, hstar⟩ := hpiece
  intro rest
  exact (bareFrom_code_slash hslash hstar (more ++ rest)).trans
    (congrArg ('/' :: ·) (hshows rest))

/-- A row that opens no comment between marks shows the same whichever way it ends. -/
theorem exists_shows_row {mode : Mode} (hmode : mode ≠ .block) {piece : List Char}
    (hpiece : ¬ ['/', '*'] <:+: piece) :
    ∃ seen, ∀ tail, EndsRow tail → Shows mode (piece ++ tail) seen .code := by
  -- the mode goes back and forth between code and a comment up to the end of the line
  induction piece generalizing mode with
  | nil => exact ⟨[], fun tail htail => htail.shows hmode⟩
  | cons c piece ih =>
    have hrest : ¬ ['/', '*'] <:+: piece :=
      fun hinside => hpiece (hinside.trans (List.suffix_cons c piece).isInfix)
    obtain ⟨code, hcode⟩ := ih (show Mode.code ≠ .block by decide) hrest
    obtain ⟨line, hline⟩ := ih (show Mode.line ≠ .block by decide) hrest
    cases mode with
    | block => exact absurd rfl hmode
    | line =>
      by_cases hc : c = '\n'
      · exact ⟨code, fun tail htail rest => by rw [hc]; exact hcode tail htail rest⟩
      · refine ⟨line, fun tail htail rest => ?_⟩
        rw [List.cons_append, List.cons_append, bareFrom, strip_line_cons hc]
        exact hline tail htail rest
    | code =>
      by_cases hc : c = '/'
      · rw [hc] at hpiece ⊢
        cases piece with
        | nil =>
          exact ⟨'/' :: code, fun tail htail => shows_slash htail.exists_cons (hcode tail htail)⟩
        | cons d piece =>
          have hstar : d ≠ '*' := by
            rintro rfl
            exact hpiece ⟨[], piece, rfl⟩
          by_cases hslash : d = '/'
          · -- inside of the comment that the two slashes start, the second one is nothing
            rw [hslash] at hline ⊢
            exact ⟨line, fun tail htail rest => hline tail htail rest⟩
          · exact ⟨'/' :: code, fun tail htail =>
              shows_slash ⟨d, piece ++ tail, rfl, hslash, hstar⟩ (hcode tail htail)⟩
      · -- any other character of code shows itself, if it is not blank
        refine ⟨[c].filter (fun c => !isBlank c) ++ code, fun tail htail => ?_⟩
        have hhead : Shows .code [c] ([c].filter fun c => !isBlank c) .code :=
          shows_code (by simpa using Ne.symm hc)
        exact hhead.append (hcode tail htail)

/-! ## Alike texts -/

/-- Two pieces that show the same wherever they stand in code. -/
def Alike (piece other : List Char) : Prop :=
  ∃ seen, Shows .code piece seen .code ∧ Shows .code other seen .code

theorem alike_nil : Alike [] [] := ⟨[], shows_nil .code, shows_nil .code⟩

theorem Alike.append {first second other another : List Char} (hfirst : Alike first other)
    (hsecond : Alike second another) : Alike (first ++ second) (other ++ another) := by
  obtain ⟨seen, hpiece, hother⟩ := hfirst
  obtain ⟨more, hnext, hanother⟩ := hsecond
  exact ⟨seen ++ more, hpiece.append hnext, hother.append hanother⟩

/-- Code without a slash is like itself. -/
theorem alike_code {piece : List Char} (hpiece : '/' ∉ piece) : Alike piece piece :=
  ⟨_, shows_code hpiece, shows_code hpiece⟩

/-- A row is like the same row with another comment at its end. -/
theorem alike_row {piece : List Char} (hpiece : ¬ ['/', '*'] <:+: piece)
    {tail other : List Char} (htail : EndsRow tail) (hother : EndsRow other) :
    Alike (piece ++ tail) (piece ++ other) := by
  obtain ⟨seen, hseen⟩ := exists_shows_row (show Mode.code ≠ .block by decide) hpiece
  exact ⟨seen, hseen tail htail, hseen other hother⟩

/-- A row with nothing but a comment is like no row. -/
theorem alike_remark {comment : List Char} (hcomment : '\n' ∉ comment) :
    Alike ('/' :: '/' :: (comment ++ ['\n'])) [] :=
  ⟨[], shows_remark (by decide) hcomment, shows_nil .code⟩

/-- A comment between its marks is like nothing. -/
theorem alike_note {comment : List Char} (hcomment : ¬ ['*', '/'] <:+: comment) :
    Alike (' ' :: '/' :: '*' :: ' ' :: (comment ++ [' ', '*', '/'])) [] :=
  ⟨[], shows_note hcomment, shows_nil .code⟩

/-- White space is like nothing. -/
theorem alike_blank {piece : List Char} (hpiece : ∀ c ∈ piece, isBlank c = true) :
    Alike piece [] :=
  ⟨[], shows_blank hpiece, shows_nil .code⟩

/-- Texts that are alike are the same without their comments and their white space. -/
theorem Alike.bareFrom_eq {piece other : List Char} (h : Alike piece other) :
    bareFrom .code piece = bareFrom .code other := by
  obtain ⟨seen, hpiece, hother⟩ := h
  have hend := hpiece []
  rw [List.append_nil] at hend
  rw [hend, ← hother [], List.append_nil]

end Ambient.Text
