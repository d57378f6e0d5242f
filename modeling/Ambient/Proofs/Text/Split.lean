/-
Where a text written next to another one ends.

Two ways of putting a text before another give the same whole only if the first texts are
the same, as long as their end can be seen. There are three ways to see it: the text
keeps to a set of characters that what follows does not start with, it cannot hold the
two characters that close it, or it is a list of blocks none of which looks like the
beginning of what follows.
-/
import Mathlib.Data.List.Basic

set_option autoImplicit false

namespace Ambient.Text

variable {α β γ : Type}

/-! ## Ends seen by a set of characters -/

/-- Two lists within a set are the same if what follows them starts outside of it. -/
theorem append_inj_of_head {p : α → Prop} {a b r s : List α} (ha : ∀ x ∈ a, p x)
    (hb : ∀ x ∈ b, p x) (hr : ∀ x ∈ r.head?, ¬ p x) (hs : ∀ x ∈ s.head?, ¬ p x)
    (h : a ++ r = b ++ s) : a = b ∧ r = s := by
  -- the longer of two lists would go on with the first character of the other rest
  induction a generalizing b with
  | nil =>
    cases b with
    | nil => exact ⟨rfl, h⟩
    | cons y b =>
      rw [List.nil_append, List.cons_append] at h
      exact absurd (hb y List.mem_cons_self) (hr y (by rw [h]; rfl))
  | cons x a ih =>
    cases b with
    | nil =>
      rw [List.nil_append, List.cons_append] at h
      exact absurd (ha x List.mem_cons_self) (hs x (by rw [← h]; rfl))
    | cons y b =>
      rw [List.cons_append, List.cons_append, List.cons.injEq] at h
      obtain ⟨rfl, h⟩ := h
      obtain ⟨rfl, hrest⟩ := ih (fun z hz => ha z (List.mem_cons_of_mem _ hz))
        (fun z hz => hb z (List.mem_cons_of_mem _ hz)) h
      exact ⟨rfl, hrest⟩

/-! ## Ends seen by two closing characters -/

/-- What comes before a gap and the two closing characters cannot run past them without
holding them. -/
theorem append_inj_of_closed {gap first second : α} (hfirst : first ≠ gap)
    (hsecond : second ≠ gap) {a b r s : List α} (ha : ¬ [first, second] <:+: a)
    (hb : ¬ [first, second] <:+: b)
    (h : a ++ gap :: first :: second :: r = b ++ gap :: first :: second :: s) :
    a = b ∧ r = s := by
  -- the shorter text stops where the longer one would have to hold the closing characters
  have hstop : ∀ (y : α) (c t u : List α), ¬ [first, second] <:+: (y :: c) →
      gap :: first :: second :: t ≠ (y :: c) ++ gap :: first :: second :: u := by
    intro y c t u hc heq
    rw [List.cons_append, List.cons.injEq] at heq
    obtain ⟨rfl, heq⟩ := heq
    match c with
    | [] => exact hfirst (List.cons.inj heq).1
    | [z] => exact hsecond (List.cons.inj (List.cons.inj heq).2).1
    | z :: w :: c =>
      obtain ⟨hz, hrest⟩ := List.cons.inj heq
      obtain ⟨hw, -⟩ := List.cons.inj hrest
      exact hc ⟨[gap], c, by rw [hz, hw]; rfl⟩
  induction a generalizing b with
  | nil =>
    cases b with
    | nil => exact ⟨rfl, by simpa using h⟩
    | cons y b => exact absurd h (hstop y b r s hb)
  | cons x a ih =>
    cases b with
    | nil => exact absurd h.symm (hstop x a s r ha)
    | cons y b =>
      rw [List.cons_append, List.cons_append, List.cons.injEq] at h
      obtain ⟨rfl, h⟩ := h
      have htail : ∀ c : List α, ¬ [first, second] <:+: (x :: c) → ¬ [first, second] <:+: c :=
        fun c hc hinside => hc (hinside.trans (List.suffix_cons x c).isInfix)
      obtain ⟨rfl, hrest⟩ := ih (htail a ha) (htail b hb) h
      exact ⟨rfl, hrest⟩

/-! ## Ends of lists of blocks -/

/-- Two lists of blocks are the same, as far as `e` can tell, if a block can be told from
what follows and neither end looks like the beginning of a block. -/
theorem flatMap_append_inj {f : α → List β} {e : α → γ} {xs ys : List α} {t u : List β}
    (hblock : ∀ x ∈ xs, ∀ y ∈ ys, ∀ r s, f x ++ r = f y ++ s → e x = e y ∧ r = s)
    (ht : ∀ y ∈ ys, ∀ r, f y ++ r ≠ t) (hu : ∀ x ∈ xs, ∀ r, f x ++ r ≠ u)
    (h : xs.flatMap f ++ t = ys.flatMap f ++ u) : xs.map e = ys.map e ∧ t = u := by
  -- where one list runs out before the other, what follows it looks like a block
  induction xs generalizing ys with
  | nil =>
    cases ys with
    | nil => exact ⟨rfl, h⟩
    | cons y ys =>
      rw [List.flatMap_nil, List.nil_append, List.flatMap_cons, List.append_assoc] at h
      exact absurd h.symm (ht y List.mem_cons_self _)
  | cons x xs ih =>
    cases ys with
    | nil =>
      rw [List.flatMap_nil, List.nil_append, List.flatMap_cons, List.append_assoc] at h
      exact absurd h (hu x List.mem_cons_self _)
    | cons y ys =>
      rw [List.flatMap_cons, List.flatMap_cons, List.append_assoc, List.append_assoc] at h
      obtain ⟨hhead, hrest⟩ := hblock x List.mem_cons_self y List.mem_cons_self _ _ h
      obtain ⟨htail, hend⟩ := ih
        (fun x hx y hy => hblock x (List.mem_cons_of_mem _ hx) y (List.mem_cons_of_mem _ hy))
        (fun y hy => ht y (List.mem_cons_of_mem _ hy))
        (fun x hx => hu x (List.mem_cons_of_mem _ hx)) hrest
      exact ⟨by rw [List.map_cons, List.map_cons, hhead, htail], hend⟩

/-- The same where every block is a single entry that gives its element back. -/
theorem map_append_inj {f : α → β} {xs ys : List α} {t u : List β}
    (hblock : ∀ x ∈ xs, ∀ y ∈ ys, f x = f y → x = y)
    (ht : ∀ y ∈ ys, f y ∉ t.head?) (hu : ∀ x ∈ xs, f x ∉ u.head?)
    (h : xs.map f ++ t = ys.map f ++ u) : xs = ys ∧ t = u := by
  have hsame : xs.map id = ys.map id ∧ t = u := by
    apply flatMap_append_inj (f := fun x => [f x])
    · intro x hx y hy r s heq
      obtain ⟨hhead, hrest⟩ := List.cons.inj heq
      exact ⟨hblock x hx y hy hhead, hrest⟩
    · rintro y hy r rfl
      exact ht y hy rfl
    · rintro x hx r rfl
      exact hu x hx rfl
    · rwa [← List.map_eq_flatMap, ← List.map_eq_flatMap]
  rwa [List.map_id, List.map_id] at hsame

/-- Lists of rows are the same if they are the same text and no row holds the character
that ends each of them. -/
theorem rows_inj {stop : α} {rows others : List (List α)} (hrows : ∀ row ∈ rows, stop ∉ row)
    (hothers : ∀ row ∈ others, stop ∉ row)
    (h : (rows.flatMap fun row => row ++ [stop]) = others.flatMap fun row => row ++ [stop]) :
    rows = others := by
  have hsame : rows.map id = others.map id ∧ ([] : List α) = [] := by
    apply flatMap_append_inj (f := fun row => row ++ [stop])
    · intro row hrow other hother r s heq
      have hstop : ∀ (rest : List α), ∀ x ∈ (stop :: rest).head?, ¬ x ≠ stop := by
        intro rest x hx hne
        exact hne (Option.mem_some_iff.mp hx).symm
      rw [List.append_assoc, List.append_assoc] at heq
      obtain ⟨hsplit, hrest⟩ := append_inj_of_head (p := (· ≠ stop))
        (fun x hx hstop => hrows row hrow (hstop ▸ hx))
        (fun x hx hstop => hothers other hother (hstop ▸ hx)) (hstop r) (hstop s) heq
      exact ⟨hsplit, (List.cons.inj hrest).2⟩
    · intro row _ r hnil
      simp at hnil
    · intro row _ r hnil
      simp at hnil
    · rw [List.append_nil, List.append_nil, h]
  rw [List.map_id, List.map_id] at hsame
  exact hsame.1

end Ambient.Text
