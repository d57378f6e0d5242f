/-
What putting a tree into a tree leaves alone.

Putting a tree at the end of a list of names whose last but one leads to a directory
changes nothing but the entry of the last name: another list of names leads where it led
before, or to a directory that has lost no name (`at?_put_cases`). So a path that could be
followed before can be followed to the same place afterwards (`Grows.follow`).
-/
import Ambient.Files.Tree

set_option autoImplicit false

namespace Ambient.Files

namespace Tree

/-! ## Putting a tree -/

theorem lookup_cons_if (other name : String) (tree : Tree) (entries : List (String × Tree)) :
    ((name, tree) :: entries).lookup other =
      if other = name then some tree else entries.lookup other := by
  by_cases hname : other = name
  · subst hname
    simp
  · have hbeq : (other == name) = false := beq_false_of_ne hname
    rw [List.lookup_cons, hbeq, if_neg hname]

theorem lookup_putEntry (name other : String) (inner : Tree) (entries : List (String × Tree)) :
    (putEntry name inner entries).lookup other =
      if other = name then some inner else entries.lookup other := by
  induction entries with
  | nil => rw [putEntry, lookup_cons_if]
  | cons entry entries ih =>
    obtain ⟨first, tree⟩ := entry
    rw [putEntry]
    by_cases hfirst : first = name
    · -- the entry is replaced, so that its old tree is not found any more
      rw [if_pos hfirst, lookup_cons_if, lookup_cons_if, hfirst]
      split <;> rfl
    · rw [if_neg hfirst, lookup_cons_if, lookup_cons_if, ih]
      by_cases hother : other = first
      · rw [if_pos hother, if_neg (hother ▸ hfirst), if_pos hother]
      · rw [if_neg hother, if_neg hother]

theorem at?_append (tree : Tree) (first second : List String) :
    tree.at? (first ++ second) = (tree.at? first).bind (·.at? second) := by
  induction first generalizing tree with
  | nil => rfl
  | cons name names ih =>
    rw [List.cons_append, at?, at?]
    cases tree.entries.lookup name with
    | none => rfl
    | some inner => exact ih inner

/-- Nothing lies behind a place that is no directory. -/
theorem at?_append_cons {tree : Tree} {names : List String}
    (hnone : ∀ entries, tree.at? names ≠ some (directory entries)) (name : String)
    (more : List String) : tree.at? (names ++ name :: more) = none := by
  rw [at?_append]
  cases hplace : tree.at? names with
  | none => rfl
  | some place =>
    cases place with
    | file bytes => rfl
    | directory entries => exact absurd hplace (hnone entries)

/-- A tree with something behind it is a directory. -/
theorem exists_directory_of_lookup {tree inner : Tree} {name : String}
    (hlookup : tree.entries.lookup name = some inner) :
    ∃ entries, tree = directory entries ∧ entries.lookup name = some inner := by
  cases tree with
  | file bytes => cases hlookup
  | directory entries => exact ⟨entries, rfl, hlookup⟩

/-- The last of some names is that of an entry of a directory. -/
theorem lookup_of_at?_concat {tree inner : Tree} {names : List String} {name : String}
    (hinner : tree.at? (names ++ [name]) = some inner) :
    ∃ entries, tree.at? names = some (directory entries) ∧ entries.lookup name = some inner := by
  rw [at?_append, Option.bind_eq_some_iff] at hinner
  obtain ⟨place, hplace, hinner⟩ := hinner
  rw [at?] at hinner
  cases hlookup : place.entries.lookup name with
  | none =>
    rw [hlookup] at hinner
    cases hinner
  | some entry =>
    rw [hlookup] at hinner
    obtain ⟨entries, rfl, hentry⟩ := exists_directory_of_lookup hlookup
    exact ⟨entries, hplace, hentry.trans hinner⟩

@[simp] theorem at?_put_self (tree inner : Tree) (names : List String) :
    (tree.put inner names).at? names = some inner := by
  induction names generalizing tree with
  | nil => rfl
  | cons name names ih =>
    rw [put, at?, entries, lookup_putEntry, if_pos rfl]
    exact ih _

/-- What lies behind the place where a tree was put lies in that tree. -/
theorem at?_put_append (tree inner : Tree) (names more : List String) :
    (tree.put inner names).at? (names ++ more) = inner.at? more := by
  rw [at?_append, at?_put_self, Option.bind_some]

/-- **Putting a tree changes one entry.** Names that do not lead through the new entry lead
where they led before, or to a directory in which one entry was put. -/
theorem at?_put_cases {before : List String} {last : String} (inner : Tree) :
    ∀ {tree : Tree} {entries : List (String × Tree)} {names : List String},
      tree.at? before = some (directory entries) → ¬ (before ++ [last]) <+: names →
      (tree.put inner (before ++ [last])).at? names = tree.at? names ∨
        ∃ present name put, tree.at? names = some (directory present) ∧
          (tree.put inner (before ++ [last])).at? names =
            some (directory (putEntry name put present)) := by
  induction before with
  | nil =>
    intro tree entries names hbefore hnames
    obtain rfl : tree = directory entries := Option.some.inj hbefore
    cases names with
    | nil => exact Or.inr ⟨entries, last, inner, rfl, rfl⟩
    | cons name names =>
      have hne : name ≠ last := by
        rintro rfl
        exact hnames ⟨names, rfl⟩
      left
      rw [List.nil_append, put, at?, at?, Tree.entries, lookup_putEntry, if_neg hne]
  | cons first before ih =>
    intro tree entries names hbefore hnames
    rw [at?] at hbefore
    cases hfirst : tree.entries.lookup first with
    | none =>
      rw [hfirst] at hbefore
      cases hbefore
    | some below =>
      rw [hfirst] at hbefore
      obtain ⟨present, rfl, -⟩ := exists_directory_of_lookup hfirst
      rw [List.cons_append, put, hfirst, Option.getD_some]
      cases names with
      | nil => exact Or.inr ⟨present, first, _, rfl, rfl⟩
      | cons name names =>
        rw [at?, at?, Tree.entries, lookup_putEntry]
        by_cases hname : name = first
        · subst hname
          have hbelow : ¬ (before ++ [last]) <+: names := fun hprefix =>
            hnames (List.cons_prefix_cons.mpr ⟨rfl, hprefix⟩)
          rw [if_pos rfl, hfirst]
          exact ih hbefore hbelow
        · rw [if_neg hname]
          exact Or.inl rfl

/-! ## Growing -/

/-- Every directory of one tree is a directory of the other, which has lost no name. -/
def Grows (tree grown : Tree) : Prop :=
  ∀ names entries, tree.at? names = some (directory entries) →
    ∃ more, grown.at? names = some (directory more) ∧
      ∀ name, (entries.lookup name).isSome → (more.lookup name).isSome

/-- A step along a path needs a directory to stand in, and the name of one of its entries. -/
theorem step_eq_ok_iff {tree : Tree} {standing next : List String} {part : String} :
    tree.step standing part = .ok next ↔
      ∃ entries, tree.at? standing.reverse = some (directory entries) ∧
        if isNoise part then next = standing
        else if part = ".." then next = standing.tail
        else (entries.lookup part).isSome ∧ next = part :: standing := by
  unfold step
  cases hplace : tree.at? standing.reverse with
  | none => simp
  | some place =>
    cases place with
    | file bytes => simp
    | directory entries =>
      simp only [Option.some.injEq, directory.injEq, exists_eq_left']
      by_cases hnoise : isNoise part = true
      · rw [if_pos hnoise, if_pos hnoise, Except.ok.injEq, eq_comm]
      · rw [if_neg hnoise, if_neg hnoise]
        by_cases habove : part = ".."
        · rw [if_pos habove, if_pos habove, Except.ok.injEq, eq_comm]
        · rw [if_neg habove, if_neg habove]
          by_cases hentry : (entries.lookup part).isSome = true
          · rw [if_pos hentry, Except.ok.injEq, eq_comm]
            exact (and_iff_right hentry).symm
          · rw [if_neg hentry]
            exact iff_of_false (fun h => nomatch h) fun h => hentry h.1

/-- From a directory the name of an entry leads to that entry. -/
theorem step_name {tree : Tree} {standing : List String} {part : String}
    {entries : List (String × Tree)} (hplace : tree.at? standing.reverse = some (directory entries))
    (hnoise : isNoise part = false) (habove : part ≠ "..")
    (hentry : (entries.lookup part).isSome) : tree.step standing part = .ok (part :: standing) := by
  refine step_eq_ok_iff.mpr ⟨entries, hplace, ?_⟩
  rw [hnoise, if_neg Bool.false_ne_true, if_neg habove]
  exact ⟨hentry, rfl⟩

/-- A path that can be followed leads to the same place in a tree that has grown. -/
theorem Grows.follow {tree grown : Tree} (hgrows : tree.Grows grown) :
    ∀ {parts standing names : List String}, tree.follow standing parts = .ok names →
      grown.follow standing parts = .ok names := by
  intro parts
  induction parts with
  | nil =>
    intro standing names hfollow
    exact hfollow
  | cons part more ih =>
    intro standing names hfollow
    rw [Tree.follow] at hfollow ⊢
    cases hnext : tree.step standing part with
    | error error =>
      rw [hnext] at hfollow
      cases hfollow
    | ok next =>
      rw [hnext] at hfollow
      have hstep : grown.step standing part = .ok next := by
        obtain ⟨entries, hentries, hpart⟩ := step_eq_ok_iff.mp hnext
        obtain ⟨present, hpresent, hnames⟩ := hgrows _ entries hentries
        refine step_eq_ok_iff.mpr ⟨present, hpresent, ?_⟩
        by_cases hnoise : isNoise part = true
        · rwa [if_pos hnoise] at hpart ⊢
        · rw [if_neg hnoise] at hpart ⊢
          by_cases habove : part = ".."
          · rwa [if_pos habove] at hpart ⊢
          · rw [if_neg habove] at hpart ⊢
            exact ⟨hnames part hpart.1, hpart.2⟩
      rw [hstep]
      exact ih hfollow

theorem follow_append (tree : Tree) (first second : List String) :
    ∀ standing, tree.follow standing (first ++ second) =
      match tree.follow standing first with
      | .ok names => tree.follow names second
      | .error error => .error error := by
  induction first with
  | nil =>
    intro standing
    rfl
  | cons part more ih =>
    intro standing
    rw [List.cons_append, follow, follow]
    cases tree.step standing part with
    | error error => rfl
    | ok next => exact ih next

/-- A path leads to a place exactly if what stands before its last part leads to a place from
which this part does. -/
theorem follow_concat_eq_ok_iff {tree : Tree} {standing names front : List String}
    {part : String} :
    tree.follow standing (front ++ [part]) = .ok names ↔
      ∃ reached, tree.follow standing front = .ok reached ∧ tree.step reached part = .ok names := by
  rw [follow_append]
  cases tree.follow standing front with
  | error error => simp
  | ok reached =>
    simp only [follow, Except.ok.injEq, exists_eq_left']
    cases tree.step reached part <;> simp

end Tree

end Ambient.Files
