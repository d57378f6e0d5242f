/-
What it means for a reference to resolve, apart from how it is looked up.

`Resolves` is the meaning: the base of the reference is built in, or it is a name without
points that some enclosing scope declares, or it is a path whose first part is the name
of a child of the innermost scope that has such a child, whose middle parts lead on
through first matches, and whose last part is declared where they end. `resolves_iff`
says that the look-up decides exactly this.
-/
import Ambient.Proofs.Scope.Spelling

set_option autoImplicit false

namespace Ambient.Scope

open Ambient.Tree

/-! ## One scope -/

/-- The first child of a scope that has the name `name`. -/
def FirstChild (scope : Namespace) (name : String) (child : Namespace) : Prop :=
  ∃ before after, scope.namespaces = before ++ child :: after ∧ child.name = name ∧
    ∀ other ∈ before, other.name ≠ name

/-- A scope declares a type of that name. -/
def Declares (scope : Namespace) (name : String) : Prop :=
  ∃ declared ∈ scope.types, declared.name = name

theorem findNamespace?_eq_some_iff {scope child : Namespace} {name : String} :
    scope.findNamespace? name = some child ↔ FirstChild scope name child := by
  rw [Namespace.findNamespace?, List.find?_eq_some_iff_append]
  constructor
  · rintro ⟨hname, before, after, hsplit, hbefore⟩
    exact ⟨before, after, hsplit, by simpa using hname, by simpa using hbefore⟩
  · rintro ⟨before, after, hsplit, hname, hbefore⟩
    exact ⟨by simpa using hname, before, after, hsplit, by simpa using hbefore⟩

theorem findNamespace?_eq_none_iff {scope : Namespace} {name : String} :
    scope.findNamespace? name = none ↔ ∀ child ∈ scope.namespaces, child.name ≠ name := by
  rw [Namespace.findNamespace?, List.find?_eq_none]
  simp

theorem isSome_findType?_iff {scope : Namespace} {name : String} :
    (scope.findType? name).isSome = true ↔ Declares scope name := by
  rw [Namespace.findType?, List.find?_isSome]
  simp [Declares]

/-! ## Paths -/

/-- Names lead from a scope to another one through the first child of each name. -/
inductive Leads : Namespace → List String → Namespace → Prop where
  | here {scope : Namespace} : Leads scope [] scope
  | child {scope child last : Namespace} {name : String} {names : List String} :
    FirstChild scope name child → Leads child names last → Leads scope (name :: names) last

/-- The first child named `head` of the innermost scope of a chain that has one. -/
def Heads (chain : List Namespace) (head : String) (child : Namespace) : Prop :=
  ∃ inner scope outer, chain = inner ++ scope :: outer ∧ FirstChild scope head child ∧
    ∀ other ∈ inner, ∀ sibling ∈ other.namespaces, sibling.name ≠ head

/-- A text without array markers resolves in a chain of scopes, the innermost first. -/
inductive ResolvesBase (chain : List Namespace) : String → Prop where
  | builtin {base : String} : base ∈ builtins → ResolvesBase chain base
  | declared {base : String} {scope : Namespace} :
    '.' ∉ base.toList → scope ∈ chain → Declares scope base → ResolvesBase chain base
  | dotted {head last : String} {middle : List String} {child leaf : Namespace} :
    (∀ part ∈ head :: (middle ++ [last]), '.' ∉ part.toList) → Heads chain head child →
    Leads child middle leaf → Declares leaf last →
    ResolvesBase chain (".".intercalate (head :: (middle ++ [last])))

/-- A reference resolves in a chain of scopes, the innermost first: its base does. -/
def Resolves (chain : List Namespace) (reference : String) : Prop :=
  ∃ base, IsTarget reference base ∧ ResolvesBase chain base

/-! ## The look-up decides the meaning -/

theorem leadsToType_iff {scope : Namespace} {middle : List String} {last : String} :
    leadsToType scope (middle ++ [last]) = true ↔
      ∃ leaf, Leads scope middle leaf ∧ Declares leaf last := by
  induction middle generalizing scope with
  | nil =>
    rw [List.nil_append, leadsToType, isSome_findType?_iff]
    constructor
    · intro hdeclares
      exact ⟨scope, .here, hdeclares⟩
    · rintro ⟨leaf, ⟨⟩, hdeclares⟩
      exact hdeclares
  | cons name names ih =>
    have hrest : names ++ [last] ≠ [] := by simp
    rw [List.cons_append, leadsToType.eq_3 _ _ _ hrest]
    cases hchild : scope.findNamespace? name with
    | none =>
      -- without a child of that name no path leads on
      simp only [Bool.false_eq_true, false_iff]
      rintro ⟨leaf, hleads, -⟩
      cases hleads with
      | child hfirst _ =>
        rw [findNamespace?_eq_some_iff.mpr hfirst] at hchild
        cases hchild
    | some child =>
      dsimp only
      rw [ih]
      constructor
      · rintro ⟨leaf, hleads, hdeclares⟩
        exact ⟨leaf, .child (findNamespace?_eq_some_iff.mp hchild) hleads, hdeclares⟩
      · rintro ⟨leaf, hleads, hdeclares⟩
        cases hleads with
        | child hfirst hleads =>
          rw [findNamespace?_eq_some_iff.mpr hfirst, Option.some.injEq] at hchild
          exact ⟨leaf, hchild ▸ hleads, hdeclares⟩

theorem findSome?_findNamespace?_iff {chain : List Namespace} {head : String}
    {child : Namespace} :
    chain.findSome? (·.findNamespace? head) = some child ↔ Heads chain head child := by
  rw [List.findSome?_eq_some_iff]
  simp only [findNamespace?_eq_some_iff, findNamespace?_eq_none_iff, Heads]

theorem resolvesPath_single (chain : List Namespace) (name : String) :
    resolvesPath chain [name] = true ↔ ∃ scope ∈ chain, Declares scope name := by
  rw [resolvesPath, List.any_eq_true]
  simp only [isSome_findType?_iff]

theorem resolvesPath_dotted (chain : List Namespace) (head last : String)
    (middle : List String) :
    resolvesPath chain (head :: (middle ++ [last])) = true ↔
      ∃ child, Heads chain head child ∧ ∃ leaf, Leads child middle leaf ∧ Declares leaf last := by
  have hrest : middle ++ [last] ≠ [] := by simp
  rw [resolvesPath.eq_3 _ _ _ hrest]
  simp only [← findSome?_findNamespace?_iff, ← leadsToType_iff]
  cases chain.findSome? (·.findNamespace? head) with
  | none => simp
  | some child => simp

theorem resolvesBase_iff {chain : List Namespace} {base : String} :
    ResolvesBase chain base ↔ base ∈ builtins ∨ resolvesPath chain (path base) = true := by
  constructor
  · intro hresolves
    cases hresolves with
    | builtin hbuiltin => exact Or.inl hbuiltin
    | declared hpoints hscope hdeclares =>
      apply Or.inr
      rw [path_of_notMem hpoints, resolvesPath_single]
      exact ⟨_, hscope, hdeclares⟩
    | dotted hpoints hheads hleads hdeclares =>
      apply Or.inr
      rw [path_join (List.cons_ne_nil _ _) hpoints, resolvesPath_dotted]
      exact ⟨_, hheads, _, hleads, hdeclares⟩
  · rintro (hbuiltin | hpath)
    · exact .builtin hbuiltin
    · have hjoin := join_path base
      have hpoints : ∀ part ∈ path base, '.' ∉ part.toList := fun _ => notMem_of_mem_path
      -- one part is a name, more of them are a dotted path
      rcases hparts : path base with _ | ⟨head, more⟩
      · exact absurd hparts (path_ne_nil base)
      · rw [hparts] at hpath hjoin hpoints
        rcases List.eq_nil_or_concat more with rfl | ⟨middle, last, rfl⟩
        · obtain ⟨scope, hscope, hdeclares⟩ := (resolvesPath_single _ _).mp hpath
          rw [String.intercalate_singleton] at hjoin
          subst hjoin
          exact .declared (hpoints _ List.mem_cons_self) hscope hdeclares
        · rw [List.concat_eq_append] at hpath hjoin hpoints
          obtain ⟨child, hheads, leaf, hleads, hdeclares⟩ :=
            (resolvesPath_dotted _ _ _ _).mp hpath
          rw [← hjoin]
          exact .dotted hpoints hheads hleads hdeclares

/-- The look-up of a reference succeeds exactly if the reference resolves. -/
theorem resolves_iff {chain : List Namespace} {reference : String} :
    resolves chain reference = true ↔ Resolves chain reference := by
  rw [resolves, Bool.or_eq_true, List.contains_iff_mem, ← resolvesBase_iff, Resolves]
  simp only [isTarget_iff, exists_eq_left']

instance (chain : List Namespace) (reference : String) : Decidable (Resolves chain reference) :=
  decidable_of_iff _ resolves_iff

/-! ## Ways to resolve -/

theorem isTarget_self {text : String} (htext : ']' ∉ text.toList) : IsTarget text text :=
  ⟨⟨0, rfl⟩, not_endsInMarker_of_notMem htext⟩

variable {chain : List Namespace}

theorem resolves_of_builtin {name : String} (hname : name ∈ builtins) : Resolves chain name := by
  have hplain : ∀ name ∈ builtins, ']' ∉ name.toList := by decide
  exact ⟨name, isTarget_self (hplain name hname), .builtin hname⟩

/-- A name without points and brackets resolves if a scope declares it. -/
theorem resolves_of_declares {scope : Namespace} {name : String} (hpoint : '.' ∉ name.toList)
    (hbracket : ']' ∉ name.toList) (hscope : scope ∈ chain) (hdeclares : Declares scope name) :
    Resolves chain name :=
  ⟨name, isTarget_self hbracket, .declared hpoint hscope hdeclares⟩

/-- A dotted name resolves if its first part leads to a scope that declares the second. -/
theorem resolves_of_heads {child : Namespace} {head last : String}
    (hhead : '.' ∉ head.toList ∧ ']' ∉ head.toList)
    (hlast : '.' ∉ last.toList ∧ ']' ∉ last.toList) (hheads : Heads chain head child)
    (hdeclares : Declares child last) : Resolves chain (head ++ "." ++ last) := by
  have hjoin : ".".intercalate (head :: ([] ++ [last])) = head ++ "." ++ last := by simp
  refine ⟨head ++ "." ++ last, isTarget_self ?_, ?_⟩
  · simp [hhead.2, hlast.2]
  · rw [← hjoin]
    exact .dotted (by simp [hhead.1, hlast.1]) hheads .here hdeclares

/-- Array markers do not matter. -/
theorem resolves_append_marker {reference : String} (h : Resolves chain reference) :
    Resolves chain (reference ++ Schema.arrayMarker) := by
  obtain ⟨base, htarget, hbase⟩ := h
  refine ⟨base, ?_, hbase⟩
  rw [isTarget_iff, target_append_marker]
  exact isTarget_iff.mp htarget

end Ambient.Scope
