/-
The issues of one tree in different surroundings.

The scopes around a tree matter for its issues in two ways: their names stand in front of
the path of every issue, and they may be where a reference resolves. Surroundings in which
more resolves (`Covers`) go on covering the others when the same scopes are put inside both
(`Covers.append`), so that they leave a part of the issues (`issuesIn_sublist`), with the
same collisions (`filter_isCollision_issuesIn`). References without points look at nothing
but types, so that scopes that declare none are the same as no scopes
(`resolves_append_of_typeless`).
-/
import Ambient.Proofs.Scope.Exact

set_option autoImplicit false

namespace Ambient.Scope

open Ambient.Tree

/-! ## What resolves in surroundings -/

/-- Every path that resolves in the scopes `chain` resolves in the scopes `wider`. -/
def Covers (wider chain : List Namespace) : Prop :=
  ∀ parts, resolvesPath chain parts = true → resolvesPath wider parts = true

theorem resolvesPath_cons_name (scope : Namespace) (chain : List Namespace) (name : String) :
    resolvesPath (scope :: chain) [name] =
      ((scope.findType? name).isSome || resolvesPath chain [name]) := by
  rw [resolvesPath, resolvesPath, List.any_cons]

/-- A dotted path is followed from the innermost scope, if this has a child named by its
first part, and looked up outside of it otherwise. -/
theorem resolvesPath_cons_dotted (scope : Namespace) (chain : List Namespace)
    (head next : String) (more : List String) :
    resolvesPath (scope :: chain) (head :: next :: more) =
      match scope.findNamespace? head with
      | some child => leadsToType child (next :: more)
      | none => resolvesPath chain (head :: next :: more) := by
  have hmore : next :: more ≠ [] := List.cons_ne_nil _ _
  rw [resolvesPath.eq_3 _ _ _ hmore, resolvesPath.eq_3 _ _ _ hmore, List.findSome?_cons]
  cases scope.findNamespace? head <;> rfl

theorem covers_nil (wider : List Namespace) : Covers wider [] := by
  rintro (_ | ⟨head, _ | ⟨next, more⟩⟩) hresolves <;> cases hresolves

/-- A scope inside of both hides the same names from both. -/
theorem Covers.cons {wider chain : List Namespace} (hcovers : Covers wider chain)
    (scope : Namespace) : Covers (scope :: wider) (scope :: chain) := by
  intro parts hresolves
  rcases parts with _ | ⟨head, _ | ⟨next, more⟩⟩
  · cases hresolves
  · rw [resolvesPath_cons_name, Bool.or_eq_true] at hresolves ⊢
    exact hresolves.imp_right (hcovers [head])
  · rw [resolvesPath_cons_dotted] at hresolves ⊢
    cases hchild : scope.findNamespace? head with
    | some child => rwa [hchild] at hresolves
    | none =>
      rw [hchild] at hresolves
      exact hcovers _ hresolves

theorem Covers.append {wider chain : List Namespace} (hcovers : Covers wider chain)
    (inner : List Namespace) : Covers (inner ++ wider) (inner ++ chain) := by
  induction inner with
  | nil => exact hcovers
  | cons scope inner ih => exact ih.cons scope

theorem Covers.resolves {wider chain : List Namespace} (hcovers : Covers wider chain)
    {reference : String} (hresolves : resolves chain reference = true) :
    resolves wider reference = true := by
  rw [Scope.resolves, Bool.or_eq_true] at hresolves ⊢
  exact hresolves.imp_right (hcovers _)

theorem Covers.resolves_eq {wider chain : List Namespace} (hcovers : Covers wider chain)
    (hcovered : Covers chain wider) (reference : String) :
    Scope.resolves wider reference = Scope.resolves chain reference :=
  Bool.eq_iff_iff.mpr ⟨hcovered.resolves, hcovers.resolves⟩

/-- A scope covers another one if it declares at least the same names and leads to the same
children, and possibly to more of them. -/
theorem covers_of_extends {wider scope : Namespace}
    (htypes : ∀ name, Declares scope name → Declares wider name)
    (hchildren : ∀ name child, scope.findNamespace? name = some child →
      wider.findNamespace? name = some child) : Covers [wider] [scope] := by
  intro parts hresolves
  rcases parts with _ | ⟨head, _ | ⟨next, more⟩⟩
  · cases hresolves
  · rw [resolvesPath_cons_name, Bool.or_eq_true, isSome_findType?_iff] at hresolves ⊢
    exact hresolves.imp (htypes head) id
  · rw [resolvesPath_cons_dotted] at hresolves ⊢
    cases hchild : scope.findNamespace? head with
    | none =>
      rw [hchild] at hresolves
      cases hresolves
    | some child =>
      rw [hchild] at hresolves
      rw [hchildren head child hchild]
      exact hresolves

theorem mem_of_mem_target {reference : String} {c : Char}
    (hc : c ∈ (target reference).toList) : c ∈ reference.toList := by
  obtain ⟨⟨count, hcount⟩, -⟩ := isTarget_target reference
  rw [hcount]
  clear hcount
  induction count with
  | zero => exact hc
  | succ count ih =>
    rw [marked, String.toList_append]
    exact List.mem_append_left _ ih

/-- Scopes that declare no types do not matter to references without points. -/
theorem resolves_append_of_typeless {outer : List Namespace}
    (houter : ∀ scope ∈ outer, scope.types = []) (chain : List Namespace) {reference : String}
    (hpoint : '.' ∉ reference.toList) :
    resolves (chain ++ outer) reference = resolves chain reference := by
  have hname : path (target reference) = [target reference] :=
    path_of_notMem fun hmem => hpoint (mem_of_mem_target hmem)
  have hnone : (outer.any fun scope => (scope.findType? (target reference)).isSome) = false := by
    rw [List.any_eq_false]
    intro scope hscope
    rw [Namespace.findType?, houter scope hscope]
    exact Bool.false_ne_true
  rw [resolves, resolves, hname, resolvesPath, resolvesPath, List.any_append, hnone,
    Bool.or_false]

/-! ## Paths of issues -/

/-- An issue whose path is changed. -/
def Issue.rescope (change : String → String) : Issue → Issue
  | .collision scope name => .collision (change scope) name
  | .dangling scope name => .dangling (change scope) name

/-- An issue of a tree, seen from a namespace of the name `outer` around the tree. -/
def Issue.inside (outer : String) : Issue → Issue :=
  Issue.rescope fun scope => outer ++ "." ++ scope

/-- Whether an issue is about a name that is shared. -/
def Issue.isCollision : Issue → Bool
  | .collision _ _ => true
  | .dangling _ _ => false

theorem rescope_id (issues : List Issue) : issues.map (·.rescope id) = issues := by
  have hsame : (fun issue : Issue => issue.rescope id) = id := by
    funext issue
    cases issue <;> rfl
  rw [hsame, List.map_id]

/-- The name of a scope around a chain comes first in its path. -/
theorem scopeText_append_singleton {chain : List Namespace} (hchain : chain ≠ [])
    (outer : Namespace) : scopeText (chain ++ [outer]) = outer.name ++ "." ++ scopeText chain := by
  obtain ⟨first, more, hnames⟩ := List.exists_cons_of_ne_nil
    (fun hnil => hchain (by simpa using hnil) : chain.reverse.map (·.name) ≠ [])
  rw [scopeText, scopeText, List.reverse_append, List.map_append, hnames, ← String.toList_inj]
  simp [String.toList_intercalate]

theorem scopeText_congr {chain other : List Namespace}
    (hnames : chain.map (·.name) = other.map (·.name)) : scopeText chain = scopeText other := by
  rw [scopeText, scopeText, List.map_reverse, List.map_reverse, hnames]

/-- The path of a scope in the surroundings `outer` is changed into that in the surroundings
`wider`. -/
def Renames (change : String → String) (outer wider : List Namespace) : Prop :=
  ∀ chain, chain ≠ [] → scopeText (chain ++ wider) = change (scopeText (chain ++ outer))

/-! ## The issues of a scope -/

section Scope

variable {change : String → String} {scope : Namespace} {wider chain : List Namespace}
  (htext : scopeText wider = change (scopeText chain))

include htext

/-- Where more resolves, less is reported. -/
theorem ownIssues_sublist (hcovers : Covers wider chain) :
    (ownIssues scope wider).Sublist ((ownIssues scope chain).map (·.rescope change)) := by
  have hdangling : ((scope.types.flatMap references).filter fun reference =>
        !resolves wider reference).Sublist
      ((scope.types.flatMap references).filter fun reference => !resolves chain reference) := by
    apply List.monotone_filter_right
    intro reference hnot
    rw [Bool.not_eq_true', ← Bool.not_eq_true] at hnot ⊢
    exact fun hresolves => hnot (hcovers.resolves hresolves)
  rw [ownIssues, ownIssues, htext]
  simp only [List.map_append, List.map_map]
  exact (List.Sublist.refl _).append (hdangling.map _)

theorem filter_isCollision_ownIssues :
    (ownIssues scope wider).filter (·.isCollision) =
      ((ownIssues scope chain).map (·.rescope change)).filter (·.isCollision) := by
  rw [ownIssues, ownIssues, htext]
  simp only [List.map_append, List.map_map, List.filter_append, List.filter_map,
    Function.comp_def, Issue.rescope, Issue.isCollision, List.filter_false, List.map_nil]

theorem ownIssues_eq (hsame : ∀ reference ∈ scope.types.flatMap references,
      resolves wider reference = resolves chain reference) :
    ownIssues scope wider = (ownIssues scope chain).map (·.rescope change) := by
  have hdangling : ((scope.types.flatMap references).filter fun reference =>
        !resolves wider reference) =
      (scope.types.flatMap references).filter fun reference => !resolves chain reference := by
    apply List.filter_congr
    intro reference hreference
    rw [hsame reference hreference]
  rw [ownIssues, ownIssues, htext, hdangling]
  simp only [List.map_append, List.map_map]
  rfl

end Scope

/-! ## The issues of a tree -/

/-- The issues of a tree are those of its chains, continued by what is around it. -/
theorem issuesIn_eq_flatMap_chains (outer : List Namespace) (tree : Namespace) :
    issuesIn outer tree = (chains tree).flatMap fun chain => chainIssues (chain ++ outer) := by
  rw [issuesIn_eq_flatMap, chainsIn_eq_map, List.flatMap_map]

theorem exists_cons_of_mem_chains {tree : Namespace} {chain : List Namespace}
    (hchain : chain ∈ chains tree) : ∃ scope around, chain = scope :: around := by
  cases mem_chains_iff.mp hchain with
  | root => exact ⟨tree, [], rfl⟩
  | child _ _ => exact ⟨_, _, rfl⟩

section Tree

variable {change : String → String} {tree : Namespace} {wider outer : List Namespace}
  (hrenames : Renames change outer wider)

include hrenames

/-- In wider surroundings a tree has a part of its issues. -/
theorem issuesIn_sublist (hcovers : Covers wider outer) :
    (issuesIn wider tree).Sublist ((issuesIn outer tree).map (·.rescope change)) := by
  rw [issuesIn_eq_flatMap_chains, issuesIn_eq_flatMap_chains, List.map_flatMap]
  apply List.Sublist.flatMap_right
  intro chain hchain
  obtain ⟨scope, around, rfl⟩ := exists_cons_of_mem_chains hchain
  exact ownIssues_sublist (hrenames _ (List.cons_ne_nil _ _)) (hcovers.append (scope :: around))

/-- Collisions do not depend on what is around a tree. -/
theorem filter_isCollision_issuesIn :
    (issuesIn wider tree).filter (·.isCollision) =
      ((issuesIn outer tree).map (·.rescope change)).filter (·.isCollision) := by
  rw [issuesIn_eq_flatMap_chains, issuesIn_eq_flatMap_chains, List.map_flatMap,
    List.filter_flatMap, List.filter_flatMap]
  apply List.flatMap_congr
  intro chain hchain
  obtain ⟨scope, around, rfl⟩ := exists_cons_of_mem_chains hchain
  exact filter_isCollision_ownIssues (hrenames _ (List.cons_ne_nil _ _))

/-- Surroundings in which the same references of a tree resolve give it the same issues. -/
theorem issuesIn_eq_of_resolves (hsame : ∀ chain, ∀ declared ∈ tree.declared,
      ∀ reference ∈ references declared,
        resolves (chain ++ wider) reference = resolves (chain ++ outer) reference) :
    issuesIn wider tree = (issuesIn outer tree).map (·.rescope change) := by
  rw [issuesIn_eq_flatMap_chains, issuesIn_eq_flatMap_chains, List.map_flatMap]
  apply List.flatMap_congr
  intro chain hchain
  obtain ⟨scope, around, rfl⟩ := exists_cons_of_mem_chains hchain
  apply ownIssues_eq (hrenames _ (List.cons_ne_nil _ _))
  intro reference hreference
  obtain ⟨declared, hdeclared, hreference⟩ := List.mem_flatMap.mp hreference
  exact hsame _ declared (mem_declared_of_chainOf (mem_chains_iff.mp hchain) hdeclared)
    reference hreference

end Tree

end Ambient.Scope
