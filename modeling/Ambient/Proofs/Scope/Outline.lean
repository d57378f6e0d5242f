/-
What the check sees of a tree.

Of a declaration the check looks at its name and its references, of a namespace at its name,
its children and its types. The outline of a tree is just that: each declaration becomes an
interface of its name that has a nameless property for every reference. Every look-up gives
the same in a tree and in its outline, so that a tree has the issues of its outline
(`issues_outline`); nothing else in it matters, and in particular no name of a method, a
property or a parameter does.
-/
import Ambient.Proofs.Scope.Context

set_option autoImplicit false

namespace Ambient.Scope

open Ambient.Tree

/-! ## Outlines -/

/-- A declaration with nothing left but its name and its references. -/
def outlineDeclaration (declared : Declaration) : Declaration :=
  .interface
    { name := declared.name, properties := (references declared).map fun type => { type } }

mutual

/-- A namespace with nothing left but its name, its children and the outlines of its types. -/
def outline : Namespace → Namespace
  | ⟨name, _, _, namespaces, types⟩ =>
    { name, namespaces := outlineAll namespaces, types := types.map outlineDeclaration }

/-- The outlines of child namespaces. -/
def outlineAll : List Namespace → List Namespace
  | [] => []
  | child :: children => outline child :: outlineAll children

end

theorem outlineAll_eq_map (children : List Namespace) :
    outlineAll children = children.map outline := by
  induction children with
  | nil => rw [outlineAll, List.map_nil]
  | cons child children ih => rw [outlineAll, List.map_cons, ih]

/-- The outline of a scope, with its children and types at hand. -/
theorem outline_eq (scope : Namespace) :
    outline scope =
      { name := scope.name
        namespaces := scope.namespaces.map outline
        types := scope.types.map outlineDeclaration } := by
  cases scope
  rw [outline, outlineAll_eq_map]

/-- An outline refers to what its declaration refers to, in the same order. -/
theorem references_outlineDeclaration (declared : Declaration) :
    references (outlineDeclaration declared) = references declared := by
  simp [outlineDeclaration, references.eq_1, callableReferences, Function.comp_def]

theorem names_map_outline (scopes : List Namespace) :
    (scopes.map outline).map (·.name) = scopes.map (·.name) := by
  rw [List.map_map]
  refine List.map_congr_left fun scope _ => ?_
  rw [Function.comp_apply, outline_eq]

/-! ## Looking names up -/

theorem isSome_findType?_outline (scope : Namespace) (name : String) :
    ((outline scope).findType? name).isSome = (scope.findType? name).isSome := by
  rw [outline_eq, Namespace.findType?, List.find?_map, Option.isSome_map]
  rfl

/-- The child that is found in an outline is the outline of the one that is found in the scope. -/
theorem findNamespace?_outline (scope : Namespace) (name : String) :
    (outline scope).findNamespace? name = (scope.findNamespace? name).map outline := by
  have hname : ((fun child : Namespace => child.name == name) ∘ outline) =
      fun child => child.name == name := by
    funext child
    rw [Function.comp_apply, outline_eq]
  rw [outline_eq, Namespace.findNamespace?, List.find?_map, hname, Namespace.findNamespace?]

/-- Paths lead to types in an outline as they do in its scope. -/
theorem leadsToType_outline (scope : Namespace) (names : List String) :
    leadsToType (outline scope) names = leadsToType scope names := by
  induction names generalizing scope with
  | nil => rfl
  | cons name more ih =>
    cases more with
    | nil => exact isSome_findType?_outline scope name
    | cons next more =>
      have hmore : next :: more ≠ [] := List.cons_ne_nil _ _
      rw [leadsToType.eq_3 _ _ _ hmore, leadsToType.eq_3 _ _ _ hmore, findNamespace?_outline]
      cases scope.findNamespace? name with
      | none => rfl
      | some child => exact ih child

/-- By induction on the chain: every scope of it has the children and the types of its outline. -/
theorem resolvesPath_outline (chain : List Namespace) (parts : List String) :
    resolvesPath (chain.map outline) parts = resolvesPath chain parts := by
  induction chain with
  | nil => rfl
  | cons scope chain ih =>
    rw [List.map_cons]
    rcases parts with _ | ⟨head, _ | ⟨next, more⟩⟩
    · rfl
    · rw [resolvesPath_cons_name, resolvesPath_cons_name, isSome_findType?_outline, ih]
    · -- the outline of a scope has a child of that name if and only if the scope has
      rw [resolvesPath_cons_dotted, resolvesPath_cons_dotted, findNamespace?_outline]
      cases scope.findNamespace? head with
      | none => exact ih
      | some child => exact leadsToType_outline child _

theorem resolves_outline (chain : List Namespace) (reference : String) :
    resolves (chain.map outline) reference = resolves chain reference := by
  rw [resolves, resolves, resolvesPath_outline]

/-! ## Issues -/

/-- Names are compared and references looked up, and both are the same in an outline. -/
theorem ownIssues_outline (scope : Namespace) (chain : List Namespace) :
    ownIssues (outline scope) (chain.map outline) = ownIssues scope chain := by
  have htypes : (outline scope).types.map (·.name) = scope.types.map (·.name) := by
    rw [outline_eq, List.map_map]
    rfl
  have hreferences : (outline scope).types.flatMap references =
      scope.types.flatMap references := by
    rw [outline_eq, List.flatMap_map]
    exact List.flatMap_congr fun declared _ => references_outlineDeclaration declared
  have hnamespaces : (outline scope).namespaces.map (·.name) =
      scope.namespaces.map (·.name) := by
    rw [outline_eq]
    exact names_map_outline scope.namespaces
  rw [ownIssues, ownIssues, htypes, hreferences, hnamespaces,
    scopeText_congr (names_map_outline chain)]
  simp only [resolves_outline]

theorem issuesIn_outline (scope : Namespace) :
    ∀ around, issuesIn (around.map outline) (outline scope) = issuesIn around scope := by
  induction scope using Namespace.induction with
  | step scope ih =>
    intro around
    have hchildren : (outline scope).namespaces = scope.namespaces.map outline := by
      rw [outline_eq]
    rw [issuesIn_eq, issuesIn_eq, hchildren, List.flatMap_map, ← List.map_cons,
      ownIssues_outline]
    congr 1
    exact List.flatMap_congr fun child hchild => ih child hchild (scope :: around)

/-- **The check sees the outline of a tree and nothing else.** -/
theorem issues_outline (root : Namespace) : issues (outline root) = issues root :=
  issuesIn_outline root []

/-- Trees that differ in nothing that the check sees have the same issues. -/
theorem issues_eq_of_outline_eq {tree other : Namespace} (h : outline tree = outline other) :
    issues tree = issues other := by
  rw [← issues_outline tree, h, issues_outline]

end Ambient.Scope
