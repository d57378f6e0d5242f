/-
Where the references of a tree stand.

A site is a reference together with the scopes that it is looked up from. A tree has one
site for every time that a declaration in it refers to something (`sites`). A site dangles
if its reference does not resolve from there, and what the check reports beside clashes of
names are exactly the sites that dangle, one issue for each and in order
(`filter_not_isCollision_issues`).
-/
import Ambient.Proofs.Scope.Context

set_option autoImplicit false

namespace Ambient.Scope

open Ambient.Tree

/-! ## Sites -/

/-- A reference, and the scopes that it is looked up from, the innermost first. -/
structure Site where
  chain : List Namespace
  reference : String

namespace Site

/-- The reference does not resolve where it stands. -/
def Dangles (site : Site) : Prop := ¬ Resolves site.chain site.reference

instance : DecidablePred Dangles := fun site =>
  inferInstanceAs (Decidable (¬ Resolves site.chain site.reference))

/-- What is to be reported about a site that dangles. -/
def issue (site : Site) : Issue := .dangling (scopeText site.chain) site.reference

end Site

/-- References that stand in the innermost scope of a chain. -/
def sitesAt (chain : List Namespace) (references : List String) : List Site :=
  references.map (Site.mk chain)

theorem sitesAt_append (chain : List Namespace) (first second : List String) :
    sitesAt chain (first ++ second) = sitesAt chain first ++ sitesAt chain second :=
  List.map_append

theorem sitesAt_flatMap {α : Type} (chain : List Namespace) (f : α → List String) (xs : List α) :
    sitesAt chain (xs.flatMap f) = xs.flatMap fun x => sitesAt chain (f x) :=
  List.map_flatMap

/-- The sites of the innermost scope of a chain, not those of its children. -/
def chainSites : List Namespace → List Site
  | [] => []
  | scope :: around => sitesAt (scope :: around) (scope.types.flatMap references)

/-- The sites of a namespace and everything in it, given the scopes around it. -/
def sitesIn (around : List Namespace) (scope : Namespace) : List Site :=
  (chainsIn around scope).flatMap chainSites

/-- The sites of a declaration tree. -/
def sites (root : Namespace) : List Site := sitesIn [] root

theorem sitesIn_eq (around : List Namespace) (scope : Namespace) :
    sitesIn around scope = sitesAt (scope :: around) (scope.types.flatMap references) ++
      scope.namespaces.flatMap (sitesIn (scope :: around)) := by
  unfold sitesIn
  rw [chainsIn_eq, List.flatMap_cons, List.flatMap_assoc, chainSites]

/-- The chain of a site is one of the tree. -/
theorem chainOf_of_mem_sites {root : Namespace} {site : Site} (hsite : site ∈ sites root) :
    ChainOf root site.chain := by
  obtain ⟨chain, hchain, hsite⟩ := List.mem_flatMap.mp hsite
  cases chain with
  | nil => cases hsite
  | cons scope around =>
    obtain ⟨reference, -, rfl⟩ := List.mem_map.mp hsite
    exact mem_chains_iff.mp hchain

/-! ## Sites that dangle -/

theorem filter_not_isCollision_chainIssues (chain : List Namespace) :
    (chainIssues chain).filter (fun issue => !issue.isCollision) =
      ((chainSites chain).filter (·.Dangles)).map (·.issue) := by
  cases chain with
  | nil => rfl
  | cons scope around =>
    have hdangles : ∀ reference, (!resolves (scope :: around) reference) =
        decide (Site.mk (scope :: around) reference).Dangles := by
      intro reference
      simp only [Site.Dangles, ← resolves_iff, Bool.not_eq_true, Bool.decide_eq_false]
    rw [chainIssues, ownIssues, chainSites, sitesAt]
    simp only [List.filter_append, List.filter_map, Function.comp_def, Issue.isCollision,
      Bool.not_true, Bool.not_false, List.filter_false, List.filter_true, List.map_nil,
      List.nil_append, List.map_map, Site.issue, hdangles]

/-- Beside clashes of names, the check reports the sites that dangle. -/
theorem filter_not_isCollision_issues (root : Namespace) :
    (issues root).filter (fun issue => !issue.isCollision) =
      ((sites root).filter (·.Dangles)).map (·.issue) := by
  unfold sites sitesIn
  rw [issues_eq_flatMap, List.filter_flatMap, List.filter_flatMap, List.map_flatMap]
  exact List.flatMap_congr fun chain _ => filter_not_isCollision_chainIssues chain

/-- The reference that an issue is about, if it is not about a clash of names. -/
def Issue.danglingName? : Issue → Option String
  | .collision _ _ => none
  | .dangling _ name => some name

/-- What is reported to dangle is what dangles. -/
theorem filterMap_danglingName?_issues (root : Namespace) :
    (issues root).filterMap (·.danglingName?) =
      ((sites root).filter (·.Dangles)).map (·.reference) := by
  have hcollision : ∀ issue : Issue,
      (if (!issue.isCollision) = true then issue.danglingName? else none) =
        issue.danglingName? := by
    intro issue
    cases issue <;> rfl
  have hissue : ∀ site : Site, site.issue.danglingName? = some site.reference := fun _ => rfl
  calc (issues root).filterMap (·.danglingName?)
      = ((issues root).filter fun issue => !issue.isCollision).filterMap (·.danglingName?) := by
        rw [List.filterMap_filter]
        simp only [hcollision]
    _ = ((sites root).filter (·.Dangles)).map (·.reference) := by
        rw [filter_not_isCollision_issues, List.filterMap_map]
        simp only [Function.comp_def, hissue, List.filterMap_eq_map']

end Ambient.Scope
