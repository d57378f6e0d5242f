/-
The namespaces of a tree, each with the scopes around it.

A chain is a namespace together with everything that encloses it, the innermost first.
`ChainOf` says which chains a tree has, and `chains` lists one for every namespace, so
that a namespace that occurs twice is counted twice; `mem_chains_iff` says that these are
the same. What encloses the whole tree stands at the end of each chain
(`chainsIn_eq_map`), and what the innermost scope of a chain declares is among everything
that the tree declares (`mem_declared_of_chainOf`).
-/
import Ambient.Tree.Basic
import Mathlib.Data.List.Basic

set_option autoImplicit false

namespace Ambient.Tree

/-! ## Induction -/

/-- Induction over the tree below a namespace: a property that a namespace has if all its
children have it. -/
theorem Namespace.induction {motive : Namespace → Prop}
    (step : ∀ scope, (∀ child ∈ scope.namespaces, motive child) → motive scope)
    (scope : Namespace) : motive scope :=
  step scope fun child _ => Namespace.induction step child
  termination_by sizeOf scope
  decreasing_by
    rename_i hchild
    obtain ⟨name, ambient, comment, namespaces, types⟩ := scope
    have hsize : sizeOf child < sizeOf namespaces := List.sizeOf_lt_of_mem hchild
    simp only [Namespace.mk.sizeOf_spec]
    omega

/-! ## Chains -/

/-- The chains of a tree: that of its root, and with every chain those of the children of
its innermost scope. -/
inductive ChainOf (root : Namespace) : List Namespace → Prop where
  | root : ChainOf root [root]
  | child {child scope : Namespace} {around : List Namespace} :
    ChainOf root (scope :: around) → child ∈ scope.namespaces →
    ChainOf root (child :: scope :: around)

mutual

/-- The chains of a namespace and everything in it, given the scopes around it. -/
def chainsIn (around : List Namespace) : Namespace → List (List Namespace)
  | ⟨name, ambient, comment, namespaces, types⟩ =>
    let scope : Namespace := ⟨name, ambient, comment, namespaces, types⟩
    (scope :: around) :: chainsInAll (scope :: around) namespaces

/-- The chains of child namespaces, in order. -/
def chainsInAll (around : List Namespace) : List Namespace → List (List Namespace)
  | [] => []
  | child :: children => chainsIn around child ++ chainsInAll around children

end

/-- One chain for every namespace of a tree. -/
def chains (root : Namespace) : List (List Namespace) := chainsIn [] root

/-! ## Lists of children -/

theorem chainsInAll_eq_flatMap (around children : List Namespace) :
    chainsInAll around children = children.flatMap (chainsIn around) := by
  induction children with
  | nil => rw [chainsInAll, List.flatMap_nil]
  | cons child children ih => rw [chainsInAll, List.flatMap_cons, ih]

theorem chainsIn_eq (around : List Namespace) (scope : Namespace) :
    chainsIn around scope =
      (scope :: around) :: scope.namespaces.flatMap (chainsIn (scope :: around)) := by
  cases scope
  rw [chainsIn, chainsInAll_eq_flatMap]

/-! ## What the chains are -/

theorem chainOf_of_mem_chainsIn {root : Namespace} (scope : Namespace) :
    ∀ around, ChainOf root (scope :: around) →
      ∀ chain ∈ chainsIn around scope, ChainOf root chain := by
  induction scope using Namespace.induction with
  | step scope ih =>
    intro around hscope chain hchain
    rw [chainsIn_eq, List.mem_cons] at hchain
    rcases hchain with rfl | hbelow
    · exact hscope
    · obtain ⟨child, hchild, hchain⟩ := List.mem_flatMap.mp hbelow
      exact ih child hchild (scope :: around) (.child hscope hchild) chain hchain

theorem self_mem_chainsIn (around : List Namespace) (scope : Namespace) :
    scope :: around ∈ chainsIn around scope := by
  rw [chainsIn_eq]
  exact List.mem_cons_self

/-- With a chain, the list of chains holds those of all children of its innermost scope. -/
theorem child_mem_chainsIn (top : Namespace) :
    ∀ outside scope around child, scope :: around ∈ chainsIn outside top →
      child ∈ scope.namespaces → child :: scope :: around ∈ chainsIn outside top := by
  induction top using Namespace.induction with
  | step top ih =>
    intro outside scope around child hscope hchild
    rw [chainsIn_eq, List.mem_cons] at hscope ⊢
    refine Or.inr (List.mem_flatMap.mpr ?_)
    -- the scope is the top itself or a scope in one of the children of the top
    rcases hscope with heq | hbelow
    · obtain ⟨rfl, rfl⟩ := List.cons.inj heq
      exact ⟨child, hchild, self_mem_chainsIn _ _⟩
    · obtain ⟨sibling, hsibling, hscope⟩ := List.mem_flatMap.mp hbelow
      exact ⟨sibling, hsibling, ih sibling hsibling _ scope around child hscope hchild⟩

/-- The listed chains are the chains of the tree. -/
theorem mem_chains_iff {root : Namespace} {chain : List Namespace} :
    chain ∈ chains root ↔ ChainOf root chain := by
  constructor
  · exact chainOf_of_mem_chainsIn root [] .root chain
  · intro hchain
    induction hchain with
    | root => exact self_mem_chainsIn [] root
    | child _ hchild ih => exact child_mem_chainsIn root [] _ _ _ ih hchild

/-! ## Surroundings -/

theorem chainsIn_append (scope : Namespace) :
    ∀ inner outer, chainsIn (inner ++ outer) scope = (chainsIn inner scope).map (· ++ outer) := by
  induction scope using Namespace.induction with
  | step scope ih =>
    intro inner outer
    rw [chainsIn_eq, chainsIn_eq inner, List.map_cons, List.map_flatMap]
    congr 1
    exact List.flatMap_congr fun child hchild => ih child hchild (scope :: inner) outer

/-- The chains of a tree with scopes around it are its own chains, continued by these. -/
theorem chainsIn_eq_map (outer : List Namespace) (scope : Namespace) :
    chainsIn outer scope = (chains scope).map (· ++ outer) :=
  chainsIn_append scope [] outer

/-! ## Everything that is declared -/

mutual

/-- The types that are declared in a namespace and in all namespaces in it. -/
def Namespace.declared : Namespace → List Declaration
  | ⟨_, _, _, namespaces, types⟩ => types ++ declaredAll namespaces

/-- The types that are declared in child namespaces, in order. -/
def declaredAll : List Namespace → List Declaration
  | [] => []
  | child :: children => child.declared ++ declaredAll children

end

theorem declaredAll_eq_flatMap (children : List Namespace) :
    declaredAll children = children.flatMap (·.declared) := by
  induction children with
  | nil => rw [declaredAll, List.flatMap_nil]
  | cons child children ih => rw [declaredAll, List.flatMap_cons, ih]

theorem Namespace.declared_eq (scope : Namespace) :
    scope.declared = scope.types ++ scope.namespaces.flatMap (·.declared) := by
  cases scope
  rw [Namespace.declared, declaredAll_eq_flatMap]

theorem declared_subset_of_chainOf {root : Namespace} {chain : List Namespace}
    (hchain : ChainOf root chain) :
    ∀ scope ∈ chain.head?, scope.declared ⊆ root.declared := by
  induction hchain with
  | root =>
    intro scope hscope
    cases hscope
    exact List.Subset.refl _
  | @child child parent around _ hchild ih =>
    intro scope hscope
    cases hscope
    have hinside : child.declared ⊆ parent.declared := by
      rw [Namespace.declared_eq parent]
      exact fun declared hdeclared =>
        List.mem_append_right _ (List.mem_flatMap.mpr ⟨child, hchild, hdeclared⟩)
    exact List.Subset.trans hinside (ih parent rfl)

theorem mem_declared_of_chainOf {root scope : Namespace} {around : List Namespace}
    (hchain : ChainOf root (scope :: around)) {declared : Declaration}
    (hdeclared : declared ∈ scope.types) : declared ∈ root.declared := by
  refine declared_subset_of_chainOf hchain scope rfl ?_
  rw [Namespace.declared_eq]
  exact List.mem_append_left _ hdeclared

/-- What any scope of a chain declares is among everything that the tree declares. -/
theorem mem_declared_of_mem_chain {root : Namespace} {chain : List Namespace}
    (hchain : ChainOf root chain) {scope : Namespace} (hscope : scope ∈ chain)
    {declared : Declaration} (hdeclared : declared ∈ scope.types) :
    declared ∈ root.declared := by
  induction hchain with
  | root =>
    rw [List.mem_singleton.mp hscope] at hdeclared
    exact mem_declared_of_chainOf .root hdeclared
  | child houter hchild ih =>
    rcases List.mem_cons.mp hscope with rfl | hscope
    · exact mem_declared_of_chainOf (.child houter hchild) hdeclared
    · exact ih hscope

end Ambient.Tree
