/-
The issues of a tree, said without looking anything up.

`expectedIssues` is what should be reported for the innermost scope of a chain: every name
that occurs at least twice among its children, every name that occurs at least twice
among its types, and every occurrence of a reference that does not resolve. What a
declaration refers to is said here by the kind of what refers (`Declaration.mentioned`), while
the check goes through a declaration in the order in which it is written; both come to the
same references, each as many times (`coe_references`).
The issues of a tree are, as a multiset, those expected of its chains; `issues_eq_nil_iff`
says what it takes for there to be none.
-/
import Ambient.Scope.Check
import Ambient.Proofs.Scope.Resolution
import Ambient.Proofs.Tree.Chains
import Mathlib.Data.Finset.Dedup
import Mathlib.Data.Finset.Filter
import Mathlib.Data.Multiset.Bind

set_option autoImplicit false

namespace Ambient.Tree

/-! ## What a declaration refers to -/

/-- The parameters of all the ways to call an interface. -/
def Interface.parameters (interface : Interface) : List Parameter :=
  interface.methods.flatMap (·.parameters) ++ interface.signature?.toList.flatMap (·.parameters)

/-- What is returned by all the ways to call an interface. -/
def Interface.returnTypes (interface : Interface) : List String :=
  interface.methods.map (·.returnType) ++ interface.signature?.toList.map (·.returnType)

/-- The references in a declaration, each as many times as it stands there: what an alias is
another name for; the types of the properties of an interface, of its parameters, and of what
it returns. -/
def Declaration.mentioned : Declaration → Multiset String
  | .typedef declared => {declared.underlying}
  | .interface declared =>
    Multiset.ofList (declared.properties.map (·.type)) +
      Multiset.ofList (declared.parameters.map (·.type)) + Multiset.ofList declared.returnTypes

end Ambient.Tree

namespace Ambient.Scope

open Ambient.Tree

/-- The references of methods, method by method or first those of all parameters and then those
of all that is returned. -/
theorem coe_flatMap_methodReferences (methods : List Method) :
    Multiset.ofList (methods.flatMap methodReferences) =
      Multiset.ofList ((methods.flatMap (·.parameters)).map (·.type)) +
        Multiset.ofList (methods.map (·.returnType)) := by
  induction methods with
  | nil => rfl
  | cons method methods ih =>
    have hmethod : Multiset.ofList (methodReferences method) =
        Multiset.ofList (method.parameters.map (·.type)) + Multiset.ofList [method.returnType] :=
      (Multiset.coe_add _ _).symm
    rw [List.flatMap_cons, ← Multiset.coe_add, hmethod, ih, add_add_add_comm, Multiset.coe_add,
      Multiset.coe_add, ← List.map_append, ← List.flatMap_cons]
    rfl

/-- An interface is called through methods or through a signature, never through both. -/
theorem coe_callableReferences (interface : Interface) :
    Multiset.ofList (callableReferences interface.callable) =
      Multiset.ofList (interface.parameters.map (·.type)) +
        Multiset.ofList interface.returnTypes := by
  obtain ⟨name, comment, properties, callable⟩ := interface
  cases callable with
  | none => rfl
  | methods methods =>
    have hparameters : Interface.parameters ⟨name, comment, properties, .methods methods⟩ =
        methods.flatMap (·.parameters) := List.append_nil _
    have hreturned : Interface.returnTypes ⟨name, comment, properties, .methods methods⟩ =
        methods.map (·.returnType) := List.append_nil _
    rw [callableReferences, coe_flatMap_methodReferences, hparameters, hreturned]
  | signature signature =>
    have hparameters : Interface.parameters ⟨name, comment, properties, .signature signature⟩ =
        signature.parameters := List.append_nil _
    rw [hparameters]
    exact (Multiset.coe_add _ _).symm

/-- The check goes through exactly what a declaration refers to. -/
theorem coe_references (declared : Declaration) :
    (references declared : Multiset String) = declared.mentioned := by
  cases declared with
  | typedef declared => rfl
  | interface declared =>
    rw [references, ← Multiset.coe_add, coe_callableReferences, Declaration.mentioned, add_assoc]

theorem mem_mentioned_iff {declared : Declaration} {reference : String} :
    reference ∈ declared.mentioned ↔ reference ∈ references declared := by
  rw [← coe_references, Multiset.mem_coe]

/-! ## Repeated names -/

theorem mem_distinct {names : List String} {name : String} :
    name ∈ distinct names ↔ name ∈ names := by
  induction names with
  | nil => rfl
  | cons first names ih =>
    rw [distinct, List.mem_cons, List.mem_filter, ih, List.mem_cons]
    by_cases hfirst : name = first
    · simp [hfirst]
    · simp [hfirst]

theorem nodup_distinct (names : List String) : (distinct names).Nodup := by
  induction names with
  | nil => exact List.nodup_nil
  | cons first names ih =>
    rw [distinct, List.nodup_cons]
    exact ⟨by simp, ih.filter _⟩

theorem nodup_repeated (names : List String) : (repeated names).Nodup :=
  (nodup_distinct names).filter _

/-- A name is repeated if it occurs at least twice. -/
theorem mem_repeated {names : List String} {name : String} :
    name ∈ repeated names ↔ 2 ≤ names.count name := by
  rw [repeated, List.mem_filter, mem_distinct, decide_eq_true_iff]
  constructor
  · rintro ⟨-, hcount⟩
    exact hcount
  · intro hcount
    exact ⟨List.count_pos_iff.mp (by omega), hcount⟩

theorem repeated_eq_nil_iff {names : List String} : repeated names = [] ↔ names.Nodup := by
  rw [List.eq_nil_iff_forall_not_mem, List.nodup_iff_count_le_one]
  simp only [mem_repeated]
  exact forall_congr' fun name => by omega

/-- The names that occur at least twice, each of them once. -/
def sharedNames (names : List String) : Multiset String :=
  (names.toFinset.filter fun name => 2 ≤ names.count name).val

/-- Repeated names are listed once each, as they are shared. -/
theorem coe_repeated (names : List String) :
    (repeated names : Multiset String) = sharedNames names := by
  have hlisted : (repeated names : Multiset String).Nodup :=
    Multiset.coe_nodup.mpr (nodup_repeated names)
  -- every name is listed once on both sides
  refine (Multiset.Nodup.ext hlisted (Finset.nodup _)).mpr fun name => ?_
  rw [Multiset.mem_coe, mem_repeated, Finset.mem_val, Finset.mem_filter, List.mem_toFinset]
  constructor
  · intro hcount
    exact ⟨List.count_pos_iff.mp (by omega), hcount⟩
  · rintro ⟨-, hcount⟩
    exact hcount

/-! ## The issues of a tree are those of its chains

At every node the visit works with the chain of that node, whatever was visited before. -/

theorem issuesInAll_eq_flatMap (around children : List Namespace) :
    issuesInAll around children = children.flatMap (issuesIn around) := by
  induction children with
  | nil => rw [issuesInAll, List.flatMap_nil]
  | cons child children ih => rw [issuesInAll, List.flatMap_cons, ih]

theorem issuesIn_eq (around : List Namespace) (scope : Namespace) :
    issuesIn around scope = ownIssues scope (scope :: around) ++
      scope.namespaces.flatMap (issuesIn (scope :: around)) := by
  cases scope
  rw [issuesIn, issuesInAll_eq_flatMap]

/-- The issues of the innermost scope of a chain. -/
def chainIssues : List Namespace → List Issue
  | [] => []
  | scope :: around => ownIssues scope (scope :: around)

/-- Visiting a namespace gives the issues of its chains, whatever is around it. -/
theorem issuesIn_eq_flatMap (scope : Namespace) :
    ∀ around, issuesIn around scope = (chainsIn around scope).flatMap chainIssues := by
  induction scope using Namespace.induction with
  | step scope ih =>
    intro around
    -- a child is visited with the chain of its parent, whatever its siblings hold
    rw [issuesIn_eq, chainsIn_eq, List.flatMap_cons, List.flatMap_assoc, chainIssues]
    congr 1
    exact List.flatMap_congr fun child hchild => ih child hchild (scope :: around)

theorem issues_eq_flatMap (root : Namespace) :
    issues root = (chains root).flatMap chainIssues :=
  issuesIn_eq_flatMap root []

/-! ## What is expected of a chain -/

/-- What should be reported for the innermost scope of a chain, under the path of its names from
the root on. -/
def expectedIssues : List Namespace → Multiset Issue
  | [] => 0
  | scope :: around =>
    let text := ".".intercalate ((scope :: around).reverse.map (·.name))
    (sharedNames (scope.namespaces.map (·.name))).map (.collision text) +
      (sharedNames (scope.types.map (·.name))).map (.collision text) +
      (((scope.types : Multiset Declaration).bind (·.mentioned)).filter fun reference =>
        ¬ Resolves (scope :: around) reference).map (.dangling text)

/-- The check reports for a scope what should be reported for it. -/
theorem coe_chainIssues (chain : List Namespace) :
    (chainIssues chain : Multiset Issue) = expectedIssues chain := by
  cases chain with
  | nil => rfl
  | cons scope around =>
    have hdangling : ∀ references : List String,
        (references.filter fun reference => !resolves (scope :: around) reference) =
          references.filter fun reference => ¬ Resolves (scope :: around) reference := by
      intro references
      apply List.filter_congr
      intro reference _
      simp only [← resolves_iff, Bool.not_eq_true, Bool.decide_eq_false]
    have hmentioned : (scope.types.flatMap references : Multiset String) =
        (scope.types : Multiset Declaration).bind (·.mentioned) := by
      rw [← Multiset.coe_bind]
      exact Multiset.bind_congr fun declared _ => coe_references declared
    rw [chainIssues, ownIssues, expectedIssues]
    simp only [scopeText, hdangling, ← Multiset.coe_add, ← Multiset.map_coe, ← Multiset.filter_coe,
      coe_repeated, hmentioned]

/-- Nothing is wrong with the innermost scope of a chain: no two children and no two
types share a name, and everything that is mentioned resolves. -/
def Sound : List Namespace → Prop
  | [] => True
  | scope :: around =>
    (scope.namespaces.map (·.name)).Nodup ∧ (scope.types.map (·.name)).Nodup ∧
      ∀ declared ∈ scope.types, ∀ reference ∈ declared.mentioned,
        Resolves (scope :: around) reference

theorem chainIssues_eq_nil_iff (chain : List Namespace) : chainIssues chain = [] ↔ Sound chain := by
  cases chain with
  | nil => exact iff_of_true rfl trivial
  | cons scope around =>
    rw [chainIssues, ownIssues]
    simp only [List.append_eq_nil_iff, List.map_eq_nil_iff, repeated_eq_nil_iff,
      List.filter_eq_nil_iff, List.mem_flatMap, Bool.not_eq_true', ← Bool.not_eq_true,
      not_not, resolves_iff, Sound, mem_mentioned_iff, forall_exists_index, and_imp, and_assoc]
    exact and_congr_right fun _ => and_congr_right fun _ =>
      ⟨fun h declared hdeclared reference => h reference declared hdeclared,
        fun h reference declared hdeclared => h declared hdeclared reference⟩

/-- A tree has no issues exactly if nothing is wrong with any of its namespaces. -/
theorem issues_eq_nil_iff (root : Namespace) :
    issues root = [] ↔ ∀ chain, ChainOf root chain → Sound chain := by
  rw [issues_eq_flatMap, List.flatMap_eq_nil_iff]
  simp only [mem_chains_iff, chainIssues_eq_nil_iff]

/-! ## The issues of a tree -/

/-- **The check is sound and complete.** The issues of a tree are, as a multiset, what is
expected of its chains, where every namespace of the tree contributes its chain once. So
there are none exactly if in every namespace the children and the types have names of
their own and everything that a declaration mentions resolves. -/
theorem issues_exact (root : Namespace) :
    (issues root : Multiset Issue) = (chains root : Multiset (List Namespace)).bind expectedIssues ∧
      (∀ chain, chain ∈ chains root ↔ ChainOf root chain) ∧
      (issues root = [] ↔ ∀ scope around, ChainOf root (scope :: around) →
        (scope.namespaces.map (·.name)).Nodup ∧ (scope.types.map (·.name)).Nodup ∧
          ∀ declared ∈ scope.types, ∀ reference ∈ declared.mentioned,
            Resolves (scope :: around) reference) := by
  refine ⟨?_, fun chain => mem_chains_iff, ?_⟩
  · rw [issues_eq_flatMap, ← Multiset.coe_bind]
    exact Multiset.bind_congr fun chain _ => coe_chainIssues chain
  · -- a chain is never empty, so that it has an innermost scope
    rw [issues_eq_nil_iff]
    constructor
    · intro hsound scope around hchain
      exact hsound _ hchain
    · intro hsound chain hchain
      cases chain with
      | nil => trivial
      | cons scope around => exact hsound scope around hchain

end Ambient.Scope
