/-
Checking a declaration tree.

Every namespace is visited with the chain of scopes around it. Its issues are the names
that several of its children share, the names that several of its types share, and its
references that do not resolve, in this order; those of its children follow. A shared
name is reported once, where it first occurs; a reference is reported as often as it
occurs.
-/
import Ambient.Scope.Issue
import Ambient.Scope.Reference

set_option autoImplicit false

namespace Ambient.Scope

open Ambient.Tree

/-! ## Names that occur twice -/

/-- Every name once, in the order of first occurrence. -/
def distinct : List String → List String
  | [] => []
  | name :: names => name :: (distinct names).filter (· ≠ name)

/-- The names that occur more than once, in the order of first occurrence. -/
def repeated (names : List String) : List String :=
  (distinct names).filter fun name => 1 < names.count name

/-! ## References -/

/-- The references of a method: its parameters, then what it returns. -/
def methodReferences (method : Method) : List String :=
  method.parameters.map (·.type) ++ [method.returnType]

/-- The references of a call signature: its parameters, then what it returns. -/
def signatureReferences (signature : Signature) : List String :=
  signature.parameters.map (·.type) ++ [signature.returnType]

/-- The references of how an interface is called. -/
def callableReferences : Callable → List String
  | .none => []
  | .methods methods => methods.flatMap methodReferences
  | .signature signature => signatureReferences signature

/-- The references that a declaration makes, in the order in which it is written. -/
def references : Declaration → List String
  | .interface declared =>
    declared.properties.map (·.type) ++ callableReferences declared.callable
  | .typedef declared => [declared.underlying]

/-! ## Visiting -/

/-- The path of a chain of scopes, from the outermost in. -/
def scopeText (chain : List Namespace) : String :=
  ".".intercalate (chain.reverse.map (·.name))

/-- The issues of the innermost scope of a chain, not those of its children. -/
def ownIssues (scope : Namespace) (chain : List Namespace) : List Issue :=
  let text := scopeText chain
  (repeated (scope.namespaces.map (·.name))).map (.collision text) ++
    (repeated (scope.types.map (·.name))).map (.collision text) ++
    ((scope.types.flatMap references).filter fun reference => !resolves chain reference).map
      (.dangling text)

mutual

/-- The issues of a namespace and everything in it, given the scopes around it. -/
def issuesIn (around : List Namespace) : Namespace → List Issue
  | ⟨name, ambient, comment, namespaces, types⟩ =>
    let scope : Namespace := ⟨name, ambient, comment, namespaces, types⟩
    ownIssues scope (scope :: around) ++ issuesInAll (scope :: around) namespaces

/-- The issues of child namespaces, in order. -/
def issuesInAll (around : List Namespace) : List Namespace → List Issue
  | [] => []
  | child :: children => issuesIn around child ++ issuesInAll around children

end

/-- The issues of a declaration tree. -/
def issues (root : Namespace) : List Issue := issuesIn [] root

end Ambient.Scope
