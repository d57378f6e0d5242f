/-
The declaration tree: namespaces that hold further namespaces and types.

Nothing here is resolved or laid out. Type references are texts, and an
interface is callable in at most one way: through named methods or through one
call signature.
-/
set_option autoImplicit false

namespace Ambient.Tree

/-! ## Members of an interface -/

/-- A parameter of a method or a call signature. -/
structure Parameter where
  name : String := ""
  type : String := ""
  optional : Bool := false
  comment : String := ""
  deriving DecidableEq, Repr, Inhabited

/-- A property of an interface. -/
structure Property where
  name : String := ""
  type : String := ""
  optional : Bool := false
  comment : String := ""
  deriving DecidableEq, Repr, Inhabited

/-- A named method of an interface. -/
structure Method where
  name : String := ""
  parameters : List Parameter := []
  returnType : String := ""
  comment : String := ""
  deriving DecidableEq, Repr, Inhabited

/-- The nameless signature of an interface that can itself be called. -/
structure Signature where
  parameters : List Parameter := []
  returnType : String := ""
  comment : String := ""
  deriving DecidableEq, Repr, Inhabited

/-- How an interface can be called. -/
inductive Callable where
  | none
  | methods (methods : List Method)
  | signature (signature : Signature)
  deriving DecidableEq, Repr, Inhabited

/-! ## Declarations -/

/-- A type with members. -/
structure Interface where
  name : String := ""
  comment : String := ""
  properties : List Property := []
  callable : Callable := .none
  deriving DecidableEq, Repr, Inhabited

/-- A name for a type that is written as a text. -/
structure Typedef where
  name : String := ""
  underlying : String := ""
  comment : String := ""
  deriving DecidableEq, Repr, Inhabited

/-- A declared type. -/
inductive Declaration where
  | interface (interface : Interface)
  | typedef (typedef : Typedef)
  deriving DecidableEq, Repr, Inhabited

/-- A scope of its own: child namespaces, and types in the order in which they
are declared. Only an `ambient` namespace is written with the `declare` modifier. -/
structure Namespace where
  name : String := ""
  ambient : Bool := false
  comment : String := ""
  namespaces : List Namespace := []
  types : List Declaration := []
  deriving Inhabited

/-- Any node of the tree that can be written on its own. -/
inductive Node where
  | scope (scope : Namespace)
  | interface (interface : Interface)
  | typedef (typedef : Typedef)
  | property (property : Property)
  | method (method : Method)
  | signature (signature : Signature)

/-! ## Looking things up -/

/-- The methods of an interface that is called through methods. -/
def Interface.methods (interface : Interface) : List Method :=
  match interface.callable with
  | .methods methods => methods
  | .none | .signature _ => []

/-- The call signature of an interface that has one. -/
def Interface.signature? (interface : Interface) : Option Signature :=
  match interface.callable with
  | .signature signature => some signature
  | .none | .methods _ => none

/-- The name a declaration declares. -/
def Declaration.name : Declaration → String
  | .interface declared => declared.name
  | .typedef declared => declared.name

/-- The first type of that name in this scope, not looking at inner scopes. -/
def Namespace.findType? (scope : Namespace) (name : String) : Option Declaration :=
  scope.types.find? (·.name == name)

/-- The first child namespace of that name. -/
def Namespace.findNamespace? (scope : Namespace) (name : String) : Option Namespace :=
  scope.namespaces.find? (·.name == name)

/-- Follows a path of child namespaces, taking the first match at every step. -/
def Namespace.descend? (scope : Namespace) : List String → Option Namespace
  | [] => some scope
  | name :: names =>
    match scope.findNamespace? name with
    | some child => child.descend? names
    | none => none

end Ambient.Tree
