/-
Trees whose text can be read back, and what is the same about two trees of one text.

A tree is plain if its names and type texts keep to the characters of identifiers and
type expressions, its comments to one line, and the comments of its parameters to what
fits between comment marks. Its canonical form has no interface with an empty list of
methods: such an interface is written like one that cannot be called.
-/
import Ambient.Proofs.Tree.Chains

set_option autoImplicit false

namespace Ambient.Tree

/-! ## Plain texts -/

/-- The characters of names. -/
def nameChar (c : Char) : Bool := c.isAlphanum || c == '_' || c == '$'

/-- The characters of type texts. -/
def typeChar (c : Char) : Bool := nameChar c || c == '.' || c == '[' || c == ']'

/-- A text that may stand for a name. -/
def PlainName (text : String) : Prop := text ≠ "" ∧ ∀ c ∈ text.toList, nameChar c = true

/-- A text that may stand for a type. -/
def PlainType (text : String) : Prop := text ≠ "" ∧ ∀ c ∈ text.toList, typeChar c = true

/-- A text without a line break. -/
def OneLine (text : String) : Prop := '\n' ∉ text.toList

/-- A text that does not close the comment it stands in. -/
def Uncut (text : String) : Prop := ¬ ['*', '/'] <:+: text.toList

-- the characters of the text are gone through, not all characters that there are
instance (text : String) : Decidable (PlainName text) :=
  @instDecidableAnd _ _ _ (List.decidableBAll _ text.toList)

instance (text : String) : Decidable (PlainType text) :=
  @instDecidableAnd _ _ _ (List.decidableBAll _ text.toList)

instance (text : String) : Decidable (OneLine text) := inferInstanceAs (Decidable (¬ _))

instance (text : String) : Decidable (Uncut text) := inferInstanceAs (Decidable (¬ _))

/-! ## Plain trees -/

/-- A parameter whose text can be read back. -/
structure Parameter.Plain (parameter : Parameter) : Prop where
  name : PlainName parameter.name
  type : PlainType parameter.type
  comment : OneLine parameter.comment
  uncut : Uncut parameter.comment

/-- A property whose text can be read back. -/
structure Property.Plain (property : Property) : Prop where
  name : PlainName property.name
  type : PlainType property.type
  comment : OneLine property.comment

/-- A method whose text can be read back. -/
structure Method.Plain (method : Method) : Prop where
  name : PlainName method.name
  parameters : ∀ parameter ∈ method.parameters, parameter.Plain
  returnType : PlainType method.returnType
  comment : OneLine method.comment

/-- A call signature whose text can be read back. -/
structure Signature.Plain (signature : Signature) : Prop where
  parameters : ∀ parameter ∈ signature.parameters, parameter.Plain
  returnType : PlainType signature.returnType
  comment : OneLine signature.comment

/-- A way of calling whose text can be read back. -/
def Callable.Plain : Callable → Prop
  | .none => True
  | .methods called => ∀ method ∈ called, method.Plain
  | .signature called => called.Plain

/-- An interface whose text can be read back. -/
structure Interface.Plain (interface : Interface) : Prop where
  name : PlainName interface.name
  comment : OneLine interface.comment
  properties : ∀ property ∈ interface.properties, property.Plain
  callable : interface.callable.Plain

/-- An alias whose text can be read back. -/
structure Typedef.Plain (typedef : Typedef) : Prop where
  name : PlainName typedef.name
  underlying : PlainType typedef.underlying
  comment : OneLine typedef.comment

/-- A declared type whose text can be read back. -/
def Declaration.Plain : Declaration → Prop
  | .interface declared => declared.Plain
  | .typedef declared => declared.Plain

/-- A namespace whose text can be read back, with everything in it. -/
inductive Namespace.Plain : Namespace → Prop where
  | intro {scope : Namespace} : PlainName scope.name → OneLine scope.comment →
    (∀ child ∈ scope.namespaces, child.Plain) → (∀ declared ∈ scope.types, declared.Plain) →
    scope.Plain

/-! ## Canonical trees -/

/-- A way of calling, where an empty list of methods is none. -/
def Callable.canonical : Callable → Callable
  | .methods [] => .none
  | callable => callable

/-- The canonical form of an interface. -/
def Interface.canonical (interface : Interface) : Interface :=
  { interface with callable := interface.callable.canonical }

/-- The canonical form of a declared type. -/
def Declaration.canonical : Declaration → Declaration
  | .interface declared => .interface declared.canonical
  | .typedef declared => .typedef declared

mutual

/-- The canonical form of a namespace and everything in it. -/
def Namespace.canonical : Namespace → Namespace
  | ⟨name, ambient, comment, namespaces, types⟩ =>
    ⟨name, ambient, comment, canonicalAll namespaces, types.map (·.canonical)⟩

/-- The canonical forms of child namespaces. -/
def canonicalAll : List Namespace → List Namespace
  | [] => []
  | child :: children => child.canonical :: canonicalAll children

end

theorem canonicalAll_eq_map (children : List Namespace) :
    canonicalAll children = children.map (·.canonical) := by
  induction children with
  | nil => rw [canonicalAll, List.map_nil]
  | cons child children ih => rw [canonicalAll, List.map_cons, ih]

theorem Namespace.canonical_eq (scope : Namespace) :
    scope.canonical =
      ⟨scope.name, scope.ambient, scope.comment, scope.namespaces.map (·.canonical),
        scope.types.map (·.canonical)⟩ := by
  cases scope
  rw [Namespace.canonical, canonicalAll_eq_map]

end Ambient.Tree
