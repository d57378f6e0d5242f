/-
Trees without comments, and trees whose comments stay comments.

The silent form of a tree has all comments taken away. A tree is quiet if each of its
comments ends where it is written to end, and nothing else in the tree opens a comment
that goes on to the next closing mark: a comment at the end of a row holds no line break,
one of a parameter holds no closing mark, and names and types hold no slash. Only a type
that is returned and the name of an interface or a namespace may hold slashes, as long as
no star comes after them, since the row that they stand in has no comment before its end.
-/
import Ambient.Proofs.Tree.Plain

set_option autoImplicit false

namespace Ambient.Tree

/-! ## Texts outside of comments -/

/-- A text without a slash. -/
def Slashless (text : String) : Prop := '/' ∉ text.toList

/-- A text that opens no comment which goes to its closing mark. -/
def Unopened (text : String) : Prop := ¬ ['/', '*'] <:+: text.toList

instance (text : String) : Decidable (Slashless text) := inferInstanceAs (Decidable (¬ _))

instance (text : String) : Decidable (Unopened text) := inferInstanceAs (Decidable (¬ _))

theorem slashless_append {first second : String} :
    Slashless (first ++ second) ↔ Slashless first ∧ Slashless second := by
  rw [Slashless, String.toList_append, List.mem_append, not_or, Slashless, Slashless]

theorem Slashless.unopened {text : String} (htext : Slashless text) : Unopened text :=
  fun hinside => htext (hinside.subset List.mem_cons_self)

/-- Two texts that open no comment open none together, unless the slash ends the first one
and the star starts the second one. -/
theorem Unopened.append {first second : String} (hfirst : Unopened first)
    (hsecond : Unopened second)
    (hgap : first.toList.getLast? ≠ some '/' ∨ second.toList.head? ≠ some '*') :
    Unopened (first ++ second) := by
  rw [Unopened] at hfirst hsecond ⊢
  rw [String.toList_append]
  generalize first.toList = before at hfirst hgap ⊢
  generalize second.toList = after at hsecond hgap ⊢
  induction before with
  | nil => exact hsecond
  | cons c before ih =>
    rw [List.infix_cons_iff, not_or] at hfirst
    rw [List.cons_append, List.infix_cons_iff, not_or]
    cases before with
    | nil =>
      -- the marks could only come together where the two texts meet
      refine ⟨fun hprefix => ?_, hsecond⟩
      obtain ⟨hslash, more, hafter⟩ := List.cons_prefix_cons.mp hprefix
      rw [List.nil_append] at hafter
      rcases hgap with hgap | hgap
      · exact hgap (by rw [← hslash]; rfl)
      · exact hgap (by rw [← hafter]; rfl)
    | cons d before =>
      refine ⟨fun hprefix => ?_, ih hfirst.2 (by rwa [List.getLast?_cons_cons] at hgap)⟩
      obtain ⟨hslash, hprefix⟩ := List.cons_prefix_cons.mp hprefix
      obtain ⟨hstar, -⟩ := List.cons_prefix_cons.mp hprefix
      exact hfirst.1 ⟨before, by rw [← hslash, ← hstar]; rfl⟩

/-- A text that opens no comment opens none between texts without a slash, unless a star
comes right after it. -/
theorem Unopened.between {before text after : String} (hbefore : Slashless before)
    (htext : Unopened text) (hafter : Slashless after) (hstar : after.toList.head? ≠ some '*') :
    Unopened (before ++ text ++ after) := by
  have hgap : before.toList.getLast? ≠ some '/' := fun hlast => hbefore (List.mem_of_getLast? hlast)
  exact (hbefore.unopened.append htext (Or.inl hgap)).append hafter.unopened (Or.inr hstar)

/-- A space keeps two texts apart. -/
theorem Unopened.spaced {first second : String} (hfirst : Unopened first)
    (hsecond : Unopened second) : Unopened (first ++ (" " ++ second)) := by
  have hspace : Unopened (" " ++ second) :=
    Unopened.append (by decide) hsecond (Or.inl (by decide))
  exact hfirst.append hspace (Or.inr (by simp))

/-! ## Silent trees -/

/-- A parameter without its comment. -/
def Parameter.silent (parameter : Parameter) : Parameter := { parameter with comment := "" }

/-- A property without its comment. -/
def Property.silent (property : Property) : Property := { property with comment := "" }

/-- A method without comments. -/
def Method.silent (method : Method) : Method :=
  { method with parameters := method.parameters.map (·.silent), comment := "" }

/-- A call signature without comments. -/
def Signature.silent (signature : Signature) : Signature :=
  { signature with parameters := signature.parameters.map (·.silent), comment := "" }

/-- A way of calling without comments. -/
def Callable.silent : Callable → Callable
  | .none => .none
  | .methods called => .methods (called.map (·.silent))
  | .signature called => .signature called.silent

/-- An interface without comments. -/
def Interface.silent (interface : Interface) : Interface :=
  { interface with
    comment := ""
    properties := interface.properties.map (·.silent)
    callable := interface.callable.silent }

/-- An alias without its comment. -/
def Typedef.silent (typedef : Typedef) : Typedef := { typedef with comment := "" }

/-- A declared type without comments. -/
def Declaration.silent : Declaration → Declaration
  | .interface declared => .interface declared.silent
  | .typedef declared => .typedef declared.silent

mutual

/-- A namespace without comments. -/
def Namespace.silent : Namespace → Namespace
  | ⟨name, ambient, _, namespaces, types⟩ =>
    ⟨name, ambient, "", silentAll namespaces, types.map (·.silent)⟩

/-- Child namespaces without comments. -/
def silentAll : List Namespace → List Namespace
  | [] => []
  | child :: children => child.silent :: silentAll children

end

theorem silentAll_eq_map (children : List Namespace) :
    silentAll children = children.map (·.silent) := by
  induction children with
  | nil => rw [silentAll, List.map_nil]
  | cons child children ih => rw [silentAll, List.map_cons, ih]

theorem Namespace.silent_eq (scope : Namespace) :
    scope.silent =
      ⟨scope.name, scope.ambient, "", scope.namespaces.map (·.silent),
        scope.types.map (·.silent)⟩ := by
  cases scope
  rw [Namespace.silent, silentAll_eq_map]

/-! ## Quiet trees -/

/-- A parameter whose comment stays one. -/
structure Parameter.Quiet (parameter : Parameter) : Prop where
  name : Slashless parameter.name
  type : Slashless parameter.type
  comment : Uncut parameter.comment

/-- A property whose comment stays one. -/
structure Property.Quiet (property : Property) : Prop where
  name : Slashless property.name
  type : Slashless property.type
  comment : OneLine property.comment

/-- A method whose comments stay comments. -/
structure Method.Quiet (method : Method) : Prop where
  name : Slashless method.name
  parameters : ∀ parameter ∈ method.parameters, parameter.Quiet
  returnType : Unopened method.returnType
  comment : OneLine method.comment

/-- A call signature whose comments stay comments. -/
structure Signature.Quiet (signature : Signature) : Prop where
  parameters : ∀ parameter ∈ signature.parameters, parameter.Quiet
  returnType : Unopened signature.returnType
  comment : OneLine signature.comment

/-- A way of calling whose comments stay comments. -/
def Callable.Quiet : Callable → Prop
  | .none => True
  | .methods called => ∀ method ∈ called, method.Quiet
  | .signature called => called.Quiet

/-- An interface whose comments stay comments. -/
structure Interface.Quiet (interface : Interface) : Prop where
  name : Unopened interface.name
  comment : OneLine interface.comment
  properties : ∀ property ∈ interface.properties, property.Quiet
  callable : interface.callable.Quiet

/-- An alias whose comment stays one. -/
structure Typedef.Quiet (typedef : Typedef) : Prop where
  name : Slashless typedef.name
  underlying : Slashless typedef.underlying
  comment : OneLine typedef.comment

/-- A declared type whose comments stay comments. -/
def Declaration.Quiet : Declaration → Prop
  | .interface declared => declared.Quiet
  | .typedef declared => declared.Quiet

/-- A namespace whose comments stay comments, with everything in it. -/
inductive Namespace.Quiet : Namespace → Prop where
  | intro {scope : Namespace} : Unopened scope.name → OneLine scope.comment →
    (∀ child ∈ scope.namespaces, child.Quiet) → (∀ declared ∈ scope.types, declared.Quiet) →
    scope.Quiet

end Ambient.Tree
