/-
What the separated style keeps of a domain.

A conversion writes of a reference only its text, and of an alias nothing but that. Two
domains that are the same apart from this agree (`Domain.Agrees`), and the main statement,
`separated_eq_iff_agrees`, says that they are exactly the domains that have the same
namespace.

The types of a domain, its results and its arguments of events stand one after the other
in one list. Where one group ends is told by the callers: the return type of a command says
whether a result is declared for it, and the parameters of an event whether arguments are.
The groups of the two domains are therefore equally long, and so are their blocks.
-/
import Ambient.Convert.Protocol
import Mathlib.Data.List.Forall2

set_option autoImplicit false

namespace Ambient.Schema

/-! ## Agreement -/

/-- Two slots are the same but for the spelling of their references. -/
structure Property.Agrees (slot other : Property) : Prop where
  name : slot.name = other.name
  text : slot.reference.text = other.reference.text
  optional : slot.optional = other.optional
  description : slot.description = other.description

/-- Two definitions are the same but for the spelling of their references and the
properties of aliases. -/
structure Definition.Agrees (declared other : Definition) : Prop where
  id : declared.id = other.id
  description : declared.description = other.description
  isObject : declared.isObject = other.isObject
  text : declared.reference.text = other.reference.text
  properties : declared.isObject = true →
    List.Forall₂ Property.Agrees declared.properties other.properties

/-- Two commands are the same but for the spelling of their references. -/
structure Command.Agrees (command other : Command) : Prop where
  name : command.name = other.name
  description : command.description = other.description
  parameters : List.Forall₂ Property.Agrees command.parameters other.parameters
  returns : List.Forall₂ Property.Agrees command.returns other.returns

/-- Two events are the same but for the spelling of their references. -/
structure Event.Agrees (event other : Event) : Prop where
  name : event.name = other.name
  description : event.description = other.description
  parameters : List.Forall₂ Property.Agrees event.parameters other.parameters

/-- Two domains are the same but for the spelling of their references and the properties
of aliases. -/
structure Domain.Agrees (source other : Domain) : Prop where
  name : source.name = other.name
  description : source.description = other.description
  types : List.Forall₂ Definition.Agrees source.types other.types
  commands : List.Forall₂ Command.Agrees source.commands other.commands
  events : List.Forall₂ Event.Agrees source.events other.events

/-- The text of an object is that of anything, however its reference is spelled. -/
theorem text_of_isObject {declared : Definition} (hobject : declared.isObject = true) :
    declared.reference.text = anyText := by
  have hkind : declared.reference.kind? = some "object" := of_decide_eq_true hobject
  cases hreference : declared.reference with
  | bare kind? target? =>
    rw [hreference, Reference.kind?] at hkind
    rw [hkind]
    rfl
  | withItems kind? target? items =>
    rw [hreference, Reference.kind?] at hkind
    rw [hkind]
    rfl

end Ambient.Schema

namespace Ambient.Convert

open Ambient.Schema

/-! ## Lists -/

/-- Mapped lists are the same if their members are, one by one. -/
theorem map_eq_map_iff_forall₂ {α β : Type} {f : α → β} {xs ys : List α} :
    xs.map f = ys.map f ↔ List.Forall₂ (fun x y => f x = f y) xs ys := by
  rw [← List.forall₂_eq_eq_eq, List.forall₂_map_left_iff, List.forall₂_map_right_iff]

/-- Lists of blocks that are equally long, one by one, make the same list exactly if the
blocks are the same. -/
theorem flatMap_eq_flatMap_iff_forall₂ {α β : Type} {f : α → List β} {xs ys : List α}
    (hlength : List.Forall₂ (fun x y => (f x).length = (f y).length) xs ys) :
    xs.flatMap f = ys.flatMap f ↔ List.Forall₂ (fun x y => f x = f y) xs ys := by
  induction hlength with
  | nil => simp
  | cons hhead _ ih =>
    rw [List.flatMap_cons, List.flatMap_cons, List.forall₂_cons, ← ih]
    constructor
    · exact fun h => List.append_inj h hhead
    · rintro ⟨hblock, hrest⟩
      rw [hblock, hrest]

theorem length_flatMap_of_forall₂ {α β : Type} {f : α → List β} {xs ys : List α}
    (hlength : List.Forall₂ (fun x y => (f x).length = (f y).length) xs ys) :
    (xs.flatMap f).length = (ys.flatMap f).length := by
  induction hlength with
  | nil => rfl
  | cons hhead _ ih =>
    rw [List.flatMap_cons, List.flatMap_cons, List.length_append, List.length_append, hhead, ih]

/-! ## Slots and definitions -/

theorem property_eq_iff {slot other : Property} :
    property slot = property other ↔ slot.Agrees other := by
  rw [property, property, Tree.Property.mk.injEq]
  exact ⟨fun ⟨h₁, h₂, h₃, h₄⟩ => ⟨h₁, h₂, h₃, h₄⟩, fun h => ⟨h.1, h.2, h.3, h.4⟩⟩

theorem parameter_eq_iff {slot other : Property} :
    parameter slot = parameter other ↔ slot.Agrees other := by
  rw [parameter, parameter, Tree.Parameter.mk.injEq]
  exact ⟨fun ⟨h₁, h₂, h₃, h₄⟩ => ⟨h₁, h₂, h₃, h₄⟩, fun h => ⟨h.1, h.2, h.3, h.4⟩⟩

theorem properties_eq_iff {slots others : List Property} :
    slots.map property = others.map property ↔ List.Forall₂ Property.Agrees slots others := by
  simp only [map_eq_map_iff_forall₂, property_eq_iff]

theorem parameters_eq_iff {slots others : List Property} :
    slots.map parameter = others.map parameter ↔ List.Forall₂ Property.Agrees slots others := by
  simp only [map_eq_map_iff_forall₂, parameter_eq_iff]

theorem objectInterface_eq_iff {name other comment remark : String}
    {slots others : List Property} :
    objectInterface name comment slots = objectInterface other remark others ↔
      name = other ∧ comment = remark ∧ List.Forall₂ Property.Agrees slots others := by
  rw [objectInterface, objectInterface, Tree.Interface.mk.injEq, properties_eq_iff]
  exact ⟨fun ⟨h₁, h₂, h₃, _⟩ => ⟨h₁, h₂, h₃⟩, fun ⟨h₁, h₂, h₃⟩ => ⟨h₁, h₂, h₃, rfl⟩⟩

theorem definition_eq_iff {declared other : Definition} :
    definition declared = definition other ↔ declared.Agrees other := by
  unfold definition
  by_cases hobject : declared.isObject = true <;> by_cases hother : other.isObject = true
  · -- objects keep their properties, and their texts are the same in any case
    rw [if_pos hobject, if_pos hother, Tree.Declaration.interface.injEq, objectInterface_eq_iff]
    constructor
    · rintro ⟨hid, hdescription, hproperties⟩
      exact ⟨hid, hdescription, hobject.trans hother.symm,
        (text_of_isObject hobject).trans (text_of_isObject hother).symm, fun _ => hproperties⟩
    · exact fun h => ⟨h.id, h.description, h.properties hobject⟩
  · rw [if_pos hobject, if_neg hother]
    exact ⟨(by intro h; cases h), fun h => absurd (h.isObject.symm.trans hobject) hother⟩
  · rw [if_neg hobject, if_pos hother]
    exact ⟨(by intro h; cases h), fun h => absurd (h.isObject.trans hother) hobject⟩
  · -- aliases keep their texts
    rw [if_neg hobject, if_neg hother, Tree.Declaration.typedef.injEq, Tree.Typedef.mk.injEq]
    constructor
    · rintro ⟨hid, htext, hdescription⟩
      exact ⟨hid, hdescription, by rw [Bool.eq_false_iff.mpr hobject, Bool.eq_false_iff.mpr hother],
        htext, fun h => absurd h hobject⟩
    · exact fun h => ⟨h.id, h.text, h.description⟩

/-! ## Wrappers -/

/-- The declarations of a wrapper of a given name are the same exactly if its slots agree. -/
theorem declarations_wrapper?_eq_iff {name comment : String} {slots others : List Property} :
    declarations [wrapper? name comment slots] = declarations [wrapper? name comment others] ↔
      List.Forall₂ Property.Agrees slots others := by
  cases slots with
  | nil => cases others <;> simp [declarations, wrapper?]
  | cons slot slots =>
    cases others with
    | nil => simp [declarations, wrapper?]
    | cons other others => simp [declarations, wrapper?, objectInterface_eq_iff]

theorem length_declarations_wrapper? (name comment : String) (slots : List Property) :
    (declarations [wrapper? name comment slots]).length = if slots.isEmpty then 0 else 1 := by
  cases slots <;> rfl

/-- A wrapper that has a slot is named where it is used, unless its name is that of
anything. -/
theorem wrappedType_wrapper? {name : String} (hname : name ≠ anyText) (comment : String)
    (slots : List Property) :
    wrappedType (wrapper? name comment slots) = anyText ↔ slots.isEmpty = true := by
  cases slots with
  | nil => exact ⟨fun _ => rfl, fun _ => rfl⟩
  | cons slot slots => exact ⟨fun h => absurd h hname, fun h => absurd h Bool.false_ne_true⟩

theorem wrappedParameters_wrapper? (name comment : String) (slots : List Property) :
    wrappedParameters (wrapper? name comment slots) = [] ↔ slots.isEmpty = true := by
  cases slots with
  | nil => exact ⟨fun _ => rfl, fun _ => rfl⟩
  | cons slot slots => exact ⟨(by intro h; cases h), fun h => absurd h Bool.false_ne_true⟩

/-- The use of a wrapper does not depend on what its slots are. -/
theorem wrappedType_congr {name comment : String} {slots others : List Property}
    (h : List.Forall₂ Property.Agrees slots others) :
    wrappedType (wrapper? name comment slots) = wrappedType (wrapper? name comment others) := by
  cases h <;> rfl

theorem wrappedParameters_congr {name comment : String} {slots others : List Property}
    (h : List.Forall₂ Property.Agrees slots others) :
    wrappedParameters (wrapper? name comment slots) =
      wrappedParameters (wrapper? name comment others) := by
  cases h <;> rfl

/-! ## Commands and events -/

namespace Separated

/-- The caller and the wrapper of a command are the same exactly if the command is. -/
theorem command_eq_iff {settings : Settings} {source other : Command} :
    (command settings source).member = (command settings other).member ∧
        (command settings source).types = (command settings other).types ↔
      source.Agrees other := by
  simp only [command, caller, Tree.Interface.mk.injEq, Tree.Callable.signature.injEq,
    Tree.Signature.mk.injEq, parameters_eq_iff, result?]
  constructor
  · rintro ⟨⟨hname, hdescription, -, hparameters, -, -⟩, hreturns⟩
    rw [hname, declarations_wrapper?_eq_iff] at hreturns
    exact ⟨hname, hdescription, hparameters, hreturns⟩
  · rintro ⟨hname, hdescription, hparameters, hreturns⟩
    rw [hname, declarations_wrapper?_eq_iff, wrappedType_congr hreturns]
    exact ⟨⟨rfl, hdescription, trivial, hparameters, rfl, trivial⟩, hreturns⟩

/-- The caller and the wrapper of an event are the same exactly if the event is. -/
theorem event_eq_iff {source other : Event} :
    (event source).member = (event other).member ∧ (event source).types = (event other).types ↔
      source.Agrees other := by
  simp only [event, caller, Tree.Interface.mk.injEq, Tree.Callable.signature.injEq,
    Tree.Signature.mk.injEq, eventArgs?]
  constructor
  · rintro ⟨⟨hname, hdescription, -, -, -, -⟩, hparameters⟩
    rw [hname, declarations_wrapper?_eq_iff] at hparameters
    exact ⟨hname, hdescription, hparameters⟩
  · rintro ⟨hname, hdescription, hparameters⟩
    rw [hname, declarations_wrapper?_eq_iff, wrappedParameters_congr hparameters]
    exact ⟨⟨rfl, hdescription, trivial, rfl, trivial, trivial⟩, hparameters⟩

/-- The return type of a caller tells whether a result is declared, as long as no result
has the name of anything. -/
theorem length_types_command {settings : Settings}
    (hsuffix : ∀ name, Naming.result name settings.resultSuffix ≠ anyText)
    {source other : Command}
    (h : (command settings source).member = (command settings other).member) :
    (command settings source).types.length = (command settings other).types.length := by
  simp only [command, caller, Tree.Interface.mk.injEq, Tree.Callable.signature.injEq,
    Tree.Signature.mk.injEq] at h
  obtain ⟨-, -, -, -, hreturn, -⟩ := h
  have hisEmpty : source.returns.isEmpty = true ↔ other.returns.isEmpty = true := by
    rw [← wrappedType_wrapper? (hsuffix source.name), ← wrappedType_wrapper? (hsuffix other.name)]
    exact Eq.congr_left hreturn
  simp only [command, result?, length_declarations_wrapper?, hisEmpty]

/-- The parameters of a caller tell whether arguments are declared. -/
theorem length_types_event {source other : Event}
    (h : (event source).member = (event other).member) :
    (event source).types.length = (event other).types.length := by
  simp only [event, caller, Tree.Interface.mk.injEq, Tree.Callable.signature.injEq,
    Tree.Signature.mk.injEq] at h
  obtain ⟨-, -, -, hparameters, -, -⟩ := h
  have hisEmpty : source.parameters.isEmpty = true ↔ other.parameters.isEmpty = true := by
    rw [← wrappedParameters_wrapper?, ← wrappedParameters_wrapper?]
    exact Eq.congr_left hparameters
  simp only [event, eventArgs?, length_declarations_wrapper?, hisEmpty]

/-! ## Domains -/

theorem callers_eq_iff {name kind domain other : String} {members others : List Tree.Interface}
    (hdomain : domain = other) :
    callers name kind domain members = callers name kind other others ↔ members = others := by
  have hinjective : Function.Injective Tree.Declaration.interface :=
    fun _ _ h => Tree.Declaration.interface.inj h
  rw [callers, callers, hdomain, Tree.Namespace.mk.injEq, hinjective.list_map.eq_iff]
  exact ⟨fun ⟨_, _, _, _, h⟩ => h, fun h => ⟨rfl, rfl, rfl, rfl, h⟩⟩

/-- With a suffix under which no result has the name of anything, domains have the same
namespace exactly if they agree. -/
theorem domain_eq_iff {settings : Settings}
    (hsuffix : ∀ name, Naming.result name settings.resultSuffix ≠ anyText)
    {source other : Domain} :
    domain settings source = domain settings other ↔ source.Agrees other := by
  simp only [domain, Tree.Namespace.mk.injEq, List.flatMap_map, List.map_map, true_and]
  constructor
  · rintro ⟨hname, hdescription, hcallers, htypes⟩
    simp only [List.cons.injEq, callers_eq_iff hname, and_true] at hcallers
    -- the callers pair commands with commands and events with events
    have hcommands := map_eq_map_iff_forall₂.mp hcallers.1
    have hevents := map_eq_map_iff_forall₂.mp hcallers.2
    have hresults := hcommands.imp fun _ _ h => length_types_command hsuffix h
    have hargs := hevents.imp fun _ _ h => length_types_event h
    -- so the list of types is cut at the same places
    obtain ⟨hfront, hargs'⟩ := List.append_inj' htypes (length_flatMap_of_forall₂ hargs)
    obtain ⟨hown, hresults'⟩ := List.append_inj' hfront (length_flatMap_of_forall₂ hresults)
    refine ⟨hname, hdescription, ?_, ?_, ?_⟩
    · exact (map_eq_map_iff_forall₂.mp hown).imp fun _ _ => definition_eq_iff.mp
    · exact hcommands.mp (fun _ _ hmember htypes => command_eq_iff.mp ⟨hmember, htypes⟩)
        ((flatMap_eq_flatMap_iff_forall₂ hresults).mp hresults')
    · exact hevents.mp (fun _ _ hmember htypes => event_eq_iff.mp ⟨hmember, htypes⟩)
        ((flatMap_eq_flatMap_iff_forall₂ hargs).mp hargs')
  · intro h
    have hcommands := h.commands.imp fun _ _ => (@command_eq_iff settings _ _).mpr
    have hevents := h.events.imp fun _ _ => event_eq_iff.mpr
    have hown := map_eq_map_iff_forall₂.mpr (h.types.imp fun _ _ => definition_eq_iff.mpr)
    have hcallers := map_eq_map_iff_forall₂.mpr (hcommands.imp fun _ _ => And.left)
    have hhandlers := map_eq_map_iff_forall₂.mpr (hevents.imp fun _ _ => And.left)
    have hresults := (flatMap_eq_flatMap_iff_forall₂
      (hcommands.imp fun _ _ hsame => congrArg List.length hsame.2)).mpr
        (hcommands.imp fun _ _ => And.right)
    have hargs := (flatMap_eq_flatMap_iff_forall₂
      (hevents.imp fun _ _ hsame => congrArg List.length hsame.2)).mpr
        (hevents.imp fun _ _ => And.right)
    refine ⟨h.name, h.description, ?_, ?_⟩
    · rw [h.name]
      exact congrArg₂ (fun first second => [callers commandsName "commands" other.name first,
        callers eventsName "events" other.name second]) hcallers hhandlers
    · rw [hown, hresults, hargs]

end Separated

/-- No result has the name of anything under the default suffix. -/
theorem result_ne_anyText (name : String) : Naming.result name "Result" ≠ anyText := by
  intro h
  have hlength := congrArg String.length h
  rw [Naming.result, String.length_append] at hlength
  have hsuffix : "Result".length = 6 := by decide
  have hany : anyText.length = 3 := by decide
  omega

/-- **Separated conversion loses nothing of a domain** but the spelling of references and
the properties of aliases: under the default suffix two domains have the same namespace
exactly if they agree. -/
theorem separated_eq_iff_agrees (source other : Domain) :
    domain { style := .separated, resultSuffix := "Result" } source =
        domain { style := .separated, resultSuffix := "Result" } other ↔
      source.Agrees other :=
  Separated.domain_eq_iff result_ne_anyText

end Ambient.Convert
