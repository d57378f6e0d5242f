/-
Conversions conserve references.

Everything that a converted domain refers to is either written in its description or made
up by the conversion, and each reference of either kind stands in the tree exactly once
(`references_conserved`). The styles put what a command takes into different places: into
the signature of its caller, or into a wrapper that the method refers to. So the count is
kept for one command and for one event at a time (`commandTexts_eq`, `eventTexts_eq`), over
its wrappers and its call together, and added up over the domain.
-/
import Ambient.Proofs.Convert.Wrappers
import Ambient.Proofs.Tree.Chains
import Mathlib.Data.Multiset.Bind
import Mathlib.Tactic.Abel

set_option autoImplicit false

namespace Ambient.Convert

open Ambient.Naming Ambient.Schema Ambient.Scope

/-! ## What is made up -/

/-- What the call of a command returns: the type of its results, if it has any. -/
def returnText (suffix : String) (command : Command) : String :=
  if command.returns = [] then anyText else pascal command.name ++ suffix

/-- The references that a conversion makes up: for every command one to what it returns, for
every event one to anything, and one to the arguments of every call that takes wrapped
ones. -/
def madeReferences (settings : Settings) (source : Domain) : Multiset String :=
  (source.commands.map (returnText settings.resultSuffix) : Multiset String) +
    (source.events.map fun _ => anyText : List String) +
    ((source.events.filter (·.parameters ≠ [])).map fun event =>
      pascal event.name ++ "EventArgs" : List String) +
    match settings.style with
    | .separated => 0
    | .unified => ((source.commands.filter (·.parameters ≠ [])).map fun command =>
        pascal command.name ++ "Params" : List String)

/-! ## One command and one event -/

/-- The references of slots, as they are written. -/
def slotTexts (slots : List Property) : List String := slots.map (·.reference.text)

/-- The references to wrapped arguments. -/
def argumentTexts (wrapper : Option Tree.Interface) : List String :=
  (wrappedParameters wrapper).map (·.type)

/-- The references in the call of a command. -/
def commandCall (settings : Settings) (command : Command) : List String :=
  match settings.style with
  | .separated => slotTexts command.parameters ++ [wrappedType (result? settings command)]
  | .unified => argumentTexts (params? command) ++ [wrappedType (result? settings command)]

/-- The references in the call of an event. -/
def eventCall (event : Event) : List String := argumentTexts (eventArgs? event) ++ [anyText]

theorem wrappedType_result? (settings : Settings) (command : Command) :
    wrappedType (result? settings command) = returnText settings.resultSuffix command := by
  rw [result?, returnText]
  cases command.returns <;> rfl

theorem argumentTexts_wrapper? (name comment : String) (slots : List Property) :
    argumentTexts (wrapper? name comment slots) = if slots = [] then [] else [name] := by
  cases slots <;> rfl

/-- What is made up for one command. -/
def commandMade (settings : Settings) (command : Command) : Multiset String :=
  {returnText settings.resultSuffix command} +
    match settings.style with
    | .separated => 0
    | .unified => (argumentTexts (params? command) : Multiset String)

/-- What is made up for one event. -/
def eventMade (event : Event) : Multiset String :=
  {anyText} + (argumentTexts (eventArgs? event) : Multiset String)

/-- The references in the slots of wrappers. -/
def wrappedTexts (made : List Wrapper) : List String :=
  made.flatMap fun wrapper => slotTexts wrapper.slots

/-- The wrappers and the call of a command hold its references, and what is made up for it. -/
theorem commandTexts_eq (settings : Settings) (command : Command) :
    (wrappedTexts (commandWrappers settings.style command) : Multiset String) +
        (commandCall settings command : Multiset String) =
      (command.references.map (·.text) : Multiset String) + commandMade settings command := by
  have hreferences : command.references.map (·.text) =
      slotTexts command.parameters ++ slotTexts command.returns := by
    simp only [Command.references, slotTexts, List.map_append, List.map_map]
    rfl
  rw [hreferences, commandCall, commandMade, wrappedType_result?]
  cases settings.style with
  | separated =>
    simp only [wrappedTexts, commandWrappers, resultWrapper, List.flatMap_cons, List.flatMap_nil,
      List.append_nil, ← Multiset.coe_add, Multiset.coe_singleton]
    abel
  | unified =>
    simp only [wrappedTexts, commandWrappers, paramsWrapper, resultWrapper, List.flatMap_cons,
      List.flatMap_nil, List.append_nil, ← Multiset.coe_add, Multiset.coe_singleton]
    abel

/-- The wrapper and the call of an event hold its references, and what is made up for it. -/
theorem eventTexts_eq (event : Event) :
    (wrappedTexts (eventWrappers event) : Multiset String) + (eventCall event : Multiset String) =
      (event.references.map (·.text) : Multiset String) + eventMade event := by
  have hreferences : event.references.map (·.text) = slotTexts event.parameters := by
    simp only [Event.references, slotTexts, List.map_map]
    rfl
  rw [hreferences, eventCall, eventMade]
  simp only [wrappedTexts, eventWrappers, argsWrapper, List.flatMap_cons, List.flatMap_nil,
    List.append_nil, ← Multiset.coe_add, Multiset.coe_singleton]
  abel

/-! ## Adding up -/

/-- A member that is made up only where there is something to wrap. -/
theorem flatMap_unless {α β : Type} (skip : α → Prop) [DecidablePred skip] (f : α → β)
    (xs : List α) :
    (xs.flatMap fun x => if skip x then [] else [f x]) = (xs.filter (¬ skip ·)).map f := by
  induction xs with
  | nil => rfl
  | cons x xs ih =>
    rw [List.flatMap_cons, ih]
    by_cases hskip : skip x <;> simp [hskip]

/-- Two lists for every member hold what they hold for each member together. -/
theorem flatMap_add_flatMap {α β : Type} {f g h : α → List β} {made : α → Multiset β}
    (heach : ∀ x, (f x : Multiset β) + (g x : Multiset β) = (h x : Multiset β) + made x)
    (xs : List α) :
    (xs.flatMap f : Multiset β) + (xs.flatMap g : Multiset β) =
      (xs.flatMap h : Multiset β) + (xs : Multiset α).bind made := by
  rw [← Multiset.coe_bind, ← Multiset.coe_bind, ← Multiset.coe_bind, ← Multiset.bind_add,
    ← Multiset.bind_add]
  exact Multiset.bind_congr fun x _ => heach x

theorem madeReferences_eq (settings : Settings) (source : Domain) :
    madeReferences settings source =
      ((source.commands : Multiset Command).bind fun command => commandMade settings command) +
        (source.events : Multiset Event).bind fun event => eventMade event := by
  have hargs : (source.events.flatMap fun event => argumentTexts (eventArgs? event)) =
      (source.events.filter (·.parameters ≠ [])).map fun event =>
        pascal event.name ++ "EventArgs" := by
    simp only [eventArgs?, argumentTexts_wrapper?]
    exact flatMap_unless _ _ _
  have hparams : (source.commands.flatMap fun command => argumentTexts (params? command)) =
      (source.commands.filter (·.parameters ≠ [])).map fun command =>
        pascal command.name ++ "Params" := by
    simp only [params?, argumentTexts_wrapper?]
    exact flatMap_unless _ _ _
  rw [madeReferences, ← hargs, ← hparams]
  unfold commandMade eventMade
  simp only [Multiset.bind_add, Multiset.bind_singleton, Multiset.map_coe]
  cases settings.style with
  | separated =>
    simp only [Multiset.bind_zero, Multiset.coe_bind]
    abel
  | unified =>
    simp only [Multiset.coe_bind]
    abel

/-! ## The references of a domain -/

theorem wrappedTexts_wrappers (style : Style) (source : Domain) :
    wrappedTexts (wrappers style source) =
      (source.commands.flatMap fun command => wrappedTexts (commandWrappers style command)) ++
        source.events.flatMap fun event => wrappedTexts (eventWrappers event) := by
  -- the wrappers that are left out have no slots
  have hfilter : ∀ made : List Wrapper,
      wrappedTexts (made.filter fun wrapper => !wrapper.slots.isEmpty) = wrappedTexts made := by
    intro made
    induction made with
    | nil => rfl
    | cons wrapper made ih =>
      obtain ⟨kind, member, slots⟩ := wrapper
      cases slots with
      | nil => exact ih
      | cons slot slots => exact congrArg (slotTexts (slot :: slots) ++ ·) ih
  rw [wrappers, hfilter, candidates, wrappedTexts, List.flatMap_append, List.flatMap_assoc,
    List.flatMap_assoc]
  rfl

theorem flatMap_references_surface {settings : Settings} (hstyle : settings.style = .unified)
    (source : Domain) :
    (surface settings source).flatMap references =
      (methods settings source).flatMap methodReferences := by
  rw [surface_eq]
  by_cases hmethods : methods settings source = []
  · rw [if_neg fun h => h.2 hmethods, hmethods, List.flatMap_nil, List.flatMap_nil]
  · rw [if_pos ⟨hstyle, hmethods⟩, List.flatMap_singleton]
    rfl

theorem declared_callers (name kind domain : String) (members : List Tree.Interface) :
    (Separated.callers name kind domain members).declared = members.map .interface := by
  rw [Tree.Namespace.declared_eq, Separated.callers, List.flatMap_nil, List.append_nil]

/-! ### The references of a caller and of a method are those of the call -/

theorem references_caller_command {settings : Settings} (hstyle : settings.style = .separated)
    (command : Command) :
    references (.interface (Separated.command settings command).member) =
      commandCall settings command := by
  rw [references_command, commandCall, hstyle]
  rfl

theorem references_caller_event (event : Event) :
    references (.interface (Separated.event event).member) = eventCall event :=
  references_event "" event

theorem methodReferences_command {settings : Settings} (hstyle : settings.style = .unified)
    (command : Command) :
    methodReferences (Unified.command settings command).member = commandCall settings command := by
  rw [commandCall, hstyle]
  rfl

theorem methodReferences_event (event : Event) :
    methodReferences (Unified.event event).member = eventCall event := rfl

theorem flatMap_references_methods {settings : Settings} (hstyle : settings.style = .unified)
    (source : Domain) :
    (surface settings source).flatMap references =
      source.commands.flatMap (commandCall settings) ++ source.events.flatMap eventCall := by
  rw [flatMap_references_surface hstyle, methods]
  simp only [List.flatMap_append, List.flatMap_map, methodReferences_command hstyle,
    methodReferences_event]

/-- The references in the callers or in the methods of a domain, whichever it has. -/
theorem flatMap_references_calls (settings : Settings) (source : Domain) :
    (surface settings source).flatMap references ++
        ((domain settings source).namespaces.flatMap (·.declared)).flatMap references =
      source.commands.flatMap (commandCall settings) ++ source.events.flatMap eventCall := by
  cases hstyle : settings.style with
  | separated =>
    simp [surface, domain, hstyle, Separated.domain, declared_callers, List.flatMap_map,
      references_caller_command hstyle, references_caller_event]
  | unified =>
    rw [flatMap_references_methods hstyle]
    simp [domain, hstyle, Unified.domain]

/-- What the types of a domain refer to: its own types, its wrappers, and the interface of its
methods, where it has one. -/
theorem flatMap_references_types (settings : Settings) (source : Domain) :
    (domain settings source).types.flatMap references =
      (source.types.flatMap fun declared => declared.references.map (·.text)) ++
        wrappedTexts (wrappers settings.style source) ++
        (surface settings source).flatMap references := by
  have hown : (source.types.map definition).flatMap references =
      source.types.flatMap fun declared => declared.references.map (·.text) := by
    rw [List.flatMap_map]
    exact List.flatMap_congr fun declared _ => references_definition declared
  have hwrappers : ((wrappers settings.style source).map fun wrapper =>
        Tree.Declaration.interface (wrapper.interface settings.resultSuffix)).flatMap references =
      wrappedTexts (wrappers settings.style source) := by
    rw [List.flatMap_map]
    exact List.flatMap_congr fun wrapper _ => references_wrapper _ wrapper
  rw [domain_types]
  simp only [List.flatMap_append, hown, hwrappers]

/-- What the declarations of a domain refer to: its own types, its wrappers and its calls. -/
theorem flatMap_references_domain (settings : Settings) (source : Domain) :
    (domain settings source).declared.flatMap references =
      (source.types.flatMap fun declared => declared.references.map (·.text)) ++
        wrappedTexts (wrappers settings.style source) ++
        (source.commands.flatMap (commandCall settings) ++ source.events.flatMap eventCall) := by
  rw [Tree.Namespace.declared_eq, List.flatMap_append, flatMap_references_types,
    List.append_assoc, flatMap_references_calls]

/-- **Conversions conserve references**: what the declarations of a converted domain refer to
is, each as often as it is written, what the description refers to and what is made up. -/
theorem references_conserved (settings : Settings) (source : Domain) :
    ((domain settings source).declared.flatMap references : Multiset String) =
      (source.references.map (·.text) : Multiset String) + madeReferences settings source := by
  -- per command and per event, the wrappers and the call come together
  have hcommands := flatMap_add_flatMap (commandTexts_eq settings) source.commands
  have hevents := flatMap_add_flatMap eventTexts_eq source.events
  rw [flatMap_references_domain, wrappedTexts_wrappers, madeReferences_eq, Domain.references]
  simp only [List.map_append, List.map_flatMap, ← Multiset.coe_add]
  rw [add_assoc, add_add_add_comm, hcommands, hevents]
  abel

end Ambient.Convert
