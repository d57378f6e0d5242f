/-
What the declarations of a converted domain are.

The types made for commands and events differ in their purpose, the member they are made
for and their slots; `Wrapper` is these three, and `wrappers` lists those of a domain in
the order in which they are declared. In both styles a domain declares its own types, its
wrappers, and in the unified style the interface of its methods (`domain_types`).

`Writes` says which references there are: those of the description, the names of wrappers
and the type of anything. The lemmas on it hold for every domain, however it is formed.
-/
import Ambient.Convert.Protocol
import Ambient.Proofs.Schema.WellFormed
import Ambient.Scope.Check

set_option autoImplicit false

namespace Ambient.Convert

open Ambient.Naming Ambient.Schema Ambient.Scope

/-! ## Wrappers -/

/-- A type made for a purpose of a command or an event. -/
structure Wrapper where
  kind : Kind
  member : String
  slots : List Property

namespace Wrapper

/-- The name of a wrapper. -/
def name (suffix : String) (wrapper : Wrapper) : String :=
  made suffix wrapper.kind wrapper.member

/-- The comment in front of a wrapper. -/
def comment (wrapper : Wrapper) : String :=
  match wrapper.kind with
  | .result => "The returned object from " ++ wrapper.member ++ " command"
  | .params => "Parameters passed to the '" ++ wrapper.member ++ "' command."
  | .eventArgs => "Arguments passed to the '" ++ wrapper.member ++ "' event."

/-- The interface of a wrapper. -/
def interface (suffix : String) (wrapper : Wrapper) : Tree.Interface :=
  objectInterface (wrapper.name suffix) wrapper.comment wrapper.slots

/-- The interface of a wrapper, unless it would be empty. -/
def interface? (suffix : String) (wrapper : Wrapper) : Option Tree.Interface :=
  wrapper? (wrapper.name suffix) wrapper.comment wrapper.slots

end Wrapper

/-- What a command returns. -/
def resultWrapper (command : Command) : Wrapper := ⟨.result, command.name, command.returns⟩

/-- What a command takes. -/
def paramsWrapper (command : Command) : Wrapper := ⟨.params, command.name, command.parameters⟩

/-- What an event brings. -/
def argsWrapper (event : Event) : Wrapper := ⟨.eventArgs, event.name, event.parameters⟩

/-- The wrappers of a command in a style, empty ones included. -/
def commandWrappers : Style → Command → List Wrapper
  | .separated, command => [resultWrapper command]
  | .unified, command => [paramsWrapper command, resultWrapper command]

/-- The wrappers of an event, empty ones included. -/
def eventWrappers (event : Event) : List Wrapper := [argsWrapper event]

/-- The wrappers of a domain in a style, empty ones included. -/
def candidates (style : Style) (source : Domain) : List Wrapper :=
  source.commands.flatMap (commandWrappers style) ++ source.events.flatMap eventWrappers

/-- The wrappers that a domain declares. -/
def wrappers (style : Style) (source : Domain) : List Wrapper :=
  (candidates style source).filter fun wrapper => !wrapper.slots.isEmpty

theorem interface?_of_isEmpty {suffix : String} {wrapper : Wrapper}
    (hempty : wrapper.slots.isEmpty = true) : wrapper.interface? suffix = none := by
  rw [Wrapper.interface?, wrapper?, if_pos hempty]

theorem interface?_of_not_isEmpty {suffix : String} {wrapper : Wrapper}
    (hslots : ¬ wrapper.slots.isEmpty = true) :
    wrapper.interface? suffix = some (wrapper.interface suffix) := by
  rw [Wrapper.interface?, wrapper?, if_neg hslots, Wrapper.interface]

/-- Declaring wrappers leaves the empty ones out. -/
theorem declarations_interface? (suffix : String) (wrappers : List Wrapper) :
    declarations (wrappers.map (·.interface? suffix)) =
      (wrappers.filter fun wrapper => !wrapper.slots.isEmpty).map fun wrapper =>
        .interface (wrapper.interface suffix) := by
  induction wrappers with
  | nil => rfl
  | cons wrapper wrappers ih =>
    rw [declarations, List.map_cons, List.filterMap_cons, ← declarations, ih]
    by_cases hempty : wrapper.slots.isEmpty = true
    · simp [interface?_of_isEmpty hempty, hempty]
    · simp [interface?_of_not_isEmpty hempty, hempty]

/-! ## Declarations -/

/-- The methods of a domain in the unified style. -/
def methods (settings : Settings) (source : Domain) : List Tree.Method :=
  (source.commands.map fun command => (Unified.command settings command).member) ++
    source.events.map fun event => (Unified.event event).member

/-- The interface of the methods of a domain, where the style has one. -/
def surface (settings : Settings) (source : Domain) : List Tree.Declaration :=
  match settings.style with
  | .separated => []
  | .unified => declarations [Unified.surface? source.name (methods settings source)]

/-- The interface of the methods of a domain that has some. -/
def methodsInterface (settings : Settings) (source : Domain) : Tree.Interface where
  name := source.name
  comment := "Commands and events belonging to the " ++ source.name ++ " domain."
  callable := .methods (methods settings source)

theorem surface_eq (settings : Settings) (source : Domain) :
    surface settings source =
      if settings.style = .unified ∧ methods settings source ≠ [] then
        [.interface (methodsInterface settings source)]
      else [] := by
  rw [surface]
  cases settings.style with
  | separated => exact (if_neg fun h => Style.noConfusion h.1).symm
  | unified =>
    rw [Unified.surface?]
    by_cases hnone : methods settings source = []
    · rw [if_pos (List.isEmpty_iff.mpr hnone), if_neg fun h => h.2 hnone]
      rfl
    · rw [if_neg fun h => hnone (List.isEmpty_iff.mp h), if_pos ⟨rfl, hnone⟩]
      rfl

/-- **What a domain declares**: its own types, its wrappers and the interface of its
methods. -/
theorem domain_types (settings : Settings) (source : Domain) :
    (domain settings source).types =
      source.types.map definition ++
        ((wrappers settings.style source).map fun wrapper =>
          .interface (wrapper.interface settings.resultSuffix)) ++
        surface settings source := by
  obtain ⟨style, suffix⟩ := settings
  -- command by command and event by event, the wrappers that are not empty are declared
  have hcommands : ∀ style, ((source.commands.flatMap (commandWrappers style)).filter
        fun wrapper => !wrapper.slots.isEmpty).map (fun wrapper =>
          Tree.Declaration.interface (wrapper.interface suffix)) =
      source.commands.flatMap fun command =>
        declarations ((commandWrappers style command).map (·.interface? suffix)) := by
    intro style
    rw [List.filter_flatMap, List.map_flatMap]
    exact List.flatMap_congr fun command _ => (declarations_interface? suffix _).symm
  have hevents : ((source.events.flatMap eventWrappers).filter
        fun wrapper => !wrapper.slots.isEmpty).map (fun wrapper =>
          Tree.Declaration.interface (wrapper.interface suffix)) =
      source.events.flatMap fun event => declarations [eventArgs? event] := by
    rw [List.filter_flatMap, List.map_flatMap]
    exact List.flatMap_congr fun event _ => (declarations_interface? suffix _).symm
  rw [wrappers, candidates, List.filter_append, List.map_append, hcommands, hevents]
  cases style with
  | separated =>
    simp only [domain, Separated.domain, surface, List.flatMap_map, List.append_nil,
      List.append_assoc]
    rfl
  | unified =>
    simp only [domain, Unified.domain, surface, methods, List.flatMap_map, List.map_map,
      List.append_assoc]
    rfl

theorem mem_types_of_mem_wrappers (settings : Settings) {source : Domain} {wrapper : Wrapper}
    (hwrapper : wrapper ∈ wrappers settings.style source) :
    .interface (wrapper.interface settings.resultSuffix) ∈ (domain settings source).types := by
  rw [domain_types]
  exact List.mem_append_left _ (List.mem_append_right _
    (List.mem_map.mpr ⟨wrapper, hwrapper, rfl⟩))

/-- The callers of a domain stand in child namespaces, where the style has some. -/
theorem mem_namespaces_domain {settings : Settings} {source : Domain} {child : Tree.Namespace}
    (hchild : child ∈ (domain settings source).namespaces) :
    child = Separated.callers Separated.commandsName "commands" source.name
        (source.commands.map fun command => (Separated.command settings command).member) ∨
      child = Separated.callers Separated.eventsName "events" source.name
        (source.events.map fun event => (Separated.event event).member) := by
  obtain ⟨style, suffix⟩ := settings
  cases style with
  | unified => cases hchild
  | separated =>
    simpa only [domain, Separated.domain, List.map_map, Function.comp_def, List.mem_cons,
      List.not_mem_nil, or_false] using hchild

/-! ## References -/

/-- What a conversion writes for the references of a domain: those of the description, the
type of anything and the names of wrappers. -/
inductive Writes (settings : Settings) (source : Domain) : String → Prop where
  | given {reference : Reference} :
    reference ∈ source.references → Writes settings source reference.text
  | anything : Writes settings source anyText
  | made {wrapper : Wrapper} : wrapper ∈ wrappers settings.style source →
    Writes settings source (wrapper.name settings.resultSuffix)

theorem references_definition (declared : Definition) :
    references (definition declared) = declared.references.map (·.text) := by
  rw [definition, Definition.references]
  split
  · simp [references, objectInterface, callableReferences, property, Function.comp_def]
  · rfl

theorem references_wrapper (suffix : String) (wrapper : Wrapper) :
    references (.interface (wrapper.interface suffix)) =
      wrapper.slots.map fun slot => slot.reference.text := by
  simp [references, Wrapper.interface, objectInterface, callableReferences, property,
    Function.comp_def]

theorem references_command (settings : Settings) (command : Command) :
    references (.interface (Separated.command settings command).member) =
      command.parameters.map (fun slot => slot.reference.text) ++
        [wrappedType ((resultWrapper command).interface? settings.resultSuffix)] := by
  simp only [references, Separated.command, Separated.caller, callableReferences,
    signatureReferences, List.map_nil, List.nil_append, List.map_map]
  rfl

theorem references_event (suffix : String) (event : Event) :
    references (.interface (Separated.event event).member) =
      (wrappedParameters ((argsWrapper event).interface? suffix)).map (·.type) ++ [anyText] :=
  rfl

variable {settings : Settings} {source : Domain}

theorem resultWrapper_mem {command : Command} (hcommand : command ∈ source.commands)
    (style : Style) : resultWrapper command ∈ candidates style source := by
  refine List.mem_append_left _ (List.mem_flatMap.mpr ⟨command, hcommand, ?_⟩)
  cases style <;> simp [commandWrappers]

theorem paramsWrapper_mem {command : Command} (hcommand : command ∈ source.commands) :
    paramsWrapper command ∈ candidates .unified source := by
  refine List.mem_append_left _ (List.mem_flatMap.mpr ⟨command, hcommand, ?_⟩)
  simp [commandWrappers]

theorem argsWrapper_mem {event : Event} (hevent : event ∈ source.events) (style : Style) :
    argsWrapper event ∈ candidates style source :=
  List.mem_append_right _ (List.mem_flatMap.mpr ⟨event, hevent, List.mem_cons_self⟩)

/-- A wrapper is made for what a command returns, what a command takes or what an event
brings. -/
theorem candidates_cases {style : Style} {wrapper : Wrapper}
    (hwrapper : wrapper ∈ candidates style source) :
    (∃ command ∈ source.commands, wrapper = resultWrapper command) ∨
      (∃ command ∈ source.commands, wrapper = paramsWrapper command) ∨
      ∃ event ∈ source.events, wrapper = argsWrapper event := by
  rcases List.mem_append.mp hwrapper with hmem | hmem
  · obtain ⟨command, hcommand, hmem⟩ := List.mem_flatMap.mp hmem
    cases style with
    | separated => exact Or.inl ⟨command, hcommand, List.mem_singleton.mp hmem⟩
    | unified =>
      rcases List.mem_cons.mp hmem with heq | hmem
      · exact Or.inr (Or.inl ⟨command, hcommand, heq⟩)
      · exact Or.inl ⟨command, hcommand, List.mem_singleton.mp hmem⟩
  · obtain ⟨event, hevent, hmem⟩ := List.mem_flatMap.mp hmem
    exact Or.inr (Or.inr ⟨event, hevent, List.mem_singleton.mp hmem⟩)

theorem mem_references_of_command {command : Command} (hcommand : command ∈ source.commands)
    {slot : Property} (hslot : slot ∈ command.parameters ++ command.returns) :
    slot.reference ∈ source.references :=
  List.mem_append_left _ (List.mem_append_right _
    (List.mem_flatMap.mpr ⟨command, hcommand, List.mem_map_of_mem hslot⟩))

theorem mem_references_of_event {event : Event} (hevent : event ∈ source.events)
    {slot : Property} (hslot : slot ∈ event.parameters) : slot.reference ∈ source.references :=
  List.mem_append_right _ (List.mem_flatMap.mpr ⟨event, hevent, List.mem_map_of_mem hslot⟩)

theorem mem_references_of_slot {style : Style} {wrapper : Wrapper}
    (hwrapper : wrapper ∈ candidates style source) {slot : Property}
    (hslot : slot ∈ wrapper.slots) : slot.reference ∈ source.references := by
  rcases candidates_cases hwrapper with ⟨command, hcommand, rfl⟩ | ⟨command, hcommand, rfl⟩ |
      ⟨event, hevent, rfl⟩
  · exact mem_references_of_command hcommand (List.mem_append_right _ hslot)
  · exact mem_references_of_command hcommand (List.mem_append_left _ hslot)
  · exact mem_references_of_event hevent hslot

theorem mem_wrappers_iff {style : Style} {wrapper : Wrapper} :
    wrapper ∈ wrappers style source ↔
      wrapper ∈ candidates style source ∧ ¬ wrapper.slots.isEmpty = true := by
  rw [wrappers, List.mem_filter, Bool.not_eq_true', Bool.not_eq_true]

theorem writes_wrappedType {wrapper : Wrapper}
    (hwrapper : wrapper ∈ candidates settings.style source) :
    Writes settings source (wrappedType (wrapper.interface? settings.resultSuffix)) := by
  by_cases hempty : wrapper.slots.isEmpty = true
  · rw [interface?_of_isEmpty hempty]
    exact .anything
  · rw [interface?_of_not_isEmpty hempty]
    exact .made (mem_wrappers_iff.mpr ⟨hwrapper, hempty⟩)

theorem writes_wrappedParameters {wrapper : Wrapper}
    (hwrapper : wrapper ∈ candidates settings.style source) {reference : String}
    (hreference : reference ∈
      (wrappedParameters (wrapper.interface? settings.resultSuffix)).map (·.type)) :
    Writes settings source reference := by
  by_cases hempty : wrapper.slots.isEmpty = true
  · rw [interface?_of_isEmpty hempty] at hreference
    cases hreference
  · rw [interface?_of_not_isEmpty hempty] at hreference
    rw [List.mem_singleton.mp hreference]
    exact .made (mem_wrappers_iff.mpr ⟨hwrapper, hempty⟩)

/-- The references of the methods of the unified style. -/
theorem writes_of_mem_methods (hstyle : settings.style = .unified) {method : Tree.Method}
    (hmethod : method ∈ methods settings source) {reference : String}
    (hreference : reference ∈ methodReferences method) : Writes settings source reference := by
  rw [methodReferences, List.mem_append, List.mem_singleton] at hreference
  rcases List.mem_append.mp hmethod with hmem | hmem
  · obtain ⟨command, hcommand, rfl⟩ := List.mem_map.mp hmem
    rcases hreference with hreference | rfl
    · have hwrapper : paramsWrapper command ∈ candidates settings.style source := by
        rw [hstyle]
        exact paramsWrapper_mem hcommand
      exact writes_wrappedParameters hwrapper hreference
    · exact writes_wrappedType (resultWrapper_mem hcommand _)
  · obtain ⟨event, hevent, rfl⟩ := List.mem_map.mp hmem
    rcases hreference with hreference | rfl
    · exact writes_wrappedParameters (argsWrapper_mem hevent _) hreference
    · exact .anything

theorem mem_surface_iff {declared : Tree.Declaration} :
    declared ∈ surface settings source ↔
      settings.style = .unified ∧ methods settings source ≠ [] ∧
        declared = .interface
          { name := source.name
            comment := "Commands and events belonging to the " ++ source.name ++ " domain."
            callable := .methods (methods settings source) } := by
  rw [surface_eq]
  split
  · rename_i hsome
    rw [List.mem_singleton]
    exact ⟨fun heq => ⟨hsome.1, hsome.2, heq⟩, fun h => h.2.2⟩
  · rename_i hnone
    exact iff_of_false List.not_mem_nil fun h => hnone ⟨h.1, h.2.1⟩

theorem writes_of_mem_types {declared : Tree.Declaration}
    (hdeclared : declared ∈ (domain settings source).types) {reference : String}
    (hreference : reference ∈ references declared) : Writes settings source reference := by
  rw [domain_types, List.mem_append, List.mem_append] at hdeclared
  rcases hdeclared with (hmem | hmem) | hmem
  · -- a type of the domain
    obtain ⟨own, hown, rfl⟩ := List.mem_map.mp hmem
    rw [references_definition] at hreference
    obtain ⟨written, hwritten, rfl⟩ := List.mem_map.mp hreference
    exact .given (List.mem_append_left _ (List.mem_append_left _
      (List.mem_flatMap.mpr ⟨own, hown, hwritten⟩)))
  · -- a wrapper, whose slots are those of a command or an event
    obtain ⟨wrapper, hwrapper, rfl⟩ := List.mem_map.mp hmem
    rw [references_wrapper] at hreference
    obtain ⟨slot, hslot, rfl⟩ := List.mem_map.mp hreference
    exact .given (mem_references_of_slot (mem_wrappers_iff.mp hwrapper).1 hslot)
  · -- the interface of the methods
    obtain ⟨hstyle, -, rfl⟩ := mem_surface_iff.mp hmem
    obtain ⟨method, hmethod, hreference⟩ := List.mem_flatMap.mp hreference
    exact writes_of_mem_methods hstyle hmethod hreference

theorem writes_of_mem_children {child : Tree.Namespace}
    (hchild : child ∈ (domain settings source).namespaces) {declared : Tree.Declaration}
    (hdeclared : declared ∈ child.types) {reference : String}
    (hreference : reference ∈ references declared) : Writes settings source reference := by
  rcases mem_namespaces_domain hchild with rfl | rfl
  · obtain ⟨caller, hcaller, rfl⟩ := List.mem_map.mp hdeclared
    obtain ⟨command, hcommand, rfl⟩ := List.mem_map.mp hcaller
    -- a command takes what it takes as it is, and wraps what it returns
    rw [references_command, List.mem_append] at hreference
    rcases hreference with hparameter | hreturn
    · obtain ⟨slot, hslot, rfl⟩ := List.mem_map.mp hparameter
      exact .given (mem_references_of_command hcommand (List.mem_append_left _ hslot))
    · rw [List.mem_singleton.mp hreturn]
      exact writes_wrappedType (resultWrapper_mem hcommand _)
  · obtain ⟨caller, hcaller, rfl⟩ := List.mem_map.mp hdeclared
    obtain ⟨event, hevent, rfl⟩ := List.mem_map.mp hcaller
    rw [references_event settings.resultSuffix, List.mem_append] at hreference
    rcases hreference with hparameter | hreturn
    · exact writes_wrappedParameters (argsWrapper_mem hevent _) hparameter
    · rw [List.mem_singleton.mp hreturn]
      exact .anything

end Ambient.Convert
