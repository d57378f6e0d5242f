/-
What a conversion makes of descriptions.

A description goes into a comment and into nothing else: the tree of a domain without its
comments is made from the domain without its descriptions (`silent_domain_undescribed`).
Everything that is made for a domain beside its own types depends on names, on types and on
whether a list is empty, and none of these is a description.
-/
import Ambient.Proofs.Convert.Wrappers
import Ambient.Proofs.Tree.Silent

set_option autoImplicit false

namespace Ambient.Schema

/-! ## Without descriptions -/

/-- A slot without its description. -/
def Property.undescribed (slot : Property) : Property := { slot with description := "" }

/-- A definition without descriptions. -/
def Definition.undescribed (declared : Definition) : Definition :=
  { declared with
    description := ""
    properties := declared.properties.map (·.undescribed) }

/-- A command without descriptions. -/
def Command.undescribed (command : Command) : Command :=
  { command with
    description := ""
    parameters := command.parameters.map (·.undescribed)
    returns := command.returns.map (·.undescribed) }

/-- An event without descriptions. -/
def Event.undescribed (event : Event) : Event :=
  { event with
    description := ""
    parameters := event.parameters.map (·.undescribed) }

/-- A domain without descriptions. -/
def Domain.undescribed (source : Domain) : Domain :=
  { source with
    description := ""
    types := source.types.map (·.undescribed)
    commands := source.commands.map (·.undescribed)
    events := source.events.map (·.undescribed) }

end Ambient.Schema

namespace Ambient.Convert

open Ambient.Naming Ambient.Schema Ambient.Tree

/-! ## Comments come from descriptions -/

theorem silent_objectInterface_undescribed (name comment remark : String)
    (slots : List Schema.Property) :
    (objectInterface name comment (slots.map (·.undescribed))).silent =
      (objectInterface name remark slots).silent := by
  simp only [objectInterface, Interface.silent, List.map_map]
  rfl

theorem silent_definition_undescribed (declared : Definition) :
    (definition declared.undescribed).silent = (definition declared).silent := by
  have hobject : declared.undescribed.isObject = declared.isObject := rfl
  unfold definition
  rw [hobject]
  split
  · exact congrArg Declaration.interface (silent_objectInterface_undescribed _ _ _ _)
  · rfl

/-- A wrapper without descriptions. -/
def Wrapper.undescribed (wrapper : Wrapper) : Wrapper :=
  { wrapper with slots := wrapper.slots.map (·.undescribed) }

theorem silent_wrapper_undescribed (suffix : String) (wrapper : Wrapper) :
    (wrapper.undescribed.interface suffix).silent = (wrapper.interface suffix).silent :=
  silent_objectInterface_undescribed _ _ _ _

theorem wrappers_undescribed (style : Style) (source : Domain) :
    wrappers style source.undescribed = (wrappers style source).map (·.undescribed) := by
  have hcommands : ∀ command, commandWrappers style (Command.undescribed command) =
      (commandWrappers style command).map (·.undescribed) := by
    intro command
    cases style <;> rfl
  have hcandidates : candidates style source.undescribed =
      (candidates style source).map (·.undescribed) := by
    simp only [candidates, Domain.undescribed, List.flatMap_map, List.map_append,
      List.map_flatMap, hcommands]
    rfl
  -- whether a wrapper is made depends on the number of its slots, which stays the same
  rw [wrappers, wrappers, hcandidates, List.filter_map]
  congr 1
  apply List.filter_congr
  intro wrapper _
  simp [Wrapper.undescribed]

/-! ## Members -/

theorem wrappedType_undescribed (name comment : String) (slots : List Schema.Property) :
    wrappedType (wrapper? name comment (slots.map (·.undescribed))) =
      wrappedType (wrapper? name comment slots) := by
  cases slots <;> rfl

theorem wrappedParameters_undescribed (name comment : String) (slots : List Schema.Property) :
    wrappedParameters (wrapper? name comment (slots.map (·.undescribed))) =
      wrappedParameters (wrapper? name comment slots) := by
  cases slots <;> rfl

theorem silent_separated_command (settings : Settings) (command : Command) :
    (Separated.command settings command.undescribed).member.silent =
      (Separated.command settings command).member.silent := by
  have htype := wrappedType_undescribed (result command.name settings.resultSuffix)
    ("The returned object from " ++ command.name ++ " command") command.returns
  simp only [Separated.command, Separated.caller, result?, Command.undescribed, htype,
    Interface.silent, Callable.silent, Signature.silent, List.map_map]
  rfl

theorem silent_separated_event (event : Event) :
    (Separated.event event.undescribed).member.silent =
      (Separated.event event).member.silent := by
  simp only [Separated.event, Separated.caller, eventArgs?, Event.undescribed,
    wrappedParameters_undescribed, Interface.silent]

theorem silent_unified_command (settings : Settings) (command : Command) :
    (Unified.command settings command.undescribed).member.silent =
      (Unified.command settings command).member.silent := by
  simp only [Unified.command, params?, result?, Command.undescribed, wrappedType_undescribed,
    wrappedParameters_undescribed, Method.silent]

theorem silent_unified_event (event : Event) :
    (Unified.event event.undescribed).member.silent = (Unified.event event).member.silent := by
  simp only [Unified.event, eventArgs?, Event.undescribed, wrappedParameters_undescribed,
    Method.silent]

theorem silent_methods_undescribed (settings : Settings) (source : Domain) :
    (methods settings source.undescribed).map (·.silent) =
      (methods settings source).map (·.silent) := by
  simp only [methods, Domain.undescribed, List.map_append, List.map_map, Function.comp_def,
    silent_unified_command, silent_unified_event]

/-- The interface of methods without comments is made from the methods without comments. -/
theorem silent_surface? {domain : String} {methods others : List Method}
    (h : methods.map (·.silent) = others.map (·.silent)) :
    (declarations [Unified.surface? domain methods]).map (·.silent) =
      (declarations [Unified.surface? domain others]).map (·.silent) := by
  -- without methods there is no interface, and the other list is empty with this one
  cases methods with
  | nil =>
    rw [List.map_nil, eq_comm, List.map_eq_nil_iff] at h
    rw [h]
  | cons method methods =>
    cases others with
    | nil => cases h
    | cons other others =>
      simpa [declarations, Unified.surface?, Declaration.silent, Interface.silent,
        Callable.silent] using h

/-! ## Domains -/

theorem silent_types_undescribed (settings : Settings) (source : Domain) :
    (domain settings source.undescribed).types.map (·.silent) =
      (domain settings source).types.map (·.silent) := by
  have hsurface : (surface settings source.undescribed).map (·.silent) =
      (surface settings source).map (·.silent) := by
    unfold surface
    split
    · rfl
    · exact silent_surface? (silent_methods_undescribed settings source)
  have hwrappers : ∀ wrapper, Declaration.silent
      (.interface (Wrapper.interface settings.resultSuffix (Wrapper.undescribed wrapper))) =
        .silent (.interface (Wrapper.interface settings.resultSuffix wrapper)) :=
    fun wrapper => congrArg Declaration.interface (silent_wrapper_undescribed _ wrapper)
  have htypes : source.undescribed.types = source.types.map (·.undescribed) := rfl
  rw [domain_types, domain_types, wrappers_undescribed, htypes]
  simp only [List.map_append, List.map_map, hsurface, Function.comp_def,
    silent_definition_undescribed, hwrappers]

/-- Callers without comments are the interfaces without comments. -/
theorem silent_callers (name kind domain : String) (members : List Interface) :
    (Separated.callers name kind domain members).silent =
      { name, types := members.map fun member => .interface member.silent } := by
  rw [Namespace.silent_eq]
  simp only [Separated.callers, List.map_map]
  rfl

/-- **The tree without comments is made from the domain without descriptions.** -/
theorem silent_domain_undescribed (settings : Settings) (source : Domain) :
    (domain settings source.undescribed).silent = (domain settings source).silent := by
  have htypes := silent_types_undescribed settings source
  rw [Namespace.silent_eq, Namespace.silent_eq, htypes]
  obtain ⟨style, suffix⟩ := settings
  cases style with
  | unified => rfl
  | separated =>
    simp only [domain, Separated.domain, Domain.undescribed, List.map_cons, List.map_nil,
      silent_callers, List.map_map, Function.comp_def, silent_separated_command,
      silent_separated_event]

end Ambient.Convert
