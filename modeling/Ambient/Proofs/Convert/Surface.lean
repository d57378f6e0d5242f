/-
What both styles say of the same domain.

The separated style has a caller for every command and every event, in namespaces of their
own, and the unified style has a method for each of them, in one interface behind all other
types. `SameCommand` and `SameEvent` say what a caller and a method for the same purpose have
in common, and `SameSurface` that the members of two trees are paired in this way, in the
order of the domain. The styles differ in one place: a signature takes what a command takes
as it is, and a method takes it wrapped, so that the unified style has a wrapper more for
every command that takes something. Nothing here depends on the names of the domain, which
may be empty and repeated.
-/
import Ambient.Proofs.Convert.Wrappers

set_option autoImplicit false

namespace Ambient.Convert

open Ambient.Schema

/-! ## Callers and methods -/

/-- A parameter of a call and a property of an interface are the same slot. -/
structure SameSlot (parameter : Tree.Parameter) (property : Tree.Property) : Prop where
  name : property.name = parameter.name
  type : property.type = parameter.type
  optional : property.optional = parameter.optional
  comment : property.comment = parameter.comment

/-- A caller and a method stand for the same command. The method takes nothing, or all that
the caller takes in one argument, whose type is among `types`. -/
structure SameCommand (types : List Tree.Declaration) (caller : Tree.Interface)
    (signature : Tree.Signature) (method : Tree.Method) : Prop where
  called : caller.callable = .signature signature
  name : method.name = caller.name
  comment : method.comment = caller.comment
  returnType : method.returnType = signature.returnType
  nothing : signature.parameters = [] ↔ method.parameters = []
  wrapped : signature.parameters ≠ [] → ∃ made, .interface made ∈ types ∧
    method.parameters = [{ name := "params", type := made.name }] ∧
    List.Forall₂ SameSlot signature.parameters made.properties

/-- A caller and a method stand for the same event. -/
structure SameEvent (caller : Tree.Interface) (signature : Tree.Signature)
    (method : Tree.Method) : Prop where
  called : caller.callable = .signature signature
  comment : method.comment = caller.comment
  parameters : method.parameters = signature.parameters
  returnType : method.returnType = signature.returnType

/-- For every command and every event there is a caller among `callers` or `handlers` and a
method for the same. The methods come in the order of the domain, commands first. -/
structure SameMembers (source : Domain) (types callers handlers : List Tree.Declaration)
    (methods : List Tree.Method) : Prop where
  length_callers : callers.length = source.commands.length
  length_handlers : handlers.length = source.events.length
  length_methods : methods.length = source.commands.length + source.events.length
  commands : ∀ (i : Nat) (command : Command), source.commands[i]? = some command →
    ∃ caller signature method, callers[i]? = some (.interface caller) ∧
      methods[i]? = some method ∧ caller.name = command.name ∧
      SameCommand types caller signature method
  events : ∀ (j : Nat) (event : Event), source.events[j]? = some event →
    ∃ caller signature method, handlers[j]? = some (.interface caller) ∧
      methods[source.commands.length + j]? = some method ∧ caller.name = event.name ∧
      SameEvent caller signature method

/-- The separated and the unified tree of a domain have the same surface: the types of the
one are among those of the other, and if there is a command or an event, the last type of the
unified tree has a method for every caller of the separated one. -/
structure SameSurface (source : Domain) (separated unified : Tree.Namespace) : Prop where
  types : separated.types.Sublist unified.types
  members : 0 < source.commands.length + source.events.length →
    ∃ last methods commands events, unified.types.getLast? = some (.interface last) ∧
      last.callable = .methods methods ∧
      separated.findNamespace? "Commands" = some commands ∧
      separated.findNamespace? "Events" = some events ∧
      SameMembers source unified.types commands.types events.types methods

variable (suffix : String) (source : Domain)

theorem sameSlot_parameters (slots : List Property) :
    List.Forall₂ SameSlot (slots.map parameter) (slots.map property) := by
  rw [List.forall₂_map_left_iff, List.forall₂_map_right_iff, List.forall₂_same]
  exact fun slot _ => ⟨rfl, rfl, rfl, rfl⟩

variable {source} in
/-- The caller and the method of a command stand for the same. -/
theorem sameCommand {command : Command} (hcommand : command ∈ source.commands) :
    SameCommand (domain ⟨.unified, suffix⟩ source).types
      (Separated.command ⟨.separated, suffix⟩ command).member
      { parameters := command.parameters.map parameter
        returnType := wrappedType ((resultWrapper command).interface? suffix) }
      (Unified.command ⟨.unified, suffix⟩ command).member := by
  have hwrapper := paramsWrapper_mem hcommand
  obtain ⟨name, description, parameters, returns⟩ := command
  refine ⟨rfl, rfl, rfl, rfl, ?_, ?_⟩
  · cases parameters with
    | nil => exact iff_of_true rfl rfl
    | cons slot slots => exact iff_of_false (List.cons_ne_nil _ _) (List.cons_ne_nil _ _)
  · intro hparameters
    cases parameters with
    | nil => exact absurd rfl hparameters
    | cons slot slots =>
      -- the wrapper is not empty, so that it is declared
      have hmade := mem_wrappers_iff.mpr ⟨hwrapper, Bool.false_ne_true⟩
      exact ⟨_, mem_types_of_mem_wrappers ⟨.unified, suffix⟩ hmade, rfl, sameSlot_parameters _⟩

theorem sameEvent (event : Event) :
    SameEvent (Separated.event event).member
      { parameters := wrappedParameters (eventArgs? event), returnType := anyText }
      (Unified.event event).member :=
  ⟨rfl, rfl, rfl, rfl⟩

/-! ## Domains -/

/-- The separated style makes a part of the wrappers of the unified one. -/
theorem wrappers_sublist : (wrappers .separated source).Sublist (wrappers .unified source) := by
  have hcommands : ∀ command ∈ source.commands,
      (commandWrappers .separated command).Sublist (commandWrappers .unified command) :=
    fun command _ => List.sublist_cons_self _ _
  exact ((List.Sublist.flatMap_right _ hcommands).append (List.Sublist.refl _)).filter _

theorem types_sublist :
    (domain ⟨.separated, suffix⟩ source).types.Sublist
      (domain ⟨.unified, suffix⟩ source).types := by
  rw [domain_types, domain_types]
  exact ((List.Sublist.refl _).append ((wrappers_sublist source).map _)).append
    (List.nil_sublist _)

/-- The interface of the methods comes last, if there are methods. -/
theorem getLast?_types {settings : Settings} (hstyle : settings.style = .unified)
    (hmethods : methods settings source ≠ []) :
    (domain settings source).types.getLast? =
      some (.interface (methodsInterface settings source)) := by
  rw [domain_types, surface_eq, if_pos ⟨hstyle, hmethods⟩, List.getLast?_append,
    List.getLast?_singleton, Option.some_or]

theorem sameMembers :
    SameMembers source (domain ⟨.unified, suffix⟩ source).types
      (source.commands.map fun command =>
        .interface (Separated.command ⟨.separated, suffix⟩ command).member)
      (source.events.map fun event => .interface (Separated.event event).member)
      (methods ⟨.unified, suffix⟩ source) := by
  refine ⟨List.length_map _, List.length_map _, ?_, ?_, ?_⟩
  · rw [methods, List.length_append, List.length_map, List.length_map]
  · intro i command hcommand
    refine ⟨_, _, _, ?_, ?_, rfl, sameCommand suffix (List.mem_of_getElem? hcommand)⟩
    · rw [List.getElem?_map, hcommand, Option.map_some]
    · have hlength : i < source.commands.length := (List.getElem?_eq_some_iff.mp hcommand).1
      rw [methods, List.getElem?_append_left (by rwa [List.length_map]), List.getElem?_map,
        hcommand, Option.map_some]
  · intro j event hevent
    refine ⟨_, _, _, ?_, ?_, rfl, sameEvent event⟩
    · rw [List.getElem?_map, hevent, Option.map_some]
    · -- the methods of the events stand behind those of the commands
      rw [methods, List.getElem?_append_right (by rw [List.length_map]; omega), List.length_map,
        Nat.add_sub_cancel_left, List.getElem?_map, hevent, Option.map_some]

/-- **Both styles describe the same surface**, whatever the domain and the suffix of results
are. -/
theorem separated_unified_sameSurface :
    SameSurface source (domain ⟨.separated, suffix⟩ source) (domain ⟨.unified, suffix⟩ source) := by
  refine ⟨types_sublist suffix source, fun hsome => ?_⟩
  have hmembers := sameMembers suffix source
  have hmethods : methods ⟨.unified, suffix⟩ source ≠ [] :=
    List.length_pos_iff.mp (hmembers.length_methods ▸ hsome)
  refine ⟨_, _, _, _, getLast?_types source rfl hmethods, rfl, rfl, rfl, ?_⟩
  simpa only [Separated.callers, List.map_map, Function.comp_def] using hmembers

end Ambient.Convert
