/-
Which methods of the unified style have the same name.

A command keeps its name, and the handler of an event has the name of the event in pascal
case behind `on`. Commands and events whose names are all different can therefore only clash
in one way: a command has the name of a handler, as `onLoad` has that of the event `load`
(`distinctMethods_iff`). The two are then methods of one interface with the same name, which
the check passes over, since a method is nothing that a namespace declares.
-/
import Ambient.Proofs.Convert.Wrappers
import Ambient.Proofs.Scope.Outline

set_option autoImplicit false

namespace Ambient.Convert

open Ambient.Naming Ambient.Schema Ambient.Scope

/-- The names of the commands and of the events of a domain. -/
def memberNames (source : Domain) : List String :=
  source.commands.map (·.name) ++ source.events.map (·.name)

/-- No interface that a namespace declares has two methods of one name. -/
def DistinctMethods (scope : Tree.Namespace) : Prop :=
  ∀ declared : Tree.Interface, .interface declared ∈ scope.types →
    (declared.methods.map (·.name)).Nodup

/-- No command of a domain has the name of the handler of an event. -/
def HandlersApart (source : Domain) : Prop :=
  ∀ command ∈ source.commands, ∀ event ∈ source.events, command.name ≠ handler event.name

/-! ## The interfaces of a domain -/

/-- The only interface with methods is the one that a domain has for all of them. -/
theorem methods_of_mem_types {settings : Settings} {source : Domain}
    {declared : Tree.Interface}
    (hdeclared : .interface declared ∈ (domain settings source).types) :
    declared.methods = [] ∨ declared.methods = methods settings source := by
  rw [domain_types, List.mem_append, List.mem_append] at hdeclared
  rcases hdeclared with (hmem | hmem) | hmem
  · obtain ⟨own, -, heq⟩ := List.mem_map.mp hmem
    rw [definition] at heq
    split at heq
    · cases heq
      exact .inl rfl
    · cases heq
  · obtain ⟨wrapper, -, heq⟩ := List.mem_map.mp hmem
    cases heq
    exact .inl rfl
  · obtain ⟨-, -, heq⟩ := mem_surface_iff.mp hmem
    cases heq
    exact .inr rfl

theorem distinctMethods_iff_nodup {settings : Settings} (hstyle : settings.style = .unified)
    (source : Domain) :
    DistinctMethods (domain settings source) ↔
      ((methods settings source).map (·.name)).Nodup := by
  constructor
  · intro hdistinct
    by_cases hnone : methods settings source = []
    · rw [hnone]
      exact List.nodup_nil
    · apply hdistinct (methodsInterface settings source)
      rw [domain_types, surface_eq, if_pos ⟨hstyle, hnone⟩]
      exact List.mem_append_right _ List.mem_cons_self
  · intro hnodup declared hdeclared
    rcases methods_of_mem_types hdeclared with hnone | hsome
    · rw [hnone]
      exact List.nodup_nil
    · rwa [hsome]

/-! ## The names of methods -/

theorem names_methods (settings : Settings) (source : Domain) :
    (methods settings source).map (·.name) =
      source.commands.map (·.name) ++ (source.events.map (·.name)).map handler := by
  rw [methods, List.map_append, List.map_map, List.map_map, List.map_map]
  rfl

theorem handler_inj {name other : String} (hname : LowerCamel name) (hother : LowerCamel other)
    (h : handler name = handler other) : name = other := by
  rw [handler, handler, ← String.toList_inj, String.toList_append, String.toList_append,
    List.append_cancel_left_eq, String.toList_inj] at h
  exact pascal_inj hname hother h

theorem nodup_handlers {names : List String} (hlower : ∀ name ∈ names, LowerCamel name)
    (hnodup : names.Nodup) : (names.map handler).Nodup :=
  hnodup.map_on fun _ hname _ hother => handler_inj (hlower _ hname) (hlower _ hother)

/-- **Methods clash in one way only**: where the names of commands and events are in lower
camel case and all different, two methods have the same name exactly if a command has the name
of a handler. The check does not notice, since its issues are those of any tree with the same
outline, whatever the methods are called there. -/
theorem distinctMethods_iff (suffix : String) (source : Domain)
    (hlower : ∀ name ∈ memberNames source, LowerCamel name)
    (hnodup : (memberNames source).Nodup) :
    (DistinctMethods (domain ⟨.unified, suffix⟩ source) ↔ HandlersApart source) ∧
      ∀ tree, outline tree = outline (domain ⟨.unified, suffix⟩ source) →
        issues tree = issues (domain ⟨.unified, suffix⟩ source) := by
  refine ⟨?_, fun tree htree => issues_eq_of_outline_eq htree⟩
  obtain ⟨hcommands, hevents, -⟩ := List.nodup_append'.mp hnodup
  have hhandlers := nodup_handlers
    (fun name hname => hlower name (List.mem_append_right _ hname)) hevents
  rw [distinctMethods_iff_nodup rfl, names_methods, List.nodup_append']
  constructor
  · rintro ⟨-, -, hdisjoint⟩ command hcommand event hevent heq
    apply hdisjoint (List.mem_map_of_mem hcommand)
    rw [heq]
    exact List.mem_map_of_mem (List.mem_map_of_mem hevent)
  · intro hapart
    refine ⟨hcommands, hhandlers, fun name hcommand hhandler => ?_⟩
    obtain ⟨command, hmem, rfl⟩ := List.mem_map.mp hcommand
    rw [List.map_map] at hhandler
    obtain ⟨event, hevent, heq⟩ := List.mem_map.mp hhandler
    exact hapart command hmem event hevent heq.symm

/-- A domain with a command and an event. -/
def loading (command : String) : Domain where
  name := "Page"
  commands := [{ name := command }]
  events := [{ name := "load" }]

/-- A command may be called almost like a handler. -/
theorem distinctMethods_onload :
    (∀ name ∈ memberNames (loading "onload"), LowerCamel name) ∧
      (memberNames (loading "onload")).Nodup ∧
      DistinctMethods (domain ⟨.unified, "Result"⟩ (loading "onload")) := by
  have hlower : ∀ name ∈ memberNames (loading "onload"), LowerCamel name := by decide
  have hnodup : (memberNames (loading "onload")).Nodup := by decide
  have hapart : HandlersApart (loading "onload") := by
    intro command hcommand event hevent
    rw [List.mem_singleton.mp hcommand, List.mem_singleton.mp hevent]
    decide
  exact ⟨hlower, hnodup, (distinctMethods_iff "Result" _ hlower hnodup).1.mpr hapart⟩

/-- Where it is called like the handler, no issue is reported. -/
theorem clash_not_reported :
    (∀ name ∈ memberNames (loading "onLoad"), LowerCamel name) ∧
      (memberNames (loading "onLoad")).Nodup ∧
      ¬ (DistinctMethods (domain ⟨.unified, "Result"⟩ (loading "onLoad")) ∨
        issues (domain ⟨.unified, "Result"⟩ (loading "onLoad")) ≠ []) := by
  have hclean : issues (domain ⟨.unified, "Result"⟩ (loading "onLoad")) = [] := by
    decide +kernel
  refine ⟨by decide, by decide, not_or.mpr ⟨fun hdistinct => ?_, not_not.mpr hclean⟩⟩
  rw [distinctMethods_iff_nodup rfl] at hdistinct
  exact absurd hdistinct (by decide)

end Ambient.Convert
