/-
Descriptions from which a protocol can be made without a clash.

`Domain.references` are the references that a description writes where a conversion reads
them. `Refers` says that such a reference means something, and `Domain.needed` lists the
types that a domain needs beside its own. A domain is well-formed if its names can be told
apart, also from the names of the types that it needs, and a protocol if its domains are
and all of their references mean something.
-/
import Ambient.Proofs.Naming.Made
import Ambient.Schema.Basic

set_option autoImplicit false

namespace Ambient.Schema

open Ambient.Naming

/-! ## References -/

/-- The references of a definition: those of the properties of an object, and the one
that any other definition is an alias of. -/
def Definition.references (declared : Definition) : List Reference :=
  if declared.isObject then declared.properties.map (·.reference) else [declared.reference]

/-- The references of a command: what it takes and what it returns. -/
def Command.references (command : Command) : List Reference :=
  (command.parameters ++ command.returns).map (·.reference)

/-- The references of an event: what it brings. -/
def Event.references (event : Event) : List Reference := event.parameters.map (·.reference)

/-- All references of a domain. -/
def Domain.references (source : Domain) : List Reference :=
  source.types.flatMap (·.references) ++ source.commands.flatMap (·.references) ++
    source.events.flatMap (·.references)

/-- The kinds of primitives that a description may use. -/
def primitives : List String := ["integer", "number", "string", "boolean", "object", "any"]

/-- A shape means something in the domain `source` of a protocol: a primitive, a type of
the domain itself, a type of any of the domains with the name of that domain in front of
it, or an array of such. -/
def Refers (domains : List Domain) (source : Domain) : Shape → Prop
  | .primitive kind => kind ∈ primitives
  | .named target =>
    (∃ declared ∈ source.types, declared.id = target) ∨
      ∃ other ∈ domains, ∃ declared ∈ other.types, other.name ++ "." ++ declared.id = target
  | .array elements => Refers domains source elements
  | .arrayOfUnknown => False
  | .unresolved => False

instance Refers.decidable (domains : List Domain) (source : Domain) :
    DecidablePred (Refers domains source)
  | .primitive _ => inferInstanceAs (Decidable (_ ∈ _))
  | .named _ => inferInstanceAs (Decidable (_ ∨ _))
  | .array elements => decidable domains source elements
  | .arrayOfUnknown => isFalse id
  | .unresolved => isFalse id

/-! ## Names -/

/-- The types that a domain needs for its commands and events: there is something to put
into them. -/
def Domain.needed (source : Domain) : List (Kind × String) :=
  ((source.commands.filter (·.returns ≠ [])).map fun command => (.result, command.name)) ++
    ((source.commands.filter (·.parameters ≠ [])).map fun command => (.params, command.name)) ++
    (source.events.filter (·.parameters ≠ [])).map fun event => (.eventArgs, event.name)

/-- The names of a domain can be told apart, where results have the suffix `suffix`. -/
structure Domain.WellFormed (suffix : String) (source : Domain) : Prop where
  name : Identifier source.name
  ids : ∀ declared ∈ source.types, Identifier declared.id
  commandNames : ∀ command ∈ source.commands, LowerCamel command.name
  eventNames : ∀ event ∈ source.events, LowerCamel event.name
  nodup_ids : (source.types.map (·.id)).Nodup
  nodup_commands : (source.commands.map (·.name)).Nodup
  nodup_events : (source.events.map (·.name)).Nodup
  made_ne_id : ∀ need ∈ source.needed, ∀ declared ∈ source.types,
    made suffix need.1 need.2 ≠ declared.id
  made_ne_name : ∀ need ∈ source.needed, made suffix need.1 need.2 ≠ source.name
  id_ne_name : ∀ declared ∈ source.types, declared.id ≠ source.name

/-- The names of a protocol can be told apart, and every reference means something. -/
structure WellFormed (suffix : String) (domains : List Domain) : Prop where
  each : ∀ source ∈ domains, source.WellFormed suffix
  nodup_names : (domains.map (·.name)).Nodup
  unreserved : ∀ source ∈ domains, source.name ≠ "Commands" ∧ source.name ≠ "Events"
  references : ∀ source ∈ domains, ∀ reference ∈ source.references,
    Refers domains source reference.shape

instance (suffix : String) (source : Domain) : Decidable (source.WellFormed suffix) :=
  decidable_of_iff
    ((Identifier source.name ∧ (∀ declared ∈ source.types, Identifier declared.id) ∧
        (∀ command ∈ source.commands, LowerCamel command.name) ∧
        ∀ event ∈ source.events, LowerCamel event.name) ∧
      ((source.types.map (·.id)).Nodup ∧ (source.commands.map (·.name)).Nodup ∧
        (source.events.map (·.name)).Nodup) ∧
      (∀ need ∈ source.needed, ∀ declared ∈ source.types,
        made suffix need.1 need.2 ≠ declared.id) ∧
      (∀ need ∈ source.needed, made suffix need.1 need.2 ≠ source.name) ∧
      ∀ declared ∈ source.types, declared.id ≠ source.name)
    ⟨fun ⟨⟨h₁, h₂, h₃, h₄⟩, ⟨h₅, h₆, h₇⟩, h₈, h₉, h₁₀⟩ => ⟨h₁, h₂, h₃, h₄, h₅, h₆, h₇, h₈, h₉, h₁₀⟩,
      fun h => ⟨⟨h.1, h.2, h.3, h.4⟩, ⟨h.5, h.6, h.7⟩, h.8, h.9, h.10⟩⟩

instance (suffix : String) (domains : List Domain) : Decidable (WellFormed suffix domains) :=
  decidable_of_iff
    ((∀ source ∈ domains, source.WellFormed suffix) ∧ (domains.map (·.name)).Nodup ∧
      (∀ source ∈ domains, source.name ≠ "Commands" ∧ source.name ≠ "Events") ∧
      ∀ source ∈ domains, ∀ reference ∈ source.references,
        Refers domains source reference.shape)
    ⟨fun ⟨h₁, h₂, h₃, h₄⟩ => ⟨h₁, h₂, h₃, h₄⟩, fun h => ⟨h.1, h.2, h.3, h.4⟩⟩

end Ambient.Schema
