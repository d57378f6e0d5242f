/-
Where the references of a protocol stand.

What a description refers to stands in the namespace of its domain, apart from what a
command takes: in the separated style this is written into the caller of the command, one
namespace further in (`givenSites`). A conversion makes up further references and puts them
into the calls (`madeSites`). These are all that there are, and each stands in the tree
exactly once (`sites_protocol`), whatever the names are and whatever the references mean.

A reference that is made up is the type of anything or the name of a wrapper. The wrapper
is declared in the namespace of the domain, which encloses every call; so it is found,
unless its name is taken apart at a point or loses a marker at its end. Names without
points and opening brackets are enough (`made_references_resolve`). They may clash with
each other and with any other name: whoever declares it, the name is declared.
-/
import Ambient.Proofs.Convert.Clean
import Ambient.Proofs.Convert.Conserved
import Ambient.Proofs.Scope.Sites

set_option autoImplicit false

namespace Ambient.Convert

open Ambient.Naming Ambient.Schema Ambient.Scope

/-! ## Scopes -/

section Scopes

variable (settings : Settings) (root : String) (domains : List Domain) (source : Domain)

/-- The namespace of the commands of a domain in the separated style. -/
def commandsScope : Tree.Namespace :=
  Separated.callers Separated.commandsName "commands" source.name
    (source.commands.map fun command => (Separated.command settings command).member)

/-- The namespace of the events of a domain in the separated style. -/
def eventsScope : Tree.Namespace :=
  Separated.callers Separated.eventsName "events" source.name
    (source.events.map fun event => (Separated.event event).member)

/-- The scopes around the types of a domain. -/
def domainScopes : List Tree.Namespace := [domain settings source, protocol settings root domains]

/-- The scopes around the call of a command. -/
def commandScopes : List Tree.Namespace :=
  match settings.style with
  | .separated => commandsScope settings source :: domainScopes settings root domains source
  | .unified => domainScopes settings root domains source

/-- The scopes around the call of an event. -/
def eventScopes : List Tree.Namespace :=
  match settings.style with
  | .separated => eventsScope source :: domainScopes settings root domains source
  | .unified => domainScopes settings root domains source

theorem domain_mem_commandScopes :
    domain settings source ∈ commandScopes settings root domains source := by
  unfold commandScopes
  split
  · exact List.mem_cons_of_mem _ List.mem_cons_self
  · exact List.mem_cons_self

theorem domain_mem_eventScopes :
    domain settings source ∈ eventScopes settings root domains source := by
  unfold eventScopes
  split
  · exact List.mem_cons_of_mem _ List.mem_cons_self
  · exact List.mem_cons_self

end Scopes

/-! ## What is written and what is made up -/

section Sites

variable (settings : Settings) (root : String) (domains : List Domain) (source : Domain)

/-- Where the references of a command stand: what it takes is part of its call in the
separated style and of a wrapper in the unified one, what it returns is part of a wrapper. -/
def givenOfCommand (command : Command) : List Site :=
  sitesAt (commandScopes settings root domains source) (slotTexts command.parameters) ++
    sitesAt (domainScopes settings root domains source) (slotTexts command.returns)

/-- Where the references of the description of a domain stand. -/
def givenSites : List Site :=
  sitesAt (domainScopes settings root domains source)
      (source.types.flatMap fun declared => declared.references.map (·.text)) ++
    source.commands.flatMap (givenOfCommand settings root domains source) ++
    source.events.flatMap fun event =>
      sitesAt (domainScopes settings root domains source) (slotTexts event.parameters)

/-- The references that are made up for a command: one to what it returns, and in the unified
style one to what it takes. -/
def madeOfCommand (command : Command) : List String :=
  [returnText settings.resultSuffix command] ++
    match settings.style with
    | .separated => []
    | .unified => if command.parameters = [] then [] else [params command.name]

/-- The references that are made up for an event: one to anything, and one to what it
brings. -/
def madeOfEvent (event : Event) : List String :=
  [anyText] ++ if event.parameters = [] then [] else [eventArgs event.name]

/-- Where the references stand that are made up for a domain. -/
def madeSites : List Site :=
  (source.commands.flatMap fun command =>
      sitesAt (commandScopes settings root domains source) (madeOfCommand settings command)) ++
    source.events.flatMap fun event =>
      sitesAt (eventScopes settings root domains source) (madeOfEvent event)

/-- The references of a description stand somewhere, in order. -/
theorem references_givenSites :
    (givenSites settings root domains source).map (·.reference) =
      source.references.map (·.text) := by
  have hsites : ∀ chain references, (sitesAt chain references).map (·.reference) = references := by
    intro chain references
    rw [sitesAt, List.map_map]
    exact List.map_id references
  unfold givenSites givenOfCommand Domain.references
  simp only [List.map_append, List.map_flatMap, hsites, slotTexts, Command.references,
    Event.references, List.map_map]
  rfl

end Sites

/-! ## All sites of a protocol -/

/-- The callers of one kind have the sites of what they refer to. -/
theorem sitesIn_callers (around : List Tree.Namespace) (name kind domain : String)
    (members : List Tree.Interface) :
    sitesIn around (Separated.callers name kind domain members) =
      sitesAt (Separated.callers name kind domain members :: around)
        (members.flatMap fun member => references (.interface member)) := by
  have hchildren : (Separated.callers name kind domain members).namespaces = [] := rfl
  have htypes : (Separated.callers name kind domain members).types = members.map .interface := rfl
  rw [sitesIn_eq, hchildren, htypes, List.flatMap_nil, List.append_nil, List.flatMap_map]

section Everything

variable (settings : Settings) (root : String) (domains : List Domain) (source : Domain)

/-- The sites inside the namespace of a domain: those of its types, of its wrappers and of its
calls. -/
theorem sitesIn_domain :
    sitesIn [protocol settings root domains] (domain settings source) =
      sitesAt (domainScopes settings root domains source)
          ((source.types.flatMap fun declared => declared.references.map (·.text)) ++
            wrappedTexts (wrappers settings.style source)) ++
        (sitesAt (commandScopes settings root domains source)
            (source.commands.flatMap (commandCall settings)) ++
          sitesAt (eventScopes settings root domains source)
            (source.events.flatMap eventCall)) := by
  rw [sitesIn_eq, flatMap_references_types, sitesAt_append, List.append_assoc]
  apply congrArg (sitesAt (domainScopes settings root domains source) _ ++ ·)
  unfold commandScopes eventScopes
  cases hstyle : settings.style with
  | separated =>
    have hchildren : (domain settings source).namespaces =
        [commandsScope settings source, eventsScope source] := by
      unfold domain
      rw [hstyle]
      simp only [Separated.domain, List.map_map]
      rfl
    have hnone : (surface settings source).flatMap references = [] := by
      rw [surface, hstyle]
      rfl
    have hcommands : ∀ around, sitesIn around (commandsScope settings source) =
        sitesAt (commandsScope settings source :: around)
          (source.commands.flatMap (commandCall settings)) := by
      intro around
      rw [commandsScope, sitesIn_callers, List.flatMap_map]
      simp only [references_caller_command hstyle]
    have hevents : ∀ around, sitesIn around (eventsScope source) =
        sitesAt (eventsScope source :: around) (source.events.flatMap eventCall) := by
      intro around
      rw [eventsScope, sitesIn_callers, List.flatMap_map]
      simp only [references_caller_event]
    rw [hchildren, hnone, List.flatMap_cons, List.flatMap_singleton, hcommands, hevents]
    rfl
  | unified =>
    have hchildren : (domain settings source).namespaces = [] := by
      unfold domain
      rw [hstyle]
      rfl
    rw [hchildren, flatMap_references_methods hstyle, List.flatMap_nil, List.append_nil,
      sitesAt_append]
    rfl

/-- The wrappers and the call of a command have the sites of its references, and those of what
is made up for it. -/
theorem commandSites_eq (command : Command) :
    (sitesAt (domainScopes settings root domains source)
          (wrappedTexts (commandWrappers settings.style command)) : Multiset Site) +
        sitesAt (commandScopes settings root domains source) (commandCall settings command) =
      (givenOfCommand settings root domains source command : Multiset Site) +
        (sitesAt (commandScopes settings root domains source) (madeOfCommand settings command) :
          Multiset Site) := by
  unfold givenOfCommand commandScopes commandCall madeOfCommand
  rw [wrappedType_result?]
  cases settings.style with
  | separated =>
    simp only [wrappedTexts, commandWrappers, resultWrapper, List.flatMap_cons, List.flatMap_nil,
      List.append_nil, sitesAt_append, ← Multiset.coe_add]
    abel
  | unified =>
    rw [params?, argumentTexts_wrapper?]
    simp only [wrappedTexts, commandWrappers, paramsWrapper, resultWrapper, List.flatMap_cons,
      List.flatMap_nil, List.append_nil, sitesAt_append, ← Multiset.coe_add]
    abel

/-- The wrapper and the call of an event have the sites of its references, and those of what
is made up for it. -/
theorem eventSites_eq (event : Event) :
    (sitesAt (domainScopes settings root domains source) (wrappedTexts (eventWrappers event)) :
          Multiset Site) +
        sitesAt (eventScopes settings root domains source) (eventCall event) =
      (sitesAt (domainScopes settings root domains source) (slotTexts event.parameters) :
          Multiset Site) +
        (sitesAt (eventScopes settings root domains source) (madeOfEvent event) :
          Multiset Site) := by
  unfold eventCall madeOfEvent
  rw [eventArgs?, argumentTexts_wrapper?]
  simp only [wrappedTexts, eventWrappers, argsWrapper, List.flatMap_cons, List.flatMap_nil,
    List.append_nil, sitesAt_append, ← Multiset.coe_add]
  abel

theorem coe_sitesIn_domain :
    (sitesIn [protocol settings root domains] (domain settings source) : Multiset Site) =
      (givenSites settings root domains source : Multiset Site) +
        (madeSites settings root domains source : Multiset Site) := by
  -- per command and per event, the wrappers and the call come together
  have hcommands := flatMap_add_flatMap (commandSites_eq settings root domains source)
    source.commands
  have hevents := flatMap_add_flatMap (eventSites_eq settings root domains source) source.events
  rw [sitesIn_domain, wrappedTexts_wrappers, givenSites, madeSites]
  simp only [sitesAt_append, sitesAt_flatMap, ← Multiset.coe_add, Multiset.coe_bind] at *
  rw [add_assoc, add_add_add_comm, hcommands, hevents]
  abel

/-- **Where the references of a protocol stand**: those of the descriptions, and those that are
made up, each exactly once. -/
theorem sites_protocol :
    (sites (protocol settings root domains) : Multiset Site) =
      (domains : Multiset Domain).bind fun source =>
        (givenSites settings root domains source : Multiset Site) +
          (madeSites settings root domains source : Multiset Site) := by
  have htypes : (protocol settings root domains).types = [] := rfl
  have hchildren : (protocol settings root domains).namespaces =
      domains.map (domain settings) := rfl
  unfold sites
  rw [sitesIn_eq, htypes, hchildren, List.flatMap_map, List.flatMap_nil]
  show ((domains.flatMap fun source =>
    sitesIn [protocol settings root domains] (domain settings source) : List Site) :
      Multiset Site) = _
  rw [← Multiset.coe_bind]
  exact Multiset.bind_congr fun source _ => coe_sitesIn_domain settings root domains source

/-- The same as a list. -/
theorem perm_sites_protocol :
    (sites (protocol settings root domains)).Perm
      (domains.flatMap fun source =>
        givenSites settings root domains source ++ madeSites settings root domains source) := by
  rw [← Multiset.coe_eq_coe, sites_protocol, ← Multiset.coe_bind]
  exact Multiset.bind_congr fun source _ => Multiset.coe_add _ _

end Everything

/-! ## Names that are looked up as they stand -/

/-- A name that is a single part of a path and has no array marker: it holds no point, and it
opens no bracket. -/
def Simple (name : String) : Prop := '.' ∉ name.toList ∧ '[' ∉ name.toList

instance : DecidablePred Simple := fun _ => inferInstanceAs (Decidable (_ ∧ _))

/-- The texts that names are made from are simple: the names of commands and events, and the
suffix of results. -/
structure SimpleNames (suffix : String) (domains : List Domain) : Prop where
  suffix : Simple suffix
  commands : ∀ source ∈ domains, ∀ command ∈ source.commands, Simple command.name
  events : ∀ source ∈ domains, ∀ event ∈ source.events, Simple event.name

instance (suffix : String) (domains : List Domain) : Decidable (SimpleNames suffix domains) :=
  decidable_of_iff
    (Simple suffix ∧ (∀ source ∈ domains, ∀ command ∈ source.commands, Simple command.name) ∧
      ∀ source ∈ domains, ∀ event ∈ source.events, Simple event.name)
    ⟨fun ⟨h₁, h₂, h₃⟩ => ⟨h₁, h₂, h₃⟩, fun h => ⟨h.1, h.2, h.3⟩⟩

theorem Simple.append {first second : String} (hfirst : Simple first) (hsecond : Simple second) :
    Simple (first ++ second) := by
  unfold Simple at *
  simp [hfirst, hsecond]

theorem Simple.pascal {name : String} (hname : Simple name) : Simple (pascal name) :=
  ⟨notMem_pascal (by decide) (by decide) hname.1, notMem_pascal (by decide) (by decide) hname.2⟩

theorem Simple.made {suffix name : String} (hsuffix : Simple suffix) (hname : Simple name)
    (kind : Kind) : Simple (made suffix kind name) := by
  have hfixed : Simple "Params" ∧ Simple "EventArgs" := by decide
  rw [made_eq]
  apply hname.pascal.append
  cases kind with
  | result => exact hsuffix
  | params => exact hfixed.1
  | eventArgs => exact hfixed.2

/-- A simple name resolves if a scope declares it, whatever else is declared where. -/
theorem Simple.resolves {chain : List Tree.Namespace} {scope : Tree.Namespace} {name : String}
    (hname : Simple name) (hscope : scope ∈ chain) (hdeclares : Declares scope name) :
    Resolves chain name :=
  ⟨name, ⟨⟨0, rfl⟩, not_endsInMarker_of_unopened hname.2⟩, .declared hname.1 hscope hdeclares⟩

/-! ## What is made up resolves -/

section Resolving

variable {settings : Settings} {source : Domain} {chain : List Tree.Namespace}
  (hsuffix : Simple settings.resultSuffix) (hscope : domain settings source ∈ chain)

include hsuffix hscope

/-- The name of a wrapper that is not empty resolves wherever the domain is in sight. -/
theorem resolves_wrapperName {wrapper : Wrapper}
    (hwrapper : wrapper ∈ candidates settings.style source) (hslots : wrapper.slots ≠ [])
    (hmember : Simple wrapper.member) : Resolves chain (wrapper.name settings.resultSuffix) := by
  have hdeclared : wrapper ∈ wrappers settings.style source :=
    mem_wrappers_iff.mpr ⟨hwrapper, fun hempty => hslots (List.isEmpty_iff.mp hempty)⟩
  exact (hsuffix.made hmember wrapper.kind).resolves hscope (declares_wrapper hdeclared)

theorem resolves_madeOfCommand {command : Command} (hcommand : command ∈ source.commands)
    (hname : Simple command.name) :
    ∀ reference ∈ madeOfCommand settings command, Resolves chain reference := by
  unfold madeOfCommand
  rw [List.forall_mem_append, List.forall_mem_singleton]
  constructor
  · unfold returnText
    split
    · exact resolves_of_builtin (by decide)
    · rename_i hreturns
      exact resolves_wrapperName hsuffix hscope (resultWrapper_mem hcommand _) hreturns hname
  · cases hstyle : settings.style with
    | separated => exact List.forall_mem_nil _
    | unified =>
      dsimp only
      split
      · exact List.forall_mem_nil _
      · rename_i hparameters
        have hwrapper : paramsWrapper command ∈ candidates settings.style source := by
          rw [hstyle]
          exact paramsWrapper_mem hcommand
        rw [List.forall_mem_singleton]
        exact resolves_wrapperName hsuffix hscope hwrapper hparameters hname

theorem resolves_madeOfEvent {event : Event} (hevent : event ∈ source.events)
    (hname : Simple event.name) : ∀ reference ∈ madeOfEvent event, Resolves chain reference := by
  unfold madeOfEvent
  rw [List.forall_mem_append, List.forall_mem_singleton]
  constructor
  · exact resolves_of_builtin (by decide)
  · split
    · exact List.forall_mem_nil _
    · rename_i hparameters
      rw [List.forall_mem_singleton]
      exact resolves_wrapperName hsuffix hscope (argsWrapper_mem hevent _) hparameters hname

end Resolving

section Dangling

variable (settings : Settings) (root : String) {domains : List Domain}

theorem resolves_madeSites (hnames : SimpleNames settings.resultSuffix domains)
    {source : Domain} (hsource : source ∈ domains) :
    ∀ site ∈ madeSites settings root domains source, Resolves site.chain site.reference := by
  unfold madeSites
  rw [List.forall_mem_append, List.forall_mem_flatMap, List.forall_mem_flatMap]
  constructor
  · intro command hcommand site hsite
    obtain ⟨reference, hreference, rfl⟩ := List.mem_map.mp hsite
    exact resolves_madeOfCommand hnames.suffix (domain_mem_commandScopes _ _ _ _) hcommand
      (hnames.commands source hsource command hcommand) reference hreference
  · intro event hevent site hsite
    obtain ⟨reference, hreference, rfl⟩ := List.mem_map.mp hsite
    exact resolves_madeOfEvent hnames.suffix (domain_mem_eventScopes _ _ _ _) hevent
      (hnames.events source hsource event hevent) reference hreference

/-- **What a conversion makes up resolves.** The references of a protocol are those of its
descriptions and those that are made up, each where it is looked up from. If names are made
from simple ones, all that are made up resolve, so that what the check reports beside
clashes of names are the references of descriptions that do not resolve where they stand. -/
theorem made_references_resolve (hnames : SimpleNames settings.resultSuffix domains) :
    (sites (protocol settings root domains) : Multiset Site) =
        ((domains : Multiset Domain).bind fun source =>
          (givenSites settings root domains source : Multiset Site) +
            (madeSites settings root domains source : Multiset Site)) ∧
      (∀ source ∈ domains,
        (givenSites settings root domains source).map (·.reference) =
            source.references.map (·.text) ∧
          ∀ site ∈ madeSites settings root domains source,
            Resolves site.chain site.reference) ∧
      ∀ scope name, .dangling scope name ∈ issues (protocol settings root domains) →
        ∃ source ∈ domains, ∃ site ∈ givenSites settings root domains source,
          ¬ Resolves site.chain site.reference ∧ scope = scopeText site.chain ∧
            name = site.reference := by
  have hsites := sites_protocol settings root domains
  refine ⟨hsites, fun source hsource =>
    ⟨references_givenSites settings root domains source,
      resolves_madeSites settings root hnames hsource⟩, ?_⟩
  intro scope name hissue
  -- the issue is about a site that dangles
  have hdangling : Issue.dangling scope name ∈
      ((sites (protocol settings root domains)).filter (·.Dangles)).map (·.issue) := by
    rw [← filter_not_isCollision_issues]
    exact List.mem_filter.mpr ⟨hissue, rfl⟩
  obtain ⟨site, hsite, heq⟩ := List.mem_map.mp hdangling
  obtain ⟨hmem, hdangles⟩ := List.mem_filter.mp hsite
  rw [decide_eq_true_iff] at hdangles
  obtain ⟨hscope, hname⟩ := Issue.dangling.inj heq
  rw [← Multiset.mem_coe, hsites, Multiset.mem_bind] at hmem
  obtain ⟨source, hsource, hmem⟩ := hmem
  -- it was not made up
  rcases Multiset.mem_add.mp hmem with hgiven | hmade
  · exact ⟨source, hsource, site, hgiven, hdangles, hscope.symm, hname.symm⟩
  · exact absurd (resolves_madeSites settings root hnames hsource site hmade) hdangles

/-- Two domains of one name, whose names clash within and with what is made for them. -/
def clashingDomains : List Domain :=
  [{ name := "A.B[]"
     types := [{ id := "", reference := .named "A.B[].Missing" }]
     commands := [{ name := "", parameters := [{ name := "x", reference := .array .blank }],
                    returns := [{ name := "y" }] },
       { name := "", returns := [{ name := "z", reference := .primitive "any" }] }]
     events := [{ name := "]", parameters := [{ name := "w", reference := .named "]EventArgs" }] },
       { name := "ßx" }] },
   { name := "A.B[]", commands := [{ name := "x", returns := [{ name := "" }] }] }]

/-- Every reference that dangles is one of a description. -/
theorem made_references_resolve_clashing :
    SimpleNames "" clashingDomains ∧
      ((issues (protocol { resultSuffix := "" } "R" clashingDomains)).filter
          fun issue => !issue.isCollision) =
        [.dangling "R.A.B[]" "A.B[].Missing", .dangling "R.A.B[]" "undefined",
          .dangling "R.A.B[].Commands" "undefined[]", .dangling "R.A.B[]" "undefined"] ∧
      ∀ source ∈ clashingDomains,
        ∀ site ∈ madeSites { resultSuffix := "" } "R" clashingDomains source,
          Resolves site.chain site.reference := by
  have hnames : SimpleNames "" clashingDomains := by decide
  have hresolve := (made_references_resolve { resultSuffix := "" } "R" hnames).2.1
  exact ⟨hnames, by decide +kernel, fun source hsource => (hresolve source hsource).2⟩

end Dangling

end Ambient.Convert
