/-
Well-formed descriptions give trees without issues, in both styles.

There are three kinds of scopes in a protocol: the root, the domains and, in the separated
style, the namespaces of callers (`chain_cases`). The names of a domain are distinct since
its wrappers can be told apart (`nodup_wrapperNames`) and nothing else has their names.
What a domain writes resolves wherever it is written: the domain itself is always among
the scopes, and the name of a domain is sought in the root, because no scope below has a
child of that name (`resolves_of_writes`).
-/
import Ambient.Proofs.Convert.Wrappers
import Ambient.Proofs.Scope.Exact

set_option autoImplicit false

namespace Ambient.Convert

open Ambient.Naming Ambient.Schema Ambient.Scope

variable {settings : Settings} {root suffix : String} {domains : List Domain} {source : Domain}

/-! ## Names of wrappers -/

/-- What the name of a wrapper is made from. -/
def Wrapper.origin (wrapper : Wrapper) : Kind × String := (wrapper.kind, wrapper.member)

theorem origin_mem_needed {style : Style} {wrapper : Wrapper}
    (hwrapper : wrapper ∈ wrappers style source) : wrapper.origin ∈ source.needed := by
  obtain ⟨hcandidate, hslots⟩ := mem_wrappers_iff.mp hwrapper
  rw [List.isEmpty_iff] at hslots
  rw [Domain.needed, List.mem_append, List.mem_append]
  rcases candidates_cases hcandidate with ⟨command, hcommand, rfl⟩ | ⟨command, hcommand, rfl⟩ |
      ⟨event, hevent, rfl⟩
  · exact Or.inl (Or.inl (List.mem_map.mpr
      ⟨command, List.mem_filter.mpr ⟨hcommand, decide_eq_true hslots⟩, rfl⟩))
  · exact Or.inl (Or.inr (List.mem_map.mpr
      ⟨command, List.mem_filter.mpr ⟨hcommand, decide_eq_true hslots⟩, rfl⟩))
  · exact Or.inr (List.mem_map.mpr
      ⟨event, List.mem_filter.mpr ⟨hevent, decide_eq_true hslots⟩, rfl⟩)

theorem lowerCamel_member (hsource : source.WellFormed suffix) {style : Style} {wrapper : Wrapper}
    (hwrapper : wrapper ∈ candidates style source) : LowerCamel wrapper.member := by
  rcases candidates_cases hwrapper with ⟨command, hcommand, rfl⟩ | ⟨command, hcommand, rfl⟩ |
      ⟨event, hevent, rfl⟩
  · exact hsource.commandNames command hcommand
  · exact hsource.commandNames command hcommand
  · exact hsource.eventNames event hevent

/-- No two wrappers of a domain are made from the same. -/
theorem nodup_origins (hsource : source.WellFormed suffix) (style : Style) :
    ((candidates style source).map Wrapper.origin).Nodup := by
  have hcommands : ((source.commands.flatMap (commandWrappers style)).map
      Wrapper.origin).Nodup := by
    rw [List.map_flatMap, List.nodup_flatMap]
    constructor
    · intro command _
      cases style <;> simp [commandWrappers, paramsWrapper, resultWrapper, Wrapper.origin]
    · apply (List.pairwise_map.mp hsource.nodup_commands).imp
      intro command other hne
      cases style <;>
        simp [commandWrappers, paramsWrapper, resultWrapper, Wrapper.origin, Function.onFun,
          hne.symm]
  have hevents : ((source.events.flatMap eventWrappers).map Wrapper.origin).Nodup := by
    rw [List.map_flatMap, List.nodup_flatMap]
    constructor
    · intro event _
      exact List.nodup_singleton _
    · apply (List.pairwise_map.mp hsource.nodup_events).imp
      intro event other hne
      simp [eventWrappers, argsWrapper, Wrapper.origin, Function.onFun, hne.symm]
  rw [candidates, List.map_append, List.nodup_append']
  refine ⟨hcommands, hevents, ?_⟩
  -- what is made for an event is of a kind of its own
  intro origin hcommand hevent
  obtain ⟨wrapper, hwrapper, rfl⟩ := List.mem_map.mp hcommand
  obtain ⟨args, hargs, heq⟩ := List.mem_map.mp hevent
  obtain ⟨command, -, hwrapper⟩ := List.mem_flatMap.mp hwrapper
  obtain ⟨event, -, hargs⟩ := List.mem_flatMap.mp hargs
  rw [List.mem_singleton.mp hargs] at heq
  cases style <;>
    simp only [commandWrappers, List.mem_cons, List.not_mem_nil, or_false] at hwrapper
  · rw [hwrapper] at heq
    cases heq
  · rcases hwrapper with rfl | rfl <;> cases heq

/-- Names that are made from different things are different, if the suffix keeps them apart. -/
theorem nodup_wrapperNames (hsafe : SafeSuffix suffix) (hsource : source.WellFormed suffix)
    (style : Style) : ((wrappers style source).map (·.name suffix)).Nodup := by
  -- what the names are made from is distinct, and they give it back
  have horigins : ((wrappers style source).map Wrapper.origin).Nodup :=
    (nodup_origins hsource style).sublist (List.filter_sublist.map _)
  refine List.pairwise_map.mpr
    ((List.pairwise_map.mp horigins).imp_of_mem fun {wrapper other} hwrapper hother hne => ?_)
  intro heq
  obtain ⟨hkind, hmember⟩ := made_inj hsafe
    (lowerCamel_member hsource (mem_wrappers_iff.mp hwrapper).1)
    (lowerCamel_member hsource (mem_wrappers_iff.mp hother).1) heq
  exact hne (Prod.ext hkind hmember)

/-! ## Names of declarations -/

@[simp] theorem name_definition (declared : Definition) :
    (definition declared).name = declared.id := by
  unfold definition
  split <;> rfl

@[simp] theorem name_domain (settings : Settings) (source : Domain) :
    (domain settings source).name = source.name := by
  unfold domain
  split <;> rfl

theorem names_surface (settings : Settings) (source : Domain) :
    (surface settings source).map (·.name) = [] ∨
      (surface settings source).map (·.name) = [source.name] := by
  rw [surface_eq]
  split
  · exact Or.inr rfl
  · exact Or.inl rfl

theorem names_types (settings : Settings) (source : Domain) :
    (domain settings source).types.map (·.name) =
      source.types.map (·.id) ++
        (wrappers settings.style source).map (·.name settings.resultSuffix) ++
        (surface settings source).map (·.name) := by
  rw [domain_types, List.map_append, List.map_append, List.map_map, List.map_map]
  simp only [Function.comp_def, name_definition]
  rfl

/-- No two types of a well-formed domain share a name. -/
theorem nodup_types (hsafe : SafeSuffix settings.resultSuffix)
    (hsource : source.WellFormed settings.resultSuffix) :
    ((domain settings source).types.map (·.name)).Nodup := by
  rw [names_types, List.nodup_append', List.nodup_append']
  -- ids and wrappers are distinct by themselves, which leaves clashes between the parts
  refine ⟨⟨hsource.nodup_ids, nodup_wrapperNames hsafe hsource _, ?_⟩, ?_, ?_⟩
  · intro name hid hmade
    obtain ⟨declared, hdeclared, rfl⟩ := List.mem_map.mp hid
    obtain ⟨wrapper, hwrapper, heq⟩ := List.mem_map.mp hmade
    exact hsource.made_ne_id _ (origin_mem_needed hwrapper) declared hdeclared heq
  · rcases names_surface settings source with hnames | hnames <;> rw [hnames]
    · exact List.nodup_nil
    · exact List.nodup_singleton _
  · intro name hname hsurface
    have hsame : name = source.name := by
      rcases names_surface settings source with hnames | hnames <;> rw [hnames] at hsurface
      · cases hsurface
      · exact List.mem_singleton.mp hsurface
    subst hsame
    rcases List.mem_append.mp hname with hid | hmade
    · obtain ⟨declared, hdeclared, heq⟩ := List.mem_map.mp hid
      exact hsource.id_ne_name declared hdeclared heq
    · obtain ⟨wrapper, hwrapper, heq⟩ := List.mem_map.mp hmade
      exact hsource.made_ne_name _ (origin_mem_needed hwrapper) heq

/-! ## Scopes -/

theorem declares_definition (settings : Settings) {declared : Definition}
    (hdeclared : declared ∈ source.types) : Declares (domain settings source) declared.id := by
  refine ⟨definition declared, ?_, name_definition declared⟩
  rw [domain_types]
  exact List.mem_append_left _ (List.mem_append_left _ (List.mem_map_of_mem hdeclared))

theorem declares_wrapper {wrapper : Wrapper} (hwrapper : wrapper ∈ wrappers settings.style source) :
    Declares (domain settings source) (wrapper.name settings.resultSuffix) :=
  ⟨_, mem_types_of_mem_wrappers settings hwrapper, rfl⟩

/-- The namespaces of callers are called what no domain may be called, and hold no further
namespaces. -/
theorem children_of_domain {child : Tree.Namespace}
    (hchild : child ∈ (domain settings source).namespaces) :
    (child.name = "Commands" ∨ child.name = "Events") ∧ child.namespaces = [] := by
  rcases mem_namespaces_domain hchild with rfl | rfl
  · exact ⟨Or.inl rfl, rfl⟩
  · exact ⟨Or.inr rfl, rfl⟩

/-- A domain has at most two children, whose names are fixed. -/
theorem nodup_children (settings : Settings) (source : Domain) :
    ((domain settings source).namespaces.map (·.name)).Nodup := by
  obtain ⟨style, suffix⟩ := settings
  cases style with
  | unified => exact List.nodup_nil
  | separated =>
    have hnames : ["Commands", "Events"].Nodup := by decide
    exact hnames

/-- Callers have the names of the commands or the events, which are different. -/
theorem nodup_callers (hsource : source.WellFormed suffix) {child : Tree.Namespace}
    (hchild : child ∈ (domain settings source).namespaces) :
    (child.types.map (·.name)).Nodup := by
  rcases mem_namespaces_domain hchild with rfl | rfl
  · simp only [Separated.callers, List.map_map]
    exact hsource.nodup_commands
  · simp only [Separated.callers, List.map_map]
    exact hsource.nodup_events

/-- The scopes of a protocol: its root, its domains, and their namespaces of callers. -/
theorem chain_cases {chain : List Tree.Namespace}
    (hchain : Tree.ChainOf (protocol settings root domains) chain) :
    chain = [protocol settings root domains] ∨
      ∃ source ∈ domains, chain = [domain settings source, protocol settings root domains] ∨
        ∃ child ∈ (domain settings source).namespaces,
          chain = [child, domain settings source, protocol settings root domains] := by
  induction hchain with
  | root => exact Or.inl rfl
  | child _ hchild ih =>
    rcases ih with heq | ⟨source, hsource, heq | ⟨caller, hcaller, heq⟩⟩
    · obtain ⟨rfl, rfl⟩ := List.cons.inj heq
      obtain ⟨source, hsource, rfl⟩ := List.mem_map.mp hchild
      exact Or.inr ⟨source, hsource, Or.inl rfl⟩
    · obtain ⟨rfl, rfl⟩ := List.cons.inj heq
      exact Or.inr ⟨source, hsource, Or.inr ⟨_, hchild, rfl⟩⟩
    · obtain ⟨rfl, rfl⟩ := List.cons.inj heq
      rw [(children_of_domain hcaller).2] at hchild
      cases hchild

/-- In a protocol whose domains have names of their own, a name leads to its domain from
every scope, as long as no child of an inner scope is called the same. -/
theorem heads_domain (hdomains : WellFormed suffix domains) {other : Domain}
    (hother : other ∈ domains) (inner : List Tree.Namespace)
    (hinner : ∀ scope ∈ inner, ∀ sibling ∈ scope.namespaces,
      sibling.name = "Commands" ∨ sibling.name = "Events") :
    Heads (inner ++ [protocol settings root domains]) other.name (domain settings other) := by
  obtain ⟨before, after, hsplit⟩ := List.append_of_mem hother
  have hnames := hdomains.nodup_names
  rw [hsplit, List.map_append, List.nodup_append'] at hnames
  -- the inner scopes have no such child, and the root has it exactly once
  refine ⟨inner, protocol settings root domains, [], rfl, ?_, ?_⟩
  · refine ⟨before.map (domain settings), after.map (domain settings), ?_, name_domain _ _, ?_⟩
    · rw [protocol, hsplit, List.map_append, List.map_cons]
    · intro sibling hsibling heq
      obtain ⟨earlier, hearlier, rfl⟩ := List.mem_map.mp hsibling
      rw [name_domain] at heq
      exact hnames.2.2 (List.mem_map_of_mem hearlier)
        (List.mem_map.mpr ⟨other, List.mem_cons_self, heq.symm⟩)
  · intro scope hscope sibling hsibling heq
    obtain ⟨hcommands, hevents⟩ := hdomains.unreserved other hother
    rcases hinner scope hscope sibling hsibling with hname | hname
    · exact hcommands (heq.symm.trans hname)
    · exact hevents (heq.symm.trans hname)

/-! ## References -/

/-- Of the primitive kinds each is written as a built-in name. -/
theorem text_builtin {kind : String} (hkind : kind ∈ primitives) :
    primitiveText kind ∈ builtins := by
  revert kind
  decide

theorem notMem_of_identifier {name : String} (hname : Identifier name) :
    '.' ∉ name.toList ∧ ']' ∉ name.toList :=
  ⟨hname.notMem (by decide), hname.notMem (by decide)⟩

section Resolving

variable {chain : List Tree.Namespace} (hdomains : WellFormed settings.resultSuffix domains)
  (hscope : domain settings source ∈ chain)
  (hheads : ∀ other ∈ domains, Heads chain other.name (domain settings other))

include hdomains hscope hheads

/-- A shape that means something in a domain is written as a reference that resolves. -/
theorem resolves_of_refers (hsource : source ∈ domains) {shape : Shape}
    (hrefers : Refers domains source shape) : Resolves chain shape.text := by
  induction shape with
  | primitive kind => exact resolves_of_builtin (text_builtin hrefers)
  | array elements ih => exact resolves_append_marker (ih hrefers)
  | arrayOfUnknown => cases hrefers
  | unresolved => cases hrefers
  | named target =>
    rcases hrefers with ⟨declared, hdeclared, rfl⟩ | ⟨other, hother, declared, hdeclared, rfl⟩
    · have hid := notMem_of_identifier ((hdomains.each source hsource).ids _ hdeclared)
      exact resolves_of_declares hid.1 hid.2 hscope (declares_definition settings hdeclared)
    · -- the first part leads to the other domain from wherever the reference stands
      have hwell := hdomains.each other hother
      exact resolves_of_heads (notMem_of_identifier hwell.name)
        (notMem_of_identifier (hwell.ids _ hdeclared)) (hheads other hother)
        (declares_definition settings hdeclared)

/-- Whatever is written into a domain resolves from its types and from its callers. -/
theorem resolves_of_writes (hsuffix : Alphanumeric settings.resultSuffix)
    (hsource : source ∈ domains) {reference : String}
    (hwrites : Writes settings source reference) : Resolves chain reference := by
  cases hwrites with
  | given hreference =>
    exact resolves_of_refers hdomains hscope hheads hsource
      (hdomains.references source hsource _ hreference)
  | anything => exact resolves_of_builtin (by decide)
  | @made wrapper hwrapper =>
    have hmember := lowerCamel_member (hdomains.each source hsource)
      (mem_wrappers_iff.mp hwrapper).1
    have hname := notMem_of_identifier (identifier_made hsuffix hmember.1 wrapper.kind)
    exact resolves_of_declares hname.1 hname.2 hscope (declares_wrapper hwrapper)

end Resolving

/-! ## Protocols -/

/-- A well-formed protocol has no issues, whatever the style and whichever suffix of
letters and digits stands apart from the other ones. -/
theorem issues_protocol_of_safeSuffix (hsuffix : Alphanumeric settings.resultSuffix)
    (hsafe : SafeSuffix settings.resultSuffix)
    (hdomains : WellFormed settings.resultSuffix domains) :
    issues (protocol settings root domains) = [] := by
  rw [issues_eq_nil_iff]
  intro chain hchain
  have hreserved : ∀ source : Domain, ∀ scope ∈ [domain settings source],
      ∀ sibling ∈ scope.namespaces, sibling.name = "Commands" ∨ sibling.name = "Events" := by
    intro source scope hscope sibling hsibling
    rw [List.mem_singleton.mp hscope] at hsibling
    exact (children_of_domain hsibling).1
  rcases chain_cases hchain with rfl | ⟨source, hsource, rfl | ⟨child, hchild, rfl⟩⟩
  · -- the root declares no types
    refine ⟨?_, List.nodup_nil, fun declared hdeclared => by cases hdeclared⟩
    rw [protocol, List.map_map]
    simpa only [Function.comp_def, name_domain] using hdomains.nodup_names
  · refine ⟨nodup_children _ _, nodup_types hsafe (hdomains.each source hsource), ?_⟩
    intro declared hdeclared reference hreference
    refine resolves_of_writes hdomains List.mem_cons_self ?_ hsuffix hsource
      (writes_of_mem_types hdeclared (mem_mentioned_iff.mp hreference))
    intro other hother
    exact heads_domain hdomains hother [domain settings source] (hreserved source)
  · -- the callers see their domain and the root, and have no children of their own
    have hnone := (children_of_domain hchild).2
    refine ⟨by rw [hnone]; exact List.nodup_nil,
      nodup_callers (hdomains.each source hsource) hchild, ?_⟩
    intro declared hdeclared reference hreference
    refine resolves_of_writes hdomains (List.mem_cons_of_mem _ List.mem_cons_self) ?_ hsuffix
      hsource (writes_of_mem_children hchild hdeclared (mem_mentioned_iff.mp hreference))
    intro other hother
    apply heads_domain hdomains hother [child, domain settings source]
    intro scope hscope sibling hsibling
    rcases List.mem_cons.mp hscope with rfl | hscope
    · rw [hnone] at hsibling
      cases hsibling
    · exact hreserved source scope hscope sibling hsibling

/-- **Well-formed protocols are clean in both styles**: with the default suffix no name is
declared twice and every reference resolves, whatever the root is called. -/
theorem issues_protocol_eq_nil (style : Style) (root : String) {domains : List Domain}
    (hdomains : WellFormed "Result" domains) : issues (protocol { style } root domains) = [] := by
  have hsuffix : Alphanumeric "Result" := by decide
  have hsafe : SafeSuffix "Result" := by decide
  exact issues_protocol_of_safeSuffix hsuffix hsafe hdomains

/-- Two domains that refer to each other and to themselves. -/
def sampleDomains : List Domain :=
  [{ name := "DOM"
     types := [{ id := "NodeId", reference := .primitive "integer" },
       { id := "Node"
         reference := .primitive "object"
         properties := [{ name := "children", reference := .array (.named "Node") },
           { name := "frame", reference := .named "Page.Frame" }] }]
     commands := [{ name := "getNode"
                    parameters := [{ name := "id", reference := .named "NodeId" }]
                    returns := [{ name := "node", reference := .named "DOM.Node" }] }]
     events := [{ name := "getNode"
                  parameters := [{ name := "detail", reference := .primitive "any" }] }] },
   { name := "Page"
     types := [{ id := "Frame", reference := .array (.array (.named "DOM.NodeId")) }]
     commands := [{ name := "reload" }] }]

/-- Both styles are clean of two domains whose references go across and through arrays. -/
theorem issues_protocol_sampleDomains :
    WellFormed "Result" sampleDomains ∧
      issues (protocol { style := .separated } "Protocol" sampleDomains) = [] ∧
      issues (protocol { style := .unified } "Protocol" sampleDomains) = [] := by
  have hsample : WellFormed "Result" sampleDomains := by decide
  exact ⟨hsample, issues_protocol_eq_nil .separated "Protocol" hsample,
    issues_protocol_eq_nil .unified "Protocol" hsample⟩

end Ambient.Convert
