/-
Domains whose descriptions fit into the comments that they are written to.

A conversion copies a description into a comment as it is. A description that is written
up to the end of a line must therefore hold no line break, and one that is written behind
a parameter no closing mark. `Domain.Discreet` asks for this, and for names and types that
hold no mark of a comment themselves. It is all that has to be asked of a domain: the tree
of a discreet domain is quiet (`quiet_domain`).

The suffix of results comes from elsewhere. It may be anything but open a comment that
goes on to a closing mark in some description.
-/
import Ambient.Proofs.Convert.Wrappers
import Ambient.Proofs.Layout.Rows
import Ambient.Proofs.Tree.Silent

set_option autoImplicit false

namespace Ambient.Schema

open Ambient.Convert Ambient.Tree

/-! ## The texts of a domain -/

/-- The name and the type of a slot. -/
def Property.texts (slot : Property) : List String := [slot.name, slot.reference.text]

/-- The names and types of a definition. -/
def Definition.texts (declared : Definition) : List String :=
  declared.id :: declared.reference.text :: declared.properties.flatMap (·.texts)

/-- The names and types of a command. -/
def Command.texts (command : Command) : List String :=
  command.name :: (command.parameters ++ command.returns).flatMap (·.texts)

/-- The names and types of an event. -/
def Event.texts (event : Event) : List String :=
  event.name :: event.parameters.flatMap (·.texts)

/-- The names and types of a domain. -/
def Domain.texts (source : Domain) : List String :=
  source.name :: (source.types.flatMap (·.texts) ++ source.commands.flatMap (·.texts) ++
    source.events.flatMap (·.texts))

/-- The descriptions of a definition that are written up to the end of a line. -/
def Definition.remarks (declared : Definition) : List String :=
  declared.description ::
    if declared.isObject then declared.properties.map (·.description) else []

/-- The descriptions of a command that are written up to the end of a line: the parameters
of the separated style are not wrapped. -/
def Command.remarks (style : Style) (command : Command) : List String :=
  command.description ::
    match style with
    | .separated => command.returns.map (·.description)
    | .unified => (command.parameters ++ command.returns).map (·.description)

/-- The descriptions of an event that are written up to the end of a line. -/
def Event.remarks (event : Event) : List String :=
  event.description :: event.parameters.map (·.description)

/-- The descriptions of a domain that are written up to the end of a line. -/
def Domain.remarks (style : Style) (source : Domain) : List String :=
  source.description :: (source.types.flatMap (·.remarks) ++
    source.commands.flatMap (·.remarks style) ++ source.events.flatMap (·.remarks))

/-- The descriptions of a domain that are written up to a closing mark. -/
def Domain.notes (style : Style) (source : Domain) : List String :=
  match style with
  | .separated => source.commands.flatMap fun command => command.parameters.map (·.description)
  | .unified => []

/-- A domain whose descriptions fit into the comments that they are written to, and whose
names and types neither start a comment nor end one. -/
structure Domain.Discreet (style : Style) (source : Domain) : Prop where
  texts : ∀ text ∈ source.texts, Slashless text ∧ OneLine text
  remarks : ∀ remark ∈ source.remarks style, OneLine remark
  notes : ∀ note ∈ source.notes style, Uncut note

instance (style : Style) (source : Domain) : Decidable (source.Discreet style) :=
  decidable_of_iff
    ((∀ text ∈ source.texts, Slashless text ∧ OneLine text) ∧
      (∀ remark ∈ source.remarks style, OneLine remark) ∧ ∀ note ∈ source.notes style, Uncut note)
    ⟨fun ⟨h₁, h₂, h₃⟩ => ⟨h₁, h₂, h₃⟩, fun h => ⟨h.1, h.2, h.3⟩⟩

namespace Domain.Discreet

variable {style : Style} {source : Domain}

theorem definition (hsource : source.Discreet style) {declared : Definition}
    (hdeclared : declared ∈ source.types) :
    (∀ text ∈ declared.texts, Slashless text ∧ OneLine text) ∧
      ∀ remark ∈ declared.remarks, OneLine remark := by
  constructor
  · exact fun text htext => hsource.texts text (List.mem_cons_of_mem _ (List.mem_append_left _
      (List.mem_append_left _ (List.mem_flatMap.mpr ⟨declared, hdeclared, htext⟩))))
  · exact fun remark hremark => hsource.remarks remark (List.mem_cons_of_mem _
      (List.mem_append_left _ (List.mem_append_left _
        (List.mem_flatMap.mpr ⟨declared, hdeclared, hremark⟩))))

theorem command (hsource : source.Discreet style) {command : Command}
    (hcommand : command ∈ source.commands) :
    (∀ text ∈ command.texts, Slashless text ∧ OneLine text) ∧
      ∀ remark ∈ command.remarks style, OneLine remark := by
  constructor
  · exact fun text htext => hsource.texts text (List.mem_cons_of_mem _ (List.mem_append_left _
      (List.mem_append_right _ (List.mem_flatMap.mpr ⟨command, hcommand, htext⟩))))
  · exact fun remark hremark => hsource.remarks remark (List.mem_cons_of_mem _
      (List.mem_append_left _ (List.mem_append_right _
        (List.mem_flatMap.mpr ⟨command, hcommand, hremark⟩))))

theorem event (hsource : source.Discreet style) {event : Event} (hevent : event ∈ source.events) :
    (∀ text ∈ event.texts, Slashless text ∧ OneLine text) ∧
      ∀ remark ∈ event.remarks, OneLine remark := by
  constructor
  · exact fun text htext => hsource.texts text (List.mem_cons_of_mem _ (List.mem_append_right _
      (List.mem_flatMap.mpr ⟨event, hevent, htext⟩)))
  · exact fun remark hremark => hsource.remarks remark (List.mem_cons_of_mem _
      (List.mem_append_right _ (List.mem_flatMap.mpr ⟨event, hevent, hremark⟩)))

end Domain.Discreet

end Ambient.Schema

namespace Ambient.Convert

open Ambient.Layout Ambient.Naming Ambient.Schema Ambient.Text Ambient.Tree

/-! ## Names -/

theorem slashless_pascal {name : String} (hname : Slashless name) : Slashless (pascal name) :=
  notMem_pascal (by decide) (by decide) hname

theorem slashless_params {name : String} (hname : Slashless name) : Slashless (params name) :=
  slashless_append.mpr ⟨slashless_pascal hname, by decide⟩

theorem slashless_eventArgs {name : String} (hname : Slashless name) :
    Slashless (eventArgs name) :=
  slashless_append.mpr ⟨slashless_pascal hname, by decide⟩

theorem unopened_result {name suffix : String} (hname : Slashless name)
    (hsuffix : Unopened suffix) : Unopened (result name suffix) := by
  refine (slashless_pascal hname).unopened.append hsuffix (Or.inl ?_)
  exact fun hlast => slashless_pascal hname (List.mem_of_getLast? hlast)

/-! ## Discreet records give quiet trees -/

theorem quiet_property {slot : Schema.Property}
    (htexts : ∀ text ∈ slot.texts, Slashless text ∧ OneLine text)
    (hdescription : OneLine slot.description) : (property slot).Quiet :=
  ⟨(htexts slot.name (by simp [Property.texts])).1,
    (htexts slot.reference.text (by simp [Property.texts])).1, hdescription⟩

theorem quiet_parameter {slot : Schema.Property}
    (htexts : ∀ text ∈ slot.texts, Slashless text ∧ OneLine text)
    (hdescription : Uncut slot.description) : (parameter slot).Quiet :=
  ⟨(htexts slot.name (by simp [Property.texts])).1,
    (htexts slot.reference.text (by simp [Property.texts])).1, hdescription⟩

theorem quiet_objectInterface {name comment : String} {slots : List Schema.Property}
    (hname : Unopened name) (hcomment : OneLine comment)
    (htexts : ∀ text ∈ slots.flatMap (·.texts), Slashless text ∧ OneLine text)
    (hdescriptions : ∀ description ∈ slots.map (·.description), OneLine description) :
    (objectInterface name comment slots).Quiet := by
  refine ⟨hname, hcomment, ?_, trivial⟩
  intro written hwritten
  obtain ⟨slot, hslot, rfl⟩ := List.mem_map.mp hwritten
  exact quiet_property (fun text htext => htexts text (List.mem_flatMap.mpr ⟨slot, hslot, htext⟩))
    (hdescriptions _ (List.mem_map_of_mem hslot))

theorem quiet_definition {declared : Definition}
    (htexts : ∀ text ∈ declared.texts, Slashless text ∧ OneLine text)
    (hremarks : ∀ remark ∈ declared.remarks, OneLine remark) : (definition declared).Quiet := by
  rw [Definition.texts, List.forall_mem_cons, List.forall_mem_cons] at htexts
  rw [Definition.remarks, List.forall_mem_cons] at hremarks
  unfold definition
  split
  · rename_i hobject
    rw [if_pos hobject] at hremarks
    exact quiet_objectInterface htexts.1.1.unopened hremarks.1 htexts.2.2 hremarks.2
  · exact ⟨htexts.1.1, htexts.2.1.1, hremarks.1⟩

/-- The comment of a wrapper holds the name of its member. -/
theorem oneLine_wrapperComment {wrapper : Wrapper} (hmember : OneLine wrapper.member) :
    OneLine wrapper.comment := by
  unfold Wrapper.comment
  split <;> simp only [oneLine_append] <;> exact ⟨⟨by decide, hmember⟩, by decide⟩

theorem unopened_wrapperName {suffix : String} (hsuffix : Unopened suffix) {wrapper : Wrapper}
    (hmember : Slashless wrapper.member) : Unopened (wrapper.name suffix) := by
  unfold Wrapper.name
  cases wrapper.kind with
  | result => exact unopened_result hmember hsuffix
  | params => exact (slashless_params hmember).unopened
  | eventArgs => exact (slashless_eventArgs hmember).unopened

/-- What a wrapper of a discreet domain is made from. -/
theorem discreet_candidate {style : Style} {source : Domain} (hsource : source.Discreet style)
    {wrapper : Wrapper} (hwrapper : wrapper ∈ candidates style source) :
    (Slashless wrapper.member ∧ OneLine wrapper.member) ∧
      (∀ text ∈ wrapper.slots.flatMap (·.texts), Slashless text ∧ OneLine text) ∧
      ∀ description ∈ wrapper.slots.map (·.description), OneLine description := by
  rcases List.mem_append.mp hwrapper with hmem | hmem
  · obtain ⟨command, hcommand, hmem⟩ := List.mem_flatMap.mp hmem
    obtain ⟨htexts, hremarks⟩ := hsource.command hcommand
    rw [Command.texts, List.forall_mem_cons, List.flatMap_append, List.forall_mem_append] at htexts
    have hdescriptions := (List.forall_mem_cons.mp hremarks).2
    -- what a command takes is wrapped in one of the styles only
    cases style with
    | separated =>
      rw [List.mem_singleton.mp hmem]
      exact ⟨htexts.1, htexts.2.2, hdescriptions⟩
    | unified =>
      simp only [List.map_append, List.forall_mem_append] at hdescriptions
      rcases List.mem_cons.mp hmem with rfl | hmem
      · exact ⟨htexts.1, htexts.2.1, hdescriptions.1⟩
      · rw [List.mem_singleton.mp hmem]
        exact ⟨htexts.1, htexts.2.2, hdescriptions.2⟩
  · obtain ⟨event, hevent, hmem⟩ := List.mem_flatMap.mp hmem
    obtain ⟨htexts, hremarks⟩ := hsource.event hevent
    rw [Event.texts, List.forall_mem_cons] at htexts
    rw [Event.remarks, List.forall_mem_cons] at hremarks
    rw [List.mem_singleton.mp hmem]
    exact ⟨htexts.1, htexts.2, hremarks.2⟩

variable {settings : Settings} {source : Domain}

theorem quiet_wrapper (hsuffix : Unopened settings.resultSuffix)
    (hsource : source.Discreet settings.style) {wrapper : Wrapper}
    (hwrapper : wrapper ∈ candidates settings.style source) :
    (wrapper.interface settings.resultSuffix).Quiet := by
  obtain ⟨hmember, htexts, hdescriptions⟩ := discreet_candidate hsource hwrapper
  exact quiet_objectInterface (unopened_wrapperName hsuffix hmember.1)
    (oneLine_wrapperComment hmember.2) htexts hdescriptions

/-! ## Members of discreet domains -/

theorem oneLine_empty : OneLine "" := by decide

theorem unopened_anyText : Unopened anyText := Slashless.unopened (by decide)

theorem unopened_wrappedType {name : String} (hname : Unopened name) (comment : String)
    (slots : List Schema.Property) : Unopened (wrappedType (wrapper? name comment slots)) := by
  cases slots with
  | nil => exact unopened_anyText
  | cons slot slots => exact hname

theorem quiet_wrappedParameters {name : String} (hname : Slashless name) (comment : String)
    (slots : List Schema.Property) :
    ∀ taken ∈ wrappedParameters (wrapper? name comment slots), taken.Quiet := by
  have hwrapped : (wrappedParameter name).Quiet := by
    have hparams : Slashless "params" ∧ Uncut "" := by decide
    exact ⟨hparams.1, hname, hparams.2⟩
  cases slots with
  | nil =>
    intro taken htaken
    cases htaken
  | cons slot slots =>
    intro taken htaken
    rw [List.mem_singleton.mp htaken]
    exact hwrapped

/-- Methods and handlers never write a parameter of their own: what they take is wrapped. -/
theorem quiet_methods (hsuffix : Unopened settings.resultSuffix)
    (hsource : source.Discreet settings.style) :
    ∀ method ∈ methods settings source, method.Quiet := by
  intro method hmethod
  rcases List.mem_append.mp hmethod with hmem | hmem
  · obtain ⟨command, hcommand, rfl⟩ := List.mem_map.mp hmem
    obtain ⟨htexts, hremarks⟩ := hsource.command hcommand
    have hname := (List.forall_mem_cons.mp htexts).1.1
    have hdescription := (List.forall_mem_cons.mp hremarks).1
    exact ⟨hname, quiet_wrappedParameters (slashless_params hname) _ _,
      unopened_wrappedType (unopened_result hname hsuffix) _ _, hdescription⟩
  · obtain ⟨event, hevent, rfl⟩ := List.mem_map.mp hmem
    obtain ⟨htexts, hremarks⟩ := hsource.event hevent
    have hname := (List.forall_mem_cons.mp htexts).1.1
    have hdescription := (List.forall_mem_cons.mp hremarks).1
    exact ⟨slashless_append.mpr ⟨by decide, slashless_pascal hname⟩,
      quiet_wrappedParameters (slashless_eventArgs hname) _ _, unopened_anyText, hdescription⟩

/-- The caller of a command, whose parameters have their comments between marks. -/
theorem quiet_caller_command (hsuffix : Unopened settings.resultSuffix)
    (hstyle : settings.style = .separated) (hsource : source.Discreet settings.style)
    {command : Command} (hcommand : command ∈ source.commands) :
    (Separated.command settings command).member.Quiet := by
  obtain ⟨htexts, hremarks⟩ := hsource.command hcommand
  rw [Command.texts, List.forall_mem_cons, List.flatMap_append, List.forall_mem_append] at htexts
  -- only in this style the descriptions of parameters are notes
  have hnotes := hsource.notes
  rw [hstyle, Domain.notes, List.forall_mem_flatMap] at hnotes
  refine ⟨htexts.1.1.unopened, (List.forall_mem_cons.mp hremarks).1, ?_, ?_,
    unopened_wrappedType (unopened_result htexts.1.1 hsuffix) _ _, oneLine_empty⟩
  · intro written hwritten
    cases hwritten
  · intro written hwritten
    obtain ⟨slot, hslot, rfl⟩ := List.mem_map.mp hwritten
    exact quiet_parameter
      (fun text htext => htexts.2.1 text (List.mem_flatMap.mpr ⟨slot, hslot, htext⟩))
      (hnotes command hcommand _ (List.mem_map_of_mem hslot))

theorem quiet_caller_event {style : Style} (hsource : source.Discreet style) {event : Event}
    (hevent : event ∈ source.events) : (Separated.event event).member.Quiet := by
  obtain ⟨htexts, hremarks⟩ := hsource.event hevent
  have hname := (List.forall_mem_cons.mp htexts).1.1
  refine ⟨hname.unopened, (List.forall_mem_cons.mp hremarks).1, ?_,
    quiet_wrappedParameters (slashless_eventArgs hname) _ _, unopened_anyText, oneLine_empty⟩
  intro written hwritten
  cases hwritten

/-! ## Domains and protocols -/

theorem quiet_types (hsuffix : Unopened settings.resultSuffix)
    (hsource : source.Discreet settings.style) :
    ∀ declared ∈ (domain settings source).types, declared.Quiet := by
  intro declared hdeclared
  rw [domain_types, List.mem_append, List.mem_append] at hdeclared
  rcases hdeclared with (hmem | hmem) | hmem
  · -- a type of the domain
    obtain ⟨own, hown, rfl⟩ := List.mem_map.mp hmem
    obtain ⟨htexts, hremarks⟩ := hsource.definition hown
    exact quiet_definition htexts hremarks
  · -- a wrapper
    obtain ⟨wrapper, hwrapper, rfl⟩ := List.mem_map.mp hmem
    exact quiet_wrapper hsuffix hsource (mem_wrappers_iff.mp hwrapper).1
  · -- the interface of the methods
    obtain ⟨-, -, rfl⟩ := mem_surface_iff.mp hmem
    have hname := hsource.texts source.name List.mem_cons_self
    refine ⟨hname.1.unopened, ?_, ?_, quiet_methods hsuffix hsource⟩
    · rw [oneLine_append, oneLine_append]
      exact ⟨⟨by decide, hname.2⟩, by decide⟩
    · intro written hwritten
      cases hwritten

theorem quiet_callers {name kind domain : String} (hname : Slashless name) (hkind : OneLine kind)
    (hdomain : OneLine domain) {members : List Interface}
    (hmembers : ∀ member ∈ members, member.Quiet) :
    (Separated.callers name kind domain members).Quiet := by
  refine .intro hname.unopened ?_ (fun child hchild => by cases hchild) ?_
  · simp only [Separated.callers, oneLine_append]
    exact ⟨⟨⟨⟨by decide, hkind⟩, by decide⟩, hdomain⟩, by decide⟩
  · intro declared hdeclared
    obtain ⟨member, hmember, rfl⟩ := List.mem_map.mp hdeclared
    exact hmembers member hmember

/-- **A discreet domain is made into a quiet tree.** -/
theorem quiet_domain (hsuffix : Unopened settings.resultSuffix)
    (hsource : source.Discreet settings.style) : (domain settings source).Quiet := by
  have hname := hsource.texts source.name List.mem_cons_self
  have hdescription := hsource.remarks source.description List.mem_cons_self
  have htypes := quiet_types hsuffix hsource
  have hkinds : OneLine "commands" ∧ OneLine "events" := by decide
  -- the unified style makes no namespaces inside the one of the domain
  cases hstyle : settings.style with
  | unified =>
    rw [domain, hstyle] at htypes ⊢
    exact .intro hname.1.unopened hdescription (fun child hchild => by cases hchild) htypes
  | separated =>
    have hchildren : ∀ child ∈ (domain settings source).namespaces, child.Quiet := by
      intro child hchild
      rcases mem_namespaces_domain hchild with rfl | rfl
      · refine quiet_callers (by decide) hkinds.1 hname.2 ?_
        intro member hmember
        obtain ⟨command, hcommand, rfl⟩ := List.mem_map.mp hmember
        exact quiet_caller_command hsuffix hstyle hsource hcommand
      · refine quiet_callers (by decide) hkinds.2 hname.2 ?_
        intro member hmember
        obtain ⟨event, hevent, rfl⟩ := List.mem_map.mp hmember
        exact quiet_caller_event hsource hevent
    rw [domain, hstyle] at htypes hchildren ⊢
    exact .intro hname.1.unopened hdescription hchildren htypes

end Ambient.Convert
