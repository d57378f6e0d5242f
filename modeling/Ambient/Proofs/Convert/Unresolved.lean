/-
References that stand for nothing are reported, each of them once.

A conversion does not refuse a malformed reference: it writes `undefined` for it, and
passes this on like any other name. As long as no type is called `undefined`, the name
resolves nowhere, wherever it stands and however many array markers follow. So the check
reports it at every site, and as each reference of a description has one site, whatever the
style (`perm_sites_protocol`), there are as many reports as there are such references. None
is about a reference that was made up, since the names that are made end differently.

The number is the same in both styles, but each style has to be free of a type called
`undefined`: a command of that name is a type in the separated style only, and a domain of
that name in the unified style only.
-/
import Ambient.Proofs.Convert.Placement
import Ambient.Proofs.Scope.Arrays

set_option autoImplicit false

namespace Ambient.Schema

/-! ## Malformed references -/

/-- A reference whose innermost elements have neither a kind nor a target, or are arrays of
nothing in particular. -/
def Reference.Malformed (reference : Reference) : Prop :=
  reference.innermost.kind? = some "array" ∨
    (reference.innermost.kind? = none ∨ reference.innermost.kind? = some "") ∧
      reference.innermost.target? = none

end Ambient.Schema

namespace Ambient.Scope

open Ambient.Schema Ambient.Tree

/-! ## The text of a reference that stands for nothing -/

/-- The text of a reference that stands for nothing, or of arrays of such. -/
def Undefined (text : String) : Prop := ∃ count, text = marked unresolvedText count

theorem isTarget_unresolvedText_iff {text : String} :
    IsTarget text unresolvedText ↔ Undefined text :=
  ⟨fun htarget => htarget.1, fun hmarked => ⟨hmarked, not_endsInMarker_of_notMem (by decide)⟩⟩

instance : DecidablePred Undefined := fun _ =>
  decidable_of_iff _ (isTarget_iff.symm.trans isTarget_unresolvedText_iff)

theorem shape_text_of_leaf {kind? target? : Option String} (hkind : kind? = none ∨ kind? = some "")
    (htarget : target? = none) : (Shape.ofLeaf kind? target?).text = unresolvedText := by
  subst htarget
  rcases hkind with rfl | rfl <;> rfl

/-- A malformed reference is written as `undefined`, with a marker for every array. -/
theorem undefined_of_malformed {reference : Reference} (hmalformed : reference.Malformed) :
    Undefined reference.text := by
  rw [← isTarget_unresolvedText_iff, isTarget_iff, text_eq_marked, target_marked,
    Reference.text, Reference.shape_innermost]
  rcases hmalformed with harray | ⟨hkind, htarget⟩
  · rw [if_pos harray]
    decide
  · have hother : reference.innermost.kind? ≠ some "array" := by
      rcases hkind with hkind | hkind <;> rw [hkind] <;> decide
    rw [if_neg hother, shape_text_of_leaf hkind htarget]
    decide

/-- Such a text resolves only where a type is called `undefined`. -/
theorem not_resolves_of_undefined {chain : List Namespace} {text : String}
    (hundefined : Undefined text)
    (hnone : ∀ scope ∈ chain, ¬ Declares scope unresolvedText) : ¬ Resolves chain text := by
  rintro ⟨base, htarget, hresolves⟩
  have hbase : base = unresolvedText :=
    (isTarget_iff.mp htarget).symm.trans
      (isTarget_iff.mp (isTarget_unresolvedText_iff.mpr hundefined))
  rw [hbase, resolvesBase_iff, path_of_notMem (by decide), resolvesPath_single] at hresolves
  rcases hresolves with hbuiltin | ⟨scope, hscope, hdeclares⟩
  · exact absurd hbuiltin (by decide)
  · exact hnone scope hscope hdeclares

theorem getLast?_of_undefined {text : String} (hundefined : Undefined text) :
    text.toList.getLast? = some 'd' ∨ text.toList.getLast? = some ']' := by
  obtain ⟨count, rfl⟩ := hundefined
  cases count with
  | zero => exact Or.inl (by decide)
  | succ count =>
    right
    rw [marked, String.toList_append, toList_arrayMarker, List.getLast?_append]
    rfl

/-! ## Sites of references that stand for nothing -/

/-- Where no type is called `undefined`, all sites of such references dangle. -/
theorem countP_undefined_dangling {root : Namespace}
    (hnone : ∀ declared ∈ root.declared, declared.name ≠ unresolvedText) :
    ((issues root).filterMap (·.danglingName?)).countP (Undefined ·) =
      (sites root).countP (Undefined ·.reference) := by
  rw [filterMap_danglingName?_issues, List.countP_map, List.countP_filter]
  apply List.countP_congr
  intro site hsite
  have hdangles : Undefined site.reference → site.Dangles := by
    intro hundefined
    apply not_resolves_of_undefined hundefined
    rintro scope hscope ⟨declared, hdeclared, hname⟩
    exact hnone declared (mem_declared_of_mem_chain (chainOf_of_mem_sites hsite) hscope hdeclared)
      hname
  simpa using hdangles

end Ambient.Scope

namespace Ambient.Convert

open Ambient.Naming Ambient.Schema Ambient.Scope

/-! ## What is made up stands for something -/

theorem not_undefined_made (kind : Kind) (name : String) :
    ¬ Undefined (made "Result" kind name) := by
  intro hundefined
  -- no ending of a made name has the last character of `undefined` or of a marker
  have hlast := getLast?_of_undefined hundefined
  rw [made_eq, String.toList_append] at hlast
  cases kind <;> simp [Kind.ending] at hlast

theorem not_undefined_anyText : ¬ Undefined anyText := by decide

theorem not_undefined_madeOfCommand (style : Style) (command : Command) :
    ∀ reference ∈ madeOfCommand { style } command, ¬ Undefined reference := by
  unfold madeOfCommand
  rw [List.forall_mem_append, List.forall_mem_singleton]
  constructor
  · unfold returnText
    split
    · exact not_undefined_anyText
    · exact not_undefined_made .result command.name
  · cases style with
    | separated => exact List.forall_mem_nil _
    | unified =>
      dsimp only
      split
      · exact List.forall_mem_nil _
      · exact List.forall_mem_singleton.mpr (not_undefined_made .params command.name)

theorem not_undefined_madeOfEvent (event : Event) :
    ∀ reference ∈ madeOfEvent event, ¬ Undefined reference := by
  unfold madeOfEvent
  rw [List.forall_mem_append, List.forall_mem_singleton]
  constructor
  · exact not_undefined_anyText
  · split
    · exact List.forall_mem_nil _
    · exact List.forall_mem_singleton.mpr (not_undefined_made .eventArgs event.name)

variable (style : Style) (root : String) (domains : List Domain) (source : Domain)

theorem countP_undefined_madeSites :
    (madeSites { style } root domains source).countP (Undefined ·.reference) = 0 := by
  rw [List.countP_eq_zero]
  unfold madeSites
  rw [List.forall_mem_append, List.forall_mem_flatMap, List.forall_mem_flatMap]
  constructor
  · intro command _ site hsite
    obtain ⟨reference, hreference, rfl⟩ := List.mem_map.mp hsite
    simpa using not_undefined_madeOfCommand style command reference hreference
  · intro event _ site hsite
    obtain ⟨reference, hreference, rfl⟩ := List.mem_map.mp hsite
    simpa using not_undefined_madeOfEvent event reference hreference

/-! ## Counting -/

theorem countP_undefined_givenSites :
    (givenSites { style } root domains source).countP (Undefined ·.reference) =
      source.references.countP (Undefined ·.text) := by
  have htexts := congrArg (List.countP (Undefined ·))
    (references_givenSites { style } root domains source)
  simpa only [List.countP_map, Function.comp_def] using htexts

/-- The sites of a protocol where a reference stands for nothing are as many as the references
of its descriptions that do. -/
theorem countP_undefined_sites :
    (sites (protocol { style } root domains)).countP (Undefined ·.reference) =
      (domains.flatMap (·.references)).countP (Undefined ·.text) := by
  rw [(perm_sites_protocol { style } root domains).countP_eq, List.countP_flatMap,
    List.countP_flatMap]
  simp only [Function.comp_def, List.countP_append, countP_undefined_givenSites,
    countP_undefined_madeSites, Nat.add_zero]

/-- How many dangling references are reported of a protocol that stand for nothing. -/
def undefinedCount : Nat :=
  ((issues (protocol { style } root domains)).filterMap (·.danglingName?)).countP (Undefined ·)

variable {style root domains}

/-- **Every malformed reference is reported, once.** Where no type is called `undefined`, the
dangling references that are reported as `undefined` with any number of markers are as many
as the references of the descriptions whose text is that, and every malformed reference is
one of these. So the number is the same in the other style if no type is called `undefined`
there either. -/
theorem undefinedCount_eq
    (hnone : ∀ declared ∈ (protocol { style } root domains).declared,
      declared.name ≠ unresolvedText) :
    undefinedCount style root domains =
        (domains.flatMap (·.references)).countP (fun reference =>
          target reference.text = unresolvedText) ∧
      (∀ reference : Reference, reference.Malformed → target reference.text = unresolvedText) ∧
      ∀ other : Style,
        (∀ declared ∈ (protocol { style := other } root domains).declared,
          declared.name ≠ unresolvedText) →
        undefinedCount other root domains = undefinedCount style root domains := by
  have htarget : ∀ reference : Reference,
      Undefined reference.text ↔ target reference.text = unresolvedText :=
    fun reference => isTarget_unresolvedText_iff.symm.trans isTarget_iff
  -- where no type is called so, every site that stands for nothing dangles, in either style
  have hcount : ∀ other : Style,
      (∀ declared ∈ (protocol { style := other } root domains).declared,
        declared.name ≠ unresolvedText) →
      undefinedCount other root domains =
        (domains.flatMap (·.references)).countP (Undefined ·.text) := by
    intro other hfree
    rw [undefinedCount, countP_undefined_dangling hfree, countP_undefined_sites]
  refine ⟨?_, fun reference hmalformed => (htarget reference).mp
    (undefined_of_malformed hmalformed), fun other hfree => ?_⟩
  · rw [hcount style hnone]
    simp only [htarget]
  · rw [hcount other hfree, hcount style hnone]

/-- A domain with a malformed reference wherever there may be one, and one that is called
`undefined` on purpose. -/
def malformedDomains : List Domain :=
  [{ name := "Page"
     types := [{ id := "Frame" },
       { id := "Node"
         reference := .primitive "object"
         properties := [{ name := "children", reference := .array (.array .blank) },
           { name := "parent", reference := .named "Node" }] }]
     commands := [{ name := "go", parameters := [{ name := "where", reference := .primitive "" }],
                    returns := [{ name := "list", reference := .primitive "array" }] }]
     events := [{ name := "gone", parameters := [{ name := "why", reference := .named "undefined" },
                    { name := "when", reference := .primitive "string" }] }] }]

theorem undefinedCount_malformedDomains :
    (∀ declared ∈ (protocol { style := .separated } "R" malformedDomains).declared,
        declared.name ≠ unresolvedText) ∧
      (∀ declared ∈ (protocol { style := .unified } "R" malformedDomains).declared,
        declared.name ≠ unresolvedText) ∧
      undefinedCount .separated "R" malformedDomains = 5 ∧
      undefinedCount .unified "R" malformedDomains = 5 := by
  have hseparated : ∀ declared ∈ (protocol { style := .separated } "R" malformedDomains).declared,
      declared.name ≠ unresolvedText := by decide
  have hunified : ∀ declared ∈ (protocol { style := .unified } "R" malformedDomains).declared,
      declared.name ≠ unresolvedText := by decide
  obtain ⟨hcount, -, hsame⟩ := undefinedCount_eq hseparated
  have hfive : undefinedCount .separated "R" malformedDomains = 5 := hcount.trans (by decide)
  exact ⟨hseparated, hunified, hfive, (hsame .unified hunified).trans hfive⟩

/-- A command called `undefined` whose parameter stands for nothing. -/
def undefinedCommand : List Domain :=
  [{ name := "Page", commands := [{ name := "undefined", parameters := [{ name := "x" }] }] }]

/-- That the tree of one style is free of a type called `undefined` says nothing of the other
style: the command is a method in the unified style, where the parameter is reported, and a
type in the separated style, where the parameter resolves to it. -/
theorem undefinedCounts_differ :
    ¬ ∀ (style : Style) (root : String) (domains : List Domain),
      (∀ declared ∈ (protocol { style } root domains).declared,
        declared.name ≠ unresolvedText) →
      undefinedCount style root domains =
          (domains.flatMap (·.references)).countP (fun reference =>
            target reference.text = unresolvedText) ∧
        ∀ other : Style, undefinedCount other root domains = undefinedCount style root domains := by
  intro hsame
  have hfree : ∀ declared ∈ (protocol { style := .unified } "Webkit" undefinedCommand).declared,
      declared.name ≠ unresolvedText := by decide
  obtain ⟨hcount, hstyles⟩ := hsame .unified "Webkit" undefinedCommand hfree
  -- the parameter is the one reference of the description that stands for nothing
  have hone : undefinedCount .separated "Webkit" undefinedCommand = 1 :=
    (hstyles .separated).trans (hcount.trans (by decide))
  have hzero : undefinedCount .separated "Webkit" undefinedCommand = 0 := by decide +kernel
  exact absurd (hone.symm.trans hzero) (by decide)

end Ambient.Convert
