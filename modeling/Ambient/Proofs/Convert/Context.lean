/-
What the domains of a protocol mean for each other.

The issues of a protocol are the clashes between the names of its domains, and domain by
domain those inside the namespace of the domain (`issues_protocol`). Inside, a domain looks
at its siblings through the root alone, which declares no types and leads to the first
domain of each name (`findNamespace?_protocol`). So further domains can only make
references resolve that did not before (`issues_protocol_append`), and where every domain
has a name of its own their order does not matter (`issues_protocol_perm`).
-/
import Ambient.Proofs.Convert.Clean
import Ambient.Proofs.Scope.Context
import Mathlib.Data.List.Find

set_option autoImplicit false

namespace Ambient.Convert

open Ambient.Schema Ambient.Scope

/-! ## Inside and outside of the domains -/

/-- The issues of a protocol inside the namespace of one of its domains. -/
def issuesOf (settings : Settings) (root : String) (domains : List Domain) (source : Domain) :
    List Issue :=
  issuesIn [protocol settings root domains] (domain settings source)

variable (settings : Settings) (root : String)

theorem scopeText_protocol (domains : List Domain) :
    scopeText [protocol settings root domains] = root :=
  String.intercalate_singleton

/-- The issues of a protocol: clashes between domains, then those inside each domain. -/
theorem issues_protocol (domains : List Domain) :
    issues (protocol settings root domains) =
      (repeated (domains.map (·.name))).map (.collision root) ++
        domains.flatMap (issuesOf settings root domains) := by
  have hnames : (protocol settings root domains).namespaces.map (·.name) =
      domains.map (·.name) := by
    simp only [protocol, List.map_map, Function.comp_def, name_domain]
  have htypes : (protocol settings root domains).types = [] := rfl
  -- the root declares no types of its own, so that it has no more to report
  rw [issues, issuesIn_eq, ownIssues, hnames, htypes, scopeText_protocol]
  simp only [repeated, distinct, List.map_nil, List.flatMap_nil, List.filter_nil,
    List.append_nil]
  rw [protocol, List.flatMap_map]
  rfl

/-- A name leads from the root to the first domain that has it. -/
theorem findNamespace?_protocol (domains : List Domain) (name : String) :
    (protocol settings root domains).findNamespace? name =
      (domains.find? (·.name == name)).map (domain settings) := by
  rw [Tree.Namespace.findNamespace?, protocol, List.find?_map]
  simp only [Function.comp_def, name_domain]

theorem typeless_protocol (domains : List Domain) :
    ∀ scope ∈ [protocol settings root domains], scope.types = [] := by
  intro scope hscope
  rw [List.mem_singleton.mp hscope]
  rfl

/-- A protocol covers another one if each name that leads to a domain there leads to the
same domain here. -/
theorem covers_protocol {domains others : List Domain}
    (hfirst : ∀ name source, domains.find? (·.name == name) = some source →
      others.find? (·.name == name) = some source) :
    Covers [protocol settings root others] [protocol settings root domains] := by
  refine covers_of_extends ?_ fun name child hchild => ?_
  · rintro name ⟨declared, hdeclared, -⟩
    cases hdeclared
  · rw [findNamespace?_protocol] at hchild ⊢
    obtain ⟨source, hsource, rfl⟩ := Option.map_eq_some_iff.mp hchild
    rw [hfirst name source hsource, Option.map_some]

/-- The path of an issue does not tell which domains there are. -/
theorem renames_protocol (domains others : List Domain) :
    Renames id [protocol settings root domains] [protocol settings root others] := by
  intro chain _
  apply scopeText_congr
  rw [List.map_append, List.map_append]
  rfl

/-- Inside a protocol the path of an issue starts at the root. -/
theorem renames_inside_protocol (domains : List Domain) :
    Renames (fun scope => root ++ "." ++ scope) [] [protocol settings root domains] := by
  intro chain hchain
  rw [List.append_nil]
  exact scopeText_append_singleton hchain _

/-! ## Further domains -/

/-- Further domains hide nothing: a name goes on leading to the first domain that has it. -/
theorem covers_protocol_append (domains extra : List Domain) :
    Covers [protocol settings root (domains ++ extra)] [protocol settings root domains] := by
  apply covers_protocol
  intro name source hsource
  rw [List.find?_append, hsource, Option.some_or]

/-- **More context never breaks a reference.** Beside the clashes between domain names, the
issues of a protocol are those inside its domains. Inside a domain, every issue of a protocol
with further domains is one without these, and every one of them is an issue of the domain
by itself. Only references with a point may come to resolve; collisions stay. -/
theorem issues_protocol_append (domains extra : List Domain) :
    (∃ clashes : List Issue,
      issues (protocol settings root domains) =
          clashes ++ domains.flatMap (issuesOf settings root domains) ∧
        (clashes : Multiset Issue) =
          (sharedNames (domains.map (·.name))).map (.collision root)) ∧
      ∀ source ∈ domains,
        let extended := issuesOf settings root (domains ++ extra) source
        let given := issuesOf settings root domains source
        let alone := (issues (domain settings source)).map (·.inside root)
        (extended.Sublist given ∧ given.Sublist alone) ∧
          (extended.filter (·.isCollision) = given.filter (·.isCollision) ∧
            given.filter (·.isCollision) = alone.filter (·.isCollision)) ∧
          ((∀ declared ∈ (domain settings source).declared, ∀ reference ∈ references declared,
              '.' ∉ reference.toList) →
            extended = given ∧ given = alone) := by
  refine ⟨⟨_, issues_protocol settings root domains, ?_⟩, ?_⟩
  · rw [← Multiset.map_coe, coe_repeated]
  intro source _ extended given alone
  have hgiven : given = given.map (·.rescope id) := (rescope_id _).symm
  have hextended := renames_protocol settings root domains (domains ++ extra)
  have hinside := renames_inside_protocol settings root domains
  refine ⟨⟨?_, ?_⟩, ⟨?_, ?_⟩, fun hpoints => ⟨?_, ?_⟩⟩
  · rw [hgiven]
    exact issuesIn_sublist hextended (covers_protocol_append settings root domains extra)
  · exact issuesIn_sublist hinside (covers_nil _)
  · rw [hgiven]
    exact filter_isCollision_issuesIn hextended
  · exact filter_isCollision_issuesIn hinside
  · -- without points, both roots might as well be left out
    rw [hgiven]
    apply issuesIn_eq_of_resolves hextended
    intro chain declared hdeclared reference hreference
    have hpoint := hpoints declared hdeclared reference hreference
    rw [resolves_append_of_typeless (typeless_protocol _ _ _) chain hpoint,
      resolves_append_of_typeless (typeless_protocol _ _ _) chain hpoint]
  · apply issuesIn_eq_of_resolves hinside
    intro chain declared hdeclared reference hreference
    have hpoint := hpoints declared hdeclared reference hreference
    rw [resolves_append_of_typeless (typeless_protocol _ _ _) chain hpoint, List.append_nil]

/-- A domain that refers to two others. -/
def strayPage : Domain where
  name := "Page"
  types := [{ id := "Frame", reference := .array (.named "CSS.Rule") },
    { id := "Root", reference := .named "DOM.Node" }]

/-- Three domains that refer to each other, in part to types that are not there. -/
def strayDomains : List Domain :=
  [{ name := "CSS"
     commands := [{ name := "getStyles"
                    parameters := [{ name := "node", reference := .named "DOM.Missing" }] }] },
   { name := "DOM"
     types := [{ id := "Node", reference := .primitive "string" }] },
   strayPage]

-- one of the two references resolves among the three domains
example :
    issuesOf {} "Protocol" [strayPage] strayPage =
        [.dangling "Protocol.Page" "CSS.Rule[]", .dangling "Protocol.Page" "DOM.Node"] ∧
      issuesOf {} "Protocol" ([strayPage] ++ strayDomains) strayPage =
        [.dangling "Protocol.Page" "CSS.Rule[]"] := by
  decide +kernel

/-! ## The order of domains -/

/-- Where every domain has a name of its own, the root leads to the same domains in any
order. -/
theorem covers_protocol_perm {domains others : List Domain} (hperm : domains.Perm others)
    (hnodup : (domains.map (·.name)).Nodup) :
    Covers [protocol settings root others] [protocol settings root domains] := by
  apply covers_protocol
  intro name source hsource
  have honce : {source | source ∈ domains ∧ (source.name == name) = true}.Subsingleton := by
    rintro source ⟨hsource, hname⟩ other ⟨hother, hname'⟩
    exact List.inj_on_of_nodup_map hnodup hsource hother
      ((beq_iff_eq.mp hname).trans (beq_iff_eq.mp hname').symm)
  rwa [← List.find?_eq_find?_of_perm hperm honce]

theorem issuesOf_perm {domains others : List Domain} (hperm : domains.Perm others)
    (hnodup : (domains.map (·.name)).Nodup) (source : Domain) :
    issuesOf settings root domains source = issuesOf settings root others source := by
  have hcovers := covers_protocol_perm settings root hperm.symm
    ((hperm.map (·.name)).nodup_iff.mp hnodup)
  have hcovered := covers_protocol_perm settings root hperm hnodup
  rw [issuesOf, issuesOf, ← rescope_id (issuesIn [protocol settings root others] _)]
  exact issuesIn_eq_of_resolves (renames_protocol settings root others domains)
    fun chain _ _ reference _ =>
      (hcovers.append chain).resolves_eq (hcovered.append chain) reference

theorem perm_issues_protocol {domains others : List Domain} (hperm : domains.Perm others)
    (hnodup : (domains.map (·.name)).Nodup) :
    (issues (protocol settings root domains)).Perm (issues (protocol settings root others)) := by
  have hclashes : repeated (domains.map (·.name)) = repeated (others.map (·.name)) := by
    rw [repeated_eq_nil_iff.mpr hnodup,
      repeated_eq_nil_iff.mpr ((hperm.map (·.name)).nodup_iff.mp hnodup)]
  rw [issues_protocol, issues_protocol, hclashes]
  refine List.Perm.append_left _ (hperm.flatMap fun source _ => ?_)
  rw [issuesOf_perm settings root hperm hnodup]

/-- Two domains of one name are an issue in any case. -/
theorem nodup_of_issues_protocol {domains : List Domain}
    (h : issues (protocol settings root domains) = []) : (domains.map (·.name)).Nodup := by
  rw [issues_protocol, List.append_eq_nil_iff, List.map_eq_nil_iff] at h
  exact repeated_eq_nil_iff.mp h.1

variable {settings root}

/-- Without issues the names are distinct, so that there are none in any other order. -/
theorem issues_eq_nil_of_perm {domains others : List Domain} (hperm : domains.Perm others)
    (hclean : issues (protocol settings root domains) = []) :
    issues (protocol settings root others) = [] := by
  have hnodup := nodup_of_issues_protocol settings root hclean
  have hissues := perm_issues_protocol settings root hperm hnodup
  rw [hclean] at hissues
  exact hissues.nil_eq.symm

/-- **The verdict does not depend on the order of the domains**, and where every domain has a
name of its own, neither do the issues. -/
theorem issues_protocol_perm {domains others : List Domain} (hperm : domains.Perm others) :
    (issues (protocol settings root domains) = [] ↔
        issues (protocol settings root others) = []) ∧
      ((domains.map (·.name)).Nodup →
        (issues (protocol settings root domains)).Perm
          (issues (protocol settings root others))) := by
  have hverdict : issues (protocol settings root domains) = [] ↔
      issues (protocol settings root others) = [] :=
    ⟨issues_eq_nil_of_perm hperm, issues_eq_nil_of_perm hperm.symm⟩
  exact ⟨hverdict, perm_issues_protocol settings root hperm⟩

/-- In the other order the three domains have the same issues, in the other order. -/
theorem issues_protocol_strayDomains :
    strayDomains.Perm strayDomains.reverse ∧ (strayDomains.map (·.name)).Nodup ∧
      issues (protocol {} "Protocol" strayDomains) =
        [.dangling "Protocol.CSS.Commands" "DOM.Missing", .dangling "Protocol.Page" "CSS.Rule[]"] ∧
      issues (protocol {} "Protocol" strayDomains.reverse) =
        [.dangling "Protocol.Page" "CSS.Rule[]", .dangling "Protocol.CSS.Commands" "DOM.Missing"] ∧
      (issues (protocol {} "Protocol" strayDomains) = [] ↔
        issues (protocol {} "Protocol" strayDomains.reverse) = []) ∧
      (issues (protocol {} "Protocol" strayDomains)).Perm
        (issues (protocol {} "Protocol" strayDomains.reverse)) := by
  have hperm : strayDomains.Perm strayDomains.reverse := (List.reverse_perm _).symm
  have hnodup : (strayDomains.map (·.name)).Nodup := by decide
  obtain ⟨hverdict, hissues⟩ := issues_protocol_perm hperm
  exact ⟨hperm, hnodup, by decide +kernel, by decide +kernel, hverdict, hissues hnodup⟩

end Ambient.Convert
