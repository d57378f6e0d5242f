/-
Descriptions do not leak out of comments, as long as they fit into them.

The text of a protocol of discreet domains, apart from comments and white space, does not
depend on the descriptions (`bare_render_protocol_eq`): the trees of the domains are quiet,
so that their comments can be taken away, and without comments they are made from the
domains without descriptions. Where a description does not fit, or something else opens a
comment or adds to the lines that hold only a comment, the text may depend on it
(`descriptions_leak`).
-/
import Ambient.Proofs.Convert.Discreet
import Ambient.Proofs.Convert.Undescribed
import Ambient.Proofs.Layout.Bare

set_option autoImplicit false

namespace Ambient.Convert

open Ambient.Layout Ambient.Schema Ambient.Text Ambient.Tree

variable {settings : Settings}

/-! ## Protocols -/

/-- The front of a protocol is like itself, although the name of the root may break the line
of its comment. -/
theorem alikeLines_rootFront {root : String} (hroot : Unopened root) :
    AlikeLines
      (leadingLines ("Root namespace holding all " ++ root ++ " protocol related interfaces.") ++
        [.flush (namespaceHead true root)])
      (leadingLines ("Root namespace holding all " ++ root ++ " protocol related interfaces.") ++
        [.flush (namespaceHead true root)]) := by
  -- no line of the front is looked at on its own, since the root may hold line breaks
  intro indent hblank
  have hindent : Slashless indent.text := fun hmem => absurd (hblank.text '/' hmem) (by decide)
  have hstart : Unopened (indent.text ++ "//") :=
    hindent.unopened.append (by decide) (Or.inr (by decide))
  have hmiddle : Slashless ("protocol related interfaces.\n" ++ indent.text ++
      "declare namespace") :=
    slashless_append.mpr ⟨slashless_append.mpr ⟨by decide, hindent⟩, by decide⟩
  have hopening : Slashless "Root namespace holding all" := by decide
  have hbrace : Unopened "\x7b" := by decide
  have hfront := hstart.spaced (hopening.unopened.spaced (hroot.spaced
    (hmiddle.unopened.spaced (hroot.spaced hbrace))))
  have hrow := alike_row hfront .plain .plain
  simpa [linesText, rows, row, Line.flush, leadingLines, namespaceHead, Indent.deeper] using hrow

/-- The text of a discreet protocol is that of the protocol whose domains have no comments,
once comments and white space are taken away. -/
theorem bare_render_protocol {indent : Indent} (hblank : indent.Blank) {root : String}
    (hroot : Unopened root) (hsuffix : Unopened settings.resultSuffix) {domains : List Domain}
    (hdomains : ∀ source ∈ domains, source.Discreet settings.style) :
    bare (render indent (protocol settings root domains)) =
      bare (render indent { protocol settings root [] with
        namespaces := domains.map fun source => (domain settings source).silent }) := by
  -- every namespace stands behind an empty line
  have hempty := alike_content (show Unopened "" by decide)
  have hmembers := alikeLines_flatMap fun source hsource =>
    (alikeLines_namespace (quiet_domain hsuffix (hdomains source hsource))).cons hempty
  have hblock := AlikeLines.block (alikeLines_rootFront hroot) hmembers
  rw [bare, bare, toList_render, toList_render, namespaceLines_eq, namespaceLines_eq]
  simp only [protocol, List.flatMap_map, List.flatMap_nil, List.append_nil]
  exact (hblock hblank).bareFrom_eq

/-- **Descriptions do not leak out of comments**: protocols of discreet domains that differ
in nothing but their descriptions have the same text once comments and white space are
taken away. -/
theorem bare_render_protocol_eq (settings : Settings) (root : String) (indent : Indent)
    (domains others : List Domain) (hblank : indent.Blank) (hroot : Unopened root)
    (hsuffix : Unopened settings.resultSuffix)
    (hdomains : ∀ source ∈ domains, source.Discreet settings.style)
    (hothers : ∀ source ∈ others, source.Discreet settings.style)
    (hsame : domains.map (·.undescribed) = others.map (·.undescribed)) :
    bare (render indent (protocol settings root domains)) =
      bare (render indent (protocol settings root others)) := by
  -- without comments, a tree is made from its domain without descriptions
  have hsilent : ∀ sources : List Domain,
      (sources.map fun source => (domain settings source).silent) =
        (sources.map (·.undescribed)).map fun source => (domain settings source).silent := by
    intro sources
    rw [List.map_map]
    exact List.map_congr_left fun source _ => (silent_domain_undescribed settings source).symm
  rw [bare_render_protocol hblank hroot hsuffix hdomains,
    bare_render_protocol hblank hroot hsuffix hothers, hsilent domains, hsilent others,
    hsame]

/-- A domain with three descriptions: its own one, and those of what its command takes and of
what it returns. -/
def described (own taken returned : String) : Domain where
  name := "Page"
  description := own
  commands := [{
    name := "go"
    parameters := [{ name := "url", reference := .primitive "string", description := taken }]
    returns := [{ name := "done", reference := .primitive "boolean", description := returned }] }]

theorem bare_render_described :
    Indent.Blank ⟨1, "\t "⟩ ∧ Unopened "Web//kit" ∧ Unopened "Result" ∧
      (described "All of /* it */." "// where\nto" "*/").Discreet .separated ∧
      (described "" "" "").Discreet .separated ∧
      [described "All of /* it */." "// where\nto" "*/"].map (·.undescribed) =
        [described "" "" ""].map (·.undescribed) ∧
      bare (render ⟨1, "\t "⟩ (protocol { resultSuffix := "Result" } "Web//kit"
          [described "All of /* it */." "// where\nto" "*/"])) =
        bare (render ⟨1, "\t "⟩ (protocol { resultSuffix := "Result" } "Web//kit"
          [described "" "" ""])) := by
  have hblank : Indent.Blank ⟨1, "\t "⟩ := by decide
  have hnames : Unopened "Web//kit" ∧ Unopened "Result" := by decide +kernel
  have hfirst : (described "All of /* it */." "// where\nto" "*/").Discreet .separated := by
    decide +kernel
  have hsecond : (described "" "" "").Discreet .separated := by decide
  exact ⟨hblank, hnames.1, hnames.2, hfirst, hsecond, rfl,
    bare_render_protocol_eq _ _ _ _ _ hblank hnames.1 hnames.2
      (List.forall_mem_singleton.mpr hfirst) (List.forall_mem_singleton.mpr hsecond) rfl⟩

/-- The text of a protocol tells two domains apart that differ in nothing but descriptions,
although their names and types are plain. -/
def Leaks (settings : Settings) (root : String) (indent : Indent) (source other : Domain) :
    Prop :=
  (∀ text ∈ source.texts, PlainType text) ∧ source.undescribed = other.undescribed ∧
    bare (render indent (protocol settings root [source])) ≠
      bare (render indent (protocol settings root [other]))

/-- A leak is seen in the lines of the protocols. -/
theorem leaks_of_lines {settings : Settings} {root : String} {indent : Indent}
    {source other : Domain} (hplain : ∀ text ∈ source.texts, PlainType text)
    (hsame : source.undescribed = other.undescribed)
    (hlines : bareFrom .code (linesText indent (namespaceLines (protocol settings root [source]))) ≠
      bareFrom .code (linesText indent (namespaceLines (protocol settings root [other])))) :
    Leaks settings root indent source other := by
  refine ⟨hplain, hsame, ?_⟩
  rwa [bare, bare, toList_render, toList_render]

/-- Descriptions do leak where one of the conditions is not met: a line break in a remark, a
closing mark in a note, an indentation that is no white space, and the start of a comment in
the name of the root or in the suffix of results. -/
theorem descriptions_leak :
    Leaks {} "Webkit" {} (described "a\nb" "" "") (described "a" "" "") ∧
      Leaks {} "Webkit" {} (described "" "a */ b" "") (described "" "a" "") ∧
      Leaks {} "Webkit" ⟨0, "x"⟩ (described "a" "" "") (described "" "" "") ∧
      Leaks {} "/*" {} (described "*/" "" "") (described "a" "" "") ∧
      Leaks { resultSuffix := "/*" } "Webkit" {} (described "" "" "*/") (described "" "" "a") := by
  have hplain : ∀ own taken returned, ∀ text ∈ (described own taken returned).texts,
      PlainType text := by
    intro own taken returned
    have htexts : (described own taken returned).texts =
        ["Page", "go", "url", "string", "done", "boolean"] := rfl
    rw [htexts]
    decide
  refine ⟨?_, ?_, ?_, ?_, ?_⟩
  · exact leaks_of_lines (hplain _ _ _) rfl (by decide +kernel)
  · exact leaks_of_lines (hplain _ _ _) rfl (by decide +kernel)
  · exact leaks_of_lines (hplain _ _ _) rfl (by decide +kernel)
  · exact leaks_of_lines (hplain _ _ _) rfl (by decide +kernel)
  · exact leaks_of_lines (hplain _ _ _) rfl (by decide +kernel)

end Ambient.Convert
