/-
What is nested in a tree is written as it is on its own, further in.

The lines of a node do not depend on the indentation, and they are the only ones that make
its text at every indentation (`eq_nodeLines_iff`): an indentation that is wider than any
content shows the depth of every line and where the next line starts. The lines of a
namespace or a declaration some levels inside a tree stand among those of the tree as one
block, moved in by these levels and behind a line without content (`Nested.isInfix`),
whatever its siblings are and however deep they go.
-/
import Ambient.Proofs.Layout.Rows

set_option autoImplicit false

namespace Ambient.Layout

open Ambient.Tree

/-! ## The text of lines -/

/-- A line as it stands in the text of a node at an indentation. -/
def Line.text (indent : Indent) (line : Line) : String :=
  Indent.repeated indent.unit (indent.level + line.depth) ++ line.content ++ "\n"

theorem join_writeLines (indent : Indent) (lines : List Line) :
    String.join (writeLines indent lines) = String.join (lines.map (Line.text indent)) := by
  rw [← String.toList_inj, String.toList_join, String.toList_join, writeLines,
    List.flatMap_assoc, List.flatMap_map]
  apply List.flatMap_congr
  intro line _
  simp [writeLine, Line.text, Indent.text, Indent.deeper]

theorem renderNode_eq (indent : Indent) (node : Node) :
    renderNode indent node = String.join ((nodeLines node).map (Line.text indent)) := by
  rw [renderNode, writeNode_eq_lines, join_writeLines]

/-! ## Wide indentations -/

/-- One level of `width` spaces. -/
def wide (width : Nat) : Indent := (Indent.spaces width).deeper 1

/-- The characters of lines at a wide indentation. -/
def wideText (width : Nat) (lines : List Line) : List Char :=
  (rows (wide width) lines).flatMap fun row => row ++ ['\n']

theorem toList_repeated (text : String) (count : Nat) :
    (Indent.repeated text count).toList = (List.replicate count text.toList).flatten := by
  induction count with
  | zero => rfl
  | succ count ih => rw [Indent.repeated, String.toList_append, ih]; rfl

theorem toList_text_wide (width depth : Nat) :
    ((wide width).deeper depth).text.toList = List.replicate ((depth + 1) * width) ' ' := by
  have hunit : (Indent.repeated " " width).toList = List.replicate width ' ' := by
    rw [toList_repeated]
    exact List.flatten_replicate_singleton
  rw [wide, deeper_deeper, Indent.text, Indent.deeper, Indent.spaces, toList_repeated, hunit,
    List.flatten_replicate_replicate, Nat.zero_add]

theorem wideText_cons (width : Nat) (line : Line) (lines : List Line) :
    wideText width (line :: lines) = List.replicate ((line.depth + 1) * width) ' ' ++
      (line.content.toList ++ '\n' :: wideText width lines) := by
  rw [wideText, rows, List.map_cons, List.flatMap_cons, row, toList_text_wide]
  simp only [List.append_assoc, List.singleton_append]
  rfl

/-- A text that starts with spaces has its first line break behind them. -/
theorem le_of_append_break {front rest other : List Char} {count : Nat}
    (h : front ++ '\n' :: rest = List.replicate count ' ' ++ other) : count ≤ front.length := by
  by_contra hlt
  rw [Nat.not_le] at hlt
  have hbreak : (front ++ '\n' :: rest)[front.length]? = some '\n' := by simp
  rw [h, List.getElem?_append_left (by rwa [List.length_replicate]),
    List.getElem?_replicate_of_lt hlt] at hbreak
  exact absurd hbreak (by decide)

/-- Where lines are wider than any content, the first line is not deeper than that of other
lines with the same text. -/
theorem depth_le_of_wideText_eq {width : Nat} {line other : Line} {lines others : List Line}
    (hline : line.content.toList.length < width)
    (h : wideText width (line :: lines) = wideText width (other :: others)) :
    other.depth ≤ line.depth := by
  by_contra hlt
  rw [Nat.not_le] at hlt
  obtain ⟨more, hmore⟩ := Nat.exists_eq_add_of_lt hlt
  have hwidth : (other.depth + 1) * width = (line.depth + 1) * width + (more + 1) * width := by
    rw [hmore, ← Nat.add_mul]
    congr 1
    omega
  rw [wideText_cons, wideText_cons, hwidth, ← List.replicate_append_replicate,
    List.append_assoc, List.append_cancel_left_eq] at h
  -- the other line would still be indented where this one breaks
  have hle := le_of_append_break h
  have hlevel : width ≤ (more + 1) * width := Nat.le_mul_of_pos_left width (Nat.succ_pos more)
  omega

/-- A content of such a line does not go on behind its line break. -/
theorem content_eq_of_append_eq {width : Nat} {content other : List Char}
    {lines others : List Line} (hother : other.length < width)
    (h : content ++ '\n' :: wideText width lines = other ++ '\n' :: wideText width others)
    (hle : content.length ≤ other.length) : content = other := by
  have hcontent : content <+: other ++ '\n' :: wideText width others :=
    ⟨'\n' :: wideText width lines, h⟩
  obtain ⟨more, rfl⟩ := List.prefix_of_prefix_length_le hcontent (List.prefix_append _ _) hle
  cases more with
  | nil => exact (List.append_nil content).symm
  | cons c more =>
    rw [List.append_assoc, List.append_cancel_left_eq, List.cons_append, List.cons.injEq] at h
    cases lines with
    | nil => exact absurd h.2 (List.append_ne_nil_of_right_ne_nil _ (List.cons_ne_nil _ _)).symm
    | cons line lines =>
      -- what follows is a line, and would be indented
      rw [wideText_cons] at h
      have hindented := le_of_append_break h.2.symm
      have hlevel : width ≤ (line.depth + 1) * width :=
        Nat.le_mul_of_pos_left width (Nat.succ_pos _)
      rw [List.length_append, List.length_cons] at hother
      omega

/-- At an indentation that is wider than any content, the text gives the lines. -/
theorem wideText_inj {width : Nat} {lines others : List Line}
    (hlines : ∀ line ∈ lines, line.content.toList.length < width)
    (hothers : ∀ line ∈ others, line.content.toList.length < width)
    (h : wideText width lines = wideText width others) : lines = others := by
  induction lines generalizing others with
  | nil =>
    cases others with
    | nil => rfl
    | cons other others =>
      rw [wideText_cons] at h
      simp [wideText, rows] at h
  | cons line lines ih =>
    cases others with
    | nil =>
      rw [wideText_cons] at h
      simp [wideText, rows] at h
    | cons other others =>
      rw [List.forall_mem_cons] at hlines hothers
      have hdepth : line.depth = other.depth :=
        Nat.le_antisymm (depth_le_of_wideText_eq hothers.1 h.symm)
          (depth_le_of_wideText_eq hlines.1 h)
      rw [wideText_cons, wideText_cons, hdepth, List.append_cancel_left_eq] at h
      have hcontent : line.content.toList = other.content.toList := by
        rcases Nat.le_total line.content.toList.length other.content.toList.length with hle | hle
        · exact content_eq_of_append_eq hothers.1 h hle
        · exact (content_eq_of_append_eq hlines.1 h.symm hle).symm
      rw [hcontent, List.append_cancel_left_eq, List.cons.injEq] at h
      obtain ⟨depth, content⟩ := line
      obtain ⟨otherDepth, otherContent⟩ := other
      obtain rfl : depth = otherDepth := hdepth
      obtain rfl : content = otherContent := String.toList_inj.mp hcontent
      rw [ih hlines.2 hothers.2 h.2]

theorem exists_wider (lines : List Line) :
    ∃ width, ∀ line ∈ lines, line.content.toList.length < width := by
  induction lines with
  | nil => exact ⟨0, fun line hline => nomatch hline⟩
  | cons line lines ih =>
    obtain ⟨width, hwidth⟩ := ih
    refine ⟨max width (line.content.toList.length + 1), List.forall_mem_cons.mpr ⟨?_, ?_⟩⟩
    · omega
    · intro other hother
      have hless := hwidth other hother
      omega

theorem toList_join_wide (width : Nat) (lines : List Line) :
    (String.join (lines.map (Line.text (wide width)))).toList = wideText width lines := by
  rw [← join_writeLines, toList_join_writeLines, wideText]

/-- Lines are what their text is at every indentation. -/
theorem eq_of_join_text_eq {lines others : List Line}
    (h : ∀ indent, String.join (lines.map (Line.text indent)) =
      String.join (others.map (Line.text indent))) : lines = others := by
  obtain ⟨width, hwidth⟩ := exists_wider (lines ++ others)
  have htext : wideText width lines = wideText width others := by
    rw [← toList_join_wide, ← toList_join_wide, h]
  exact wideText_inj (fun line hline => hwidth line (List.mem_append_left _ hline))
    (fun line hline => hwidth line (List.mem_append_right _ hline)) htext

/-- **The lines of a node** are those that make its text at every indentation. -/
theorem eq_nodeLines_iff {node : Node} {lines : List Line} :
    (∀ indent, renderNode indent node = String.join (lines.map (Line.text indent))) ↔
      lines = nodeLines node := by
  constructor
  · intro hlines
    apply eq_of_join_text_eq
    intro indent
    rw [← hlines indent, renderNode_eq]
  · rintro rfl indent
    exact renderNode_eq indent node

/-! ## Nested nodes -/

/-- A declared type as a node of its own. -/
def nodeOf : Declaration → Node
  | .interface declared => .interface declared
  | .typedef declared => .typedef declared

theorem nodeLines_nodeOf (declared : Declaration) :
    nodeLines (nodeOf declared) = declarationLines declared := by
  cases declared <;> rfl

/-- A namespace or a declared type is inside a tree, the given number of namespaces deep. -/
inductive Nested : Namespace → Nat → Node → Prop where
  | child {scope child : Namespace} : child ∈ scope.namespaces → Nested scope 1 (.scope child)
  | declared {scope : Namespace} {declared : Declaration} :
    declared ∈ scope.types → Nested scope 1 (nodeOf declared)
  | deeper {scope child : Namespace} {depth : Nat} {node : Node} :
    child ∈ scope.namespaces → Nested child depth node → Nested scope (depth + 1) node

/-- The lines of what is nested `depth` namespaces deep, where they stand in the tree: moved
in, behind a line without content. -/
def nestedLines (depth : Nat) (node : Node) : List Line :=
  ⟨depth, ""⟩ :: (nodeLines node).map (.deeper depth)

theorem nestedLines_succ (depth : Nat) (node : Node) :
    nestedLines (depth + 1) node = (nestedLines depth node).map (.deeper 1) := by
  rw [nestedLines, nestedLines, List.map_cons, List.map_map]
  rfl

theorem nestedLines_zero (node : Node) : nestedLines 0 node = .flush "" :: nodeLines node := by
  have hsame : Line.deeper 0 = id := rfl
  rw [nestedLines, hsame, List.map_id]
  rfl

/-- The lines of a member are a block of the lines of all members. -/
theorem isInfix_flatMap {α : Type} {member : α} {members : List α} (hmember : member ∈ members)
    (lines : α → List Line) : lines member <:+: members.flatMap lines := by
  rw [List.flatMap_def]
  exact List.infix_of_mem_flatten (List.mem_map_of_mem hmember)

/-- A block among the members of a namespace is among its lines, one level deeper. -/
theorem isInfix_namespaceLines {scope : Namespace} {lines : List Line}
    (h : lines <:+: (scope.namespaces.flatMap fun child => .flush "" :: namespaceLines child) ++
      scope.types.flatMap fun declared => .flush "" :: declarationLines declared) :
    lines.map (.deeper 1) <:+: namespaceLines scope := by
  rw [namespaceLines_eq, blockLines]
  have hmembers := h.map (Line.deeper 1)
  exact ((hmembers.trans (List.prefix_append _ _).isInfix).trans
    (List.suffix_cons _ _).isInfix).trans (List.suffix_append _ _).isInfix

theorem isInfix_of_mem_namespaces {scope child : Namespace} (hchild : child ∈ scope.namespaces) :
    (Line.flush "" :: namespaceLines child).map (.deeper 1) <:+: namespaceLines scope := by
  have hblock := isInfix_flatMap hchild fun child : Namespace =>
    Line.flush "" :: namespaceLines child
  exact isInfix_namespaceLines (hblock.trans (List.prefix_append _ _).isInfix)

theorem isInfix_of_mem_types {scope : Namespace} {declared : Declaration}
    (hdeclared : declared ∈ scope.types) :
    (Line.flush "" :: declarationLines declared).map (.deeper 1) <:+: namespaceLines scope := by
  have hblock := isInfix_flatMap hdeclared fun declared : Declaration =>
    Line.flush "" :: declarationLines declared
  exact isInfix_namespaceLines (hblock.trans (List.suffix_append _ _).isInfix)

theorem Nested.isInfix {root : Namespace} {depth : Nat} {node : Node}
    (hnested : Nested root depth node) : nestedLines depth node <:+: namespaceLines root := by
  induction hnested with
  | child hchild =>
    rw [nestedLines_succ, nestedLines_zero]
    exact isInfix_of_mem_namespaces hchild
  | declared hdeclared =>
    rw [nestedLines_succ, nestedLines_zero, nodeLines_nodeOf]
    exact isInfix_of_mem_types hdeclared
  | deeper hchild _ ih =>
    -- what is inside of the child goes in together with it
    rw [nestedLines_succ]
    exact ((ih.trans (List.suffix_cons _ _).isInfix).map _).trans
      (isInfix_of_mem_namespaces hchild)

/-- **The indentation only moves lines, and nodes are written the same wherever they stand.**
A node has one list of lines that makes its text at every indentation. Those of a namespace or
a declared type inside of a tree, moved in by its depth, are a block of the lines of the tree
and come right behind a line without content. -/
theorem nodeLines_compositional :
    (∀ (node : Node) (lines : List Line),
      (∀ indent, renderNode indent node = String.join (lines.map (Line.text indent))) ↔
        lines = nodeLines node) ∧
      ∀ (root : Namespace) (depth : Nat) (node : Node), Nested root depth node →
        ∃ before after, nodeLines (.scope root) =
          before ++ ⟨depth, ""⟩ :: ((nodeLines node).map (.deeper depth) ++ after) := by
  refine ⟨fun node lines => eq_nodeLines_iff, fun root depth node hnested => ?_⟩
  obtain ⟨before, after, hlines⟩ := hnested.isInfix
  refine ⟨before, after, ?_⟩
  rw [nodeLines, ← hlines, nestedLines, List.append_assoc, List.cons_append]

/-- A tree in which an alias comes behind a namespace with a namespace inside of it. -/
def sampleNesting : Namespace where
  name := "Root"
  namespaces := [{ name := "Deep", namespaces := [{ name := "Deeper" }] }]
  types := [.typedef { name := "Leaf", underlying := "string" }]

/-- The inner namespace is moved in by two levels, and the alias behind it by one. -/
theorem nodeLines_sampleNesting :
    (Nested sampleNesting 2 (.scope { name := "Deeper" }) ∧
      ∃ before after, nodeLines (.scope sampleNesting) =
        before ++ ⟨2, ""⟩ :: ([⟨2, "namespace Deeper \x7b"⟩, ⟨2, "\x7d"⟩] ++ after)) ∧
      Nested sampleNesting 1 (.typedef { name := "Leaf", underlying := "string" }) ∧
      ∃ before after, nodeLines (.scope sampleNesting) =
        before ++ ⟨1, ""⟩ :: ([⟨1, "type Leaf = string; // "⟩] ++ after) := by
  have hinner : Nested sampleNesting 2 (.scope { name := "Deeper" }) :=
    .deeper List.mem_cons_self (.child List.mem_cons_self)
  have hleaf : Nested sampleNesting 1
      (nodeOf (.typedef { name := "Leaf", underlying := "string" })) :=
    .declared List.mem_cons_self
  exact ⟨⟨hinner, nodeLines_compositional.2 _ _ _ hinner⟩,
    hleaf, nodeLines_compositional.2 _ _ _ hleaf⟩

end Ambient.Layout
