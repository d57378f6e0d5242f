/-
The text of a tree does not depend on its comments, apart from the comments.

Written at an indentation of white space, a quiet tree and its silent form have texts that
are the same once comments and white space are taken away (`bare_render_silent`). The
proof goes line by line: lines that are alike at every such indentation can be put
together in the way in which blocks are built, and a line is like the same line without
its comments.
-/
import Ambient.Proofs.Layout.Members
import Ambient.Proofs.Layout.Rows
import Ambient.Proofs.Text.Comments
import Ambient.Proofs.Tree.Chains
import Ambient.Proofs.Tree.Silent

set_option autoImplicit false

namespace Ambient.Layout

open Ambient.Tree Ambient.Text

/-! ## The text of lines -/

/-- An indentation of white space. -/
def Indent.Blank (indent : Indent) : Prop := ∀ c ∈ indent.unit.toList, isBlank c = true

instance (indent : Indent) : Decidable indent.Blank := List.decidableBAll _ indent.unit.toList

/-- Blank text goes with the comments, and so all indentation does. -/
theorem Indent.Blank.text {indent : Indent} (hblank : indent.Blank) :
    ∀ c ∈ indent.text.toList, isBlank c = true :=
  fun c hc => hblank c (mem_repeated hc)

/-- The characters of the lines of a node that stands at an indentation. -/
def linesText (indent : Indent) (lines : List Line) : List Char :=
  (rows indent lines).flatMap fun row => row ++ ['\n']

theorem linesText_append (indent : Indent) (first second : List Line) :
    linesText indent (first ++ second) = linesText indent first ++ linesText indent second := by
  rw [linesText, rows_append, List.flatMap_append, linesText, linesText]

theorem linesText_flush (indent : Indent) (content : String) (lines : List Line) :
    linesText indent (.flush content :: lines) =
      indent.text.toList ++ (content.toList ++ ['\n']) ++ linesText indent lines := by
  rw [linesText, rows_flush, List.flatMap_cons, row, List.append_assoc indent.text.toList,
    linesText]

/-! ## Lines that are alike -/

/-- Lines whose texts are alike at every indentation of white space. -/
def AlikeLines (lines others : List Line) : Prop :=
  ∀ ⦃indent : Indent⦄, indent.Blank → Alike (linesText indent lines) (linesText indent others)

theorem alikeLines_nil : AlikeLines [] [] := fun _ _ => alike_nil

theorem AlikeLines.append {first second other another : List Line}
    (hfirst : AlikeLines first other) (hsecond : AlikeLines second another) :
    AlikeLines (first ++ second) (other ++ another) := by
  intro indent hblank
  rw [linesText_append, linesText_append]
  exact (hfirst hblank).append (hsecond hblank)

/-- Lines that are written member by member are alike if those of each member are. -/
theorem alikeLines_flatMap {α : Type} {f g : α → List Line} {members : List α}
    (h : ∀ member ∈ members, AlikeLines (f member) (g member)) :
    AlikeLines (members.flatMap f) (members.flatMap g) := by
  induction members with
  | nil => exact alikeLines_nil
  | cons member members ih =>
    rw [List.flatMap_cons, List.flatMap_cons]
    exact (h member List.mem_cons_self).append
      (ih fun next hnext => h next (List.mem_cons_of_mem _ hnext))

/-- Lines go on being alike where they are moved in. -/
theorem AlikeLines.deeper {lines others : List Line} (h : AlikeLines lines others)
    (levels : Nat) : AlikeLines (lines.map (.deeper levels)) (others.map (.deeper levels)) := by
  intro indent hblank
  rw [linesText, rows_deeper, linesText, rows_deeper]
  have hdeeper : (indent.deeper levels).Blank := hblank
  exact h hdeeper

/-- Lines are alike if the contents of the first ones are, up to the line break, and the
other ones are. -/
theorem AlikeLines.cons {content other : String} {lines others : List Line}
    (hcontent : Alike (content.toList ++ ['\n']) (other.toList ++ ['\n']))
    (hlines : AlikeLines lines others) :
    AlikeLines (.flush content :: lines) (.flush other :: others) := by
  intro indent hblank
  have hslash : '/' ∉ indent.text.toList :=
    fun hmem => absurd (hblank.text '/' hmem) (by decide)
  rw [linesText_flush, linesText_flush]
  exact ((alike_code hslash).append hcontent).append (hlines hblank)

/-- A line that opens no comment is like itself. -/
theorem alike_content {content : String} (hcontent : Unopened content) :
    Alike (content.toList ++ ['\n']) (content.toList ++ ['\n']) :=
  alike_row hcontent .plain .plain

theorem alikeLines_map_flush {α : Type} {content other : α → String} {members : List α}
    (h : ∀ member ∈ members,
      Alike ((content member).toList ++ ['\n']) ((other member).toList ++ ['\n'])) :
    AlikeLines (members.map fun member => .flush (content member))
      (members.map fun member => .flush (other member)) := by
  induction members with
  | nil => exact alikeLines_nil
  | cons member members ih =>
    rw [List.map_cons, List.map_cons]
    exact (ih fun next hnext => h next (List.mem_cons_of_mem _ hnext)).cons
      (h member List.mem_cons_self)

/-- The line in front of a block is like no line. -/
theorem alikeLines_leading {comment : String} (hcomment : OneLine comment) :
    AlikeLines (leadingLines comment) [] := by
  intro indent hblank
  unfold leadingLines
  split
  · exact alike_nil
  · have hremark : '\n' ∉ ' ' :: comment.toList := by simpa [OneLine] using hcomment
    have hrow := (alike_blank hblank.text).append (alike_remark hremark)
    rw [linesText_flush, String.toList_append]
    exact hrow.append alike_nil

/-- Blocks are alike if their fronts, up to the head, and their members are. -/
theorem AlikeLines.block {comment other head : String} {members others : List Line}
    (hfront : AlikeLines (leadingLines comment ++ [.flush head])
      (leadingLines other ++ [.flush head])) (hmembers : AlikeLines members others) :
    AlikeLines (blockLines comment head members) (blockLines other head others) := by
  have hend : AlikeLines [.flush blockEnd] [.flush blockEnd] :=
    alikeLines_nil.cons (alike_content (by decide))
  have hblock := hfront.append ((hmembers.deeper 1).append hend)
  simpa [blockLines] using hblock

/-- A head with a comment in front of it is like the head. -/
theorem alikeLines_front {comment head : String} (hcomment : OneLine comment)
    (hhead : Unopened head) :
    AlikeLines (leadingLines comment ++ [.flush head]) (leadingLines "" ++ [.flush head]) :=
  (alikeLines_leading hcomment).append (alikeLines_nil.cons (alike_content hhead))

/-! ## Parameters -/

/-- A parameter is like the one without its comment: what closes the comment stands behind all
of it. -/
theorem alike_parameter {parameter : Parameter} (hparameter : parameter.Quiet) :
    Alike (parameterText parameter).toList (parameterText parameter.silent).toList := by
  have hslot : '/' ∉ (slotText parameter.name parameter.optional parameter.type).toList := by
    have hmark : '/' ∉ (optionalMark parameter.optional).toList := by
      cases parameter.optional <;> decide
    have hname : '/' ∉ parameter.name.toList := hparameter.name
    have htype : '/' ∉ parameter.type.toList := hparameter.type
    simp [toList_slotText, hmark, hname, htype]
  have hremark : Alike (remarkText parameter.comment).toList (remarkText "").toList := by
    by_cases hempty : parameter.comment = ""
    · rw [hempty]
      exact alike_nil
    · rw [toList_remarkText hempty]
      exact alike_note hparameter.comment
  rw [parameterText_eq, parameterText_eq, String.toList_append, String.toList_append]
  exact (alike_code hslot).append hremark

/-- Parameters on one line are alike one by one, for each of them leaves its comment behind. -/
theorem alike_parameters {parameters : List Parameter}
    (hparameters : ∀ parameter ∈ parameters, parameter.Quiet) :
    Alike (parametersText parameters).toList
      (parametersText (parameters.map (·.silent))).toList := by
  induction parameters with
  | nil => exact alike_nil
  | cons parameter more ih =>
    have hparameter := alike_parameter (hparameters parameter List.mem_cons_self)
    have hmore := ih fun next hnext => hparameters next (List.mem_cons_of_mem _ hnext)
    cases more with
    | nil => simpa [parametersText] using hparameter
    | cons next more =>
      have hcomma : Alike ", ".toList ", ".toList := alike_code (by decide)
      simpa [parametersText] using hparameter.append (hcomma.append hmore)

/-! ## Members -/

theorem endsRow_trailing {comment : String} (hcomment : OneLine comment) :
    EndsRow ((" // " ++ comment).toList ++ ['\n']) := by
  have hinner : '\n' ∉ ' ' :: comment.toList := by simpa [OneLine] using hcomment
  simpa using EndsRow.remark hinner

/-- A line is like the same line with nothing in the comment at its end. -/
theorem alike_trailing {content comment : String} (hcontent : Unopened content)
    (hcomment : OneLine comment) :
    Alike ((content ++ " // " ++ comment).toList ++ ['\n'])
      ((content ++ " // ").toList ++ ['\n']) := by
  have hempty : OneLine "" := by decide
  have hrow := alike_row hcontent (endsRow_trailing hcomment) (endsRow_trailing hempty)
  simpa using hrow

theorem alike_property {property : Property} (hproperty : property.Quiet) :
    Alike ((propertyText property).toList ++ ['\n'])
      ((propertyText property.silent).toList ++ ['\n']) := by
  have hcontent : Slashless (property.name ++ optionalMark property.optional ++ ": " ++
      property.type ++ ";") := by
    simp only [slashless_append]
    refine ⟨⟨⟨⟨hproperty.name, ?_⟩, by decide⟩, hproperty.type⟩, by decide⟩
    cases property.optional <;> decide
  simpa [propertyText, Property.silent] using
    alike_trailing hcontent.unopened hproperty.comment

theorem alike_typedef {typedef : Typedef} (htypedef : typedef.Quiet) :
    Alike ((typedefText typedef).toList ++ ['\n'])
      ((typedefText typedef.silent).toList ++ ['\n']) := by
  have hcontent : Slashless ("type " ++ typedef.name ++ " = " ++ typedef.underlying ++ ";") := by
    simp only [slashless_append]
    exact ⟨⟨⟨⟨by decide, htypedef.name⟩, by decide⟩, htypedef.underlying⟩, by decide⟩
  simpa [typedefText, Typedef.silent] using
    alike_trailing hcontent.unopened htypedef.comment

/-- What closes a list of parameters, up to the comment. -/
theorem unopened_returned {type : String} (htype : Unopened type) :
    Unopened ("): " ++ type ++ ";") :=
  .between (by decide) htype (by decide) (by decide)

theorem alike_method {method : Method} (hmethod : method.Quiet) :
    Alike ((methodText method).toList ++ ['\n'])
      ((methodText method.silent).toList ++ ['\n']) := by
  have hname : '/' ∉ (method.name ++ "(").toList :=
    slashless_append.mpr ⟨hmethod.name, by decide⟩
  have hend := alike_trailing (unopened_returned hmethod.returnType) hmethod.comment
  have hmethod := (alike_code hname).append ((alike_parameters hmethod.parameters).append hend)
  simpa [methodText, parametersText, Method.silent] using hmethod

/-- The end of a call signature, from the bracket that closes its parameters on. -/
theorem alike_signatureEnd {signature : Signature} (hsignature : signature.Quiet) :
    Alike (("): " ++ signatureEnd signature).toList ++ ['\n'])
      (("): " ++ signatureEnd signature.silent).toList ++ ['\n']) := by
  have hcontent := unopened_returned hsignature.returnType
  -- a signature without a comment has no mark of one either
  by_cases hempty : signature.comment.isEmpty = true
  · have hrow := alike_content hcontent
    simpa [signatureEnd, Signature.silent, hempty] using hrow
  · have hrow := alike_row hcontent (endsRow_trailing hsignature.comment) .plain
    simpa [signatureEnd, Signature.silent, hempty] using hrow

/-- Parameters on lines of their own are alike, by induction on the list. -/
theorem alikeLines_further {parameters : List Parameter}
    (hparameters : ∀ parameter ∈ parameters, parameter.Quiet) :
    AlikeLines (furtherLines parameters) (furtherLines (parameters.map (·.silent))) := by
  induction parameters with
  | nil => exact alikeLines_nil
  | cons parameter more ih =>
    have hparameter := alike_parameter (hparameters parameter List.mem_cons_self)
    have hmore := ih fun next hnext => hparameters next (List.mem_cons_of_mem _ hnext)
    have hspace : Alike " ".toList " ".toList := alike_code (by decide)
    -- the comma depends on whether another parameter follows
    cases more with
    | nil =>
      have hbreak : Alike ['\n'] ['\n'] := alike_code (by decide)
      refine alikeLines_nil.cons ?_
      simpa using hspace.append (hparameter.append hbreak)
    | cons next more =>
      have hcomma : Alike ",\n".toList ",\n".toList := alike_code (by decide)
      refine hmore.cons ?_
      simpa using hspace.append (hparameter.append hcomma)

theorem alikeLines_signature {signature : Signature} (hsignature : signature.Quiet) :
    AlikeLines (signatureLines signature) (signatureLines signature.silent) := by
  have hend := alike_signatureEnd hsignature
  have hopen : Alike "(".toList "(".toList := alike_code (by decide)
  obtain ⟨parameters, returnType, comment⟩ := signature
  have hparameters := hsignature.parameters
  match parameters with
  | [] =>
    refine alikeLines_nil.cons ?_
    simpa using hopen.append hend
  | [only] =>
    have honly := alike_parameter (hparameters only List.mem_cons_self)
    refine alikeLines_nil.cons ?_
    simpa using hopen.append (honly.append hend)
  | first :: second :: further =>
    have hfirst := alike_parameter (hparameters first List.mem_cons_self)
    have hfurther := alikeLines_further fun next hnext =>
      hparameters next (List.mem_cons_of_mem _ hnext)
    have hcomma : Alike ",\n".toList ",\n".toList := alike_code (by decide)
    refine AlikeLines.cons ?_ (hfurther.append (alikeLines_nil.cons hend))
    simpa using hopen.append (hfirst.append hcomma)

theorem alikeLines_callable {callable : Callable} (hcallable : callable.Quiet) :
    AlikeLines (callableLines callable) (callableLines callable.silent) := by
  cases callable with
  | none => exact alikeLines_nil
  | methods called =>
    rw [Callable.silent, callableLines, callableLines, List.map_map]
    exact alikeLines_map_flush fun method hmethod => alike_method (hcallable method hmethod)
  | signature called => exact alikeLines_signature hcallable

/-! ## Blocks -/

/-- A declaration is like the same one with nothing in its comments. -/
theorem alikeLines_declaration {declared : Declaration} (hdeclared : declared.Quiet) :
    AlikeLines (declarationLines declared) (declarationLines declared.silent) := by
  cases declared with
  | typedef declared => exact alikeLines_nil.cons (alike_typedef hdeclared)
  | interface declared =>
    have hhead : Unopened (interfaceHead declared.name) :=
      .between (by decide) hdeclared.name (by decide) (by decide)
    have hproperties := alikeLines_map_flush fun property hproperty =>
      alike_property (hdeclared.properties property hproperty)
    rw [Declaration.silent, declarationLines, declarationLines, interfaceLines, interfaceLines,
      Interface.silent, List.map_map]
    exact .block (alikeLines_front hdeclared.comment hhead)
      (hproperties.append (alikeLines_callable hdeclared.callable))

theorem unopened_namespaceHead (ambient : Bool) {name : String} (hname : Unopened name) :
    Unopened (namespaceHead ambient name) := by
  refine .between ?_ hname (by decide) (by decide)
  cases ambient <;> decide

/-- By induction on why the scope is quiet: its children are quiet as well. -/
theorem alikeLines_namespace {scope : Namespace} (hscope : scope.Quiet) :
    AlikeLines (namespaceLines scope) (namespaceLines scope.silent) := by
  induction hscope with
  | @intro scope hname hcomment _ htypes ih =>
    have hempty := alike_content (show Unopened "" by decide)
    have hchildren := alikeLines_flatMap fun child hchild => (ih child hchild).cons hempty
    have hdeclared := alikeLines_flatMap fun declared hdeclared =>
      (alikeLines_declaration (htypes declared hdeclared)).cons hempty
    rw [namespaceLines_eq, namespaceLines_eq, Namespace.silent_eq, List.flatMap_map,
      List.flatMap_map]
    exact .block (alikeLines_front hcomment (unopened_namespaceHead _ hname))
      (hchildren.append hdeclared)

/-! ## Texts -/

theorem toList_render (indent : Indent) (scope : Namespace) :
    (render indent scope).toList = linesText indent (namespaceLines scope) := by
  rw [render, writeNamespace_eq_lines, toList_join_writeLines, linesText]

/-- **The comments of a quiet tree stay comments**: at an indentation of white space its
text is that of the tree without comments, once the comments in the text and all white
space are taken away. -/
theorem bare_render_silent {indent : Indent} (hblank : indent.Blank) {scope : Namespace}
    (hscope : scope.Quiet) : bare (render indent scope) = bare (render indent scope.silent) := by
  rw [bare, bare, toList_render, toList_render]
  exact (alikeLines_namespace hscope hblank).bareFrom_eq

end Ambient.Layout
