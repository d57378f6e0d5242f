/-
Wrapped and inline lists of parameters.

A call signature with several parameters is written on several lines, and a method with the
same parameters on one. Where each line ends, though, the list of the method has a separator:
the comma stands at the end of a line and the space at the start of the next one. So a wrapped
signature without its indentation and its inner line breaks is what it would be on one line
(`join_signatureContents`), whatever the texts of its parameters hold.
-/
import Ambient.Proofs.Layout.Lines
import Ambient.Proofs.Layout.Members

set_option autoImplicit false

namespace Ambient.Layout

open Ambient.Tree

/-! ## Lines of one indentation -/

/-- The contents of lines that stand at the same indentation, as they are in the text: an
indentation in front of the first one, and a line break with the indentation behind it before
each further one. -/
theorem join_flatMap_writeLine (indent : Indent) {contents : List String}
    (hcontents : contents ≠ []) :
    String.join (contents.flatMap (writeLine indent)) =
      indent.text ++ ("\n" ++ indent.text).intercalate contents ++ "\n" := by
  induction contents with
  | nil => exact absurd rfl hcontents
  | cons content more ih =>
    rw [List.flatMap_cons, String.join_append]
    cases more with
    | nil => simp [writeLine, String.append_assoc]
    | cons next more =>
      rw [ih (List.cons_ne_nil next more), String.intercalate_cons_cons]
      simp [writeLine, String.append_assoc]

/-- Lines that are not moved in are written at the indentation of their node. -/
theorem writeLines_of_flush (indent : Indent) {lines : List Line}
    (hflush : ∀ line ∈ lines, line.depth = 0) :
    writeLines indent lines = (lines.map (·.content)).flatMap (writeLine indent) := by
  rw [writeLines, List.flatMap_map]
  apply List.flatMap_congr
  intro line hline
  rw [hflush line hline]
  rfl

/-! ## The lines of a signature -/

/-- The contents of the lines of a call signature. -/
def signatureContents (signature : Signature) : List String :=
  (signatureLines signature).map (·.content)

theorem depth_furtherLines (parameters : List Parameter) :
    ∀ line ∈ furtherLines parameters, line.depth = 0 := by
  fun_induction furtherLines parameters with
  | case1 => exact fun line hline => nomatch hline
  | case2 last => exact List.forall_mem_singleton.mpr rfl
  | case3 parameter more _ ih => exact List.forall_mem_cons.mpr ⟨rfl, ih⟩

theorem depth_signatureLines (signature : Signature) :
    ∀ line ∈ signatureLines signature, line.depth = 0 := by
  unfold signatureLines
  split
  · exact List.forall_mem_singleton.mpr rfl
  · exact List.forall_mem_singleton.mpr rfl
  · rw [List.forall_mem_cons, List.forall_mem_append, List.forall_mem_singleton]
    exact ⟨rfl, depth_furtherLines _, rfl⟩

theorem writeSignature_eq_contents (indent : Indent) (signature : Signature) :
    writeSignature indent signature =
      (signatureContents signature).flatMap (writeLine indent) := by
  rw [writeSignature_eq_lines, writeLines_of_flush indent (depth_signatureLines signature),
    signatureContents]

theorem signatureContents_ne_nil (signature : Signature) : signatureContents signature ≠ [] := by
  rw [signatureContents, Ne, List.map_eq_nil_iff]
  exact signatureLines_ne_nil signature

theorem length_furtherLines (parameters : List Parameter) :
    (furtherLines parameters).length = parameters.length := by
  fun_induction furtherLines parameters with
  | case1 => rfl
  | case2 last => rfl
  | case3 parameter more _ ih => rw [List.length_cons, List.length_cons, ih]

/-- A signature with several parameters takes a line for each of them and one more. -/
theorem length_signatureContents (signature : Signature) :
    (signatureContents signature).length =
      if signature.parameters.length < 2 then 1 else signature.parameters.length + 1 := by
  obtain ⟨parameters, returnType, comment⟩ := signature
  rw [signatureContents, List.length_map]
  match parameters with
  | [] => rfl
  | [only] => rfl
  | first :: second :: further =>
    simp only [signatureLines, List.length_cons, List.length_append, length_furtherLines]
    rw [if_neg (by omega)]
    rfl

/-! ## Without line breaks -/

/-- The list of parameters in its brackets. -/
def bracketed (parameters : List Parameter) : String := "(" ++ parametersText parameters ++ ")"

/-- The separator in two parts: the comma at the end of a line and the space at the start of the
next one. -/
theorem parametersText_broken (parameter next : Parameter) (more : List Parameter) :
    parametersText (parameter :: next :: more) =
      parameterText parameter ++ "," ++ (" " ++ parametersText (next :: more)) := by
  rw [parametersText_cons_cons, show ", " = "," ++ " " from rfl]
  simp only [String.append_assoc]

/-- The lines behind the first one hold the list from its second parameter on. -/
theorem join_furtherLines (parameter : Parameter) (more : List Parameter) :
    String.join ((furtherLines (parameter :: more)).map (·.content)) =
      " " ++ parametersText (parameter :: more) := by
  induction more generalizing parameter with
  | nil => simp [furtherLines, Line.flush, parametersText]
  | cons next more ih =>
    rw [furtherLines, List.map_cons, String.join_cons, ih, parametersText_broken, Line.flush]
    · simp only [String.append_assoc]
    · exact List.cons_ne_nil next more

/-- A signature on its lines is a signature on one line. -/
theorem join_signatureContents (signature : Signature) :
    String.join (signatureContents signature) =
      bracketed signature.parameters ++ ": " ++ signatureEnd signature := by
  obtain ⟨parameters, returnType, comment⟩ := signature
  match parameters with
  | [] => simp [signatureContents, signatureLines, Line.flush, bracketed, parametersText]
  | [only] =>
    simp [signatureContents, signatureLines, Line.flush, bracketed, parametersText,
      String.append_assoc]
  | first :: second :: further =>
    simp only [signatureContents, signatureLines, bracketed]
    rw [List.map_cons, List.map_append, String.join_cons, String.join_append, join_furtherLines,
      parametersText_broken]
    simp [Line.flush, String.append_assoc]

/-- **Wrapping a list of parameters only breaks lines.** A call signature is written as lines of
one indentation, `n + 1` of them for `n ≥ 2` parameters and one for fewer. What is left of its
text without the indentation in front and, at each inner line break, the break and the
indentation behind it, is the list of parameters in its brackets, the return type and the
comment if there is one; and this list is the one that a method with these parameters has. -/
theorem signature_unwrapped (signature : Signature) :
    let list := "(" ++ ", ".intercalate (signature.parameters.map parameterText) ++ ")"
    (∀ indent, writeNode indent (.signature signature) =
        (signatureContents signature).flatMap (writeLine indent) ∧
      renderNode indent (.signature signature) = indent.text ++
        ("\n" ++ indent.text).intercalate (signatureContents signature) ++ "\n") ∧
    String.join (signatureContents signature) ++ "\n" =
      list ++ ": " ++ signature.returnType ++ ";" ++ trailingText signature.comment ++ "\n" ∧
    (signatureContents signature).length =
      (if signature.parameters.length < 2 then 1 else signature.parameters.length + 1) ∧
    ∀ indent name returnType comment,
      renderNode indent (.method ⟨name, signature.parameters, returnType, comment⟩) =
        indent.text ++ name ++ list ++ ": " ++ returnType ++ "; // " ++ comment ++ "\n" := by
  intro list
  refine ⟨fun indent => ⟨writeSignature_eq_contents indent signature, ?_⟩, ?_,
    length_signatureContents signature, ?_⟩
  · rw [renderNode, writeNode, writeSignature_eq_contents,
      join_flatMap_writeLine indent (signatureContents_ne_nil signature)]
  · rw [join_signatureContents, signatureEnd, bracketed, parametersText, trailingText]
    simp only [list, String.append_assoc]
  · intro indent name returnType comment
    simp [list, renderNode, writeNode, writeMethod, writeLine, methodText, String.append_assoc]

-- the comma ends a line, and the space starts the next one
example :
    signatureContents
        { parameters := [{ name := "x", type := "number" }, { name := "y", type := "number" }]
          returnType := "any" } =
      ["(x: number,", " y: number", "): any;"] := by
  decide

end Ambient.Layout
