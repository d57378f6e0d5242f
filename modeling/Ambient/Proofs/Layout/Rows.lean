/-
The rows of a text: its lines as they stand there, indentation included.

A plain tree has no line break inside of a line, so that its text gives back its rows
(`rows_eq_of_join_eq`). What the rows do not say is how much of each is indentation. It
is known for the row that comes next, though: rows of one indentation are equal exactly
if their contents are, and the end of a block cannot be a row of its members.
-/
import Ambient.Proofs.Layout.Lines
import Ambient.Proofs.Text.Split
import Ambient.Proofs.Tree.Plain

set_option autoImplicit false

namespace Ambient.Layout

open Ambient.Tree Ambient.Text

/-! ## Contents without line breaks -/

/-- A text put together of two has a line break where one of the two has it. -/
theorem oneLine_append {first second : String} :
    OneLine (first ++ second) ↔ OneLine first ∧ OneLine second := by
  rw [OneLine, String.toList_append, List.mem_append, not_or, OneLine, OneLine]

/-- A line break is no character of a name, nor of a type text. -/
theorem oneLine_of_plainName {text : String} (htext : PlainName text) : OneLine text :=
  fun hbreak => absurd (htext.2 '\n' hbreak) (by decide)

theorem oneLine_of_plainType {text : String} (htext : PlainType text) : OneLine text :=
  fun hbreak => absurd (htext.2 '\n' hbreak) (by decide)

/-- This is what makes the parameters of a method stand on its own line. -/
theorem oneLine_intercalate {separator : String} {texts : List String}
    (hseparator : OneLine separator) (htexts : ∀ text ∈ texts, OneLine text) :
    OneLine (separator.intercalate texts) := by
  induction texts with
  | nil => exact List.not_mem_nil
  | cons text more ih =>
    have hmore := ih fun other hother => htexts other (List.mem_cons_of_mem _ hother)
    have htext := htexts text List.mem_cons_self
    cases more with
    | nil => simpa using htext
    | cons next more =>
      rw [String.intercalate_cons_cons, oneLine_append, oneLine_append]
      exact ⟨⟨htext, hseparator⟩, hmore⟩

theorem oneLine_optionalMark (optional : Bool) : OneLine (optionalMark optional) := by
  cases optional <;> decide

/-- The comment of a parameter is the only text in it that may hold more than a name or a type
can, and this one is plain as well. -/
theorem oneLine_parameterText {parameter : Parameter} (hparameter : parameter.Plain) :
    OneLine (parameterText parameter) := by
  have hslot : OneLine (parameter.name ++ optionalMark parameter.optional ++ ": " ++
      parameter.type) := by
    simp only [oneLine_append]
    exact ⟨⟨⟨oneLine_of_plainName hparameter.name, oneLine_optionalMark _⟩, by decide⟩,
      oneLine_of_plainType hparameter.type⟩
  unfold parameterText
  split
  · exact hslot
  · rw [oneLine_append, oneLine_append, oneLine_append]
    exact ⟨⟨⟨hslot, by decide⟩, hparameter.comment⟩, by decide⟩

theorem oneLine_propertyText {property : Property} (hproperty : property.Plain) :
    OneLine (propertyText property) := by
  simp only [propertyText, oneLine_append]
  exact ⟨⟨⟨⟨⟨oneLine_of_plainName hproperty.name, oneLine_optionalMark _⟩, by decide⟩,
    oneLine_of_plainType hproperty.type⟩, by decide⟩, hproperty.comment⟩

/-- All of a method is one line, however many parameters it has. -/
theorem oneLine_methodText {method : Method} (hmethod : method.Plain) :
    OneLine (methodText method) := by
  have hparameters : OneLine (", ".intercalate (method.parameters.map parameterText)) := by
    apply oneLine_intercalate (by decide)
    intro text htext
    obtain ⟨parameter, hparameter, rfl⟩ := List.mem_map.mp htext
    exact oneLine_parameterText (hmethod.parameters parameter hparameter)
  simp only [methodText, oneLine_append]
  exact ⟨⟨⟨⟨⟨⟨oneLine_of_plainName hmethod.name, by decide⟩, hparameters⟩, by decide⟩,
    oneLine_of_plainType hmethod.returnType⟩, by decide⟩, hmethod.comment⟩

theorem oneLine_typedefText {typedef : Typedef} (htypedef : typedef.Plain) :
    OneLine (typedefText typedef) := by
  simp only [typedefText, oneLine_append]
  exact ⟨⟨⟨⟨⟨by decide, oneLine_of_plainName htypedef.name⟩, by decide⟩,
    oneLine_of_plainType htypedef.underlying⟩, by decide⟩, htypedef.comment⟩

theorem oneLine_signatureEnd {signature : Signature} (hsignature : signature.Plain) :
    OneLine (signatureEnd signature) := by
  rw [signatureEnd, oneLine_append, oneLine_append]
  refine ⟨⟨oneLine_of_plainType hsignature.returnType, by decide⟩, ?_⟩
  split
  · decide
  · exact oneLine_append.mpr ⟨by decide, hsignature.comment⟩

/-! ## Lines without line breaks -/

/-- No content of some lines holds a line break. -/
def Unbroken (lines : List Line) : Prop := ∀ line ∈ lines, OneLine line.content

theorem unbroken_nil : Unbroken [] := by
  intro line hline
  cases hline

theorem unbroken_flush {content : String} {lines : List Line} :
    Unbroken (.flush content :: lines) ↔ OneLine content ∧ Unbroken lines :=
  List.forall_mem_cons

theorem unbroken_append {first second : List Line} :
    Unbroken (first ++ second) ↔ Unbroken first ∧ Unbroken second :=
  List.forall_mem_append

/-- Lines that are written member by member are unbroken if those of each member are. -/
theorem unbroken_flatMap {α : Type} {lines : α → List Line} {members : List α}
    (hmembers : ∀ member ∈ members, Unbroken (lines member)) :
    Unbroken (members.flatMap lines) := by
  intro line hline
  obtain ⟨member, hmember, hline⟩ := List.mem_flatMap.mp hline
  exact hmembers member hmember line hline

theorem unbroken_map_flush {α : Type} {content : α → String} {members : List α}
    (hmembers : ∀ member ∈ members, OneLine (content member)) :
    Unbroken (members.map fun member => .flush (content member)) := by
  intro line hline
  obtain ⟨member, hmember, rfl⟩ := List.mem_map.mp hline
  exact hmembers member hmember

/-- A block adds a comment, a head and an end to its members, and moves these in. -/
theorem unbroken_blockLines {comment head : String} {members : List Line}
    (hcomment : OneLine comment) (hhead : OneLine head) (hmembers : Unbroken members) :
    Unbroken (blockLines comment head members) := by
  have hleading : Unbroken (leadingLines comment) := by
    unfold leadingLines
    split
    · exact unbroken_nil
    · exact unbroken_flush.mpr ⟨oneLine_append.mpr ⟨by decide, hcomment⟩, unbroken_nil⟩
  have hinner : Unbroken (members.map (.deeper 1)) := by
    intro line hline
    obtain ⟨member, hmember, rfl⟩ := List.mem_map.mp hline
    exact hmembers member hmember
  rw [blockLines, unbroken_append, unbroken_flush, unbroken_append, unbroken_flush]
  exact ⟨hleading, hhead, hinner, by decide, unbroken_nil⟩

theorem unbroken_furtherLines {parameters : List Parameter}
    (hparameters : ∀ parameter ∈ parameters, parameter.Plain) :
    Unbroken (furtherLines parameters) := by
  induction parameters with
  | nil => exact unbroken_nil
  | cons parameter more ih =>
    have htext := oneLine_parameterText (hparameters parameter List.mem_cons_self)
    have hmore := ih fun next hnext => hparameters next (List.mem_cons_of_mem _ hnext)
    cases more with
    | nil => exact unbroken_flush.mpr ⟨oneLine_append.mpr ⟨by decide, htext⟩, unbroken_nil⟩
    | cons next more =>
      refine unbroken_flush.mpr ⟨?_, hmore⟩
      rw [oneLine_append, oneLine_append]
      exact ⟨⟨by decide, htext⟩, by decide⟩

/-- The three ways to lay out a signature: without parameters, with one on the same line, and
with several, which have a line each. -/
theorem unbroken_signatureLines {signature : Signature} (hsignature : signature.Plain) :
    Unbroken (signatureLines signature) := by
  have hend := oneLine_signatureEnd hsignature
  have hparameters := hsignature.parameters
  unfold signatureLines
  split
  · rw [unbroken_flush, oneLine_append]
    exact ⟨⟨by decide, hend⟩, unbroken_nil⟩
  · rename_i only honly
    have htext := oneLine_parameterText (hparameters only (by rw [honly]; exact List.mem_cons_self))
    rw [unbroken_flush, oneLine_append, oneLine_append, oneLine_append]
    exact ⟨⟨⟨⟨by decide, htext⟩, by decide⟩, hend⟩, unbroken_nil⟩
  · rename_i first further _ hlist
    rw [hlist] at hparameters
    have htext := oneLine_parameterText (hparameters first List.mem_cons_self)
    have hfurther := unbroken_furtherLines fun next hnext =>
      hparameters next (List.mem_cons_of_mem _ hnext)
    rw [unbroken_flush, unbroken_append, unbroken_flush, oneLine_append, oneLine_append,
      oneLine_append]
    exact ⟨⟨⟨by decide, htext⟩, by decide⟩, hfurther, ⟨by decide, hend⟩, unbroken_nil⟩

theorem unbroken_callableLines {callable : Callable} (hcallable : callable.Plain) :
    Unbroken (callableLines callable) := by
  cases callable with
  | none => exact unbroken_nil
  | methods methods =>
    exact unbroken_map_flush fun method hmethod => oneLine_methodText (hcallable method hmethod)
  | signature signature => exact unbroken_signatureLines hcallable

/-- What is declared is either one line, or a block of properties and of what can be called. -/
theorem unbroken_declarationLines {declared : Declaration} (hdeclared : declared.Plain) :
    Unbroken (declarationLines declared) := by
  cases declared with
  | typedef declared => exact unbroken_flush.mpr ⟨oneLine_typedefText hdeclared, unbroken_nil⟩
  | interface declared =>
    refine unbroken_blockLines hdeclared.comment ?_ (unbroken_append.mpr ⟨?_, ?_⟩)
    · rw [interfaceHead, oneLine_append, oneLine_append]
      exact ⟨⟨by decide, oneLine_of_plainName hdeclared.name⟩, by decide⟩
    · exact unbroken_map_flush fun property hproperty =>
        oneLine_propertyText (hdeclared.properties property hproperty)
    · exact unbroken_callableLines hdeclared.callable

/-- By induction on why the scope is plain: its children are plain scopes with fewer levels below
them. -/
theorem unbroken_namespaceLines {scope : Namespace} (hscope : scope.Plain) :
    Unbroken (namespaceLines scope) := by
  induction hscope with
  | @intro scope hname hcomment _ htypes ih =>
    rw [namespaceLines_eq]
    refine unbroken_blockLines hcomment ?_ (unbroken_append.mpr ⟨?_, ?_⟩)
    · rw [namespaceHead, oneLine_append, oneLine_append, oneLine_append]
      refine ⟨⟨⟨?_, by decide⟩, oneLine_of_plainName hname⟩, by decide⟩
      cases scope.ambient <;> decide
    · exact unbroken_flatMap fun child hchild => unbroken_flush.mpr ⟨by decide, ih child hchild⟩
    · exact unbroken_flatMap fun declared hdeclared =>
        unbroken_flush.mpr ⟨by decide, unbroken_declarationLines (htypes declared hdeclared)⟩

/-! ## Rows -/

/-- A line as it stands in the text, without the line break at its end. -/
def row (indent : Indent) (content : String) : List Char :=
  indent.text.toList ++ content.toList

/-- The rows of the lines of a node that stands at an indentation. -/
def rows (indent : Indent) (lines : List Line) : List (List Char) :=
  lines.map fun line => row (indent.deeper line.depth) line.content

theorem rows_append (indent : Indent) (first second : List Line) :
    rows indent (first ++ second) = rows indent first ++ rows indent second :=
  List.map_append

theorem rows_flush (indent : Indent) (content : String) (lines : List Line) :
    rows indent (.flush content :: lines) = row indent content :: rows indent lines :=
  rfl

/-- To move lines in is to write them at an indentation that is as much deeper. -/
theorem rows_deeper (indent : Indent) (levels : Nat) (lines : List Line) :
    rows indent (lines.map (.deeper levels)) = rows (indent.deeper levels) lines := by
  rw [rows, List.map_map]
  apply List.map_congr_left
  intro line _
  rw [Function.comp_apply, deeper_deeper, Line.deeper]

theorem rows_flatMap {α : Type} (indent : Indent) (lines : α → List Line) (members : List α) :
    rows indent (members.flatMap lines) =
      members.flatMap fun member => rows indent (lines member) :=
  List.map_flatMap

/-- The rows of a block, with the rows that follow it: the comment, the head, the members one
level in, and the end. -/
theorem rows_block (indent : Indent) (comment head : String) (members : List Line)
    (rest : List (List Char)) :
    rows indent (blockLines comment head members) ++ rest =
      rows indent (leadingLines comment) ++ row indent head ::
        (rows (indent.deeper 1) members ++ row indent blockEnd :: rest) := by
  rw [blockLines, rows_append, rows_flush, rows_append, rows_deeper, rows_flush,
    List.append_assoc, List.cons_append, List.append_assoc]
  rfl

/-! ## Blank indentations -/

/-- A text of spaces and tab characters. -/
def BlankText (text : String) : Prop := ∀ c ∈ text.toList, c = ' ' ∨ c = '\t'

instance (text : String) : Decidable (BlankText text) := List.decidableBAll _ text.toList

/-- An indentation holds no character that its unit does not. -/
theorem mem_repeated {text : String} {count : Nat} {c : Char}
    (hc : c ∈ (Indent.repeated text count).toList) : c ∈ text.toList := by
  induction count with
  | zero => cases hc
  | succ count ih =>
    rw [Indent.repeated, String.toList_append, List.mem_append] at hc
    exact hc.elim id ih

/-- A blank indentation does not break a line, whatever its level. -/
theorem oneLine_indent (indent : Indent) (hblank : BlankText indent.unit) :
    OneLine indent.text := by
  intro hbreak
  rcases hblank '\n' (mem_repeated hbreak) with heq | heq
  · exact absurd heq (by decide)
  · exact absurd heq (by decide)

/-- One more level may be added at either end. -/
theorem repeated_succ (text : String) (count : Nat) :
    Indent.repeated text (count + 1) = Indent.repeated text count ++ text := by
  induction count with
  | zero => simp [Indent.repeated]
  | succ count ih => rw [Indent.repeated, ih, ← String.append_assoc, ← Indent.repeated, ih]

/-- Rows of one indentation are equal if their contents are. -/
theorem row_inj {indent : Indent} {content other : String} :
    row indent content = row indent other ↔ content = other := by
  rw [row, row, List.append_cancel_left_eq, String.toList_inj]

/-- Lines that start with lines of one indentation give the same rows if those lines and
the rows after them are the same. -/
theorem rows_flush_inj {indent : Indent} {content other : String} {lines others : List Line}
    {r s : List (List Char)} :
    rows indent (.flush content :: lines) ++ r = rows indent (.flush other :: others) ++ s ↔
      content = other ∧ rows indent lines ++ r = rows indent others ++ s := by
  rw [rows_flush, rows_flush, List.cons_append, List.cons_append, List.cons.injEq, row_inj]

/-- A row of the members of a block is not its end. -/
theorem row_deeper_ne_blockEnd {indent : Indent} (hblank : BlankText indent.unit)
    {content : String} (hcontent : content.toList.head? ≠ some '\x7d') :
    row (indent.deeper 1) content ≠ row indent blockEnd := by
  intro heq
  have hblockEnd : blockEnd.toList = ['\x7d'] := by decide
  rw [row, row, Indent.text, Indent.text, Indent.deeper, repeated_succ, String.toList_append,
    List.append_assoc, List.append_cancel_left_eq, hblockEnd] at heq
  -- one more level is either nothing, or it starts with a character that no brace is
  cases hunit : indent.unit.toList with
  | nil =>
    rw [hunit, List.nil_append] at heq
    exact hcontent (by rw [heq]; rfl)
  | cons c more =>
    rw [hunit, List.cons_append, List.cons.injEq] at heq
    have hc := hblank c (by rw [hunit]; exact List.mem_cons_self)
    rw [heq.1] at hc
    exact absurd hc (by decide)

/-! ## The text gives its rows -/

/-- The text of some lines is their rows, each with a line break behind it. -/
theorem toList_join_writeLines (indent : Indent) (lines : List Line) :
    (String.join (writeLines indent lines)).toList =
      (rows indent lines).flatMap fun row => row ++ ['\n'] := by
  rw [String.toList_join, writeLines, List.flatMap_assoc, rows, List.flatMap_map]
  apply List.flatMap_congr
  intro line _
  simp [writeLine, row]

/-- No row of a plain node holds a line break: neither its indentation nor its content does. -/
theorem notMem_of_mem_rows {indent : Indent} (hblank : BlankText indent.unit)
    {lines : List Line} (hlines : Unbroken lines) : ∀ text ∈ rows indent lines, '\n' ∉ text := by
  intro text htext
  obtain ⟨line, hline, rfl⟩ := List.mem_map.mp htext
  rw [row, List.mem_append, not_or]
  exact ⟨oneLine_indent (indent.deeper line.depth) hblank, hlines line hline⟩

/-- Lines without line breaks that make the same text make the same rows. -/
theorem rows_eq_of_join_eq {indent : Indent} (hblank : BlankText indent.unit)
    {lines others : List Line} (hlines : Unbroken lines) (hothers : Unbroken others)
    (h : String.join (writeLines indent lines) = String.join (writeLines indent others)) :
    rows indent lines = rows indent others := by
  rw [← String.toList_inj, toList_join_writeLines, toList_join_writeLines] at h
  exact rows_inj (notMem_of_mem_rows hblank hlines) (notMem_of_mem_rows hblank hothers) h

end Ambient.Layout
