/-
The lines of a node, free of any indentation.

What a node writes depends on the indentation only through the text that each line
starts with. `nodeLines` is the part that does not: a list of lines, each with its depth
below the node and its content. `writeNode_eq_lines` says that writing a node at an
indentation is writing these lines, each at that indentation moved in by its depth, so
that every fact about what is written can be proved about the lines alone.

The definitions follow the grammar of the text: a block is its leading comment, its head,
its members one level deeper and its end.
-/
import Ambient.Layout.Writing
import Mathlib.Data.List.Basic

set_option autoImplicit false

namespace Ambient.Layout

open Ambient.Tree

/-- A line of a node: how many levels it stands below the node, and its content. -/
structure Line where
  depth : Nat
  content : String
  deriving DecidableEq, Repr

namespace Line

/-- A line that stands as far out as its node. -/
def flush (content : String) : Line := ⟨0, content⟩

/-- The line of a node that has been moved in by some levels. -/
def deeper (levels : Nat) (line : Line) : Line := ⟨line.depth + levels, line.content⟩

end Line

/-- Writes the lines of a node that stands at an indentation. -/
def writeLines (indent : Indent) (lines : List Line) : List String :=
  lines.flatMap fun line => writeLine (indent.deeper line.depth) line.content

/-! ## The lines of members -/

/-- The line in front of a block with a comment. -/
def leadingLines (comment : String) : List Line :=
  if comment.isEmpty then [] else [.flush ("// " ++ comment)]

/-- The lines of the second and later parameters of a wrapped call signature. -/
def furtherLines : List Parameter → List Line
  | [] => []
  | [last] => [.flush (" " ++ parameterText last)]
  | parameter :: more => .flush (" " ++ parameterText parameter ++ ",") :: furtherLines more

/-- The lines of a call signature. -/
def signatureLines (signature : Signature) : List Line :=
  match signature.parameters with
  | [] => [.flush ("(): " ++ signatureEnd signature)]
  | [only] => [.flush ("(" ++ parameterText only ++ "): " ++ signatureEnd signature)]
  | first :: further =>
    .flush ("(" ++ parameterText first ++ ",") ::
      (furtherLines further ++ [.flush ("): " ++ signatureEnd signature)])

theorem signatureLines_ne_nil (signature : Signature) : signatureLines signature ≠ [] := by
  unfold signatureLines
  split <;> exact List.cons_ne_nil _ _

/-- The lines of how an interface is called. -/
def callableLines : Callable → List Line
  | .none => []
  | .methods methods => methods.map fun method => .flush (methodText method)
  | .signature signature => signatureLines signature

/-! ## The lines of blocks -/

/-- A block: its leading comment, its head, its members one level deeper, and its end. -/
def blockLines (comment head : String) (members : List Line) : List Line :=
  leadingLines comment ++ .flush head :: (members.map (.deeper 1) ++ [.flush blockEnd])

/-- The lines of an interface. -/
def interfaceLines (interface : Interface) : List Line :=
  blockLines interface.comment (interfaceHead interface.name)
    (interface.properties.map (fun property => .flush (propertyText property)) ++
      callableLines interface.callable)

/-- The lines of a declared type. -/
def declarationLines : Declaration → List Line
  | .interface declared => interfaceLines declared
  | .typedef declared => [.flush (typedefText declared)]

mutual

/-- The lines of a namespace. -/
def namespaceLines : Namespace → List Line
  | ⟨name, ambient, comment, namespaces, types⟩ =>
    blockLines comment (namespaceHead ambient name)
      (childrenLines namespaces ++
        types.flatMap fun declared => .flush "" :: declarationLines declared)

/-- The lines of child namespaces, each after a line without content. -/
def childrenLines : List Namespace → List Line
  | [] => []
  | child :: children => .flush "" :: (namespaceLines child ++ childrenLines children)

end

/-- The lines of any node. -/
def nodeLines : Node → List Line
  | .scope scope => namespaceLines scope
  | .interface interface => interfaceLines interface
  | .typedef typedef => [.flush (typedefText typedef)]
  | .property property => [.flush (propertyText property)]
  | .method method => [.flush (methodText method)]
  | .signature signature => signatureLines signature

theorem childrenLines_eq_flatMap (children : List Namespace) :
    childrenLines children = children.flatMap fun child => .flush "" :: namespaceLines child := by
  induction children with
  | nil => rw [childrenLines, List.flatMap_nil]
  | cons child children ih =>
    rw [childrenLines, List.flatMap_cons, ih, List.cons_append]

theorem namespaceLines_eq (scope : Namespace) :
    namespaceLines scope = blockLines scope.comment (namespaceHead scope.ambient scope.name)
      ((scope.namespaces.flatMap fun child => .flush "" :: namespaceLines child) ++
        scope.types.flatMap fun declared => .flush "" :: declarationLines declared) := by
  cases scope
  rw [namespaceLines, childrenLines_eq_flatMap]

/-! ## Writing lines -/

theorem deeper_deeper (indent : Indent) (outer inner : Nat) :
    (indent.deeper outer).deeper inner = indent.deeper (inner + outer) := by
  simp only [Indent.deeper, Indent.mk.injEq, and_true]
  omega

@[simp] theorem writeLines_nil (indent : Indent) : writeLines indent [] = [] := rfl

theorem writeLines_append (indent : Indent) (first second : List Line) :
    writeLines indent (first ++ second) = writeLines indent first ++ writeLines indent second :=
  List.flatMap_append

theorem writeLines_flush (indent : Indent) (content : String) (lines : List Line) :
    writeLines indent (.flush content :: lines) =
      writeLine indent content ++ writeLines indent lines :=
  List.flatMap_cons

/-- Moving a node in moves each of its lines in. -/
theorem writeLines_deeper (indent : Indent) (levels : Nat) (lines : List Line) :
    writeLines indent (lines.map (.deeper levels)) = writeLines (indent.deeper levels) lines := by
  rw [writeLines, List.flatMap_map]
  apply List.flatMap_congr
  intro line _
  rw [deeper_deeper, Line.deeper]

theorem writeLines_map_flush {α : Type} (indent : Indent) (content : α → String)
    (members : List α) :
    writeLines indent (members.map fun member => .flush (content member)) =
      members.flatMap fun member => writeLine indent (content member) :=
  List.flatMap_map ..

theorem writeLines_flatMap {α : Type} (indent : Indent) (lines : α → List Line)
    (members : List α) :
    writeLines indent (members.flatMap lines) =
      members.flatMap fun member => writeLines indent (lines member) :=
  List.flatMap_assoc

/-! ## Writing a node is writing its lines -/

theorem writeLeading_eq_lines (indent : Indent) (comment : String) :
    writeLeading indent comment = writeLines indent (leadingLines comment) := by
  unfold writeLeading leadingLines
  split
  · rfl
  · rw [writeLines_flush, writeLines_nil, List.append_nil, writeComment]

theorem writeLines_block (indent : Indent) (comment head : String) (members : List Line) :
    writeLines indent (blockLines comment head members) =
      writeLeading indent comment ++ (writeLine indent head ++
        (writeLines (indent.deeper 1) members ++ writeLine indent blockEnd)) := by
  rw [blockLines, writeLines_append, writeLines_flush, writeLines_append, writeLines_deeper,
    writeLines_flush, writeLines_nil, List.append_nil, writeLeading_eq_lines]

theorem writeFurther_eq_lines (indent : Indent) (parameters : List Parameter) :
    writeFurther indent parameters = writeLines indent (furtherLines parameters) := by
  induction parameters with
  | nil => rfl
  | cons parameter more ih =>
    -- the comma depends on whether another parameter follows
    cases more with
    | nil => rfl
    | cons next more =>
      rw [writeFurther, furtherLines, writeLines_flush, ih] <;> exact List.cons_ne_nil _ _

theorem writeSignature_eq_lines (indent : Indent) (signature : Signature) :
    writeSignature indent signature = writeLines indent (signatureLines signature) := by
  obtain ⟨parameters, returnType, comment⟩ := signature
  match parameters with
  | [] => rfl
  | [only] => rfl
  | first :: second :: further =>
    -- only a wrapped signature has more than one line
    simp only [writeSignature, signatureLines]
    rw [writeLines_flush, writeLines_append, writeLines_flush, writeLines_nil,
      List.append_nil, writeFurther_eq_lines, List.append_assoc]

theorem writeCallable_eq_lines (indent : Indent) (callable : Callable) :
    writeCallable indent callable = writeLines indent (callableLines callable) := by
  cases callable with
  | none => rfl
  | methods methods => exact (writeLines_map_flush indent methodText methods).symm
  | signature signature => exact writeSignature_eq_lines indent signature

theorem writeInterface_eq_lines (indent : Indent) (interface : Interface) :
    writeInterface indent interface = writeLines indent (interfaceLines interface) := by
  rw [writeInterface, interfaceLines, writeLines_block, writeLines_append,
    writeLines_map_flush, writeCallable_eq_lines]
  simp only [List.append_assoc]
  rfl

theorem writeDeclaration_eq_lines (indent : Indent) (declared : Declaration) :
    writeDeclaration indent declared = writeLines indent (declarationLines declared) := by
  cases declared with
  | interface declared => exact writeInterface_eq_lines indent declared
  | typedef declared => rfl

theorem writeDeclarations_eq_lines (indent : Indent) (types : List Declaration) :
    (types.flatMap fun declared => writeLine indent "" ++ writeDeclaration indent declared) =
      writeLines indent
        (types.flatMap fun declared => .flush "" :: declarationLines declared) := by
  rw [writeLines_flatMap]
  apply List.flatMap_congr
  intro declared _
  rw [writeLines_flush, writeDeclaration_eq_lines]

mutual

theorem writeNamespace_eq_lines (indent : Indent) : (scope : Namespace) →
    writeNamespace indent scope = writeLines indent (namespaceLines scope)
  | ⟨name, ambient, comment, namespaces, types⟩ => by
    rw [writeNamespace, namespaceLines, writeLines_block, writeLines_append,
      writeNamespaces_eq_lines (indent.deeper 1) namespaces, writeDeclarations_eq_lines]
    simp only [List.append_assoc]

theorem writeNamespaces_eq_lines (indent : Indent) : (namespaces : List Namespace) →
    writeNamespaces indent namespaces = writeLines indent (childrenLines namespaces)
  | [] => by rw [writeNamespaces, childrenLines, writeLines_nil]
  | child :: children => by
    rw [writeNamespaces, childrenLines, writeLines_flush, writeLines_append,
      writeNamespace_eq_lines indent child, writeNamespaces_eq_lines indent children,
      List.append_assoc]

end

/-- **Writing a node is writing its lines**, each at the indentation moved in by its
depth. -/
theorem writeNode_eq_lines (indent : Indent) (node : Node) :
    writeNode indent node = writeLines indent (nodeLines node) := by
  cases node with
  | scope scope => exact writeNamespace_eq_lines indent scope
  | interface interface => exact writeInterface_eq_lines indent interface
  | typedef typedef => rfl
  | property property => rfl
  | method method => rfl
  | signature signature => exact writeSignature_eq_lines indent signature

end Ambient.Layout
