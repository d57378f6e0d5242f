/-
Writing a declaration tree as indented lines.

Writing a node gives the pieces of text that go to the output, in order; a line is
three pieces, its indentation, its content and the line break, and only its start is
indented, whatever its content holds. `render` is the text of all pieces.

Blocks, that is namespaces and interfaces, are preceded by their comment if they have
one. In a namespace the children come first and then the types, each preceded by a line
without content. Properties, aliases and methods are one line that always ends in a
comment. A call signature is one line while it has at most one parameter; otherwise each
parameter has a line of its own.
-/
import Ambient.Layout.Indent
import Ambient.Tree.Basic

set_option autoImplicit false

namespace Ambient.Layout

open Ambient.Tree

/-! ## Texts inside a line -/

/-- What follows the name of something optional. -/
def optionalMark (optional : Bool) : String := if optional then "?" else ""

/-- A parameter, with its comment if it has one. -/
def parameterText (parameter : Parameter) : String :=
  let slot := parameter.name ++ optionalMark parameter.optional ++ ": " ++ parameter.type
  if parameter.comment.isEmpty then slot else slot ++ " /* " ++ parameter.comment ++ " */"

/-- The content of the line of a property. -/
def propertyText (property : Property) : String :=
  property.name ++ optionalMark property.optional ++ ": " ++ property.type ++ "; // " ++
    property.comment

/-- The content of the line of an alias. -/
def typedefText (typedef : Typedef) : String :=
  "type " ++ typedef.name ++ " = " ++ typedef.underlying ++ "; // " ++ typedef.comment

/-- The content of the line of a method. -/
def methodText (method : Method) : String :=
  method.name ++ "(" ++ ", ".intercalate (method.parameters.map parameterText) ++ "): " ++
    method.returnType ++ "; // " ++ method.comment

/-- What closes a call signature: the return type, and the comment if there is one. -/
def signatureEnd (signature : Signature) : String :=
  signature.returnType ++ ";" ++
    (if signature.comment.isEmpty then "" else " // " ++ signature.comment)

/-- The first line of the block of a namespace. -/
def namespaceHead (ambient : Bool) (name : String) : String :=
  (if ambient then "declare " else "") ++ "namespace " ++ name ++ " \x7b"

/-- The first line of the block of an interface. -/
def interfaceHead (name : String) : String := "interface " ++ name ++ " \x7b"

/-- The last line of a block. -/
def blockEnd : String := "\x7d"

/-! ## Pieces -/

/-- Writes a line. -/
def writeLine (indent : Indent) (content : String) : List String :=
  [indent.text, content, "\n"]

/-- Writes a line that holds a comment. -/
def writeComment (indent : Indent) (comment : String) : List String :=
  writeLine indent ("// " ++ comment)

/-- Writes the comment in front of a block, if there is one. -/
def writeLeading (indent : Indent) (comment : String) : List String :=
  if comment.isEmpty then [] else writeComment indent comment

/-- Writes a property. -/
def writeProperty (indent : Indent) (property : Property) : List String :=
  writeLine indent (propertyText property)

/-- Writes an alias. -/
def writeTypedef (indent : Indent) (typedef : Typedef) : List String :=
  writeLine indent (typedefText typedef)

/-- Writes a method. -/
def writeMethod (indent : Indent) (method : Method) : List String :=
  writeLine indent (methodText method)

/-- Writes the second and later parameters of a wrapped call signature. -/
def writeFurther (indent : Indent) : List Parameter → List String
  | [] => []
  | [last] => writeLine indent (" " ++ parameterText last)
  | parameter :: more =>
    writeLine indent (" " ++ parameterText parameter ++ ",") ++ writeFurther indent more

/-- Writes a call signature. -/
def writeSignature (indent : Indent) (signature : Signature) : List String :=
  match signature.parameters with
  | [] => writeLine indent ("(): " ++ signatureEnd signature)
  | [only] => writeLine indent ("(" ++ parameterText only ++ "): " ++ signatureEnd signature)
  | first :: further =>
    writeLine indent ("(" ++ parameterText first ++ ",") ++ writeFurther indent further ++
      writeLine indent ("): " ++ signatureEnd signature)

/-- Writes how an interface is called. -/
def writeCallable (indent : Indent) : Callable → List String
  | .none => []
  | .methods methods => methods.flatMap (writeMethod indent)
  | .signature signature => writeSignature indent signature

/-- Writes an interface. -/
def writeInterface (indent : Indent) (interface : Interface) : List String :=
  writeLeading indent interface.comment ++
    writeLine indent (interfaceHead interface.name) ++
    interface.properties.flatMap (writeProperty (indent.deeper 1)) ++
    writeCallable (indent.deeper 1) interface.callable ++
    writeLine indent blockEnd

/-- Writes a declared type. -/
def writeDeclaration (indent : Indent) : Declaration → List String
  | .interface declared => writeInterface indent declared
  | .typedef declared => writeTypedef indent declared

mutual

/-- Writes a namespace. -/
def writeNamespace (indent : Indent) : Namespace → List String
  | ⟨name, ambient, comment, namespaces, types⟩ =>
    writeLeading indent comment ++
      writeLine indent (namespaceHead ambient name) ++
      writeNamespaces (indent.deeper 1) namespaces ++
      types.flatMap (fun declared =>
        writeLine (indent.deeper 1) "" ++ writeDeclaration (indent.deeper 1) declared) ++
      writeLine indent blockEnd

/-- Writes child namespaces, each after a line without content. -/
def writeNamespaces (indent : Indent) : List Namespace → List String
  | [] => []
  | child :: children =>
    writeLine indent "" ++ writeNamespace indent child ++ writeNamespaces indent children

end

/-- Writes any node. -/
def writeNode (indent : Indent) : Node → List String
  | .scope scope => writeNamespace indent scope
  | .interface interface => writeInterface indent interface
  | .typedef typedef => writeTypedef indent typedef
  | .property property => writeProperty indent property
  | .method method => writeMethod indent method
  | .signature signature => writeSignature indent signature

/-! ## Text -/

/-- The text of a node. -/
def renderNode (indent : Indent) (node : Node) : String := String.join (writeNode indent node)

/-- The text of a namespace. -/
def render (indent : Indent) (scope : Namespace) : String :=
  String.join (writeNamespace indent scope)

end Ambient.Layout
