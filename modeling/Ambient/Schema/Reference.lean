/-
References to types, as a protocol description writes them, and the shape each
of them stands for.

A description spells a reference with up to three fields: a kind tag, the name
of a target, and the reference of an array's elements. Any combination may
occur, so the raw spelling (`Reference`) is kept apart from what it means
(`Shape`). `Reference.shape` is the only place where one is turned into the
other: the tag `array` wins over everything, then any other non-empty tag, then
the target, and a reference with neither stands for nothing. `Shape.text` is the
spelling of a shape in the declarations.
-/
set_option autoImplicit false

namespace Ambient.Schema

/-! ## The raw spelling -/

/-- A reference as written: an optional kind tag, an optional target name, and,
in `withItems`, the reference of the elements. -/
inductive Reference where
  | bare (kind? target? : Option String)
  | withItems (kind? target? : Option String) (items : Reference)
  deriving DecidableEq, Repr, Inhabited

namespace Reference

/-- The kind tag, if one is written. -/
def kind? : Reference → Option String
  | bare kind? _ => kind?
  | withItems kind? _ _ => kind?

/-- The name of the target, if one is written. -/
def target? : Reference → Option String
  | bare _ target? => target?
  | withItems _ target? _ => target?

/-- The reference of the elements, if one is written. -/
def items? : Reference → Option Reference
  | bare _ _ => none
  | withItems _ _ items => some items

/-- A reference from its three fields. -/
def ofFields (kind? target? : Option String) : Option Reference → Reference
  | none => bare kind? target?
  | some items => withItems kind? target? items

/-- The reference that writes nothing. -/
def blank : Reference := bare none none

/-- A reference to the primitive `kind`. -/
def primitive (kind : String) : Reference := bare (some kind) none

/-- A reference to the type named `target`. -/
def named (target : String) : Reference := bare none (some target)

/-- A reference to an array of `items`. -/
def array (items : Reference) : Reference := withItems (some "array") none items

/-- `items` wrapped in `depth` arrays. -/
def nested (items : Reference) : Nat → Reference
  | 0 => items
  | depth + 1 => array (nested items depth)

@[simp] theorem kind?_ofFields (kind? target? : Option String) (items? : Option Reference) :
    (ofFields kind? target? items?).kind? = kind? := by
  cases items? <;> rfl

@[simp] theorem target?_ofFields (kind? target? : Option String) (items? : Option Reference) :
    (ofFields kind? target? items?).target? = target? := by
  cases items? <;> rfl

@[simp] theorem items?_ofFields (kind? target? : Option String) (items? : Option Reference) :
    (ofFields kind? target? items?).items? = items? := by
  cases items? <;> rfl

/-- A reference is its three fields. -/
theorem ofFields_fields (reference : Reference) :
    ofFields reference.kind? reference.target? reference.items? = reference := by
  cases reference <;> rfl

end Reference

/-! ## What a reference stands for -/

/-- What a reference stands for. An array may lack the reference of its elements
(`arrayOfUnknown`), and a reference may name nothing at all (`unresolved`). -/
inductive Shape where
  | primitive (kind : String)
  | array (elements : Shape)
  | arrayOfUnknown
  | named (target : String)
  | unresolved
  deriving DecidableEq, Repr

/-- The shape of a reference that is no array: a non-empty kind tag wins over the
target. -/
def Shape.ofLeaf (kind? target? : Option String) : Shape :=
  match kind?.filter (· ≠ ""), target? with
  | some kind, _ => .primitive kind
  | none, some target => .named target
  | none, none => .unresolved

/-- What a reference stands for: the tag `array` is looked for first. -/
def Reference.shape : Reference → Shape
  | .bare kind? target? =>
    if kind? = some "array" then .arrayOfUnknown else .ofLeaf kind? target?
  | .withItems kind? target? items =>
    if kind? = some "array" then .array items.shape else .ofLeaf kind? target?

/-! ## The spelling in the declarations -/

/-- The type text of numbers. -/
def numberText : String := "number"

/-- The type text of anything at all. -/
def anyText : String := "any"

/-- The type text of a reference that stands for nothing. -/
def unresolvedText : String := "undefined"

/-- Follows the text of an array's elements. -/
def arrayMarker : String := "[]"

/-- The type text of a primitive: integers are numbers, a bare object is
anything, and every other kind is its own text. -/
def primitiveText (kind : String) : String :=
  if kind = "integer" then numberText
  else if kind = "object" then anyText
  else kind

/-- The type text of a shape. -/
def Shape.text : Shape → String
  | .primitive kind => primitiveText kind
  | .array elements => elements.text ++ arrayMarker
  | .arrayOfUnknown => unresolvedText ++ arrayMarker
  | .named target => target
  | .unresolved => unresolvedText

/-- The type text of a reference. -/
def Reference.text (reference : Reference) : String := reference.shape.text

end Ambient.Schema
