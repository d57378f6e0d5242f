/-
Indentation: a level, and the text that one level takes.
-/
set_option autoImplicit false

namespace Ambient.Layout

/-- Where lines start: `level` times the text `unit`. -/
structure Indent where
  level : Nat := 0
  unit : String := "    "
  deriving DecidableEq, Repr, Inhabited

namespace Indent

/-- A text repeated a number of times. -/
def repeated (text : String) : Nat → String
  | 0 => ""
  | count + 1 => text ++ repeated text count

/-- No indentation yet, and `width` spaces for each level. -/
def spaces (width : Nat) : Indent := { unit := repeated " " width }

/-- The indentation some levels further in. -/
def deeper (indent : Indent) (levels : Nat) : Indent :=
  { indent with level := indent.level + levels }

/-- The text that a line starts with. -/
def text (indent : Indent) : String := repeated indent.unit indent.level

end Indent

end Ambient.Layout
