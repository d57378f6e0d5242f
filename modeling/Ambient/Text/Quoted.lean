/-
A text in double quotes, as messages show it.

The quote and the backslash are escaped by a backslash. The tab, the line feed, the
carriage return and the null character have escapes of one letter or digit. Every
other character that is not shown as it is appears as its code point in hexadecimal.
-/
import Ambient.Text.Shown

set_option autoImplicit false

namespace Ambient.Text

/-- A character as it stands in a quoted text. -/
def quotedChar (c : Char) : List Char :=
  if c = '"' ∨ c = '\\' then ['\\', c]
  else if c = '\t' then ['\\', 't']
  else if c = '\n' then ['\\', 'n']
  else if c = '\r' then ['\\', 'r']
  else if c = '\x00' then ['\\', '0']
  else if isShown c then [c]
  else '\\' :: 'u' :: '\x7b' :: Nat.toDigits 16 c.toNat ++ ['\x7d']

/-- A text in double quotes. -/
def quoted (text : String) : String :=
  String.ofList ('"' :: text.toList.flatMap quotedChar ++ ['"'])

end Ambient.Text
