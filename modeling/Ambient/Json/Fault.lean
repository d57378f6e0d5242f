/-
Why a text does not load, and where.

A fault has a cause, the path of the value that was being read, and the place in
the text. Readers know only the text that is left, so a place is the number of
bytes left unread; `Place.lineColumn` turns it into a line and a column once the
whole text is at hand. Columns count bytes.

The path belongs to the value in which the fault was found. A segment is put in
front of it by every list and object that encloses the value, and a fault in a key
has the unknown key `?` as its last segment.
-/
import Ambient.Json.Number
import Ambient.Text.Quoted

set_option autoImplicit false

namespace Ambient.Json

/-! ## Causes -/

/-- What stood where something else was wanted. -/
inductive Found where
  | null
  | flag (value : Bool)
  | number (value : Number)
  | string (value : String)
  | sequence
  | map
  deriving DecidableEq, Repr

/-- Why a text does not load. -/
inductive Cause where
  | endOfValue
  | endOfText
  | endOfList
  | endOfObject
  | badIdentifier
  | badNumber
  | numberOutOfRange
  | controlCharacter
  | badEscape
  | loneSurrogate
  | unfinishedSurrogate
  | badCharacter
  | noValue
  | noCommaInList
  | noCommaInObject
  | noColon
  | keyNotText
  | commaAtEnd
  | moreThanWanted
  | tooDeep
  | repeatedField (key : String)
  | wrongType (found : Found) (wanted : String)
  | wrongLength (length : Nat) (wanted : String)
  deriving DecidableEq, Repr

/-- How a message names what was found. -/
def Found.wording : Found → String
  | .null => "null"
  | .flag value => "boolean `" ++ (if value then "true" else "false") ++ "`"
  | .number (.integer value) => "integer `" ++ toString value ++ "`"
  | .number (.double negative magnitude) =>
    "floating point `" ++ (if negative then "-" else "") ++ magnitude.text ++ "`"
  | .string value => "string " ++ Text.quoted value
  | .sequence => "sequence"
  | .map => "map"

/-- The wording of a cause. -/
def Cause.message : Cause → String
  | .endOfValue => "EOF while parsing a value"
  | .endOfText => "EOF while parsing a string"
  | .endOfList => "EOF while parsing a list"
  | .endOfObject => "EOF while parsing an object"
  | .badIdentifier => "expected ident"
  | .badNumber => "invalid number"
  | .numberOutOfRange => "number out of range"
  | .controlCharacter =>
    "control character (\\u0000-\\u001F) found while parsing a string"
  | .badEscape => "invalid escape"
  | .loneSurrogate => "lone leading surrogate in hex escape"
  | .unfinishedSurrogate => "unexpected end of hex escape"
  | .badCharacter => "invalid unicode code point"
  | .noValue => "expected value"
  | .noCommaInList => "expected `,` or `]`"
  | .noCommaInObject => "expected `,` or `\x7d`"
  | .noColon => "expected `:`"
  | .keyNotText => "key must be a string"
  | .commaAtEnd => "trailing comma"
  | .moreThanWanted => "trailing characters"
  | .tooDeep => "recursion limit exceeded"
  | .repeatedField key => "duplicate field `" ++ key ++ "`"
  | .wrongType found wanted => "invalid type: " ++ found.wording ++ ", expected " ++ wanted
  | .wrongLength length wanted =>
    "invalid length " ++ toString length ++ ", expected " ++ wanted

/-! ## Paths -/

/-- One step from a value to a value inside it. -/
inductive Segment where
  | key (key : String)
  | index (index : Nat)
  | unknownKey
  deriving DecidableEq, Repr

/-- The text of a path after its first segment: keys follow a point, positions
stand in brackets. -/
def Segment.text : Segment → String
  | .key name => "." ++ name
  | .index position => "[" ++ toString position ++ "]"
  | .unknownKey => ".?"

/-- The text of a path. The whole text has the path `.`, and a leading key has no
point. -/
def pathText : List Segment → String
  | [] => "."
  | .key name :: rest => name ++ String.join (rest.map Segment.text)
  | .unknownKey :: rest => "?" ++ String.join (rest.map Segment.text)
  | .index position :: rest =>
    (Segment.index position).text ++ String.join (rest.map Segment.text)

/-! ## Places -/

/-- A place in a text: how many bytes are unread there, and by how many columns to
step back on its line. -/
structure Place where
  unread : Nat
  back : Nat := 0
  deriving DecidableEq, Repr

/-- The line and the column of a place in `text`, both counted in bytes: lines from
one, columns from the last line break. -/
def Place.lineColumn (place : Place) (text : List UInt8) : Nat × Nat :=
  let before := text.take (text.length - place.unread)
  let line := 1 + before.count 0x0A
  let column := (before.reverse.takeWhile (· ≠ 0x0A)).length
  (line, column - place.back)

/-! ## Faults -/

/-- A reason not to load a text, with the path of the value that was being read. -/
structure Fault where
  cause : Cause
  path : List Segment := []
  place : Place
  deriving DecidableEq, Repr

namespace Fault

/-- A fault at the end of the bytes read so far. -/
def here (cause : Cause) (rest : List UInt8) : Fault :=
  ⟨cause, [], ⟨rest.length, 0⟩⟩

/-- A fault at the byte that comes next, which counts as read. At the end of the
text this is the end. -/
def next (cause : Cause) (rest : List UInt8) : Fault :=
  ⟨cause, [], ⟨rest.length - 1, 0⟩⟩

/-- The same fault seen from a value that holds the one it was found in. -/
def inside (segment : Segment) (fault : Fault) : Fault :=
  { fault with path := segment :: fault.path }

/-- The wording of a fault in `text`, without its path. -/
def detail (fault : Fault) (text : List UInt8) : String :=
  let (line, column) := fault.place.lineColumn text
  fault.cause.message ++ " at line " ++ toString line ++ " column " ++ toString column

end Fault

/-- Reads a value off the front of a text and gives it with the rest. -/
abbrev Reader (α : Type) : Type := List UInt8 → Except Fault (α × List UInt8)

end Ambient.Json
