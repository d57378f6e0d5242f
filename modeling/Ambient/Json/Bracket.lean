/-
Lists and objects: brackets, commas and colons.

The elements of a list and the entries of an object are read by one loop each,
`readElements` and `readEntries`, over a reader for what stands between the commas.
Every round reads at least one byte, so the number of bytes left bounds the rounds.
Both loops stop in front of the closing bracket.

What an entry means may be refused by the object as a whole, and then no place
belongs to the fault (`Stop.refused`). `readObject` gives it one: the closing
bracket is passed over if it happens to come next, and the fault lies there.
-/
import Ambient.Json.Text

set_option autoImplicit false

namespace Ambient.Json

/-! ## Lists -/

/-- Looks for the next element of a list. Gives the text at the element, or nothing
in front of the closing bracket. -/
def nextElement? (first : Bool) (text : List UInt8) : Except Fault (Option (List UInt8)) :=
  match skipSpace text with
  | [] => .error (.next .endOfList [])
  | b :: rest =>
    if b = Byte.listClose then .ok none
    else if first then .ok (some (b :: rest))
    else if b = Byte.comma then
      match skipSpace rest with
      | [] => .error (.next .endOfValue [])
      | c :: after =>
        if c = Byte.listClose then .error (.next .commaAtEnd (c :: after))
        else .ok (some (c :: after))
    else .error (.next .noCommaInList (b :: rest))

/-- Reads elements up to the closing bracket, the first of them at position `index`. -/
def readElements {α : Type} (read : Reader α) : Nat → Nat → Reader (List α)
  | 0, _, text => .ok ([], text)
  | rounds + 1, index, text =>
    match nextElement? (index == 0) text with
    | .error fault => .error fault
    | .ok none => .ok ([], text)
    | .ok (some element) =>
      match read element with
      | .error fault => .error (fault.inside (.index index))
      | .ok (value, rest) =>
        match readElements read rounds (index + 1) rest with
        | .error fault => .error fault
        | .ok (values, rest) => .ok (value :: values, rest)

/-- Passes over the closing bracket of a list of which no more elements are wanted. -/
def closeList (text : List UInt8) : Except Fault (List UInt8) :=
  match skipSpace text with
  | [] => .error (.next .endOfList [])
  | b :: rest =>
    if b = Byte.listClose then .ok rest
    else if b = Byte.comma then
      match skipSpace rest with
      | [] => .error (.next .moreThanWanted [])
      | c :: after =>
        if c = Byte.listClose then .error (.next .commaAtEnd (c :: after))
        else .error (.next .moreThanWanted (c :: after))
    else .error (.next .moreThanWanted (b :: rest))

/-! ## Objects -/

/-- Why an object is given up: a fault with a place, or a refusal by the object as a
whole, found with `rest` still unread. -/
inductive Stop where
  | fault (fault : Fault)
  | refused (cause : Cause) (rest : List UInt8)

/-- Looks for the next key of an object. Gives it with the text after it, or nothing
in front of the closing bracket. -/
def nextKey? (first : Bool) (text : List UInt8) : Except Fault (Option (String × List UInt8)) :=
  match skipSpace text with
  | [] => .error (.next .endOfObject [])
  | b :: rest =>
    if b = Byte.objectClose then .ok none
    else if first then
      if b = Byte.quote then some <$> readString rest
      else .error (.next .keyNotText (b :: rest))
    else if b = Byte.comma then
      match skipSpace rest with
      | [] => .error (.next .endOfValue [])
      | c :: after =>
        if c = Byte.quote then some <$> readString after
        else if c = Byte.objectClose then .error (.next .commaAtEnd (c :: after))
        else .error (.next .keyNotText (c :: after))
    else .error (.next .noCommaInObject (b :: rest))

/-- Passes over the colon after a key. -/
def expectColon (text : List UInt8) : Except Fault (List UInt8) :=
  match skipSpace text with
  | [] => .error (.next .endOfObject [])
  | b :: rest => if b = Byte.colon then .ok rest else .error (.next .noColon (b :: rest))

/-- Reads the value of an entry, after its key. -/
def readEntry {α : Type} (read : Reader α) (key : String) : Reader α := fun text => do
  let text ← expectColon text
  match read text with
  | .ok result => .ok result
  | .error fault => .error (fault.inside (.key key))

/-- Reads entries up to the closing bracket. `enter` is given each key with the text
after it, and reads the rest of the entry into the state. -/
def readEntries {σ : Type} (enter : String → σ → List UInt8 → Except Stop (σ × List UInt8)) :
    Nat → Bool → σ → List UInt8 → Except Stop (σ × List UInt8)
  | 0, _, state, text => .ok (state, text)
  | rounds + 1, first, state, text =>
    match nextKey? first text with
    | .error fault => .error (.fault (fault.inside .unknownKey))
    | .ok none => .ok (state, text)
    | .ok (some (key, rest)) =>
      match enter key state rest with
      | .error stop => .error stop
      | .ok (state, rest) => readEntries enter rounds false state rest

/-- The text after white space and one closing bracket, if that comes next. -/
def passObjectClose (text : List UInt8) : List UInt8 :=
  match skipSpace text with
  | [] => []
  | b :: rest => if b = Byte.objectClose then rest else b :: rest

/-- Reads an object after its opening bracket; `body` reads up to the closing one. -/
def readObject {σ : Type} (body : List UInt8 → Except Stop (σ × List UInt8)) : Reader σ :=
  fun text =>
    match body text with
    | .ok (state, rest) => .ok (state, passObjectClose rest)
    | .error (.fault fault) => .error fault
    | .error (.refused cause rest) => .error (.here cause (passObjectClose rest))

end Ambient.Json
