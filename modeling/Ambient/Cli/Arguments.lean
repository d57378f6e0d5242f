/-
The command line: which run the arguments ask for.

The first argument names the command. Options follow in any order; `--input` takes one
or more values and may be repeated, every other option takes one value or none and may
occur once. An argument that starts with a hyphen and is more than a hyphen is never the
value of the option before it, but a value may be attached, after an equals sign or, to
a short option, directly. After an attached value no more values follow. Nothing but
options and their values is accepted, so `--` may only come last.

Arguments are read one by one; what the next one may be is part of the state (`Wants`).
Arguments that ask for no run are all refused alike.
-/
import Ambient.Convert.Basic
import Ambient.Layout.Indent

set_option autoImplicit false

namespace Ambient.Cli

/-! ## What is asked for -/

/-- What becomes of the declarations: they are written to a file or to the standard
output, or they are only checked. -/
inductive Action where
  | generate (out? : Option String) (indent : Layout.Indent) (strict : Bool)
  | validate
  deriving DecidableEq, Repr

/-- A run of the program. -/
structure Invocation where
  inputs : List String
  root : String
  settings : Convert.Settings
  action : Action
  deriving DecidableEq, Repr

/-- A command. -/
inductive Mode where
  | generate
  | validate
  deriving DecidableEq, Repr

/-- The command of that name. -/
def Mode.ofName? (name : String) : Option Mode :=
  if name = "generate" then some .generate
  else if name = "validate" then some .validate
  else none

/-! ## Options -/

/-- An option. -/
inductive Flag where
  | input
  | root
  | style
  | resultSuffix
  | out
  | indentWidth
  | tabs
  | strict
  deriving DecidableEq, Repr

namespace Flag

/-- The long name of an option. -/
def name : Flag → String
  | input => "input"
  | root => "namespace"
  | style => "style"
  | resultSuffix => "result-suffix"
  | out => "out"
  | indentWidth => "indent-width"
  | tabs => "tabs"
  | strict => "strict"

/-- The letter of an option that has one. -/
def letter? : Flag → Option Char
  | input => some 'i'
  | out => some 'o'
  | root | style | resultSuffix | indentWidth | tabs | strict => none

/-- Whether an option takes a value. -/
def takesValue : Flag → Bool
  | tabs | strict => false
  | input | root | style | resultSuffix | out | indentWidth => true

/-- The options of a command. -/
def ofMode : Mode → List Flag
  | .generate => [input, root, style, resultSuffix, out, indentWidth, tabs, strict]
  | .validate => [input, root, style, resultSuffix]

end Flag

/-! ## Values -/

/-- The style of that name. -/
def readStyle? (text : String) : Option Convert.Style :=
  if text = "separated" then some .separated
  else if text = "unified" then some .unified
  else none

/-- The number that decimal digits stand for, a plus sign in front allowed, if it is less
than `2 ^ 64`. -/
def readWidth? (text : String) : Option Nat :=
  let digits :=
    match text.toList with
    | '+' :: digits => digits
    | digits => digits
  if digits.isEmpty || !digits.all Char.isDigit then none
  else
    let value := digits.foldl (fun value digit => value * 10 + (digit.toNat - '0'.toNat)) 0
    if value < Nat.pow 2 64 then some value else none

/-- A text that is not empty. -/
def nonEmpty? (text : String) : Option String := if text.isEmpty then none else some text

/-! ## Reading -/

/-- The options read so far. -/
structure Chosen where
  inputs : List String := []
  root? : Option String := none
  style? : Option Convert.Style := none
  resultSuffix? : Option String := none
  out? : Option String := none
  indentWidth? : Option Nat := none
  tabs : Bool := false
  strict : Bool := false

/-- What the next argument may be: an option; the value of an option, which must come; or
an option or one more input. -/
inductive Wants where
  | option
  | value (flag : Flag)
  | more
  deriving DecidableEq, Repr

/-- Fills a place that may be filled once. -/
def fill? {α : Type} (place value : Option α) : Option (Option α) :=
  match place, value with
  | none, some value => some (some value)
  | _, _ => none

/-- Chooses an option with its value. -/
def Chosen.set? (chosen : Chosen) (flag : Flag) (value : String) : Option Chosen :=
  match flag with
  | .input => some { chosen with inputs := chosen.inputs ++ [value] }
  | .root => do return { chosen with root? := ← fill? chosen.root? (some value) }
  | .style => do return { chosen with style? := ← fill? chosen.style? (readStyle? value) }
  | .resultSuffix => do
    return { chosen with resultSuffix? := ← fill? chosen.resultSuffix? (some value) }
  | .out => do return { chosen with out? := ← fill? chosen.out? (nonEmpty? value) }
  | .indentWidth => do
    return { chosen with indentWidth? := ← fill? chosen.indentWidth? (readWidth? value) }
  | .tabs | .strict => none

/-- Chooses an option without a value. -/
def Chosen.mark? (chosen : Chosen) (flag : Flag) : Option Chosen :=
  match flag with
  | .tabs => if chosen.tabs then none else some { chosen with tabs := true }
  | .strict => if chosen.strict then none else some { chosen with strict := true }
  | .input | .root | .style | .resultSuffix | .out | .indentWidth => none

/-- Chooses an option, given the value attached to it, if any. -/
def choose? (flag : Flag) (attached? : Option String) (chosen : Chosen) :
    Option (Wants × Chosen) :=
  match attached?, flag.takesValue with
  | some value, true => (chosen.set? flag value).map (.option, ·)
  | none, true => some (.value flag, chosen)
  | some _, false => none
  | none, false => (chosen.mark? flag).map (.option, ·)

/-- Splits a text at its first equals sign: the name, and the value after the sign. -/
def splitEquals (text : List Char) : List Char × Option (List Char) :=
  match text.dropWhile (· ≠ '=') with
  | [] => (text, none)
  | _ :: value => (text.takeWhile (· ≠ '='), some value)

/-- Reads the text of a long option after its hyphens. -/
def readLong (mode : Mode) (text : List Char) (chosen : Chosen) : Option (Wants × Chosen) := do
  let (name, attached?) := splitEquals text
  let flag ← (Flag.ofMode mode).find? (·.name == String.ofList name)
  choose? flag (attached?.map String.ofList) chosen

/-- Reads a short option: its letter, and what follows it. -/
def readShort (mode : Mode) (letter : Char) (attached : List Char) (chosen : Chosen) :
    Option (Wants × Chosen) := do
  let flag ← (Flag.ofMode mode).find? (·.letter? == some letter)
  match attached with
  | [] => choose? flag none chosen
  | '=' :: value => choose? flag (some (String.ofList value)) chosen
  | value => choose? flag (some (String.ofList value)) chosen

/-- Reads the arguments after the command. -/
def readOptions (mode : Mode) : Wants → Chosen → List String → Option Chosen
  | .value _, _, [] => none
  | .option, chosen, [] | .more, chosen, [] => some chosen
  | wants, chosen, argument :: rest =>
    match argument.toList, wants with
    | ['-', '-'], .value _ => none
    | ['-', '-'], _ => if rest.isEmpty then some chosen else none
    | '-' :: '-' :: text, .option | '-' :: '-' :: text, .more =>
      match readLong mode text chosen with
      | some (wants, chosen) => readOptions mode wants chosen rest
      | none => none
    | '-' :: letter :: text, .option | '-' :: letter :: text, .more =>
      match readShort mode letter text chosen with
      | some (wants, chosen) => readOptions mode wants chosen rest
      | none => none
    | '-' :: _ :: _, .value _ => none
    | _, .option => none
    | _, .more =>
      match chosen.set? .input argument with
      | some chosen => readOptions mode .more chosen rest
      | none => none
    | _, .value flag =>
      match chosen.set? flag argument with
      | some chosen =>
        readOptions mode (if flag = .input then .more else .option) chosen rest
      | none => none

/-- The run that the chosen options ask for. -/
def Chosen.invocation? (chosen : Chosen) (mode : Mode) : Option Invocation :=
  if chosen.inputs.isEmpty || (chosen.tabs && chosen.indentWidth?.isSome) then none
  else
    let defaults : Convert.Settings := {}
    let indent : Layout.Indent :=
      if chosen.tabs then { unit := "\t" } else .spaces (chosen.indentWidth?.getD 4)
    some
      { inputs := chosen.inputs
        root := chosen.root?.getD "Webkit"
        settings :=
          { style := chosen.style?.getD defaults.style
            resultSuffix := chosen.resultSuffix?.getD defaults.resultSuffix }
        action :=
          match mode with
          | .generate => .generate chosen.out? indent chosen.strict
          | .validate => .validate }

/-- The run that arguments ask for, if they are accepted. -/
def Invocation.ofArguments? : List String → Option Invocation
  | [] => none
  | command :: arguments => do
    let mode ← Mode.ofName? command
    let chosen ← readOptions mode .option {} arguments
    chosen.invocation? mode

end Ambient.Cli
