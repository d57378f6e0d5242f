/-
What a run tells about itself while it goes on.

A message is shown if its level is at least the one that is asked for. Characters that
could steer a terminal are shown by their code.
-/
set_option autoImplicit false

namespace Ambient.Cli

/-- The level of a message. -/
inductive Level where
  | info
  | warn
  deriving DecidableEq, Repr

/-- Which messages are shown. -/
inductive Verbosity where
  | all
  | warnings
  | silent
  deriving DecidableEq, Repr

/-- Whether messages of a level are shown. -/
def Verbosity.shows : Verbosity → Level → Bool
  | .all, _ => true
  | .warnings, level => level == .warn
  | .silent, _ => false

/-- A message with its level. -/
structure Entry where
  level : Level
  message : String
  deriving DecidableEq, Repr

/-- The name of a level in front of a message. -/
def Level.name : Level → String
  | .info => "INFO"
  | .warn => "WARN"

/-- A character of a message as it is shown. -/
def shownChar (c : Char) : List Char :=
  let code := c.toNat
  let hex := Nat.toDigits 16 code
  if code = 0x1B ∨ code = 0x7F then '\\' :: 'x' :: hex
  else if code = 0x07 ∨ code = 0x08 ∨ code = 0x0C then '\\' :: 'x' :: '0' :: hex
  else if 0x80 ≤ code ∧ code ≤ 0x9F then '\\' :: 'u' :: '\x7b' :: hex ++ ['\x7d']
  else [c]

/-- The text of a message as it is shown. -/
def Entry.text (entry : Entry) : String :=
  entry.level.name ++ " " ++ String.ofList (entry.message.toList.flatMap shownChar)

end Ambient.Cli
