/-
The program on the real file system.

Nothing is decided here: `Cli.run` is carried out with the operations of the operating
system, and its outcome is printed. The environment variable `AMBIENT_LOG` may be set to
`warn`, `error` or `off` to show fewer messages.
-/
import Ambient.Cli.Run

set_option autoImplicit false

namespace Ambient

open Ambient.Files

/-! ## The operating system as a file store -/

/-- The number of an error of the operating system, which some operations negate. -/
def errorNumber (code : UInt32) : UInt32 := min code (0 - code)

/-- The error that a failed operation of the operating system stands for. -/
def osError (error : IO.Error) : OsError :=
  match error with
  | .noFileOrDirectory .. => .notFound
  | .alreadyExists .. => .alreadyExists
  | .inappropriateType _ code _ =>
    if errorNumber code = 20 then .notDirectory
    else if errorNumber code = 21 then .isDirectory
    else .other (toString error)
  | _ => .other (toString error)

/-- The result of an operation, or why it failed. -/
def attempt {α : Type} (operation : IO α) : IO (Except OsError α) := do
  match ← operation.toBaseIO with
  | .ok value => return .ok value
  | .error error => return .error (osError error)

instance : FileStore IO where
  kind? path := do
    if path.isEmpty then return none
    match ← ((← IO.currentDir) / path).metadata.toBaseIO with
    | .error _ => return none
    | .ok data =>
      match data.type with
      | .file => return some .file
      | .dir => return some .directory
      | _ => return some .other
  names path := attempt do
    let entries ← ((← IO.currentDir) / path).readDir
    return entries.toList.map (·.fileName)
  read path := attempt do
    let bytes ← IO.FS.readBinFile path
    return bytes.data.toList
  makeDirectory path := attempt (IO.FS.createDir path)
  write path text := attempt (IO.FS.writeFile path text)

/-- Which messages are shown, from the value of the environment variable. -/
def verbosity (value? : Option String) : Cli.Verbosity :=
  match value? with
  | some "warn" => .warnings
  | some "error" | some "off" => .silent
  | _ => .all

end Ambient

/-- Runs the program on its arguments and prints what it leaves behind. -/
def main (arguments : List String) : IO UInt32 := do
  match ← (Ambient.Cli.run arguments : IO (Option Ambient.Cli.Outcome)) with
  | none =>
    IO.eprintln "error: the arguments ask for no run"
    return UInt32.ofNat Ambient.Cli.Outcome.refusedCode
  | some outcome =>
    for line in outcome.errors (Ambient.verbosity (← IO.getEnv "AMBIENT_LOG")) do
      IO.eprintln line
    IO.print outcome.output
    return UInt32.ofNat outcome.code
