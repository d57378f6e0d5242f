/-
A run of the program.

The domains are loaded and converted into one protocol. `validate` reports its issues.
`generate` writes its text to the standard output or to a file, for which missing
directories are made; when it is strict, issues are reported and nothing is written.
A run that reports issues has failed.
-/
import Ambient.Cli.Arguments
import Ambient.Cli.Inputs
import Ambient.Convert.Protocol
import Ambient.Layout.Writing
import Ambient.Scope.Check

set_option autoImplicit false

namespace Ambient.Cli

open Ambient.Files

/-- What a run leaves behind besides files: the messages, the standard output, and the
failure if it has failed. -/
structure Outcome where
  entries : List Entry
  output : String := ""
  failure? : Option Failure := none
  deriving DecidableEq, Repr

namespace Outcome

/-- The exit code of arguments that ask for no run. -/
def refusedCode : Nat := 2

/-- The exit code of a run. -/
def code (outcome : Outcome) : Nat := if outcome.failure?.isSome then 1 else 0

/-- The texts of the standard error: the messages that are shown, and the failure. -/
def errors (outcome : Outcome) (verbosity : Verbosity) : List String :=
  (outcome.entries.filter fun entry => verbosity.shows entry.level).map Entry.text ++
    (outcome.failure?.map fun failure => "error: " ++ failure.message).toList

end Outcome

/-- The message about an issue. -/
def issueEntry (issue : Scope.Issue) : Entry := ⟨.warn, issue.message⟩

/-- The outcome of a run that reports issues. -/
def reported (entries : List Entry) (issues : List Scope.Issue) : Outcome :=
  { entries := entries ++ issues.map issueEntry, failure? := some (.invalid issues) }

section

variable {m : Type → Type} [Monad m] [FileStore m]

/-- Makes a directory and those above it that are missing. Every round goes one
directory up. -/
def makeDirectories : Nat → String → m (Except OsError Unit)
  | 0, _ => return .error .notFound
  | rounds + 1, path => do
    if path.isEmpty then return .ok ()
    match ← FileStore.makeDirectory path with
    | .ok () => return .ok ()
    | .error .notFound =>
      match parent? path with
      | none => return .error .notFound
      | some above =>
        match ← makeDirectories rounds above with
        | .error error => return .error error
        | .ok () => again path
    | .error error => if ← isDirectory path then return .ok () else return .error error
where
  /-- Makes a directory whose parent is there. -/
  again (path : String) : m (Except OsError Unit) := do
    match ← FileStore.makeDirectory path with
    | .ok () => return .ok ()
    | .error error => if ← isDirectory path then return .ok () else return .error error

/-- Makes the directory that a path is to be in. -/
def makeParent (path : String) : m (Except Failure Unit) :=
  match parent? path with
  | none => return .ok ()
  | some above => do
    return (← makeDirectories (path.length + 1) above).mapError (.uncreated above)

/-- Writes a text to a file, making its directory if need be. -/
def writeOut (path text : String) : m (Except Failure Unit) := do
  match ← makeParent path with
  | .error failure => return .error failure
  | .ok () => return (← FileStore.write path text).mapError (.unwritten path)

/-- Writes the text of a protocol to a file, or to the standard output. -/
def deliver (out? : Option String) (text : String) (entries : List Entry) : m Outcome := do
  let done : List Entry := entries ++ [⟨.info, "Done!"⟩]
  match out? with
  | none => return { entries := done, output := text }
  | some path =>
    match ← writeOut path text with
    | .ok () => return { entries := done }
    | .error failure => return { entries, failure? := some failure }

/-- Carries out a run. -/
def Invocation.run (invocation : Invocation) : m Outcome := do
  let (entries, loaded) ← loadInputs invocation.inputs
  match loaded with
  | .error failure => return { entries, failure? := some failure }
  | .ok domains =>
    let root := Convert.protocol invocation.settings invocation.root domains
    let issues := Scope.issues root
    match invocation.action with
    | .validate =>
      if issues.isEmpty then return { entries := entries ++ [⟨.info, "no issues found"⟩] }
      else return reported entries issues
    | .generate out? indent strict =>
      if strict && !issues.isEmpty then return reported entries issues
      else deliver out? (Layout.render indent root) entries

/-- Carries out the run that arguments ask for, if they are accepted. -/
def run (arguments : List String) : m (Option Outcome) :=
  match Invocation.ofArguments? arguments with
  | none => return none
  | some invocation => return some (← invocation.run)

end

end Ambient.Cli
