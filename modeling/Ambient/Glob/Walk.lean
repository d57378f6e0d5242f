/-
Finding the files that a pattern matches.

The parts of a pattern are followed from a starting directory. A part that is a name is
looked up without listing the directory; for any other part the directory is listed in
ascending order. Children of the current directory are named without it. A part that
starts with a written point may also match `.` and `..`, which come first. Two stars
match a directory and everything below it: what the rest of the pattern finds at a child
comes before what it finds further down. The first directory that cannot be listed ends
the walk.

A path of the operating system has fewer than `pathLimit` bytes, which bounds the depth
of the walk.
-/
import Ambient.Files.Store
import Ambient.Glob.Pattern

set_option autoImplicit false

namespace Ambient.Glob

open Ambient.Files

/-- The greatest length of a path. -/
def pathLimit : Nat := 4096

/-- A directory that cannot be listed, and why. -/
structure WalkError where
  directory : String
  error : OsError
  deriving DecidableEq, Repr

/-- The wording of a walk that has failed. -/
def WalkError.message (failed : WalkError) : String :=
  "attempting to read `" ++ failed.directory ++ "` resulted in an error: " ++
    failed.error.message

/-- Programs that fail at the first directory that cannot be listed. -/
abbrev Walk (m : Type → Type) : Type → Type := ExceptT WalkError m

/-- A path inside a directory, named without it if that is the current one. -/
def childPath (directory name : String) : String :=
  if isCurrent directory then name else join directory name

section

variable {m : Type → Type} [Monad m] [FileStore m]

/-- The names in a directory in ascending order. -/
def sortedNames (directory : String) : Walk m (List String) := do
  match ← FileStore.names directory with
  | .ok names => return sortNames names
  | .error error => throw ⟨directory, error⟩

/-- A path as a result, unless only directories are wanted and it is none. -/
def result (directoriesOnly : Bool) (path : String) : Walk m (List String) := do
  if !directoriesOnly || (← isDirectory path) then return [path] else return []

/-- Goes on at a path that has matched: it is a result, or the rest of the pattern is
followed from it. -/
def advance (follow : List Part → String → Walk m (List String)) (directoriesOnly : Bool)
    (more : List Part) (path : String) : Walk m (List String) :=
  if more.isEmpty then result directoriesOnly path else follow more path

/-- Matches the name of a path against the first part. -/
def matchName (follow : List Part → String → Walk m (List String)) (directoriesOnly : Bool)
    (parts : List Part) (path : String) : Walk m (List String) :=
  match parts, fileName? path with
  | part :: more, some name =>
    if part.accepts name then advance follow directoriesOnly more path else return []
  | _, _ => return []

/-- The results at a child of a directory and below it. -/
def visit (follow : List Part → String → Walk m (List String)) (directoriesOnly : Bool)
    (parts : List Part) (path : String) : Walk m (List String) := do
  if parts.head? == some .directories then
    let more := parts.dropWhile (· == .directories)
    if ← isDirectory path then
      let here ← if more.isEmpty then pure [path] else matchName follow directoriesOnly more path
      return here ++ (← follow (.directories :: more) path)
    else matchName follow directoriesOnly more path
  else matchName follow directoriesOnly parts path

/-- The paths that parts match from a directory on. -/
def walk (directoriesOnly : Bool) : Nat → List Part → String → Walk m (List String)
  | 0, _, _ => return []
  | _, [], _ => return []
  | depth + 1, .name name :: more, path => do
    let next := childPath path name
    let found ←
      if name == "." || name == ".." then isDirectory path else doesExist next
    if found then advance (walk directoriesOnly depth) directoriesOnly more next else return []
  | depth + 1, part :: more, path => do
    if ← isDirectory path then
      let names ← sortedNames path
      let special := if part.startsWithPoint then ["..", "."].filter part.accepts else []
      let specials ← special.mapM fun name =>
        advance (walk directoriesOnly depth) directoriesOnly more (join path name)
      let children ← names.mapM fun name =>
        visit (walk directoriesOnly depth) directoriesOnly (part :: more) (childPath path name)
      return specials.flatten ++ children.flatten
    else return []

/-- The paths that a pattern matches. -/
def Pattern.find (pattern : Pattern) : Walk m (List String) :=
  walk pattern.directoriesOnly (pathLimit + pattern.parts.length) pattern.parts
    (if pattern.absolute then "/" else ".")

end

end Ambient.Glob
