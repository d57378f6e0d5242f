/-
What the program needs of a file system.

`FileStore m` is the list of operations; the program is written over any monad that has
them. An operation that can fail gives an `OsError`, whose wording is the one of the
operating system.
-/
set_option autoImplicit false

namespace Ambient.Files

/-- Why an operation on a file failed. -/
inductive OsError where
  | notFound
  | alreadyExists
  | notDirectory
  | isDirectory
  | other (wording : String)
  deriving DecidableEq, Repr

/-- The wording of a failed operation. -/
def OsError.message : OsError → String
  | .notFound => "No such file or directory (os error 2)"
  | .alreadyExists => "File exists (os error 17)"
  | .notDirectory => "Not a directory (os error 20)"
  | .isDirectory => "Is a directory (os error 21)"
  | .other wording => wording

/-- What a path leads to. -/
inductive Kind where
  | file
  | directory
  | other
  deriving DecidableEq, Repr

/-- A file system: what a path leads to, the names in a directory in any order, the
bytes of a file, and making directories and files. -/
class FileStore (m : Type → Type) where
  kind? : String → m (Option Kind)
  names : String → m (Except OsError (List String))
  read : String → m (Except OsError (List UInt8))
  makeDirectory : String → m (Except OsError Unit)
  write : String → String → m (Except OsError Unit)

/-- Programs that may fail have the operations of those that may not. -/
instance {ε : Type} {m : Type → Type} [Monad m] [FileStore m] : FileStore (ExceptT ε m) where
  kind? path := ExceptT.lift (FileStore.kind? path)
  names path := ExceptT.lift (FileStore.names path)
  read path := ExceptT.lift (FileStore.read path)
  makeDirectory path := ExceptT.lift (FileStore.makeDirectory path)
  write path text := ExceptT.lift (FileStore.write path text)

section

variable {m : Type → Type} [Monad m] [FileStore m]

/-- Whether a path leads to a directory. -/
def isDirectory (path : String) : m Bool := do
  return (← FileStore.kind? path) == some .directory

/-- Whether a path leads to a regular file. -/
def isFile (path : String) : m Bool := do
  return (← FileStore.kind? path) == some .file

/-- Whether a path leads to anything. -/
def doesExist (path : String) : m Bool := do
  return (← FileStore.kind? path).isSome

end

end Ambient.Files
