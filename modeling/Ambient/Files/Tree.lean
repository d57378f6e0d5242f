/-
Trees of files and directories.

A tree holds regular files and directories and nothing else; the entries of a directory
are in the order in which they are enumerated. A path is followed part by part from some
place in the tree: everything but its last part must lead to a directory, and so must the
whole path if a slash or a point follows. The directory above the root is the root.
-/
import Ambient.Files.Path
import Ambient.Files.Store

set_option autoImplicit false

namespace Ambient.Files

/-- A regular file with its bytes, or a directory with its named entries. -/
inductive Tree where
  | file (bytes : List UInt8)
  | directory (entries : List (String × Tree))
  deriving Inhabited

namespace Tree

/-- The kind of a tree. -/
def kind : Tree → Kind
  | file _ => .file
  | directory _ => .directory

/-- The entries of a directory; a file has none. -/
def entries : Tree → List (String × Tree)
  | file _ => []
  | directory entries => entries

/-- The tree at the end of a list of names. -/
def at? (tree : Tree) : List String → Option Tree
  | [] => some tree
  | name :: names =>
    match tree.entries.lookup name with
    | some inner => inner.at? names
    | none => none

/-- Entries with the one of that name replaced, or added at the end. -/
def putEntry (name : String) (inner : Tree) : List (String × Tree) → List (String × Tree)
  | [] => [(name, inner)]
  | (other, tree) :: more =>
    if other = name then (name, inner) :: more else (other, tree) :: putEntry name inner more

/-- The tree with `inner` put at the end of a list of names. A name that leads nowhere
becomes a directory. -/
def put (tree : Tree) (inner : Tree) : List String → Tree
  | [] => inner
  | name :: names =>
    let below := (tree.entries.lookup name).getD (directory [])
    directory (putEntry name (below.put inner names) tree.entries)

/-! ## Following paths -/

/-- One step along a path, from the names that lead to where it stands, last first. -/
def step (tree : Tree) (standing : List String) (part : String) :
    Except OsError (List String) :=
  match tree.at? standing.reverse with
  | some (directory entries) =>
    if isNoise part then .ok standing
    else if part = ".." then .ok standing.tail
    else if (entries.lookup part).isSome then .ok (part :: standing)
    else .error .notFound
  | some (file _) => .error .notDirectory
  | none => .error .notFound

/-- The names that parts lead to, last first, from where the path stands. -/
def follow (tree : Tree) : List String → List String → Except OsError (List String)
  | standing, [] => .ok standing
  | standing, part :: more =>
    match tree.step standing part with
    | .ok standing => tree.follow standing more
    | .error error => .error error

/-! ## Files of a tree -/

mutual

/-- The regular files of a tree with their paths, given the path of the tree. -/
def filesUnder (path : String) : Tree → List (String × List UInt8)
  | file bytes => [(path, bytes)]
  | directory entries => filesUnderAll path entries

/-- The regular files of the entries of a directory with their paths. -/
def filesUnderAll (path : String) : List (String × Tree) → List (String × List UInt8)
  | [] => []
  | (name, inner) :: more => filesUnder (join path name) inner ++ filesUnderAll path more

end

/-- The regular files of a tree with their paths. -/
def files (tree : Tree) : List (String × List UInt8) := filesUnder "" tree

end Tree

end Ambient.Files
