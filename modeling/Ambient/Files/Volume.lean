/-
A file system as a value.

A `Volume` is a tree of files together with the directory where relative paths start;
absolute paths start at the root. `OnVolume` runs a program on a volume.
-/
import Ambient.Files.Tree

set_option autoImplicit false

namespace Ambient.Files

/-- A tree, and the names that lead to the directory where relative paths start, last
first. -/
structure Volume where
  tree : Tree
  here : List String := []

namespace Volume

/-- The names from which a path is followed, last first. -/
def start (volume : Volume) (path : String) : List String :=
  if isAbsolute path then [] else volume.here

/-- The names that a path leads to, last first. -/
def resolve (volume : Volume) (path : String) : Except OsError (List String) :=
  if path.isEmpty then .error .notFound
  else volume.tree.follow (volume.start path) (parts path)

/-- The tree that a path leads to. -/
def find (volume : Volume) (path : String) : Except OsError Tree :=
  match volume.resolve path with
  | .ok names => ((volume.tree.at? names.reverse).map .ok).getD (.error .notFound)
  | .error error => .error error

/-- Splits the last part off a path: the part, and the names that the path before it
leads to, last first. A path of slashes has the last part `.`, as it leads to the place
where it stands. -/
def resolveLast (volume : Volume) (path : String) : Except OsError (String × List String) :=
  if path.isEmpty then .error .notFound
  else
    match (parts path).reverse.dropWhile (·.isEmpty) with
    | [] => .ok (".", volume.start path)
    | last :: before =>
      match volume.tree.follow (volume.start path) before.reverse with
      | .ok names =>
        match volume.tree.at? names.reverse with
        | some (.directory _) => .ok (last, names)
        | some (.file _) => .error .notDirectory
        | none => .error .notFound
      | .error error => .error error

/-- The volume with `inner` put at the end of a list of names, given last first. -/
def put (volume : Volume) (inner : Tree) (names : List String) : Volume :=
  { volume with tree := volume.tree.put inner names.reverse }

/-! ## Operations -/

/-- The names in a directory. -/
def names (volume : Volume) (path : String) : Except OsError (List String) :=
  match volume.find path with
  | .ok (.directory entries) => .ok (entries.map (·.1))
  | .ok (.file _) => .error .notDirectory
  | .error error => .error error

/-- The bytes of a file. -/
def read (volume : Volume) (path : String) : Except OsError (List UInt8) :=
  match volume.find path with
  | .ok (.file bytes) => .ok bytes
  | .ok (.directory _) => .error .isDirectory
  | .error error => .error error

/-- The volume with an empty directory made at a path. -/
def makeDirectory (volume : Volume) (path : String) : Except OsError Volume :=
  match volume.resolveLast path with
  | .error error => .error error
  | .ok (last, before) =>
    if last = "." ∨ last = ".." ∨ (volume.tree.at? (last :: before).reverse).isSome then
      .error .alreadyExists
    else .ok (volume.put (.directory []) (last :: before))

/-- The volume with the file at a path made or replaced. -/
def write (volume : Volume) (path : String) (bytes : List UInt8) : Except OsError Volume :=
  match volume.resolveLast path with
  | .error error => .error error
  | .ok (last, before) =>
    if endsInSlash path ∨ last = "." ∨ last = ".." then .error .isDirectory
    else
      match volume.tree.at? (last :: before).reverse with
      | some (.directory _) => .error .isDirectory
      | some (.file _) | none => .ok (volume.put (.file bytes) (last :: before))

/-- The regular files at and below the directory where relative paths start, with their
paths. -/
def files (volume : Volume) : List (String × List UInt8) :=
  ((volume.tree.at? volume.here.reverse).map Tree.files).getD []

end Volume

/-! ## Running on a volume -/

/-- A computation on a volume. -/
abbrev OnVolume : Type → Type := StateM Volume

/-- Keeps the new volume of an operation that succeeds. -/
def OnVolume.replace (operation : Volume → Except OsError Volume) :
    OnVolume (Except OsError Unit) :=
  fun volume =>
    match operation volume with
    | .ok changed => (.ok (), changed)
    | .error error => (.error error, volume)

instance : FileStore OnVolume where
  kind? path := do return ((← get).find path).toOption.map (·.kind)
  names path := do return (← get).names path
  read path := do return (← get).read path
  makeDirectory path := OnVolume.replace (·.makeDirectory path)
  write path text := OnVolume.replace (·.write path (nameBytes text))

end Ambient.Files
