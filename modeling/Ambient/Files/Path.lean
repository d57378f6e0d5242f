/-
Paths as texts.

A path keeps the spelling it was given, because messages show it. Its parts are what
stands between its slashes; an empty part, and a point after the first part, name
nothing. Names and paths are ordered by their bytes.
-/
set_option autoImplicit false

namespace Ambient.Files

/-- The parts between the slashes of a text. -/
def splitSlashes : List Char → List (List Char)
  | [] => [[]]
  | c :: rest =>
    if c = '/' then [] :: splitSlashes rest
    else
      match splitSlashes rest with
      | [] => [[c]]
      | part :: parts => (c :: part) :: parts

/-- The parts between the slashes of a path. -/
def parts (path : String) : List String := (splitSlashes path.toList).map String.ofList

/-- Whether a path starts at the root of the file system. -/
def isAbsolute (path : String) : Bool := path.toList.head? == some '/'

/-- Whether a path ends in a slash. -/
def endsInSlash (path : String) : Bool := path.toList.getLast? == some '/'

/-- A path inside a directory. -/
def join (directory name : String) : String :=
  if directory.isEmpty || endsInSlash directory then directory ++ name
  else directory ++ "/" ++ name

/-- Whether a part, not the first one, names nothing. -/
def isNoise (part : String) : Bool := part.isEmpty || part == "."

/-- Drops the parts at the end that name nothing, but never the first part. The parts
are given last first. -/
def dropNoise : List String → List String
  | [] => []
  | [first] => [first]
  | last :: more => if isNoise last then dropNoise more else last :: more

/-- The path of the directory that holds a path: empty for a single name, and none for
the empty path and the root. -/
def parent? (path : String) : Option String :=
  match dropNoise (parts path).reverse with
  | [] | [""] => none
  | _ :: above =>
    match dropNoise above with
    | [] => some ""
    | [""] => some "/"
    | left => some ("/".intercalate left.reverse)

/-- The last part of a path that names something, if it is a name. -/
def fileName? (path : String) : Option String :=
  match dropNoise (parts path).reverse with
  | [] => none
  | last :: _ => if isNoise last || last == ".." then none else some last

/-- Whether a path is the current directory, however often it says so. -/
def isCurrent (path : String) : Bool :=
  match parts path with
  | [] => false
  | first :: more => first == "." && more.all isNoise

/-- The text after the last point of a name. The first character does not count, so a
name that only starts with a point has no extension. -/
def extension? (name : String) : Option String :=
  let after := name.toList.reverse.takeWhile (· ≠ '.')
  if after.length + 1 < name.length then some (String.ofList after.reverse) else none

/-- The bytes of a name. -/
def nameBytes (name : String) : List UInt8 := name.toByteArray.data.toList

/-- Whether a name comes before another one or is equal to it, by bytes. -/
def nameLE (left right : String) : Bool := nameBytes left ≤ nameBytes right

/-- Names in ascending order. -/
def sortNames (names : List String) : List String := names.mergeSort nameLE

end Ambient.Files
