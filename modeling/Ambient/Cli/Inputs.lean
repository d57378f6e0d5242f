/-
From input values to domains.

An input value with a pattern character is a pattern and stands for the files it
matches, of which there must be one; the value of a directory stands for the files in it
whose extension is `json`, in ascending order; any other value is the path of a file.

All values are resolved before a file is read, and the files are then loaded in order.
The first value or file that fails ends the run.
-/
import Ambient.Cli.Failure
import Ambient.Cli.Log
import Ambient.Glob.Walk

set_option autoImplicit false

namespace Ambient.Cli

open Ambient.Files

/-! ## Resolving -/

/-- Whether an input value is a pattern. -/
def isPattern (value : String) : Bool := value.toList.any (['*', '?', '[', '\x7b'].contains ·)

/-- Whether a name has the extension of a description. -/
def hasJsonExtension (name : String) : Bool := extension? name == some "json"

section

variable {m : Type → Type} [Monad m] [FileStore m]

/-- The descriptions in a directory, in ascending order. -/
def jsonFilesIn (directory : String) : m (Except Failure (List String)) := do
  match ← FileStore.names directory with
  | .error error => return .error (.unlisted directory error)
  | .ok names =>
    let files ← (names.filter hasJsonExtension).filterM fun name =>
      isFile (join directory name)
    return .ok ((sortNames files).map (join directory))

/-- The files that a pattern matches. -/
def filesMatching (value : String) : m (Except Failure (List String)) := do
  match Glob.Pattern.read value with
  | .error error => return .error (.badPattern error)
  | .ok pattern =>
    match ← pattern.find.run with
    | .error error => return .error (.unwalked error)
    | .ok found => return if found.isEmpty then .error (.noMatch value) else .ok found

/-- The files that an input value stands for. -/
def resolveInput (value : String) : m (Except Failure (List String)) := do
  if isPattern value then filesMatching value
  else if ← isDirectory value then jsonFilesIn value
  else return .ok [value]

/-- The files that input values stand for, in order. -/
def resolveInputs : List String → m (Except Failure (List String))
  | [] => return .ok []
  | value :: values => do
    match ← resolveInput value with
    | .error failure => return .error failure
    | .ok paths =>
      match ← resolveInputs values with
      | .error failure => return .error failure
      | .ok more => return .ok (paths ++ more)

/-! ## Loading -/

/-- Loads one file. -/
def loadFile (path : String) : m (Except Failure Schema.Domain) := do
  match ← FileStore.read path with
  | .error error => return .error (.unread path error)
  | .ok bytes => return (Load.loadDomain bytes).mapError (.unparsed path)

/-- The message about a file that has been loaded. -/
def loadedEntry (path : String) : Entry := ⟨.info, path ++ " loaded."⟩

/-- Loads files in order up to the first that fails; the messages, and the domains or
the failure. -/
def loadFiles : List String → m (List Entry × Except Failure (List Schema.Domain))
  | [] => return ([], .ok [])
  | path :: paths => do
    match ← loadFile path with
    | .error failure => return ([], .error failure)
    | .ok domain =>
      let (entries, domains) ← loadFiles paths
      return (loadedEntry path :: entries, (domain :: ·) <$> domains)

/-- Resolves input values and loads what they stand for. -/
def loadInputs (values : List String) :
    m (List Entry × Except Failure (List Schema.Domain)) := do
  match ← resolveInputs values with
  | .error failure => return ([], .error failure)
  | .ok paths => loadFiles paths

end

end Ambient.Cli
