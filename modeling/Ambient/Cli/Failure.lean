/-
Why a run fails, and the wording of it.
-/
import Ambient.Files.Store
import Ambient.Glob.Walk
import Ambient.Load.Domain
import Ambient.Scope.Issue

set_option autoImplicit false

namespace Ambient.Cli

/-- Why a run fails. -/
inductive Failure where
  | badPattern (error : Glob.PatternError)
  | unwalked (error : Glob.WalkError)
  | noMatch (pattern : String)
  | unlisted (directory : String) (error : Files.OsError)
  | unread (path : String) (error : Files.OsError)
  | unparsed (path : String) (error : Load.LoadError)
  | invalid (issues : List Scope.Issue)
  | uncreated (directory : String) (error : Files.OsError)
  | unwritten (path : String) (error : Files.OsError)
  deriving DecidableEq, Repr

/-- The wording of a failure. -/
def Failure.message : Failure → String
  | .badPattern error => error.message
  | .unwalked error => error.message
  | .noMatch pattern => "glob pattern matched no files: " ++ pattern
  | .unlisted directory error => "failed to list " ++ directory ++ ": " ++ error.message
  | .unread path error => "failed to read source file " ++ path ++ ": " ++ error.message
  | .unparsed path error => "failed to parse protocol file " ++ path ++ ": " ++ error.message
  | .invalid issues => Scope.report issues
  | .uncreated directory error => "failed to create " ++ directory ++ ": " ++ error.message
  | .unwritten path error => "failed to write " ++ path ++ ": " ++ error.message

end Ambient.Cli
