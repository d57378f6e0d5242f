/-
What can be wrong with a declaration tree.
-/
set_option autoImplicit false

namespace Ambient.Scope

/-- Two declarations of one scope share a name, or a reference resolves to nothing.
The scope is the path of namespaces that leads to it. -/
inductive Issue where
  | collision (scope name : String)
  | dangling (scope name : String)
  deriving DecidableEq, Repr

/-- The wording of an issue. -/
def Issue.message : Issue → String
  | .collision scope name => "duplicate name `" ++ name ++ "` declared in `" ++ scope ++ "`"
  | .dangling scope name =>
    "`" ++ name ++ "` referenced from `" ++ scope ++ "` does not resolve to any declaration"

/-- The wording of all issues together. -/
def report (issues : List Issue) : String :=
  toString issues.length ++ " issue(s) found in generated declarations:\n" ++
    "\n".intercalate (issues.map fun issue => "  - " ++ issue.message)

end Ambient.Scope
