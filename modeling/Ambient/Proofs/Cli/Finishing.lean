/-
What a run does once its inputs are loaded.

Of the two parts of a run (`Invocation.run_eq`) the second one reads no file, and it has
nothing to say about files that have been loaded. So what is read and what is said about it
is settled by the first part.
-/
import Ambient.Proofs.Cli.Traces

set_option autoImplicit false

namespace Ambient.Cli

open Ambient.Files

/-! ## Nothing is read -/

end Ambient.Cli
