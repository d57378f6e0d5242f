import Ambient.Layout.Session
import Ambient.Files.Volume
import Ambient.Main
import Ambient.Proofs.Layout.Filling
import Ambient.Proofs.Layout.Unambiguous
import Ambient.Proofs.Load.Faithful
import Ambient.Proofs.Load.Remainder
import Ambient.Proofs.Load.Unknown
import Ambient.Proofs.Load.Refused
import Ambient.Proofs.Load.Located
import Ambient.Proofs.Convert.Clean
import Ambient.Proofs.Convert.Lossless
import Ambient.Proofs.Convert.Descriptions
import Ambient.Proofs.Convert.Surface
import Ambient.Proofs.Convert.Conserved
import Ambient.Proofs.Convert.Context
import Ambient.Proofs.Convert.Placement
import Ambient.Proofs.Convert.Unresolved
import Ambient.Proofs.Cli.Traces
import Ambient.Proofs.Cli.Agreement
import Ambient.Proofs.Naming.Clashes
import Ambient.Proofs.Convert.Handlers
import Ambient.Proofs.Cli.Finishing
import Ambient.Proofs.Cli.Order
import Ambient.Proofs.Layout.Nesting
import Ambient.Proofs.Layout.Wrapping
import Ambient.Proofs.Cli.Directories
