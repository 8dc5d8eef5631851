import Reload.Session.Run
import Reload.Proofs.History
import Reload.Proofs.Concurrent.Order
import Reload.Proofs.Concurrent.Conservation
import Reload.Proofs.Concurrent.Lifetime
import Reload.Proofs.Concurrent.Naming
import Reload.Proofs.Concurrent.Waiting
import Reload.Proofs.Concurrent.Journal
import Reload.Proofs.Concurrent.Configuration
import Reload.Proofs.Wire.Canonical
import Reload.Proofs.Wire.Corruption
import Reload.Proofs.Wire.Cuts
import Reload.Proofs.Packing
import Reload.Proofs.LockHistory
import Reload.Proofs.Definition.Exchange
import Reload.Proofs.Definition.Reentrance
import Reload.Proofs.Loading
import Reload.Proofs.Paths
import Reload.Proofs.Grammar
import Reload.Proofs.Building
import Reload.Proofs.Wire.FirstDefect
import Reload.Proofs.Concurrent.Naming
