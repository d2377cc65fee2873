import Wiring.InitialValues
import Wiring.Json.Printer
import Wiring.Workspace
import Wiring.Proofs.Graph.Operations.Composition
import Wiring.Proofs.Graph.Operations.Variables
import Wiring.Proofs.Build.Keeps
import Wiring.Proofs.Graph.Operations.Copies
import Wiring.Proofs.Execution
import Wiring.Proofs.Graph.Sound.Sockets
import Wiring.Proofs.Graph.Sound.Tree
import Wiring.Proofs.Graph.Sound
import Wiring.Proofs.Build.Book
import Wiring.Proofs.Build.Moves
import Wiring.Proofs.Build.Start
import Wiring.Proofs.Graph.Sound.Subtree
import Wiring.Proofs.Graph.Sound.Forest
import Wiring.Proofs.Build.Origins
import Wiring.Proofs.Build.Duties
import Wiring.Proofs.Build.Closure
import Wiring.Proofs.Blueprint.Places
import Wiring.Proofs.Blueprint.Content
import Wiring.Proofs.Blueprint.Feasible
import Wiring.Proofs.Blueprint.Raising
import Wiring.Proofs.Blueprint.Twins
import Wiring.Proofs.Blueprint.Making
import Wiring.Proofs.Blueprint.Restoring
import Wiring.Proofs.Blueprint.Restored
import Wiring.Proofs.Blueprint.RoundTrip
import Wiring.Proofs.Build.Advance
import Wiring.Proofs.Build.Parallel
import Wiring.Proofs.Blueprint.Counterparts
import Wiring.Proofs.Blueprint.Feeding
import Wiring.Proofs.Build.Copies
import Wiring.Proofs.Graph.Operations.Marks
import Wiring.Proofs.Histories
import Wiring.Proofs.Build.Tale
import Wiring.Proofs.Build.Telling
import Wiring.Proofs.Build.Hooks
import Wiring.Proofs.Graph.Overlay
import Wiring.Proofs.Build.Confined
import Wiring.Proofs.Build.Again
import Wiring.Proofs.Graph.Flow
import Wiring.Proofs.Build.Bounds
import Wiring.Proofs.Build.Termination
import Wiring.Proofs.Graph.Reordered
import Wiring.Proofs.Build.Spread
import Wiring.Proofs.Build.Order
import Wiring.Proofs.Graph.Atomic
import Wiring.Proofs.Graph.Sound.Variables
import Wiring.Proofs.Space.Recovery
import Wiring.Proofs.Space.Unflattening
import Wiring.Proofs.Build.Edits
import Wiring.Proofs.Build.Frame
import Wiring.Proofs.Build.Prepared
import Wiring.Proofs.Build.Progress
import Wiring.Proofs.Graph.Ports
import Wiring.Proofs.Graph.References
import Wiring.Proofs.Build.Flawless
import Wiring.Proofs.Store.History
import Wiring.Proofs.Splitting
import Wiring.Proofs.Splitting.Keys
import Wiring.Proofs.Graph.Forms
import Wiring.Proofs.Graph.Disconnecting
import Wiring.Proofs.Graph.Exposing
import Wiring.Proofs.Space.Documents
import Wiring.Proofs.Exploration.Building
import Wiring.Proofs.Build.Records
import Wiring.Proofs.Side
import Wiring.Proofs.Exploration.Picking
