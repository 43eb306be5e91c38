import Allotment.Arena.Program
import Allotment.Proofs.Arena.Capacities
import Allotment.Proofs.Arena.Contents
import Allotment.Proofs.Arena.Genuine
import Allotment.Proofs.Arena.Isolation
import Allotment.Proofs.Solvency
import Allotment.Proofs.System.ArenaCalls
import Allotment.Proofs.System.Atomicity
import Allotment.Proofs.System.Batches
import Allotment.Proofs.System.Bounds
import Allotment.Proofs.System.Clients
import Allotment.Proofs.System.Courses
import Allotment.Proofs.System.Interleavings
import Allotment.Proofs.System.LastWriter
import Allotment.Proofs.System.Log
import Allotment.Proofs.System.Ownership
import Allotment.Proofs.System.Payloads
import Allotment.Proofs.System.References
import Allotment.Proofs.System.Releases
import Allotment.Proofs.System.Requests
import Allotment.Proofs.System.Resets
import Allotment.Proofs.System.Rollback
import Allotment.Proofs.System.RunningTotals
import Allotment.Proofs.System.Scopes
import Allotment.Proofs.System.Usefulness
import Allotment.Proofs.Traces
import Allotment.Session.Run
import Allotment.System.Program
import Allotment.Text.Hex
import Allotment.Trace
