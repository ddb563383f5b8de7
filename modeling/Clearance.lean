import Clearance.Decision.Check
import Clearance.Json.Writer
import Clearance.Proofs.Run
import Clearance.Proofs.Sites
import Clearance.Proofs.Adequacy
import Clearance.Proofs.Reach
import Clearance.Proofs.Unrecognized
import Clearance.Proofs.Chronology
import Clearance.Proofs.Containment
import Clearance.Proofs.ShortCircuit
import Clearance.Proofs.Debug
import Clearance.Proofs.Termination
import Clearance.Proofs.Fitting
import Clearance.Proofs.Lockstep
import Clearance.Proofs.Parallel
import Clearance.Proofs.Transparency
import Clearance.Proofs.Invocations
import Clearance.Proofs.Location
import Clearance.Proofs.Declared
import Clearance.Proofs.Grammar
import Clearance.Proofs.Locality
import Clearance.Proofs.Printing
import Clearance.Proofs.Reserved
import Clearance.Proofs.Frame
import Clearance.Proofs.Subjects
import Clearance.Proofs.Granting
import Clearance.Proofs.Indexed
import Clearance.Proofs.Purity
import Clearance.Proofs.Unordered
import Clearance.Proofs.Routing
import Clearance.Proofs.RoutingOrder
import Clearance.Proofs.Candidates
import Clearance.Proofs.Binding
import Clearance.Proofs.Choosing
import Clearance.Proofs.Reading
import Clearance.Proofs.RoutingApart
import Clearance.Proofs.Search
import Clearance.Proofs.Chains
import Clearance.Proofs.Codec
import Clearance.Proofs.Holding
import Clearance.Proofs.Documents
import Clearance.Proofs.Sharing
import Clearance.Proofs.Identity
