import Orchestration.Definition.Written
import Orchestration.Main
import Orchestration.Scenario.Reachable
import Orchestration.Engine.Session
import Orchestration.Proofs.Contract
import Orchestration.Proofs.Programs
import Orchestration.Proofs.Threads
import Orchestration.Proofs.Nesting
import Orchestration.Proofs.Registry
import Orchestration.Proofs.Termination
import Orchestration.Proofs.Situation
import Orchestration.Proofs.Projection
import Orchestration.Proofs.Absorption
import Orchestration.Proofs.Completion
import Orchestration.Proofs.Agenda
import Orchestration.Proofs.Replay
import Orchestration.Proofs.Stopping
import Orchestration.Proofs.Marks
import Orchestration.Proofs.Rethrow
import Orchestration.Proofs.Routing
import Orchestration.Proofs.Compensating
import Orchestration.Proofs.Clearing
import Orchestration.Proofs.Endings
import Orchestration.Proofs.Inheritance
import Orchestration.Proofs.Origins
import Orchestration.Proofs.Bookkeeping
import Orchestration.Proofs.Notes
import Orchestration.Proofs.Lint
import Orchestration.Proofs.Precedence
import Orchestration.Proofs.Branches
import Orchestration.Proofs.Counters
import Orchestration.Proofs.Writes
import Orchestration.Proofs.Sessions
import Orchestration.Proofs.Callbacks
import Orchestration.Proofs.Refusals
import Orchestration.Proofs.Enrollment
import Orchestration.Proofs.Conditions
import Orchestration.Proofs.Paths
import Orchestration.Proofs.Expressions
import Orchestration.Proofs.Definitions
import Orchestration.Proofs.Levels
import Orchestration.Proofs.Locality
import Orchestration.Proofs.Dangling
import Orchestration.Proofs.Flows
import Orchestration.Proofs.Indexes
import Orchestration.Proofs.Ranges
import Orchestration.Proofs.Comparisons
import Orchestration.Proofs.References
import Orchestration.Proofs.Classifying
import Orchestration.Proofs.Signs
import Orchestration.Proofs.Cuts
import Orchestration.Proofs.Settings
