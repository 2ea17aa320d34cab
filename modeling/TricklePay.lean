import TricklePay.Library.Checked
import TricklePay.Library.Shift
import TricklePay.Library.GatedLine
import TricklePay.Library.Transition
import TricklePay.Library.Lease
import TricklePay.Library.Pool
import TricklePay.Library.Replay
import TricklePay.Library.History
import TricklePay.Library.Callbacks
import TricklePay.Library.Relational
import TricklePay.Model.Chain
import TricklePay.Model.Phases
import TricklePay.Model.Reentrant
import TricklePay.Spec.Agreement
import TricklePay.Spec.Indexer
import TricklePay.Proofs.Record
import TricklePay.Proofs.Invocation
import TricklePay.Proofs.Invariant
import TricklePay.Proofs.Lifetime
import TricklePay.Proofs.Solvency
import TricklePay.Proofs.Views
import TricklePay.Proofs.Trace
import TricklePay.Proofs.Accounts
import TricklePay.Proofs.Entitlement
import TricklePay.Proofs.Lifecycle
import TricklePay.Proofs.Schedule
import TricklePay.Proofs.Coherence
import TricklePay.Proofs.Creation
import TricklePay.Proofs.Identifiers
import TricklePay.Proofs.Authority
import TricklePay.Proofs.Settlement
import TricklePay.Proofs.Isolation
import TricklePay.Proofs.Acceptance
import TricklePay.Proofs.Preview
import TricklePay.Proofs.Race
import TricklePay.Proofs.Sequential
import TricklePay.Proofs.Reentrancy
import TricklePay.Proofs.Refinement
import TricklePay.Proofs.EventLog
import TricklePay.Proofs.Observation
import TricklePay.Proofs.Commits
import TricklePay.Proofs.Containment
import TricklePay.Proofs.TimeShift
import TricklePay.Proofs.Linearization
import TricklePay.Proofs.Realizable
import TricklePay.Proofs.Winddown
import TricklePay.Proofs.Draws
import TricklePay.Proofs.Audit
import TricklePay.Proofs.Renewals
import TricklePay.Proofs.Archival
import TricklePay.Proofs.Neglect
import TricklePay.Proofs.Reservation
