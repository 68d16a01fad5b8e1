import PubSub.Main
import PubSub.Session
import PubSub.Text.Cased
import PubSub.Text.Lower
import PubSub.Address
import PubSub.Path
import PubSub.Proofs.Evaluation
import PubSub.Proofs.Transaction
import PubSub.Proofs.Handle
import PubSub.Proofs.Calls
import PubSub.Proofs.Atomicity
import PubSub.Proofs.Operations
import PubSub.Proofs.Responses
import PubSub.Proofs.Runs
import PubSub.Proofs.Agreement
import PubSub.Proofs.Moves
import PubSub.Proofs.Stops
import PubSub.Proofs.Safety
import PubSub.Proofs.Reachable
import PubSub.Proofs.Correlation
import PubSub.Proofs.Effects
import PubSub.Proofs.Locks
import PubSub.Proofs.Bodies
import PubSub.Proofs.SharedDatabase
import PubSub.Proofs.Blocks
import PubSub.Proofs.Refusals
import PubSub.Proofs.Transitions
import PubSub.Proofs.Written
import PubSub.Proofs.Confirmations
import PubSub.Proofs.Soundness
import PubSub.Proofs.Roster
import PubSub.Proofs.Enrolment
import PubSub.Proofs.ConfirmationHalves
import PubSub.Proofs.Threads
import PubSub.Proofs.Exclusion
import PubSub.Proofs.Serial
import PubSub.Proofs.TenureCompletion
import PubSub.Proofs.Interleaving
import PubSub.Proofs.Tenures
import PubSub.Proofs.TaskSteps
import PubSub.Proofs.Neighbours
import PubSub.Proofs.Fleet
import PubSub.Proofs.Ledger
import PubSub.Proofs.Registrations
import PubSub.Proofs.Locality
import PubSub.Proofs.Exhaustion
import PubSub.Proofs.Numbers
import PubSub.Proofs.SharedNumbers
import PubSub.Proofs.NumbersGivenBack
import PubSub.Proofs.Reopening
import PubSub.Proofs.IdleStores
import PubSub.Proofs.NumberHistory
import PubSub.Proofs.Release
import PubSub.Proofs.Recovery
import PubSub.Proofs.Responding
import PubSub.Proofs.Repairs
import PubSub.Proofs.Readback
import PubSub.Proofs.Denials
import PubSub.Proofs.RecordOrder
import PubSub.Proofs.Chronicle
import PubSub.Proofs.Precedence
import PubSub.Proofs.Logbook
import PubSub.Proofs.Announcements
import PubSub.Proofs.Gauges
import PubSub.Proofs.Reports
import PubSub.Proofs.Openings
import PubSub.Proofs.Inserts
import PubSub.Proofs.Validation
import PubSub.Proofs.UnrelatedStores
import PubSub.Proofs.ReopenedBlocks
import PubSub.Proofs.Rules
import PubSub.Proofs.Interference
import PubSub.Proofs.Scope
import PubSub.Proofs.Collections
