import Oclob.Lib.OrdMap
import Oclob.Lib.QueueMap
import Oclob.Lib.Checked
import Oclob.Core.Order
import Oclob.Lib.Codec
import Oclob.Core.Wire
import Oclob.Core.Book
import Oclob.Lib.Greedy
import Oclob.Lib.Tally
import Oclob.Core.Batch
import Oclob.Core.Depth
import Oclob.Core.Effects
import Oclob.Core.Mutators
import Oclob.Core.Commands
import Oclob.Core.Invariant
import Oclob.Core.Atomicity
import Oclob.Core.Reference
import Oclob.Core.Uncrossed
import Oclob.Core.Ledger
import Oclob.Lib.Circuit
import Oclob.Mpc.Circuit
import Oclob.Mpc.Matching
import Oclob.Mpc.Reserves
import Oclob.Mpc.Batch
import Oclob.Settlement.Reservations
import Oclob.Settlement.Consumption
import Oclob.Settlement.Engine
import Oclob.Settlement.Canonical
import Oclob.Settlement.Batches
import Oclob.Settlement.Collaborative
import Oclob.Settlement.Reconciliation
import Oclob.Settlement.Slots
import Oclob.Settlement.Supply
import Oclob.Settlement.Coverage
import Oclob.Settlement.Delivery
import Oclob.Settlement.LimitProof
import Oclob.Settlement.Native
import Oclob.Settlement.Holdings
import Oclob.Settlement.Atomicity
import Oclob.Service.Service
import Oclob.Service.Agreement
import Oclob.Service.Queue
import Oclob.Service.TwoPhase
import Oclob.Service.Words
import Oclob.Service.Overflow
import Oclob.Service.Lockstep
import Oclob.Edge.Manifest
import Oclob.Edge.Decimal
import Oclob.Lib.Sharing
import Oclob.Edge.Sharing
import Oclob.Edge.Reconstruction
import Oclob.Node.Facility
import Oclob.Node.Checks
import Oclob.Node.Store
import Oclob.Node.Format
import Oclob.Node.Calls
import Oclob.Node.Atomicity
import Oclob.Node.Record
import Oclob.Node.Reopen
import Oclob.Lib.Quorum
import Oclob.Ordering.Committee
import Oclob.Node.Cluster
import Oclob.Node.Chain
import Oclob.Node.Execution
import Oclob.Node.RoundInput
import Oclob.Node.Rounds
import Oclob.Node.Lifecycle
import Oclob.Node.Restart
import Oclob.Node.Claims
import Oclob.Node.Finality
import Oclob.Node.LateFinality
import Oclob.Node.CatchUp
import Oclob.Lib.Interleave
import Oclob.Lib.WriteOnce
import Oclob.Corporate.Journal
import Oclob.Corporate.Dispatch
import Oclob.Corporate.Fence
import Oclob.Market.Journal
import Oclob.Market.Runtime
import Oclob.Market.History
import Oclob.Lib.Outbox
import Oclob.Corporate.ClaimKeys
