import Oclob.Lib.Outbox
import Oclob.Market.Envelopes
import Oclob.Settlement.Native

/-!
# The market journal

Model of `MarketJournal` in `oclob-node/src/market_journal.rs`: the durable progress of the resident
market. Its methods are programs over a shared outbox (`Oclob.Lib.Outbox`).

* A record is kept as the value that was serialized, and reading it back as another type fails.
* A commitment stands for its hexadecimal text in a key. `get` looks an id up in the summaries and
  then reads its body; a record never changes, so that the two are one operation here.
* A call outside the journal (clock, node, proof party, chain) may answer anything. Each is logged
  with the order the worker is at, so that theorems can say what was sent for which order.

The deployment context, the same in every record of one journal, is left out.
-/

namespace Oclob.Market

open Oclob.Core Oclob.Edge Oclob.Lib Oclob.Node Oclob.Ordering Oclob.Settlement

/-! ## Records -/

/-- `MarketBookEntry`. -/
structure MarketBookEntry where
  commitment : Digest32
  remaining : Nat
deriving DecidableEq

/-- `MarketCompletedRound`. -/
structure MarketCompletedRound where
  certificate : OrderCertificate
  result : MpcBatchResult
  book : List MarketBookEntry
  transactionId : Option String
  canonicalRoot : Option Digest32
  finalityObservations : Nat
  publicSnapshot : Option FinalizedPublicBook
deriving DecidableEq

/-- `Settled`. -/
structure Settled where
  transactionId : String
  blockId : String
  beforeRoot : Digest32
  afterRoot : Digest32
  height : Nat
  statement : Digest32
deriving DecidableEq

/-- The names of the records of one order. -/
inductive Stage where
  | input | certificate | plan | execution | signed | settled | faultObservation | depthFinality
  | done
deriving DecidableEq

/-- The keys of the journal: `stage:commitment`, and the two records of the deployment. -/
inductive Key where
  | stage (stage : Stage) (commitment : Digest32)
  | context
  | settings
deriving DecidableEq

/-- The body of a `Bound` record. -/
inductive Record where
  | input (input : MarketIngress)
  | certificate (certificate : OrderCertificate)
  | plan (plan : RoundPlan)
  | execution (execution : AgreedRoundExecution)
  | signed (requests : List NativeFillAuthorizationRequest)
  | settled (settled : Settled)
  | depthFinality (receipts : List NodePrivateStateReceipt)
  | done (round : MarketCompletedRound)
  | other (text : Bytes)
deriving DecidableEq

/-- A type of record of this journal. -/
abbrev Kind := Lib.Kind Record

namespace Kind

def input : Kind MarketIngress where
  inject := .input
  project | .input value => some value | _ => none

def certificate : Kind OrderCertificate where
  inject := .certificate
  project | .certificate value => some value | _ => none

def plan : Kind RoundPlan where
  inject := .plan
  project | .plan value => some value | _ => none

def execution : Kind AgreedRoundExecution where
  inject := .execution
  project | .execution value => some value | _ => none

def signed : Kind (List NativeFillAuthorizationRequest) where
  inject := .signed
  project | .signed value => some value | _ => none

def settled : Kind Settled where
  inject := .settled
  project | .settled value => some value | _ => none

def depthFinality : Kind (List NodePrivateStateReceipt) where
  inject := .depthFinality
  project | .depthFinality value => some value | _ => none

def done : Kind MarketCompletedRound where
  inject := .done
  project | .done value => some value | _ => none

def other : Kind Bytes where
  inject := .other
  project | .other value => some value | _ => none

end Kind

/-! ## Calls outside the journal -/

/-- `CollaborativeFillRequest`, points by their encodings. -/
structure CollaborativeFillRequest where
  jobId : Digest32
  marketProofDigest : Digest32
  limitDirection : PriceLimitDirection
  limitCommitment : Digest32
  limitContext : Digest32
  takerHandle : Digest32
  assetId : Digest32
  deadline : Nat
  now : Nat

/-- The calls of the market outside its journal, with what is sent. -/
inductive External where
  | now
  | setup
  | votes (statement : OrderStatement)
  | execute (plan : RoundPlan)
  | scope
  | chain
  | release (plan : RoundPlan) (execution : AgreedRoundExecution) (commitment : Digest32)
  | reservationSnapshot (reservationId : Digest32)
  | loadFill (roundId : Digest32) (slot : Nat) (jobId output : Digest32)
  | proveFill (request : CollaborativeFillRequest)
  | complete (jobId : Digest32)
  | claimAuthorizations (endpoint : Bytes) (reservationId : Digest32)
      (issue : NativeClaimAuthorizationIssue) (priorFills : List ApplicationNoteFill)
      (signer : Digest32)
  | certify (request : NativeFillAuthorizationRequest)
  | settleApplication (fill : ApplicationNoteFill)
  | settleApplicationBatch (fills : List ApplicationNoteFill)
  | crashAfterCanonical
  | confirmFinality (party : Nat) (request : NativeFillAuthorizationRequest)
      (transactionId : String) (batch : Option (List ApplicationNoteFill))
  | finalizePrivateState (plan : RoundPlan) (execution : AgreedRoundExecution)
      (finality : PrivateStateFinality)

/-- What an external call answers, if it does not fail. -/
def External.Answer : External → Type
  | now => Nat
  | votes _ => List OrderVote
  | execute _ => List NodeExecutionReceipt
  | scope => ApplicationReserveScope
  | release _ _ _ => Bytes
  | reservationSnapshot _ => CanonicalApplicationReservation
  | proveFill _ => CollaborativeFillProof
  | claimAuthorizations _ _ _ _ _ => NativeParticipantClaimAuthorizations
  | certify _ => Bytes
  | settleApplication _ | settleApplicationBatch _ => AcceptedTransition
  | crashAfterCanonical => Bool
  | confirmFinality _ _ _ _ => NativeFinalityRecord
  | finalizePrivateState _ _ _ => List NodePrivateStateReceipt
  | _ => Unit

/-- A call, made at an order. -/
structure Call where
  order : Digest32
  call : External

abbrev Call.Answer (c : Call) : Type := c.call.Answer

/-! ## The shared state -/

/-- The outbox of the journal, and the calls made so far. -/
abbrev State := Outbox.State Key Record Call.Answer

abbrev Op := Outbox.Op Key Record Call

abbrev Op.Answer : Op → Type := Outbox.Op.Answer Call.Answer

abbrev Process := Outbox.Process Key Record Call.Answer

/-- Every answer from outside is possible. -/
abbrev exec : Exec Op Op.Answer State := Outbox.exec fun _ _ => True

/-- Call something outside the journal, at an order. -/
def ask (order : Digest32) (call : External) : Process call.Answer :=
  Outbox.ask (⟨order, call⟩ : Call)

/-! ## The methods -/

/-- What other crates compute, and the configuration of the market. -/
class MarketChecks extends ClusterPublicConfig, NativeChecks where
  /-- `ThresholdCapabilityRelease::open_reservation`. -/
  openReservation : Bytes → MarketIngress → ApplicationReserveScope → Nat →
    Except String NativeReservationAuthority
  /-- `ApplicationNoteFillBatch::statement`. -/
  batchStatement : List ApplicationNoteFill → Except String Digest32
  /-- The coordinator's signing key, the issuer and the digest of the committee's key. -/
  coordinatorKey : Bytes
  issuer : Bytes
  committeeKeyDigest : Digest32
  /-- `MarketServiceConfig::base_asset` and `quote_asset`. -/
  baseAsset : Digest32
  quoteAsset : Digest32

/-- `MarketJournal::get`. -/
def get {α : Type} (kind : Kind α) (key : Key) : Process (Option α) :=
  Outbox.read kind "market record is malformed" key

/-- `MarketJournal::put`. The times the outbox keeps with a record are left out. -/
def put {α : Type} (kind : Kind α) (key : Key) (value : α) : Process α :=
  Outbox.put kind "market record is malformed" "market journal insertion was not durable" key value

/-- `MarketJournal::ingress`. -/
def ingress (commitment : Digest32) : Process MarketIngress := do
  demandSome (← get .input (.stage .input commitment)) "market order has no durable intake"

/-- The loop of `MarketJournal::next` over the keys. -/
def nextOf : List Key → Process (Option MarketIngress)
  | [] => return none
  | .stage .input id :: rest => do
    match ← get .done (.stage .done id) with
    | none => get .input (.stage .input id)
    | some _ => nextOf rest
  | _ :: rest => nextOf rest

/-- `MarketJournal::next`. The keys of the summaries are in the order of their sequences. -/
def next : Process (Option MarketIngress) := do
  nextOf (← Outbox.summaries)

/-- The loop of `MarketJournal::completed`. -/
def completedOf : List Key → Process (List MarketCompletedRound)
  | [] => return []
  | .stage .done id :: rest => do
    let round ← demandSome (← get .done (.stage .done id)) "market completion disappeared"
    let later ← completedOf rest
    return round :: later
  | _ :: rest => completedOf rest

/-- `MarketJournal::completed`. -/
def completed : Process (List MarketCompletedRound) := do
  completedOf (← Outbox.summaries)

section

variable [MarketChecks]

open MarketChecks

/-- The comparison of an input with the saved one in `accept`. -/
def sameEnvelope (saved input : MarketIngress) : Process Unit :=
  demand (saved.digest = input.digest) "market commitment already has another envelope"

/-- `MarketJournal::accept`; the sequence is the place of the key. -/
def accept (input : MarketIngress) (now : Nat) : Process Nat := do
  let key := Key.stage .input input.commitment
  let keys ← Outbox.summaries
  match keys.findIdx? (· = key) with
  | some sequence =>
    let saved ← demandSome (← get .input key) "market input disappeared"
    sameEnvelope saved input
    return sequence
  | none =>
    check (input.verify now)
    let saved ← put .input key input
    sameEnvelope saved input
    let keys ← Outbox.summaries
    demandSome (keys.findIdx? (· = key)) "market input disappeared"

end

end Oclob.Market
