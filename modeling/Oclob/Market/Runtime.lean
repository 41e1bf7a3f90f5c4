import Mathlib.Data.List.Sort
import Oclob.Market.Journal

/-!
# The market worker

Model of `NativeMarketRuntime::pump` and `settle` (`oclob-node/src/market_runtime.rs`) with the
parts of `edge_client.rs` they use (`collect_order_certificate`, `execute_agreed_round`), as
programs over the journal. What a node, a proof party or the chain answers is arbitrary; what the
worker checks of an answer is modelled.

A call is made at the order in work (`id`), also where the source does not pass it on.

`Entry` lists the programs on one journal: the worker and the intake.
-/

namespace Oclob.Market

open Oclob.Core Oclob.Edge Oclob.Lib Oclob.Node Oclob.Ordering Oclob.Settlement

/-! ## The book after a round -/

/-- The loop of `pump` over the resting entries, from slot `slot` on. -/
def restingAfter (result : MpcBatchResult) :
    Nat → List MarketBookEntry → Except String (List MarketBookEntry)
  | _, [] => return []
  | slot, entry :: rest => do
    let spent ← okOr result.slots[slot]? "market result omitted a resting slot"
    let remaining ← okOr (checkedSub entry.remaining spent.tradeQuantity)
      "market result exceeds resting quantity"
    let later ← restingAfter result (slot + 1) rest
    return if 0 < remaining then ⟨entry.commitment, remaining⟩ :: later else later

/-- The book `pump` writes. -/
def bookAfter (book : List MarketBookEntry) (result : MpcBatchResult) (arriving : Digest32) :
    Except String (List MarketBookEntry) := do
  let resting ← restingAfter result 0 book
  return if 0 < result.arrivingRemaining then resting ++ [⟨arriving, result.arrivingRemaining⟩]
    else resting

/-- The matched slots of a result. -/
def matchedSlotsOf (result : MpcBatchResult) : List Nat :=
  (result.slots.zipIdx.filter fun pair => pair.1.matched).map Prod.snd

section

variable [MarketChecks]

open MarketChecks ClusterPublicConfig

/-! ## Certificates and plans -/

/-- The place of the next certificate in `collect_order_certificate`. -/
def nextPlace (previous : Option OrderCertificate) (commitment : Digest32) :
    Except String (Nat × Digest32) :=
  match previous with
  | some certificate => do
    require (certificate.marketId = marketId ∧ certificate.commitment ≠ commitment)
      "edge distributor configuration is invalid"
    let sequence ← okOr (checkedAdd certificate.sequence 1)
      "edge distributor configuration is invalid"
    return (sequence, certificate.digest)
  | none => return (1, 0)

/-- `collect_order_certificate`; votes that did not arrive are left out of the answer. -/
def collectOrderCertificate (previous : Option OrderCertificate) (commitment : Digest32)
    (expiresAt : Nat) : Process OrderCertificate := do
  check validateCluster
  let now : Nat ← ask commitment .now
  demand (now ≤ expiresAt) "edge distributor configuration is invalid"
  let (sequence, previousCertificate) ← check (nextPlace previous commitment)
  let statement : OrderStatement :=
    ⟨marketId, sequence, commitment, previousCertificate, expiresAt⟩
  let votes : List OrderVote ← ask commitment (.votes statement)
  let certificate : OrderCertificate :=
    ⟨statement, votes.insertionSort fun a b => a.nodeId ≤ b.nodeId⟩
  check ((certificate.verify .sevenNode orderingKeys now).mapError fun _ =>
    "five valid ordering votes were not obtained")
  return certificate

/-- `RoundPlan::sign`. -/
def signPlan (certificate : OrderCertificate) (resting : List Digest32)
    (issuedAt expiresAt : Nat) : Except String RoundPlan := do
  let unsigned : RoundPlan :=
    ⟨executorVersion, certificate.marketId, certificate.sequence, certificate, resting,
      certificate.commitment, issuedAt, expiresAt, verifyingKey coordinatorKey, 0, []⟩
  let identified := { unsigned with roundId := unsigned.derivedRoundId }
  let signature ← okOr (trySign coordinatorKey identified.signatureBody)
    "distributed party receipt is invalid"
  let plan := { identified with signature }
  (plan.verify issuedAt).mapError fun _ => "distributed round plan is invalid"
  return plan

/-- The deadline of a plan: the earliest of the arriving order's and the resting orders'. -/
def planDeadline (deadline : Nat) : List MarketBookEntry → Process Nat
  | [] => return deadline
  | entry :: rest => do
    let input ← ingress entry.commitment
    planDeadline (min deadline input.retentionDeadline) rest

/-- The seven receipts agree, in `execute_agreed_round`. -/
def agreedExecution [Serde] (plan : RoundPlan) (receipts : List NodeExecutionReceipt) :
    Except String AgreedRoundExecution := do
  require (receipts.length = receiptKeys.length) "edge admission receipt is invalid"
  forEach (fun entry => (entry.1.2.verify plan entry.2 entry.1.1 program).mapError fun _ =>
    "edge admission receipt is invalid") (receiptKeys.zip receipts).zipIdx
  let first ← okOr receipts.head? "edge admission receipt is invalid"
  require (∀ receipt ∈ receipts, receipt.result = first.result ∧
      receipt.publicOutputSha256 = first.publicOutputSha256 ∧
      receipt.programSha256 = first.programSha256 ∧ receipt.artifactSha256 = first.artifactSha256)
    "edge admission receipt is invalid"
  return ⟨receipts, first.result⟩

/-- `execute_agreed_round`. -/
def executeAgreedRound [Serde] (id : Digest32) (plan : RoundPlan) :
    Process AgreedRoundExecution := do
  check validateCluster
  let now : Nat ← ask id .now
  check ((plan.verifyOrdering .sevenNode orderingKeys now).mapError fun _ =>
    "edge distributor configuration is invalid")
  demand (plan.marketId = marketId) "edge distributor configuration is invalid"
  let receipts : List NodeExecutionReceipt ← ask id (.execute plan)
  check (agreedExecution plan receipts)

/-! ## Settlement -/

/-- The closure `open` of `settle`. -/
def openAuthority (id : Digest32) (plan : RoundPlan) (execution : AgreedRoundExecution)
    (scope : ApplicationReserveScope) (commitment : Digest32) :
    Process NativeReservationAuthority := do
  let input ← ingress commitment
  let release : Bytes ← ask id (.release plan execution commitment)
  let now : Nat ← ask id .now
  check (openReservation release input scope now)

/-- The limit direction of the arriving order, by the asset it reserves. -/
def takerDirection (taker : NativeReservationAuthority) : Except String PriceLimitDirection :=
  if taker.permit.assetId = quoteAsset then .ok .maximumBuyPrice
  else if taker.permit.assetId = baseAsset then .ok .minimumSellPrice
  else .error "arrival reservation is outside this market pair"

/-- What the proof parties are asked for one slot. -/
def fillRequest (plan : RoundPlan) (output job : Digest32) (direction : PriceLimitDirection)
    (taker : NativeReservationAuthority) (arriving maker : MarketIngress) (now : Nat) :
    Except String CollaborativeFillRequest := do
  let limit := (arriving.receipt.manifest.fieldCommitments[1]?.bind (·[0]?)).getD 0
  require (isPoint limit = true) "invalid public commitment"
  require (isPoint taker.permit.participantHandle = true) "invalid public commitment"
  return {
    jobId := job, marketProofDigest := output, limitDirection := direction,
    limitCommitment := limit,
    limitContext := sha256 (asBytes "OCLOB:SIGNED-TAKER-LIMIT:v1" ++ plan.arriving.bytes ++
      plan.orderingCertificate.digest.bytes ++ output.bytes),
    takerHandle := taker.permit.participantHandle, assetId := baseAsset,
    deadline := min maker.retentionDeadline arriving.retentionDeadline, now }

/-- The claim responses of both participants for one slot. -/
def collectClaims (id : Digest32) (maker taker : NativeReservationAuthority)
    (issue : NativeClaimAuthorizationIssue) (priorFills : List ApplicationNoteFill) :
    Process NativeFillClaimAuthorizations := do
  let payer := if maker.permit.reservationId = issue.payer.reservationId then maker else taker
  let payee := if maker.permit.reservationId = issue.payee.reservationId then maker else taker
  let fromPayer : NativeParticipantClaimAuthorizations ← ask id (.claimAuthorizations
    payer.claimAuthorizationEndpoint issue.payer.reservationId issue priorFills payer.orderSigner)
  let fromPayee : NativeParticipantClaimAuthorizations ← ask id (.claimAuthorizations
    payee.claimAuthorizationEndpoint issue.payee.reservationId issue priorFills payee.orderSigner)
  return ⟨fromPayer, fromPayee⟩

/-- What the slots of one settlement share. -/
structure SettlementTerms where
  id : Digest32
  plan : RoundPlan
  execution : AgreedRoundExecution
  scope : ApplicationReserveScope
  output : Digest32
  slots : List Nat
  taker : NativeReservationAuthority
  arriving : MarketIngress
  direction : PriceLimitDirection

/-- One turn of the loop of `settle`: the certified request of a slot. -/
def authorizeSlot (terms : SettlementTerms) (position slot : Nat)
    (takerHead : CanonicalApplicationReservation)
    (requests : List NativeFillAuthorizationRequest) :
    Process NativeFillAuthorizationRequest := do
  let makerCommitment ← demandSome terms.plan.resting[slot]? "matched slot has no original order"
  let maker ← openAuthority terms.id terms.plan terms.execution terms.scope makerCommitment
  let makerInput ← ingress makerCommitment
  let makerHead : CanonicalApplicationReservation ←
    ask terms.id (.reservationSnapshot maker.permit.reservationId)
  let job ← check (collaborativeJobId sha256 terms.plan.roundId slot terms.output)
  ask terms.id (.loadFill terms.plan.roundId slot job terms.output)
  let now : Nat ← ask terms.id .now
  let request ← check (fillRequest terms.plan terms.output job terms.direction terms.taker
    terms.arriving makerInput now)
  let proof : CollaborativeFillProof ← ask terms.id (.proveFill request)
  ask terms.id (.complete job)
  let issue ← check (nativeClaimAuthorizationIssue proof maker terms.taker makerHead takerHead)
  let claims ← collectClaims terms.id maker terms.taker issue (requests.map (·.fill))
  let prepared ← check (prepareNativeFill proof terms.scope maker terms.taker makerHead takerHead
    claims (decide (position + 1 = terms.slots.length) &&
      decide (terms.execution.result.arrivingRemaining = 0)))
  let batch ← check (nativeBatchBinding terms.scope prepared.beforeRoot terms.plan.roundId
    terms.output terms.slots slot)
  let unsigned : NativeFillAuthorizationRequest :=
    ⟨terms.plan.roundId, slot, { prepared with batch }, maker, terms.taker, claims⟩
  let signature : Bytes ← ask terms.id (.certify unsigned)
  return { unsigned with fill := { unsigned.fill with signature } }

/-- The loop of `settle` over the matched slots, from `position` on. -/
def authorizeSlots (terms : SettlementTerms) :
    Nat → List Nat → CanonicalApplicationReservation → List NativeFillAuthorizationRequest →
      Process (List NativeFillAuthorizationRequest)
  | _, [], _, requests => return requests
  | position, slot :: rest, takerHead, requests => do
    let request ← authorizeSlot terms position slot takerHead requests
    let nextHead ←
      if position + 1 < terms.slots.length then do
        let now : Nat ← ask terms.id .now
        check (projectPendingNativeHead takerHead request.fill now)
      else pure takerHead
    authorizeSlots terms (position + 1) rest nextHead (requests ++ [request])

/-- The signed fill set of `settle` when none is saved. -/
def signFills (id : Digest32) (plan : RoundPlan) (execution : AgreedRoundExecution)
    (scope : ApplicationReserveScope) (output : Digest32) (slots : List Nat) :
    Process (List NativeFillAuthorizationRequest) := do
  let taker ← openAuthority id plan execution scope plan.arriving
  let arriving ← ingress plan.arriving
  let direction ← check (takerDirection taker)
  let takerHead : CanonicalApplicationReservation ←
    ask id (.reservationSnapshot taker.permit.reservationId)
  authorizeSlots ⟨id, plan, execution, scope, output, slots, taker, arriving, direction⟩ 0 slots
    takerHead []

/-- The signed fill set of `settle`: the saved one, or a new one that is saved. -/
def signedOf (id : Digest32) (plan : RoundPlan) (execution : AgreedRoundExecution)
    (scope : ApplicationReserveScope) (output : Digest32) (slots : List Nat) :
    Process (List NativeFillAuthorizationRequest) := do
  match ← get .signed (.stage .signed id) with
  | some saved => return saved
  | none =>
    let requests ← signFills id plan execution scope output slots
    put .signed (.stage .signed id) requests

/-- The batch of `settle`, for more than one fill. -/
def fillBatch (requests : List NativeFillAuthorizationRequest) :
    Option (List ApplicationNoteFill) :=
  if 1 < requests.length then some (requests.map (·.fill)) else none

/-- The call of the chain for the signed set. -/
def settleCall (id : Digest32) (requests : List NativeFillAuthorizationRequest) :
    Process AcceptedTransition :=
  match fillBatch requests with
  | some fills => ask id (.settleApplicationBatch fills)
  | none => do
    let first ← demandSome requests.head? "market settlement has no fill"
    ask id (.settleApplication first.fill)

/-- What is kept of an accepted transition. -/
def settledBy (accepted : AcceptedTransition) : Settled :=
  ⟨accepted.txId, accepted.blockId, accepted.beforeRoot, accepted.afterRoot, accepted.height,
    accepted.statement⟩

/-- The settlement of `settle` when none is saved. -/
def settleFills (id : Digest32) (requests : List NativeFillAuthorizationRequest) :
    Process Settled := do
  let accepted ← settleCall id requests
  let settled := settledBy accepted
  let stopped : Bool ← ask id .crashAfterCanonical
  if stopped then
    let _ ← put .settled (.stage .faultObservation id) settled
    throw "market recovery test stopped after canonical settlement"
  else put .settled (.stage .settled id) settled

/-- The settlement of `settle`: the saved one, or the chain's answer to the signed set. -/
def acceptedOf (id : Digest32) (requests : List NativeFillAuthorizationRequest) :
    Process Settled := do
  match ← get .settled (.stage .settled id) with
  | some saved => return saved
  | none => settleFills id requests

/-- The loop of `settle` over the proof parties for one request. -/
def confirmRequest [Serde] (id : Digest32) (request : NativeFillAuthorizationRequest)
    (settled : Settled) (batch : Option (List ApplicationNoteFill))
    (finality : PrivateStateFinality) : List Nat → Process Unit
  | [] => return ()
  | party :: rest => do
    let record : NativeFinalityRecord ←
      ask id (.confirmFinality party request settled.transactionId batch)
    let observed ← check (aggregateFinality (OrdMap.empty.insert record.slot record))
    demand (record.transactionId = settled.transactionId ∧
        record.beforeRoot = settled.beforeRoot ∧ record.afterRoot = settled.afterRoot ∧
        record.blockId = settled.blockId ∧ observed = finality)
      "market node canonical observation differs from committed transaction"
    confirmRequest id request settled batch finality rest

/-- The loop of `settle` over the requests. -/
def confirmRequests [Serde] (id : Digest32) (settled : Settled)
    (batch : Option (List ApplicationNoteFill)) (finality : PrivateStateFinality) :
    List NativeFillAuthorizationRequest → Process Unit
  | [] => return ()
  | request :: rest => do
    confirmRequest id request settled batch finality (List.range receiptKeys.length)
    confirmRequests id settled batch finality rest

/-- The statement of a signed set: of the batch, or the signing message of the one fill. -/
def fillStatement (requests : List NativeFillAuthorizationRequest) : Except String Digest32 :=
  match fillBatch requests with
  | some fills => batchStatement fills
  | none => do
    let first ← okOr requests.head? "market settlement has no fill"
    NativeChecks.signingMessage first.fill

/-- A signed set answers the matched slots of a plan. -/
def FillsMatch (plan : RoundPlan) (output : Digest32) (slots : List Nat)
    (requests : List NativeFillAuthorizationRequest) : Prop :=
  requests.length = slots.length ∧ ∀ pair ∈ requests.zip slots,
    pair.1.slot = pair.2 ∧ pair.1.roundId = plan.roundId ∧ pair.1.fill.mpcResultDigest = output

instance (plan : RoundPlan) (output : Digest32) (slots : List Nat)
    (requests : List NativeFillAuthorizationRequest) :
    Decidable (FillsMatch plan output slots requests) :=
  inferInstanceAs (Decidable (_ ∧ _))

/-- `NativeMarketRuntime::settle`. -/
def settle [Serde] (id : Digest32) (plan : RoundPlan) (execution : AgreedRoundExecution)
    (slots : List Nat) : Process Settled := do
  ask id .setup
  let scope : ApplicationReserveScope ← ask id .scope
  demand (scope.committeeKeyDigest = committeeKeyDigest)
    "market native scope differs from pinned committee"
  demand (issuer.length = 1984) "legacy issuer requires PQC re-enrollment"
  ask id .chain
  let first ← demandSome execution.receipts.head? "market execution has no node receipts"
  let output := first.publicOutputSha256
  let requests ← signedOf id plan execution scope output slots
  demand (FillsMatch plan output slots requests)
    "durable native fill set differs from actual matching"
  let statement ← check (fillStatement requests)
  let settled ← acceptedOf id requests
  let finality : PrivateStateFinality :=
    ⟨plan.roundId, output, statement, settled.statement, settled.height⟩
  confirmRequests id settled (fillBatch requests) finality requests
  let receipts : List NodePrivateStateReceipt ←
    ask id (.finalizePrivateState plan execution finality)
  let _ ← put .depthFinality (.stage .depthFinality id) receipts
  return settled

/-! ## The worker -/

/-- The certificate of `pump`. -/
def certificateOf (input : MarketIngress) (previous : Option MarketCompletedRound) :
    Process OrderCertificate := do
  match ← get .certificate (.stage .certificate input.commitment) with
  | some saved => return saved
  | none =>
    let now : Nat ← ask input.commitment .now
    check (input.verify now)
    let certificate ← collectOrderCertificate (previous.map (·.certificate)) input.commitment
      input.retentionDeadline
    put .certificate (.stage .certificate input.commitment) certificate

/-- The plan of `pump`. -/
def planOf (input : MarketIngress) (certificate : OrderCertificate)
    (book : List MarketBookEntry) : Process RoundPlan := do
  match ← get .plan (.stage .plan input.commitment) with
  | some saved => return saved
  | none =>
    let issuedAt : Nat ← ask input.commitment .now
    let expiry ← planDeadline (min input.retentionDeadline (issuedAt + 300)) book
    let plan ← check (signPlan certificate (book.map (·.commitment)) issuedAt expiry)
    put .plan (.stage .plan input.commitment) plan

/-- The execution of `pump`. -/
def executionOf [Serde] (input : MarketIngress) (plan : RoundPlan) :
    Process AgreedRoundExecution := do
  match ← get .execution (.stage .execution input.commitment) with
  | some saved => return saved
  | none =>
    let result ← executeAgreedRound input.commitment plan
    put .execution (.stage .execution input.commitment) result

/-- The settlement of `pump`, if a slot was matched, and the receipts of its finality. -/
def settledOf [Serde] (input : MarketIngress) (plan : RoundPlan)
    (execution : AgreedRoundExecution) : Process (Option Settled) :=
  let slots := matchedSlotsOf execution.result
  if slots = [] then return none
  else do
    let settled ← settle input.commitment plan execution slots
    return some settled

/-- The record `pump` writes at the end of a round. -/
def completedRound [Serde] (input : MarketIngress) (certificate : OrderCertificate)
    (plan : RoundPlan) (execution : AgreedRoundExecution) (book : List MarketBookEntry)
    (settled : Option Settled) :
    Process MarketCompletedRound := do
  let next ← check (bookAfter book execution.result input.commitment)
  let receipts ← match settled with
    | some _ => do
      demandSome (← get .depthFinality (.stage .depthFinality input.commitment))
        "depth finality not durable"
    | none => pure []
  let snapshot ← check (FinalizedPublicBook.fromExecution plan execution receipts)
  return ⟨certificate, execution.result, next, settled.map (·.transactionId),
    settled.map (·.afterRoot), (matchedSlotsOf execution.result).length * 7, some snapshot⟩

/-- `NativeMarketRuntime::pump`. -/
def pump [Serde] : Process Bool := do
  match ← next with
  | none => return false
  | some input =>
    let rounds ← completed
    let previous := rounds.getLast?
    let book := (previous.map (·.book)).getD []
    demand (book.length ≤ maxMatchSlots)
      "native market book capacity needs explicit expansion or lifecycle processing"
    ask input.commitment .setup
    let certificate ← certificateOf input previous
    let plan ← planOf input certificate book
    let execution ← executionOf input plan
    let settled ← settledOf input plan execution
    let done ← completedRound input certificate plan execution book settled
    let _ ← put .done (.stage .done input.commitment) done
    return true

/-! ## The processes -/

/-- What processes on one market journal run: the worker, the intake, and the records of the
deployment when the journal is opened. -/
inductive Entry [Serde] : Prog Op Op.Answer Unit → Prop
  | pump : Entry (launch pump)
  | accept (input : MarketIngress) (now : Nat) : Entry (launch (accept input now))
  | openContext (context : Bytes) : Entry (launch (put .other .context context))
  | openSettings (settings : Bytes) : Entry (launch (put .other .settings settings))

end

end Oclob.Market
