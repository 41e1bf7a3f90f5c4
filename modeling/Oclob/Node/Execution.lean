import Oclob.Core.Depth
import Oclob.Node.Chain

/-!
# Executing a round

Model of the `Execute` request of a node (`dispatch_checked` in `network.rs`) with what it calls
outside the store: `RoundPlan::verify` and `verify_ordering`, `PartyExecutor::execute` and
`NodeExecutionReceipt::verify` (`executor.rs`), `DepthAttestation` (`public_depth.rs`).

The request takes `execute_lock` and locks the store four times: to accept the certificate, to look
for a receipt of the round, to prepare its input, and to record the receipt. Other requests may use
the store in between, so that the sections are separate functions: `beginRound`, `prepareInput` and
`finishRound`. The second and the third lock are one section, as only the holder of `execute_lock`
completes a round. The run of the MP-SPDZ party is outside the model: it ends with a `PartyRun` or
an error.
-/

namespace Oclob.Node

open Oclob.Core Oclob.Lib Oclob.Edge Oclob.Ordering
open NodeShareStore (PreparedPartyInput)

/-- `PartyExecutionError`. -/
inductive PartyExecutionError where
  | plan
  | receipt
  | config
  | programMismatch
  | partyBinding
  | replay
  | partyFailed (status : Int)
  | timeout
  | output
  | unsafePath
  | node (error : NodeError)
  | mpc (reason : String)
  | ioError
deriving DecidableEq, Repr

/-- `NetworkError`, as far as an `Execute` request returns it. -/
inductive NetworkError where
  | unauthorized
  | plan
  | ordering
  | roundInput
  | runtimeDisabled
  | execution
  | state
deriving DecidableEq, Repr

/-! ## Round plans -/

namespace RoundPlan

section

variable [Crypto]

/-- `RoundPlan::unsigned_body`. -/
def unsignedBody (plan : RoundPlan) : Bytes :=
  asBytes "OCLOB:DISTRIBUTED-ROUND-PLAN:v2" ++ toBeBytes 2 plan.version ++
  putBytes (asBytes plan.marketId) ++ toBeBytes 8 plan.sequence ++
  plan.orderingCertificate.digest.bytes ++ toBeBytes 2 plan.resting.length ++
  plan.resting.flatMap Digest32.bytes ++ plan.arriving.bytes ++ toBeBytes 8 plan.issuedAt ++
  toBeBytes 8 plan.expiresAt ++ plan.coordinator.bytes

/-- `RoundPlan::derived_round_id`. -/
def derivedRoundId (plan : RoundPlan) : Digest32 := sha256 plan.unsignedBody

/-- `RoundPlan::signature_body`. -/
def signatureBody (plan : RoundPlan) : Bytes :=
  asBytes "OCLOB:DISTRIBUTED-ROUND-PLAN:v2" ++ plan.roundId.bytes

/-- The first test of `RoundPlan::verify`. -/
def Bound (plan : RoundPlan) (now : Nat) : Prop :=
  plan.version = executorVersion ∧ 0 < plan.marketId.utf8ByteSize ∧
  plan.marketId.utf8ByteSize ≤ 64 ∧ plan.sequence ≠ 0 ∧
  plan.orderingCertificate.marketId = plan.marketId ∧
  plan.orderingCertificate.sequence = plan.sequence ∧
  plan.orderingCertificate.commitment = plan.arriving ∧
  plan.expiresAt ≤ plan.orderingCertificate.expiresAt ∧ plan.coordinator ≠ 0 ∧
  plan.arriving ≠ 0 ∧ plan.resting.length ≤ maxMatchSlots ∧ plan.arriving ∉ plan.resting ∧
  plan.issuedAt ≤ now ∧ now ≤ plan.expiresAt ∧ plan.expiresAt - plan.issuedAt ≤ 300 ∧
  plan.roundId = plan.derivedRoundId

instance (plan : RoundPlan) (now : Nat) : Decidable (plan.Bound now) :=
  inferInstanceAs (Decidable (_ ∧ _))

/-- `RoundPlan::verify`. -/
def verify (plan : RoundPlan) (now : Nat) : Except PartyExecutionError Unit := do
  require (plan.Bound now) .plan
  require plan.resting.Nodup .plan
  require (verifyStrict plan.coordinator plan.signatureBody plan.signature = true) .plan

/-- `RoundPlan::verify_ordering`. -/
def verifyOrdering (plan : RoundPlan) (policy : CommitteePolicy) (keys : NodeKeys) (now : Nat) :
    Except PartyExecutionError Unit := do
  plan.verify now
  (plan.orderingCertificate.verify policy keys now).mapError fun _ => .plan

theorem verifyOrdering_ok {plan : RoundPlan} {policy : CommitteePolicy} {keys : NodeKeys}
    {now : Nat} {u : Unit} (h : plan.verifyOrdering policy keys now = .ok u) :
    plan.Bound now ∧ plan.resting.Nodup ∧
      plan.orderingCertificate.verify policy keys now = .ok () := by
  simp only [verifyOrdering, verify, ok_rules] at h
  obtain ⟨⟨⟩, ⟨⟨⟩, hbound, ⟨⟩, hnodup, -⟩, hcertificate⟩ := h
  exact ⟨hbound, hnodup, hcertificate⟩

end

end RoundPlan

/-! ## Public depth -/

namespace DepthAttestation

variable [NodeCrypto] [Serde]

/-- `DepthAttestation::body`. -/
def body (attestation : DepthAttestation) : Bytes :=
  asBytes "OCLOB:PUBLIC-DEPTH-ATTESTATION:v2" ++ attestationJson attestation

/-- `DepthAttestation::sign`, where `program` is the text of `matching_program`. -/
def sign (party : Nat) (plan : RoundPlan) (result : MpcBatchResult) (state : Digest32)
    (program key : Bytes) : Except String DepthAttestation := do
  let levels ← okOr result.publicLevels "MPC depth absent"
  validatePublicLevels levels
  let value : DepthAttestation := {
    version := 2
    party
    marketId := plan.marketId
    sequence := plan.sequence
    roundId := plan.roundId
    bookDigest := publicDepthDigest levels
    publicOutputSha256 := publicOutputDigest result
    programSha256 := sha256 program
    stateCommitment := state
    issuedAt := plan.issuedAt
    validUntil := plan.expiresAt
    settlementRequired := anyMatched result
    signer := verifyingKey key
    signature := [] }
  let signature ← okOr (trySign key value.body) "signature error"
  return { value with signature }

/-- `DepthAttestation::verify`. -/
def verify (attestation : DepthAttestation) (key : Digest32) : Except String Unit := do
  require (attestation.version = 2 ∧ attestation.party < 7 ∧
    0 < attestation.marketId.utf8ByteSize ∧ attestation.marketId.utf8ByteSize ≤ 64 ∧
    attestation.sequence ≠ 0 ∧ attestation.roundId ≠ 0 ∧ attestation.stateCommitment ≠ 0 ∧
    attestation.issuedAt ≤ attestation.validUntil ∧
    attestation.validUntil - attestation.issuedAt ≤ 300 ∧ attestation.signer = key)
    "invalid public depth attestation"
  require (verifyStrict key attestation.body attestation.signature = true) "signature error"

end DepthAttestation

/-! ## Receipts and the party -/

section

variable [NodeCrypto] [Serde]

/-- The test of `NodeExecutionReceipt::verify` on an attestation of the receipt's own depth. -/
def NodeExecutionReceipt.Attested (receipt : NodeExecutionReceipt) (plan : RoundPlan)
    (levels : List PriceLevel) (attestation : DepthAttestation) : Prop :=
  attestation.party = receipt.party ∧ attestation.marketId = plan.marketId ∧
  attestation.sequence = plan.sequence ∧ attestation.roundId = receipt.roundId ∧
  attestation.publicOutputSha256 = receipt.publicOutputSha256 ∧
  attestation.bookDigest = publicDepthDigest levels ∧
  attestation.stateCommitment = receipt.privateStateSha256 ∧
  attestation.programSha256 = receipt.programSha256 ∧ attestation.issuedAt = plan.issuedAt ∧
  attestation.validUntil = plan.expiresAt ∧
  attestation.settlementRequired = anyMatched receipt.result

instance (receipt : NodeExecutionReceipt) (plan : RoundPlan) (levels : List PriceLevel)
    (attestation : DepthAttestation) : Decidable (receipt.Attested plan levels attestation) :=
  inferInstanceAs (Decidable (_ ∧ _))

/-- `NodeExecutionReceipt::verify`, where `program` is the text of `matching_program`. -/
def NodeExecutionReceipt.verify (receipt : NodeExecutionReceipt) (plan : RoundPlan)
    (expectedParty : Nat) (expectedSigner : Digest32) (program : Bytes) :
    Except PartyExecutionError Unit := do
  require (receipt.version = executorVersion ∧ receipt.party = expectedParty ∧
    receipt.party < mpcParties ∧ receipt.roundId = plan.roundId ∧
    receipt.programSha256 = sha256 program ∧ receipt.privateParentDigest ≠ 0 ∧
    receipt.privateStateSha256 ≠ 0 ∧
    receipt.publicOutputSha256 = publicOutputDigest receipt.result ∧
    receipt.result.slots.length = maxMatchSlots ∧ receipt.signer = expectedSigner) .receipt
  match receipt.result.publicLevels, receipt.depthAttestation with
  | some levels, some attestation => do
    (attestation.verify expectedSigner).mapError fun _ => .receipt
    require (receipt.Attested plan levels attestation) .receipt
  | none, none => .ok ()
  | _, _ => .error .receipt
  require (verifyStrict expectedSigner receipt.signatureBody receipt.signature = true) .receipt

/-- `PartyExecutor`: `open` has compared the compiled program with `matching_program`. -/
structure PartyExecutor where
  party : Nat
  signingKey : Bytes
  program : Bytes
  artifactSha256 : Digest32

/-- What a run of the MP-SPDZ party leaves: the parsed output, the digest of the private state it
retained and the time it took. -/
structure PartyRun where
  result : MpcBatchResult
  privateStateSha256 : Digest32
  executionMs : Nat

namespace PartyExecutor

/-- The receipt `execute` signs. -/
def unsignedReceipt (self : PartyExecutor) (run : PartyRun) (prepared : PreparedPartyInput)
    (plan : RoundPlan) (attestation : DepthAttestation) : NodeExecutionReceipt where
  version := executorVersion
  party := self.party
  roundId := plan.roundId
  generation := prepared.generation
  roundCommitment := prepared.roundCommitment
  programSha256 := sha256 self.program
  artifactSha256 := self.artifactSha256
  privateParentDigest := prepared.privateParentDigest
  privateStateSha256 := run.privateStateSha256
  publicOutputSha256 := publicOutputDigest run.result
  result := run.result
  depthAttestation := some attestation
  executionMs := run.executionMs
  signer := verifyingKey self.signingKey
  signature := []

/-- `PartyExecutor::execute`. -/
def execute (self : PartyExecutor) (outcome : Except PartyExecutionError PartyRun)
    (prepared : PreparedPartyInput) (plan : RoundPlan) :
    Except PartyExecutionError NodeExecutionReceipt := do
  require (prepared.party = self.party) .partyBinding
  let run ← outcome
  let attestation ← (DepthAttestation.sign self.party plan run.result run.privateStateSha256
    self.program self.signingKey).mapError fun _ => .receipt
  let unsigned := self.unsignedReceipt run prepared plan attestation
  let signature ← okOr (trySign self.signingKey unsigned.signatureBody) .receipt
  let receipt := { unsigned with signature }
  receipt.verify plan self.party (verifyingKey self.signingKey) self.program
  return receipt

/-- What `execute` takes over from the plan, the prepared input and the run. -/
theorem execute_ok {self : PartyExecutor} {outcome : Except PartyExecutionError PartyRun}
    {prepared : PreparedPartyInput} {plan : RoundPlan} {receipt : NodeExecutionReceipt}
    (h : self.execute outcome prepared plan = .ok receipt) :
    ∃ run, outcome = .ok run ∧ receipt.result = run.result ∧ receipt.roundId = plan.roundId ∧
      receipt.privateParentDigest = prepared.privateParentDigest := by
  simp only [execute, ok_rules] at h
  obtain ⟨-, -, run, hrun, attestation, -, signature, -, -, -, rfl⟩ := h
  exact ⟨run, hrun, rfl, rfl, rfl⟩

end PartyExecutor

end

/-! ## The request -/

/-- `PeerRole`. -/
inductive PeerRole where
  | participant
  | coordinator
  | settlement
  | operator
deriving DecidableEq, Repr

/-- What an `Execute` request reads of `NodeRuntime`. -/
structure NodeRuntime where
  orderingPolicy : CommitteePolicy
  orderingKeys : NodeKeys
  executor : Option PartyExecutor

/-- An `Execute` request of a peer, with the clock read for it. -/
structure ExecuteRequest where
  role : PeerRole
  applicationKey : Digest32
  plan : RoundPlan
  now : Nat

namespace ExecuteRequest

variable [NodeCrypto] [Serde]

/-- The certificate call of the request. -/
def accept (request : ExecuteRequest) (runtime : NodeRuntime) (disk : Disk) : StoreOp :=
  .acceptOrderCertificate disk request.plan.orderingCertificate runtime.orderingPolicy
    runtime.orderingKeys request.now

/-- The first section: the checks on peer and plan, and the certificate. -/
def beginRound (request : ExecuteRequest) (runtime : NodeRuntime) (disk : Disk) :
    EStateM NetworkError NodeShareStore Unit := do
  ensure (request.role = .coordinator) .unauthorized
  attempt ((request.plan.verifyOrdering runtime.orderingPolicy runtime.orderingKeys
    request.now).mapError fun _ => .plan)
  ensure (request.plan.coordinator = request.applicationKey) .unauthorized
  let _ ← EStateM.adaptExcept (fun _ => .ordering)
    (NodeShareStore.acceptOrderCertificate disk request.plan.orderingCertificate
      runtime.orderingPolicy runtime.orderingKeys request.now)

/-- The second section: the receipt of a round that is already complete, or the input of a new
one. -/
def prepareInput (request : ExecuteRequest) (store : NodeShareStore) (files : PrivateFiles) :
    Except NetworkError (NodeExecutionReceipt ⊕ PreparedPartyInput) :=
  match store.state.completedRounds.get? request.plan.roundId with
  | some receipt => .ok (.inl receipt)
  | none => do
    let prepared ← (store.prepareRound files request.plan.marketId request.plan.resting
      request.plan.arriving request.now).mapError fun _ => .roundInput
    return .inr prepared

/-- The third section: the run of the party and the receipt. -/
def finishRound (request : ExecuteRequest) (runtime : NodeRuntime) (disk : Disk)
    (outcome : Except PartyExecutionError PartyRun) (prepared : PreparedPartyInput) :
    EStateM NetworkError NodeShareStore NodeExecutionReceipt := do
  let executor ← attempt (okOr runtime.executor .runtimeDisabled)
  let receipt ← attempt ((executor.execute outcome prepared request.plan).mapError
    fun _ => .execution)
  EStateM.adaptExcept (fun _ => .state) (NodeShareStore.recordCompletedRound disk receipt)
  return receipt

end ExecuteRequest

end Oclob.Node
