import Oclob.Edge.Manifest
import Oclob.Settlement.Collaborative

/-!
# Native fills

Model of `oclob-settlement/src/native.rs`: how the coordinator builds a fill from a proof and two
canonical reservation heads (`prepare_native_fill`, `native_batch_binding`,
`project_pending_native_head`). A claim authorization request is refused for two reservations of
one participant (`NativeClaimAuthorizationIssue::validate`).

Left out: what a node checks before it signs a fill, the bodies of the claim responses, of proofs
and of sealed openings, and the signatures over them. What the packages for these compute stands
in `NativeChecks`.
-/

namespace Oclob.Settlement

open Oclob.Core Oclob.Edge Oclob.Lib

/-! ## Data -/

/-- `ApplicationReserveScope`. -/
structure ApplicationReserveScope where
  applicationBinding : Digest32
  venueId : Digest32
  defmiId : Digest32
  committeeKeyDigest : Digest32
  amountBits : Nat
deriving DecidableEq

/-- `ReservationPermit`, the fields read here. -/
structure ReservationPermit where
  reservationId : Digest32
  participantHandle : Digest32
  assetId : Digest32
  authorityDigest : Digest32
  escrowNoteId : Digest32
  /-- `role == ReservationRole::Application`. -/
  application : Bool
  venueId : Digest32
  amountCommitment : Digest32
  reserveReceiptDigest : Digest32
deriving DecidableEq

/-- `NativeReservationAuthority`. -/
structure NativeReservationAuthority where
  admission : ReservationAdmission
  permit : ReservationPermit
  reserveReblinding : Digest32
  claimAuthorizationEndpoint : Bytes
  orderSigner : Digest32
deriving DecidableEq

/-- `CanonicalApplicationReservation`: a hold as the chain has it. -/
structure CanonicalApplicationReservation where
  stateRoot : Digest32
  scope : ApplicationReserveScope
  holdId : Digest32
  mandateDigest : Digest32
  escrowNoteId : Digest32
  sequence : Nat
  headReceipt : Digest32
  remainingCommitment : Digest32
  remainingOpening : Option Bytes
  status : String
  settlementDigest : Digest32
  amountCommitment : Digest32
  assetId : Digest32
  validUntil : Nat
  reserveReceiptDigest : Digest32
deriving DecidableEq

/-- `NativeClaimReservation`. -/
structure NativeClaimReservation where
  reservationId : Digest32
  participantHandle : Digest32
  assetId : Digest32
  sequence : Nat
deriving DecidableEq

/-- `NativeClaimAuthorizationIssue`. -/
structure NativeClaimAuthorizationIssue where
  version : Nat
  instructionNullifier : Digest32
  payer : NativeClaimReservation
  payee : NativeClaimReservation
deriving DecidableEq

/-- `NativeClaimLeg`. -/
inductive NativeClaimLeg where
  | securitiesDelivery | securitiesRefund | cashDelivery | cashRefund
deriving DecidableEq

/-- `ClaimAuthorizationCommitment`; `rest` are the fields nothing here reads. -/
structure ClaimAuthorizationCommitment where
  keyFingerprint : Digest32
  rest : Bytes
deriving DecidableEq

/-- `NativeClaimAuthorizationCommitment`. -/
structure NativeClaimAuthorizationCommitment where
  leg : NativeClaimLeg
  recipientCommitment : Digest32
  authorization : ClaimAuthorizationCommitment
deriving DecidableEq

/-- `NativeParticipantClaimAuthorizations`. -/
structure NativeParticipantClaimAuthorizations where
  version : Nat
  reservationId : Digest32
  sequence : Nat
  claims : NativeClaimAuthorizationCommitment × NativeClaimAuthorizationCommitment
  signature : Bytes
deriving DecidableEq

/-- `NativeFillClaimAuthorizations`. -/
structure NativeFillClaimAuthorizations where
  payer : NativeParticipantClaimAuthorizations
  payee : NativeParticipantClaimAuthorizations
deriving DecidableEq

/-- `ApplicationSpendHead`: one hold in a fill. -/
structure ApplicationSpendHead where
  holdId : Digest32
  sequence : Nat
  previousReceipt : Digest32
  remainingCommitment : Digest32
  reserveReblinding : Digest32
  close : Bool
deriving DecidableEq

/-- `ApplicationFillBatchBinding`. -/
structure ApplicationFillBatchBinding where
  group : Digest32
  index : Nat
  count : Nat
deriving DecidableEq

/-- `ApplicationNoteFill`; `evidence` are its proofs, commitments and openings. -/
structure ApplicationNoteFill where
  scope : ApplicationReserveScope
  beforeRoot : Digest32
  operationId : Digest32
  mpcResultDigest : Digest32
  securitiesAsset : Digest32
  cashAsset : Digest32
  securities : ApplicationSpendHead
  cash : ApplicationSpendHead
  instruction : Instruction
  evidence : Bytes
  committeePublic : Bytes
  signature : Bytes
  batch : Option ApplicationFillBatchBinding
deriving DecidableEq

/-- `NativeFillAuthorizationRequest`. -/
structure NativeFillAuthorizationRequest where
  roundId : Digest32
  slot : Nat
  fill : ApplicationNoteFill
  maker : NativeReservationAuthority
  taker : NativeReservationAuthority
  claimAuthorizations : NativeFillClaimAuthorizations
deriving DecidableEq

/-- What the packages for claims, proofs and notes compute. -/
class NativeChecks extends NodeCrypto where
  /-- `Instruction::nullifier`. -/
  nullifier : Instruction → Digest32
  /-- `ClaimAuthorizationEndpoint::validate`. -/
  validateEndpoint : Bytes → Except String Unit
  /-- `NativeFillClaimAuthorizations::validate`. -/
  validateClaims : NativeFillClaimAuthorizations → NativeClaimAuthorizationIssue →
    Except String Unit
  /-- The encodings of proofs and openings in `prepare_native_fill`. -/
  fillEvidence : CollaborativeFillProof → NativeClaimAuthorizationIssue →
    NativeFillClaimAuthorizations → Except String Bytes
  /-- `application_fill_group`. -/
  applicationFillGroup : ApplicationReserveScope → Digest32 → List Digest32 →
    Except String Digest32
  /-- `ApplicationNoteFill::signing_message`. -/
  signingMessage : ApplicationNoteFill → Except String Digest32
  /-- `ApplicationNoteFill::verify`: the statement, and for each rail the commitment and the opening
  of what remains. -/
  verifyFill : ApplicationNoteFill → ApplicationReserveScope → Nat →
    Except String (Digest32 × (Digest32 × Bytes) × (Digest32 × Bytes))

/-! ## Claims -/

/-- `CLAIM_AUTHORIZATION_ISSUE_VERSION`. -/
def claimAuthorizationIssueVersion : Nat := 1

/-- `NativeClaimAuthorizationIssue::validate`. -/
def NativeClaimAuthorizationIssue.validate (issue : NativeClaimAuthorizationIssue) :
    Except String Unit :=
  require (issue.version = claimAuthorizationIssueVersion ∧ issue.instructionNullifier ≠ 0 ∧
    issue.payer.reservationId ≠ 0 ∧ issue.payee.reservationId ≠ 0 ∧
    issue.payer.reservationId ≠ issue.payee.reservationId ∧ issue.payer.participantHandle ≠ 0 ∧
    issue.payee.participantHandle ≠ 0 ∧
    issue.payer.participantHandle ≠ issue.payee.participantHandle ∧ issue.payer.assetId ≠ 0 ∧
    issue.payee.assetId ≠ 0 ∧ issue.payer.assetId ≠ issue.payee.assetId ∧
    issue.payer.sequence ≠ u64Bound - 1 ∧ issue.payee.sequence ≠ u64Bound - 1)
    "native claim authorization context is invalid"

/-- `native_fill_operation`. -/
def nativeFillOperation [Crypto] (job : Digest32) : Digest32 :=
  sha256 (asBytes "OCLOB:NATIVE-NOTE-FILL:v1" ++ job.bytes)

section

variable [NativeChecks]

open NativeChecks

/-- The reservation of an authority in a claim request. -/
def NativeReservationAuthority.claimed (authority : NativeReservationAuthority) (sequence : Nat) :
    NativeClaimReservation :=
  ⟨authority.permit.reservationId, authority.permit.participantHandle, authority.permit.assetId,
    sequence⟩

/-- `native_claim_authorization_issue_from_sequences`. -/
def nativeClaimAuthorizationIssueFromSequences (instruction : Instruction)
    (maker taker : NativeReservationAuthority) (makerSequence takerSequence : Nat) :
    Except String NativeClaimAuthorizationIssue := do
  validateEndpoint maker.claimAuthorizationEndpoint
  validateEndpoint taker.claimAuthorizationEndpoint
  let (payer, payee) ←
    if maker.permit.participantHandle = instruction.payerHandle ∧
        taker.permit.participantHandle = instruction.payeeHandle then
      .ok (maker.claimed makerSequence, taker.claimed takerSequence)
    else if taker.permit.participantHandle = instruction.payerHandle ∧
        maker.permit.participantHandle = instruction.payeeHandle then
      .ok (taker.claimed takerSequence, maker.claimed makerSequence)
    else .error "proved claim recipients differ from the reservation participants"
  let issue : NativeClaimAuthorizationIssue :=
    ⟨claimAuthorizationIssueVersion, nullifier instruction, payer, payee⟩
  issue.validate
  return issue

/-- `native_claim_authorization_issue`. -/
def nativeClaimAuthorizationIssue (proof : CollaborativeFillProof)
    (maker taker : NativeReservationAuthority)
    (makerHead takerHead : CanonicalApplicationReservation) :
    Except String NativeClaimAuthorizationIssue := do
  validateEndpoint maker.claimAuthorizationEndpoint
  validateEndpoint taker.claimAuthorizationEndpoint
  require (makerHead.status = "active" ∧ takerHead.status = "active" ∧
      makerHead.holdId = maker.permit.reservationId ∧
      takerHead.holdId = taker.permit.reservationId)
    "claim authorization requires the current active reservation heads"
  nativeClaimAuthorizationIssueFromSequences proof.instruction maker taker makerHead.sequence
    takerHead.sequence

/-! ## Fills -/

/-- `native_batch_binding`. The slots are increasing and below eight, so that their number and
their positions fit the `u16` of the source. -/
def nativeBatchBinding (scope : ApplicationReserveScope) (parent round output : Digest32)
    (slots : List Nat) (slot : Nat) : Except String (Option ApplicationFillBatchBinding) := do
  require (slots ≠ [] ∧ slots.IsChain (· < ·))
    "native matched slots are empty, repeated or unordered"
  let index ← okOr (slots.findIdx? (· = slot)) "slot was not matched"
  let operations ← slots.mapM fun s => (collaborativeJobId sha256 round s output).map
    nativeFillOperation
  if slots.length = 1 then return none
  else
    let group ← applicationFillGroup scope parent operations
    return some ⟨group, index, slots.length⟩

/-- The closure `spend` of `prepare_native_fill`. -/
def spendHead (scope : ApplicationReserveScope) (authority : NativeReservationAuthority)
    (canonical : CanonicalApplicationReservation) (close : Bool) :
    Except String ApplicationSpendHead := do
  require (canonical.status = "active" ∧ canonical.scope = scope ∧
      canonical.holdId = authority.permit.reservationId ∧
      canonical.mandateDigest = authority.permit.authorityDigest ∧
      canonical.escrowNoteId = authority.permit.escrowNoteId)
    "native canonical head differs from its pretrade authority"
  return ⟨canonical.holdId, canonical.sequence, canonical.headReceipt,
    canonical.remainingCommitment, authority.reserveReblinding, close⟩

/-- `prepare_native_fill`. -/
def prepareNativeFill (proof : CollaborativeFillProof) (scope : ApplicationReserveScope)
    (maker taker : NativeReservationAuthority)
    (makerHead takerHead : CanonicalApplicationReservation)
    (claimAuthorizations : NativeFillClaimAuthorizations) (closeTaker : Bool) :
    Except String ApplicationNoteFill := do
  require (makerHead.stateRoot ≠ 0 ∧ makerHead.stateRoot = takerHead.stateRoot)
    "native reserve reads do not share one canonical root"
  let makerSpend ← spendHead scope maker makerHead false
  let takerSpend ← spendHead scope taker takerHead closeTaker
  let makerIsPayer := decide (proof.instruction.payerHandle = maker.permit.participantHandle)
  let (securities, cash, securitiesAsset, cashAsset) :=
    if makerIsPayer then (takerSpend, makerSpend, taker.permit.assetId, maker.permit.assetId)
    else (makerSpend, takerSpend, maker.permit.assetId, taker.permit.assetId)
  require (proof.assetId = securitiesAsset) "native asset rail differs from the proved asset"
  let claimIssue ← nativeClaimAuthorizationIssue proof maker taker makerHead takerHead
  validateClaims claimAuthorizations claimIssue
  let evidence ← fillEvidence proof claimIssue claimAuthorizations
  return {
    scope, beforeRoot := makerHead.stateRoot, operationId := nativeFillOperation proof.jobId,
    mpcResultDigest := proof.marketProofDigest, securitiesAsset, cashAsset, securities, cash,
    instruction := proof.instruction, evidence, committeePublic := proof.frostPublic,
    signature := [], batch := none }

/-- `project_pending_native_head`. -/
def projectPendingNativeHead (head : CanonicalApplicationReservation) (fill : ApplicationNoteFill)
    (now : Nat) : Except String CanonicalApplicationReservation := do
  require (fill.batch ≠ none ∧ head.stateRoot = fill.beforeRoot ∧ head.status = "active")
    "pending head requires an active hold at the signed batch parent"
  let onCash ←
    if fill.securities.holdId = head.holdId then .ok false
    else if fill.cash.holdId = head.holdId then .ok true
    else .error "batch member does not use this reservation"
  let spend := if onCash then fill.cash else fill.securities
  require (head.sequence = spend.sequence ∧ head.headReceipt = spend.previousReceipt ∧
      head.remainingCommitment = spend.remainingCommitment)
    "pending batch member does not extend the current hold"
  let (statement, securities, cash) ← verifyFill fill head.scope now
  let remaining := if onCash then cash else securities
  let sequence ← okOr (checkedAdd head.sequence 1) "pending sequence overflow"
  return {
    head with
    sequence
    remainingCommitment := remaining.1
    headReceipt := statement
    remainingOpening := if spend.close then none else some remaining.2
    status := if spend.close then "consumed" else head.status
    settlementDigest := if spend.close then statement else head.settlementDigest }

end

end Oclob.Settlement
