import Oclob.Node.State

/-!
# The checks on a node's values

Digests, signature bodies and verification of the values of `Oclob.Node.State`: execution
receipts, lifecycle commands, observed finality and the node's own receipts, each under the name
the source gives it.
-/

namespace Oclob.Node

open Oclob.Core Oclob.Lib Oclob.Edge Oclob.Ordering

/-! ## Public outputs -/

section

variable [Crypto]

/-- `public_depth_digest`. -/
def publicDepthDigest (levels : List PriceLevel) : Digest32 :=
  sha256 (asBytes "OCLOB:PUBLIC-PRICE-LEVELS:v1" ++ toBeBytes 8 levels.length ++
    levels.flatMap fun level =>
      toBeBytes 1 level.side.wire ++ toBeBytes 8 level.price ++ toBeBytes 8 level.quantity)

/-- The slots of a result as both digests and receipts write them. -/
def slotBytes (slots : List MpcSlotResult) : Bytes :=
  slots.flatMap fun slot => toBeBytes 1 (if slot.matched then 1 else 0) ++
    toBeBytes 8 slot.tradePrice ++ toBeBytes 8 slot.tradeQuantity

/-- `public_output_digest`. -/
def publicOutputDigest (result : MpcBatchResult) : Digest32 :=
  sha256 (asBytes (if result.publicLevels.isSome then "OCLOB:MPC-PUBLIC-OUTPUT:v2"
      else "OCLOB:MPC-PUBLIC-OUTPUT:v1") ++ slotBytes result.slots ++
    toBeBytes 8 result.arrivingRemaining ++
    (result.publicLevels.map fun levels => (publicDepthDigest levels).bytes).getD [])

end

/-- Some slot of the result matched. -/
def anyMatched (result : MpcBatchResult) : Bool := result.slots.any MpcSlotResult.matched

/-! ## Execution receipts -/

namespace NodeExecutionReceipt

/-- `NodeExecutionReceipt::signature_body`. -/
def signatureBody (receipt : NodeExecutionReceipt) : Bytes :=
  asBytes "OCLOB:DISTRIBUTED-PARTY-RECEIPT:v2" ++ toBeBytes 2 receipt.version ++
  toBeBytes 2 receipt.party ++ receipt.roundId.bytes ++ toBeBytes 8 receipt.generation ++
  receipt.roundCommitment.bytes ++ receipt.programSha256.bytes ++ receipt.artifactSha256.bytes ++
  receipt.privateParentDigest.bytes ++ receipt.privateStateSha256.bytes ++
  receipt.publicOutputSha256.bytes ++ toBeBytes 2 receipt.result.slots.length ++
  slotBytes receipt.result.slots ++ toBeBytes 8 receipt.result.arrivingRemaining ++
  toBeBytes 8 receipt.executionMs ++ receipt.signer.bytes

variable [Crypto]

/-- `NodeExecutionReceipt::verify_stored_signature`. -/
def verifyStoredSignature (receipt : NodeExecutionReceipt) : Bool :=
  decide (receipt.version = executorVersion ∧ receipt.signer ≠ 0) &&
    verifyStrict receipt.signer receipt.signatureBody receipt.signature

/-- The test `record_completed_round` and `read_state` share. -/
def Complete (receipt : NodeExecutionReceipt) (party : Nat) : Prop :=
  receipt.party = party ∧ receipt.roundId ≠ 0 ∧ receipt.roundCommitment ≠ 0 ∧
  receipt.programSha256 ≠ 0 ∧ receipt.artifactSha256 ≠ 0 ∧ receipt.privateParentDigest ≠ 0 ∧
  receipt.privateStateSha256 ≠ 0 ∧ receipt.result.slots.length = maxMatchSlots ∧
  receipt.publicOutputSha256 = publicOutputDigest receipt.result ∧ receipt.signer ≠ 0 ∧
  receipt.verifyStoredSignature = true

instance (receipt : NodeExecutionReceipt) (party : Nat) : Decidable (receipt.Complete party) :=
  inferInstanceAs (Decidable (_ ∧ _))

end NodeExecutionReceipt

/-! ## Finality -/

/-- The test of `PrivateStateFinality::validate`. -/
def PrivateStateFinality.Filled (finality : PrivateStateFinality) : Prop :=
  finality.roundId ≠ 0 ∧ finality.publicOutputSha256 ≠ 0 ∧ finality.transitionDigest ≠ 0 ∧
  finality.canonicalReceiptDigest ≠ 0 ∧ finality.canonicalHeight ≠ 0

instance (finality : PrivateStateFinality) : Decidable finality.Filled :=
  inferInstanceAs (Decidable (_ ∧ _))

/-- `PrivateStateFinality::validate`. -/
def PrivateStateFinality.validate (finality : PrivateStateFinality) : Except NodeError Unit :=
  require finality.Filled (.privateState "canonical finality binding is incomplete")

namespace NativeFinalityRecord

/-- The test of `NativeFinalityRecord::validate`. -/
def Observes (record : NativeFinalityRecord) (receipt : NodeExecutionReceipt) : Prop :=
  record.roundId = receipt.roundId ∧ record.publicOutputSha256 = receipt.publicOutputSha256 ∧
  (receipt.result.slots[record.slot]?).any MpcSlotResult.matched = true ∧
  record.makerOrder ≠ 0 ∧ record.takerOrder ≠ 0 ∧ record.makerOrder ≠ record.takerOrder ∧
  0 < record.transactionId.utf8ByteSize ∧ record.transactionId.utf8ByteSize ≤ 128 ∧
  0 < record.blockId.utf8ByteSize ∧ record.blockId.utf8ByteSize ≤ 128 ∧ record.height ≠ 0 ∧
  record.statement ≠ 0 ∧ record.batchStatement ≠ some 0 ∧ record.beforeRoot ≠ 0 ∧
  record.afterRoot ≠ 0 ∧ record.beforeRoot ≠ record.afterRoot

instance (record : NativeFinalityRecord) (receipt : NodeExecutionReceipt) :
    Decidable (record.Observes receipt) :=
  inferInstanceAs (Decidable (_ ∧ _))

/-- `NativeFinalityRecord::validate`. -/
def validate (record : NativeFinalityRecord) (receipt : NodeExecutionReceipt) :
    Except String Unit :=
  require (record.Observes receipt)
    "canonical observation is incomplete or names another executed slot"

end NativeFinalityRecord

section

variable [Crypto] [Serde]

/-- The records of one round by slot. -/
abbrev SlotRecords := OrdMap Nat NativeFinalityRecord

/-- The atomic-group test of `aggregate_finality`. -/
def oneGroup (records : SlotRecords) (first : NativeFinalityRecord) (statement : Digest32) :
    Bool :=
  (records.entries.all fun (slot, record) => decide (slot = record.slot ∧
    record.roundId = first.roundId ∧ record.publicOutputSha256 = first.publicOutputSha256 ∧
    record.batchStatement = some statement ∧ statement ≠ 0 ∧
    record.transactionId = first.transactionId ∧ record.blockId = first.blockId ∧
    record.height = first.height ∧ record.beforeRoot = first.beforeRoot ∧
    record.afterRoot = first.afterRoot)) &&
  decide (records.values.map NativeFinalityRecord.statement).Nodup

/-- The separate-fills test of `aggregate_finality`. -/
def separateFills (records : SlotRecords) (first : NativeFinalityRecord) : Bool :=
  (records.entries.all fun (slot, record) => decide (slot = record.slot ∧
    record.roundId = first.roundId ∧ record.publicOutputSha256 = first.publicOutputSha256 ∧
    record.batchStatement = none)) &&
  decide (records.values.map NativeFinalityRecord.transactionId).Nodup

/-- `aggregate_finality`. -/
def aggregateFinality (records : SlotRecords) : Except String PrivateStateFinality :=
  match records.values with
  | [] => .error "no confirmed native fills"
  | first :: rest =>
    match first.batchStatement with
    | some statement => do
      require (oneGroup records first statement = true)
        "native observations do not belong to one atomic group"
      return ⟨first.roundId, first.publicOutputSha256, statement, statement, first.height⟩
    | none => do
      require (separateFills records first = true)
        "native round finality contains another round or duplicate transaction"
      let digest := if rest = [] then first.statement else
        sha256 (asBytes "OCLOB:NATIVE-ROUND-FINALITY:v1" ++
          toBeBytes 2 records.values.length ++ records.values.flatMap finalityJson)
      return ⟨first.roundId, first.publicOutputSha256, digest, digest,
        (records.values.map NativeFinalityRecord.height).foldl max 0⟩

/-- The indices of the matched slots. -/
def matchedSlots (receipt : NodeExecutionReceipt) : List Nat :=
  (receipt.result.slots.zipIdx.filter fun pair => pair.1.matched).map Prod.snd

/-- `require_complete`. -/
def requireComplete (receipt : NodeExecutionReceipt) (records : SlotRecords)
    (finality : PrivateStateFinality) : Except NodeError Unit := do
  require (matchedSlots receipt ≠ [] ∧ records.keys = matchedSlots receipt) (.privateState
    "not every matched slot has node-observed canonical finality")
  forEach (fun record => (record.validate receipt).mapError .privateState) records.values
  let aggregate ← (aggregateFinality records).mapError .privateState
  require (aggregate = finality) (.privateState
    "coordinator finality differs from node-observed canonical transactions")

end

/-! ## The node's own receipts -/

section

variable [NodeCrypto]

namespace NodeAdmissionReceipt

/-- `NodeAdmissionReceipt::signature_body`. -/
def signatureBody (receipt : NodeAdmissionReceipt) : Bytes :=
  asBytes "OCLOB:NODE-ADMISSION-RECEIPT:v2" ++ toBeBytes 2 receipt.version ++
  toBeBytes 2 receipt.party ++ receipt.orderCommitment.bytes ++ receipt.manifestSigner.bytes ++
  receipt.orderShareDigest.bytes ++ receipt.capabilityKeyShareDigest.bytes ++
  toBeBytes 8 receipt.generation ++ receipt.stateDigest.bytes ++ receipt.signer.bytes

/-- `NodeAdmissionReceipt::sign`, `none` where it returns an error. -/
def sign (party : Nat) (manifest : EdgeOrderManifest)
    (orderShareDigest capabilityKeyShareDigest : Digest32) (generation : Nat)
    (stateDigest : Digest32) (key : Bytes) : Option NodeAdmissionReceipt :=
  let receipt : NodeAdmissionReceipt := {
    version := recordVersion
    party
    orderCommitment := manifest.commitment
    manifestSigner := manifest.signer
    orderShareDigest, capabilityKeyShareDigest, generation, stateDigest
    signer := verifyingKey key
    signature := [] }
  if party < mpcParties ∧ generation ≠ 0 ∧ stateDigest ≠ 0 ∧ orderShareDigest ≠ 0 ∧
      capabilityKeyShareDigest ≠ 0 then
    (trySign key receipt.signatureBody).map fun signature => { receipt with signature }
  else none

/-- `NodeAdmissionReceipt::verify`. -/
def verify (receipt : NodeAdmissionReceipt) (manifest : EdgeOrderManifest) (expectedParty : Nat)
    (orderShareDigest capabilityKeyShareDigest expectedSigner : Digest32) : Bool :=
  decide (receipt.version = recordVersion ∧ receipt.party = expectedParty ∧
    receipt.party < mpcParties ∧ receipt.orderCommitment = manifest.commitment ∧
    receipt.manifestSigner = manifest.signer ∧ receipt.orderShareDigest = orderShareDigest ∧
    receipt.capabilityKeyShareDigest = capabilityKeyShareDigest ∧
    receipt.orderShareDigest ≠ 0 ∧ receipt.capabilityKeyShareDigest ≠ 0 ∧
    receipt.generation ≠ 0 ∧ receipt.stateDigest ≠ 0 ∧ receipt.signer = expectedSigner) &&
  verifyStrict expectedSigner receipt.signatureBody receipt.signature

end NodeAdmissionReceipt

namespace NodePrivateStateReceipt

/-- `NodePrivateStateReceipt::signature_body`. -/
def signatureBody (receipt : NodePrivateStateReceipt) : Bytes :=
  asBytes "OCLOB:NODE-PRIVATE-STATE-RECEIPT:v2" ++ toBeBytes 2 receipt.version ++
  toBeBytes 2 receipt.party ++ receipt.roundId.bytes ++ receipt.privateStateSha256.bytes ++
  receipt.transitionDigest.bytes ++ receipt.canonicalReceiptDigest.bytes ++
  toBeBytes 8 receipt.canonicalHeight ++ toBeBytes 8 receipt.generation ++
  receipt.stateDigest.bytes ++ receipt.signer.bytes

/-- The receipt `sign` signs. -/
def unsigned (party : Nat) (execution : NodeExecutionReceipt) (finality : PrivateStateFinality)
    (generation : Nat) (stateDigest signer : Digest32) : NodePrivateStateReceipt where
  version := recordVersion
  party
  roundId := finality.roundId
  privateStateSha256 := execution.privateStateSha256
  transitionDigest := finality.transitionDigest
  canonicalReceiptDigest := finality.canonicalReceiptDigest
  canonicalHeight := finality.canonicalHeight
  generation
  stateDigest
  signer
  signature := []

/-- `NodePrivateStateReceipt::sign`, `none` where it returns an error. -/
def sign (party : Nat) (execution : NodeExecutionReceipt) (finality : PrivateStateFinality)
    (generation : Nat) (stateDigest : Digest32) (key : Bytes) : Option NodePrivateStateReceipt :=
  let receipt := unsigned party execution finality generation stateDigest (verifyingKey key)
  if execution.party = party ∧ execution.roundId = finality.roundId ∧
      execution.publicOutputSha256 = finality.publicOutputSha256 ∧
      execution.privateStateSha256 ≠ 0 ∧ finality.transitionDigest ≠ 0 ∧
      finality.canonicalReceiptDigest ≠ 0 ∧ finality.canonicalHeight ≠ 0 ∧ generation ≠ 0 ∧
      stateDigest ≠ 0 then
    (trySign key receipt.signatureBody).map fun signature => { receipt with signature }
  else none

/-- `NodePrivateStateReceipt::verify`. -/
def verify (receipt : NodePrivateStateReceipt) (execution : NodeExecutionReceipt)
    (finality : PrivateStateFinality) (expectedParty : Nat) (expectedSigner : Digest32) : Bool :=
  decide (receipt.version = recordVersion ∧ receipt.party = expectedParty ∧
    receipt.roundId = finality.roundId ∧ receipt.roundId = execution.roundId ∧
    receipt.privateStateSha256 = execution.privateStateSha256 ∧
    receipt.transitionDigest = finality.transitionDigest ∧
    receipt.canonicalReceiptDigest = finality.canonicalReceiptDigest ∧
    receipt.canonicalHeight = finality.canonicalHeight ∧
    execution.publicOutputSha256 = finality.publicOutputSha256 ∧ receipt.generation ≠ 0 ∧
    receipt.stateDigest ≠ 0 ∧ receipt.signer = expectedSigner) &&
  verifyStrict expectedSigner receipt.signatureBody receipt.signature

end NodePrivateStateReceipt

/-! ## Lifecycle commands -/

namespace LifecycleCommand

variable [Serde]

/-- `LifecycleCommand::digest`. -/
def digest (command : LifecycleCommand) : Digest32 :=
  sha256 (asBytes "OCLOB:NATIVE-LIFECYCLE:v2" ++ commandJson { command with signature := [] })

/-- The first test of `LifecycleCommand::verify`. -/
def Within (command : LifecycleCommand) (manifest : EdgeOrderManifest) (now : Nat) : Prop :=
  command.version = 2 ∧ command.marketId = manifest.marketId ∧
  command.target = manifest.commitment ∧ manifest.usesPretradeReservation = true ∧
  command.issuedAt ≤ now ∧ now ≤ command.expiresAt ∧ command.issuedAt < command.expiresAt ∧
  command.expiresAt - command.issuedAt ≤ 1800

instance (command : LifecycleCommand) (manifest : EdgeOrderManifest) (now : Nat) :
    Decidable (command.Within manifest now) :=
  inferInstanceAs (Decidable (_ ∧ _))

/-- The second half of `LifecycleCommand::verify`. -/
def verifyReason (command : LifecycleCommand) (manifest : EdgeOrderManifest) :
    Except String Unit :=
  match command.reason with
  | .cancelled => do
    require (command.nonce ≠ 0 ∧ command.expiresAt ≤ manifest.retentionDeadline)
      "cancellation needs a fresh nonce and a live order"
    require (manifest.signer ≠ 0 ∧
      verifyStrict manifest.signer command.digest.bytes command.signature = true)
      "cancellation owner signature is invalid"
  | .expired => require (manifest.retentionDeadline < command.issuedAt ∧ command.nonce = 0 ∧
      command.signature = [])
      "expiry must follow the actual deadline without an owner signature"

/-- `LifecycleCommand::verify`. -/
def verify (command : LifecycleCommand) (manifest : EdgeOrderManifest) (now : Nat) :
    Except String Unit := do
  (manifest.verify manifest.retentionDeadline).mapError EdgeError.text
  require (command.Within manifest now)
    "lifecycle command is outside its order or validity interval"
  command.verifyReason manifest

/-- A command valid at one time was valid when it was issued. -/
theorem verify_issuedAt {command : LifecycleCommand} {manifest : EdgeOrderManifest} {now : Nat}
    {u : Unit} (h : command.verify manifest now = .ok u) :
    command.verify manifest command.issuedAt = .ok () := by
  simp only [verify, ok_rules] at h ⊢
  obtain ⟨⟨⟩, hmanifest, -, ⟨hv, hm, ht, hr, hi, hn, hlt, hlen⟩, hreason⟩ := h
  exact ⟨(), hmanifest, (), ⟨hv, hm, ht, hr, le_rfl, hlt.le, hlt, hlen⟩, hreason⟩

end LifecycleCommand

end

/-! ## The digest of a state -/

/-- The state without its cached receipts. -/
def semantic (state : StoreState) : StoreState :=
  { state with
    records := state.records.mapValues fun record => { record with admissionReceipt := none }
    finalizedPrivateRounds := state.finalizedPrivateRounds.mapValues fun finalization =>
      { finalization with privateStateReceipt := none } }

/-- `state_digest`. -/
def stateDigest [Crypto] [Serde] (state : StoreState) : Digest32 :=
  sha256 (stateJson (semantic state))

end Oclob.Node
