import Oclob.Node.Checks
import Oclob.Node.Execution

/-!
# The signed envelopes of the market

What enters the market is a `MarketIngress` (`oclob-node/src/market_network.rs`) around the
`EdgeAdmissionReceipt` of its order (`edge_client.rs`); what leaves it is a `FinalizedPublicBook`
(`public_depth.rs`). Both are modelled with the checks they make, over the checks of the nodes'
receipts. Arrays with an entry for each party are lists, and the party of a node is its place, as
`ClusterPublicConfig::validate` demands.
-/

namespace Oclob.Market

open Oclob.Core Oclob.Edge Oclob.Lib Oclob.Node Oclob.Ordering

/-! ## Data -/

/-- `EdgeAdmissionReceipt`. -/
structure EdgeAdmissionReceipt where
  version : Nat
  manifest : EdgeOrderManifest
  nodeGenerations : List Nat
  orderShareDigests : List Digest32
  capabilityKeyShareDigests : List Digest32
  nodeReceipts : List NodeAdmissionReceipt
  receiptDigest : Digest32
deriving DecidableEq

/-- `MarketIngress`; `authority` is the encoded `SealedReservationAuthority`. -/
structure MarketIngress where
  version : Nat
  receipt : EdgeAdmissionReceipt
  authority : Bytes
  signature : Bytes
deriving DecidableEq

/-- `AgreedRoundExecution`. -/
structure AgreedRoundExecution where
  receipts : List NodeExecutionReceipt
  result : MpcBatchResult
deriving DecidableEq

/-- `FinalizedPublicBook`. -/
structure FinalizedPublicBook where
  version : Nat
  marketId : String
  sequence : Nat
  roundId : Digest32
  levels : List PriceLevel
  attestations : List DepthAttestation
  finalityReceipts : List NodePrivateStateReceipt
deriving DecidableEq

/-- `ClusterPublicConfig`, and what other crates compute for an ingress. -/
class ClusterPublicConfig extends NodeCrypto where
  /-- `validate`, the market, the ordering keys and the receipt keys. -/
  validateCluster : Except String Unit
  marketId : String
  orderingKeys : NodeKeys
  receiptKeys : List Digest32
  /-- The text of `matching_program`. -/
  program : Bytes
  /-- `serde_json::to_vec` of an ingress, and of all of it but the signature. -/
  ingressJson : MarketIngress → Bytes
  unsignedJson : MarketIngress → Bytes
  /-- `SealedReservationAuthority::validate_envelope`. -/
  validateEnvelope : Bytes → EdgeOrderManifest → Except String Unit

section

variable [ClusterPublicConfig]

open ClusterPublicConfig

/-! ## Intake -/

namespace EdgeAdmissionReceipt

/-- `receipt_digest`. -/
def derivedDigest (receipt : EdgeAdmissionReceipt) : Digest32 :=
  sha256 (asBytes "OCLOB:EDGE-ADMISSION-RECEIPT:v3" ++ receipt.manifest.commitment.bytes ++
    receipt.manifest.signer.bytes ++
    (receipt.nodeGenerations.zipIdx.flatMap fun entry => toBeBytes 2 entry.2 ++
      toBeBytes 8 entry.1 ++ (receipt.orderShareDigests.getD entry.2 0).bytes ++
      (receipt.capabilityKeyShareDigests.getD entry.2 0).bytes) ++
    toBeBytes 8 receipt.nodeReceipts.length ++
    receipt.nodeReceipts.flatMap fun node => toBeBytes 2 node.party ++
      node.orderCommitment.bytes ++ node.manifestSigner.bytes ++ node.orderShareDigest.bytes ++
      node.capabilityKeyShareDigest.bytes ++ toBeBytes 8 node.generation ++
      node.stateDigest.bytes ++ node.signer.bytes ++ toBeBytes 8 node.signature.length ++
      node.signature)

/-- `EdgeAdmissionReceipt::verify`. -/
def verify (receipt : EdgeAdmissionReceipt) (now : Nat) : Except String Unit := do
  validateCluster
  require (receipt.version = 3 ∧ receipt.manifest.marketId = marketId ∧
    0 ∉ receipt.nodeGenerations ∧ 0 ∉ receipt.orderShareDigests ∧
    0 ∉ receipt.capabilityKeyShareDigests ∧ receipt.nodeReceipts.length = mpcParties ∧
    receipt.receiptDigest = receipt.derivedDigest) "edge admission receipt is invalid"
  (receipt.manifest.verify now).mapError fun _ => "edge admission receipt is invalid"
  forEach (fun entry => require (entry.1.2.verify receipt.manifest entry.2
      (receipt.orderShareDigests.getD entry.2 0) (receipt.capabilityKeyShareDigests.getD entry.2 0)
      entry.1.1 = true ∧ entry.1.2.generation = receipt.nodeGenerations.getD entry.2 0)
    "edge admission receipt is invalid") (receiptKeys.zip receipt.nodeReceipts).zipIdx

end EdgeAdmissionReceipt

namespace MarketIngress

/-- `input.receipt.commitment()`. -/
def commitment (input : MarketIngress) : Digest32 := input.receipt.manifest.commitment

/-- `input.receipt.manifest.retention_deadline`. -/
def retentionDeadline (input : MarketIngress) : Nat := input.receipt.manifest.retentionDeadline

/-- `MarketIngress::statement`. -/
def statement (input : MarketIngress) : Digest32 :=
  sha256 (asBytes "OCLOB:MARKET-INGRESS:v2" ++ unsignedJson input)

/-- `MarketIngress::digest`. -/
def digest (input : MarketIngress) : Digest32 :=
  sha256 (asBytes "OCLOB:MARKET-INGRESS-DIGEST:v2" ++ ingressJson input)

/-- `MarketIngress::verify`. -/
def verify (input : MarketIngress) (now : Nat) : Except String Unit := do
  let manifest := input.receipt.manifest
  require (input.version = 2 ∧ manifest.usesPretradeReservation = true)
    "market intake refuses legacy or unknown input"
  input.receipt.verify now
  validateEnvelope input.authority manifest
  require (verifyStrict manifest.signer input.statement.bytes input.signature = true)
    "signature error"

end MarketIngress

/-! ## The public book -/

/-- `NodePrivateStateReceipt::verify_public_signature`. -/
def verifyPublicSignature (receipt : NodePrivateStateReceipt) (key : Digest32) :
    Except String Unit := do
  require (receipt.version = recordVersion ∧ receipt.party < 7 ∧ receipt.roundId ≠ 0 ∧
    receipt.privateStateSha256 ≠ 0 ∧ receipt.transitionDigest ≠ 0 ∧
    receipt.canonicalReceiptDigest ≠ 0 ∧ receipt.canonicalHeight ≠ 0 ∧ receipt.generation ≠ 0 ∧
    receipt.stateDigest ≠ 0 ∧ receipt.signer = key) "fixed transport record is invalid"
  require (verifyStrict key receipt.signatureBody receipt.signature = true)
    "fixed transport record is invalid"

namespace FinalizedPublicBook

variable [Serde]

/-- One turn of the loop of `FinalizedPublicBook::verify`. -/
def verifyNode (book : FinalizedPublicBook) (now : Nat) (first a : DepthAttestation)
    (party : Nat) (key : Digest32) : Except String Unit := do
  a.verify key
  require (a.party = party ∧ a.marketId = book.marketId ∧ a.sequence = book.sequence ∧
    a.roundId = book.roundId ∧ a.bookDigest = publicDepthDigest book.levels ∧
    a.publicOutputSha256 = first.publicOutputSha256 ∧ a.programSha256 = sha256 program ∧
    a.issuedAt = first.issuedAt ∧ a.validUntil = first.validUntil ∧
    a.settlementRequired = first.settlementRequired ∧ a.issuedAt ≤ now ∧ now ≤ a.validUntil)
    "public depth binding or freshness invalid"
  if first.settlementRequired then do
    let f ← okOr book.finalityReceipts[party]? "index out of bounds"
    let firstF ← okOr book.finalityReceipts.head? "index out of bounds"
    verifyPublicSignature f key
    require (f.party = party ∧ f.roundId = a.roundId ∧ f.privateStateSha256 = a.stateCommitment ∧
      f.canonicalHeight = firstF.canonicalHeight ∧
      f.canonicalReceiptDigest = firstF.canonicalReceiptDigest ∧
      f.transitionDigest = firstF.transitionDigest) "public depth finality disagrees with execution"

/-- `FinalizedPublicBook::verify`. -/
def verify (book : FinalizedPublicBook) (now minimumSequence : Nat) : Except String Unit := do
  validateCluster
  validatePublicLevels book.levels
  require (book.version = 2 ∧ book.marketId = ClusterPublicConfig.marketId ∧
    minimumSequence ≤ book.sequence ∧ book.attestations.length = receiptKeys.length)
    "incomplete public book"
  let first ← okOr book.attestations.head? "public depth signatures absent"
  require (book.finalityReceipts.length =
    if first.settlementRequired then receiptKeys.length else 0)
    "public book missing canonical finality"
  forEach (fun entry => book.verifyNode now first entry.1.2 entry.2 entry.1.1)
    (receiptKeys.zip book.attestations).zipIdx

/-- `FinalizedPublicBook::from_execution`. -/
def fromExecution (plan : RoundPlan) (execution : AgreedRoundExecution)
    (finalityReceipts : List NodePrivateStateReceipt) : Except String FinalizedPublicBook := do
  forEach (fun entry => do
    (entry.1.2.verify plan entry.2 entry.1.1 program).mapError fun _ =>
      "distributed party receipt is invalid"
    require (entry.1.2.result = execution.result) "depth execution disagreement")
    (receiptKeys.zip execution.receipts).zipIdx
  let levels ← okOr execution.result.publicLevels "MPC depth absent"
  let attestations ← execution.receipts.mapM fun receipt =>
    okOr receipt.depthAttestation "unsigned MPC depth"
  let book : FinalizedPublicBook :=
    ⟨2, plan.marketId, plan.sequence, plan.roundId, levels, attestations, finalityReceipts⟩
  book.verify plan.issuedAt plan.sequence
  return book

end FinalizedPublicBook

end

end Oclob.Market
