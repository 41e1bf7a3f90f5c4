import Oclob.Core.Book
import Oclob.Edge.Manifest
import Oclob.Ordering.Certificate

/-!
# The state of a node

The durable state of a node, `StoreState` in `oclob-node/src/lib.rs`, and the values it is made of:
admitted records, votes, execution receipts (`executor.rs`), lifecycle commands
(`native_lifecycle.rs`), observed finality (`native_finality.rs`) and the node's own receipts
(`network.rs`), each with its checks.

Maps keyed by the hex text of a digest are keyed by the digest. `serde_json` comes from another
crate: `Serde` names the texts it writes and reads.
-/

namespace Oclob.Node

open Oclob.Core Oclob.Lib Oclob.Edge Oclob.Ordering

/-- `NodeError`. -/
inductive NodeError where
  | party
  | admission (reason : String)
  | conflict
  | generation
  | unknownOrder
  | round (reason : String)
  | ordering (reason : String)
  | release (reason : String)
  | privateState (reason : String)
  | state (reason : String)
  | unsafePath (reason : String)
  | ioError
deriving DecidableEq, Repr

/-- The texts of `NodeError`; that of an input or output error is the system's. -/
def NodeError.text : NodeError → String
  | .party => "MPC party index is invalid"
  | .admission reason => "share admission failed: " ++ reason
  | .conflict => "another ciphertext already exists for the same order commitment"
  | .generation => "node share store generation overflowed"
  | .unknownOrder => "round references an unknown order"
  | .round reason => "round plan is invalid: " ++ reason
  | .ordering reason => "ordering state is invalid: " ++ reason
  | .release reason => "settlement capability release rejected: " ++ reason
  | .privateState reason => "party-local private book state is invalid: " ++ reason
  | .state reason => "node state is invalid: " ++ reason
  | .unsafePath reason => "unsafe node-store path: " ++ reason
  | .ioError => "input or output error"

/-! ## The values -/

/-- `NodeAdmissionReceipt`. -/
structure NodeAdmissionReceipt where
  version : Nat
  party : Nat
  orderCommitment : Digest32
  manifestSigner : Digest32
  orderShareDigest : Digest32
  capabilityKeyShareDigest : Digest32
  generation : Nat
  stateDigest : Digest32
  signer : Digest32
  signature : Bytes
deriving DecidableEq

/-- `StoredRecord`. -/
structure StoredRecord where
  manifest : EdgeOrderManifest
  sealedShare : SealedPartyShare
  sealedCapabilityKeyShare : Option SealedCapabilityKeyShare
  admittedAt : Nat
  admissionReceipt : Option NodeAdmissionReceipt
deriving DecidableEq

/-- `StoredOrderVote`. -/
structure StoredOrderVote where
  statementDigest : Digest32
  expiresAt : Nat
deriving DecidableEq

/-- `DepthAttestation`. -/
structure DepthAttestation where
  version : Nat
  party : Nat
  marketId : String
  sequence : Nat
  roundId : Digest32
  bookDigest : Digest32
  publicOutputSha256 : Digest32
  programSha256 : Digest32
  stateCommitment : Digest32
  issuedAt : Nat
  validUntil : Nat
  settlementRequired : Bool
  signer : Digest32
  signature : Bytes
deriving DecidableEq

/-- `NodeExecutionReceipt`. -/
structure NodeExecutionReceipt where
  version : Nat
  party : Nat
  roundId : Digest32
  generation : Nat
  roundCommitment : Digest32
  programSha256 : Digest32
  artifactSha256 : Digest32
  privateParentDigest : Digest32
  privateStateSha256 : Digest32
  publicOutputSha256 : Digest32
  result : MpcBatchResult
  depthAttestation : Option DepthAttestation
  executionMs : Nat
  signer : Digest32
  signature : Bytes
deriving DecidableEq

/-- `RoundPlan`. -/
structure RoundPlan where
  version : Nat
  marketId : String
  sequence : Nat
  orderingCertificate : OrderCertificate
  resting : List Digest32
  arriving : Digest32
  issuedAt : Nat
  expiresAt : Nat
  coordinator : Digest32
  roundId : Digest32
  signature : Bytes
deriving DecidableEq

/-- `PrivateStateFinality`. -/
structure PrivateStateFinality where
  roundId : Digest32
  publicOutputSha256 : Digest32
  transitionDigest : Digest32
  canonicalReceiptDigest : Digest32
  canonicalHeight : Nat
deriving DecidableEq

/-- `PrivateBookStateRef`. -/
structure PrivateBookStateRef where
  roundId : Digest32
  privateStateSha256 : Digest32
  wireOffset : Nat
  transitionDigest : Digest32
  canonicalReceiptDigest : Digest32
  canonicalHeight : Nat
deriving DecidableEq

/-- `NodePrivateStateReceipt`. -/
structure NodePrivateStateReceipt where
  version : Nat
  party : Nat
  roundId : Digest32
  privateStateSha256 : Digest32
  transitionDigest : Digest32
  canonicalReceiptDigest : Digest32
  canonicalHeight : Nat
  generation : Nat
  stateDigest : Digest32
  signer : Digest32
  signature : Bytes
deriving DecidableEq

/-- `PrivateRoundFinalization`. -/
structure PrivateRoundFinalization where
  nativeFinalityRequired : Bool
  publicOutputSha256 : Digest32
  transitionDigest : Digest32
  canonicalReceiptDigest : Digest32
  canonicalHeight : Nat
  privateStateReceipt : Option NodePrivateStateReceipt
deriving DecidableEq

/-- `NativeFinalityRecord`. -/
structure NativeFinalityRecord where
  roundId : Digest32
  slot : Nat
  publicOutputSha256 : Digest32
  makerOrder : Digest32
  takerOrder : Digest32
  transactionId : String
  blockId : String
  height : Nat
  statement : Digest32
  batchStatement : Option Digest32
  beforeRoot : Digest32
  afterRoot : Digest32
deriving DecidableEq

/-- `ApplicationReleaseReason`. -/
inductive ReleaseReason where
  | cancelled
  | expired
deriving DecidableEq, Repr

/-- `LifecycleCommand`. -/
structure LifecycleCommand where
  version : Nat
  marketId : String
  target : Digest32
  reason : ReleaseReason
  issuedAt : Nat
  expiresAt : Nat
  nonce : Digest32
  signature : Bytes
deriving DecidableEq

/-- `LifecycleFinality`. -/
structure LifecycleFinality where
  command : Digest32
  target : Digest32
  transactionId : String
  blockId : String
  height : Nat
  statement : Digest32
  beforeRoot : Digest32
  afterRoot : Digest32
  releasedSequence : Nat
deriving DecidableEq

/-- `StoredLifecycle`. -/
structure StoredLifecycle where
  command : LifecycleCommand
  manifest : EdgeOrderManifest
  certificate : Option OrderCertificate
  finality : Option LifecycleFinality
deriving DecidableEq

/-- `StoreState`. -/
structure StoreState where
  version : Nat
  deploymentCryptoPolicy : Bytes
  party : Nat
  generation : Nat
  records : OrdMap Digest32 StoredRecord
  completedRounds : OrdMap Digest32 NodeExecutionReceipt
  orderingSequence : Nat
  orderingHead : Digest32
  orderingVotes : OrdMap Nat StoredOrderVote
  orderedCommitments : Finset Digest32
  reservationClaims : OrdMap Digest32 Digest32
  privateHeads : OrdMap Digest32 PrivateBookStateRef
  finalizedPrivateRounds : OrdMap Digest32 PrivateRoundFinalization
  nativeFinalities : OrdMap Digest32 (OrdMap Nat NativeFinalityRecord)
  lifecycle : OrdMap Digest32 StoredLifecycle

/-- What `serde_json` writes and reads. -/
class Serde where
  stateJson : StoreState → Bytes
  /-- The `version` field of a payload, if the payload is JSON and has one, and its state. -/
  parseVersion : Bytes → Option (Option Nat)
  parseState : Bytes → Option StoreState
  commandJson : LifecycleCommand → Bytes
  finalityJson : NativeFinalityRecord → Bytes
  /-- The tuple a depth attestation signs. -/
  attestationJson : DepthAttestation → Bytes

export Serde (stateJson parseState parseVersion commandJson finalityJson attestationJson)

/-- An evaluable instance: a state is written as its generation and read back from a table. -/
@[reducible] def sampleSerde (states : List StoreState) : Serde where
  stateJson state := toBeBytes 8 state.generation
  parseVersion bytes :=
    (states.find? fun state => toBeBytes 8 state.generation = bytes).map fun state =>
      some state.version
  parseState bytes := states.find? fun state => toBeBytes 8 state.generation = bytes
  commandJson command := command.target.bytes ++ command.nonce.bytes
  finalityJson record := record.roundId.bytes ++ toBeBytes 2 record.slot
  attestationJson attestation := attestation.roundId.bytes

/-! ## Constants -/

/-- `STORE_VERSION`. -/
def storeVersion : Nat := 13

/-- `VERSION` of `executor.rs`. -/
def executorVersion : Nat := 2

/-- `RECORD_VERSION`. -/
def recordVersion : Nat := 4

/-- `PRIVATE_ORDER_WIRES` and `PERSISTENCE_WIRES`. -/
def privateOrderWires : Nat := 8

def persistenceWires : Nat := (maxMatchSlots + 1) * privateOrderWires + maxMatchSlots * 616

/-- `empty_state`. -/
def emptyState (party : Nat) (policy : Bytes) : StoreState where
  version := storeVersion
  deploymentCryptoPolicy := policy
  party
  generation := 0
  records := .empty
  completedRounds := .empty
  orderingSequence := 0
  orderingHead := 0
  orderingVotes := .empty
  orderedCommitments := ∅
  reservationClaims := .empty
  privateHeads := .empty
  finalizedPrivateRounds := .empty
  nativeFinalities := .empty
  lifecycle := .empty

end Oclob.Node
