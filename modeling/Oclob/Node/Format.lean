import Oclob.Node.Store

/-!
# Reading a store file

Model of `read_state` in `oclob-node/src/lib.rs`: the frame (magic, length, payload, checksum), the
version and policy of the payload, and the consistency rules between the maps of the state.

`readState_frame` is the round trip: reading the file `persist` writes for a state comes down to
`StoreState.validate`, and gives the state back, if `serde_json` reads what it wrote (`RoundTrips`).
-/

namespace Oclob.Node

open Oclob.Core Oclob.Lib Oclob.Edge Oclob.Ordering NodeShareStore

/-! ## The rules -/

namespace StoreState

/-- Party and ordering chain. -/
def ChainValid (state : StoreState) (party : Nat) : Prop :=
  state.party = party ∧ (state.orderingSequence = 0 ↔ state.orderingHead = 0) ∧
  state.orderedCommitments.card = state.orderingSequence ∧
  state.orderingVotes.entries.length ≤ 1 ∧
  ∀ vote ∈ state.orderingVotes.entries,
    vote.1 = saturatingAdd state.orderingSequence 1 ∧ vote.2.statementDigest ≠ 0 ∧
    vote.2.expiresAt ≠ 0

instance (state : StoreState) (party : Nat) : Decidable (state.ChainValid party) :=
  inferInstanceAs (Decidable (_ ∧ _))

/-- A record stands under its commitment, sealed for this party. -/
def RecordValid (party : Nat) (entry : Digest32 × StoredRecord) : Prop :=
  entry.1 = entry.2.manifest.commitment ∧
  entry.2.manifest.commitment = entry.2.sealedShare.commitment ∧
  entry.2.sealedShare.party = party ∧
  (entry.2.sealedCapabilityKeyShare.all fun share => decide
    (share.orderCommitment = entry.2.manifest.commitment ∧
      share.capabilityCommitment = entry.2.manifest.settlementCapabilityCommitment ∧
      share.party = party)) = true

instance (party : Nat) (entry : Digest32 × StoredRecord) : Decidable (RecordValid party entry) :=
  inferInstanceAs (Decidable (_ ∧ _))

/-- What the certificate of a lifecycle command must say. -/
def CertifiedBy (state : StoreState) (id : Digest32) (command : LifecycleCommand)
    (certificate : OrderCertificate) : Prop :=
  certificate.commitment = id ∧ certificate.marketId = command.marketId ∧
  certificate.sequence ≠ 0 ∧ certificate.sequence ≤ state.orderingSequence ∧
  certificate.expiresAt ≤ command.expiresAt

instance (state : StoreState) (id : Digest32) (command : LifecycleCommand)
    (certificate : OrderCertificate) : Decidable (state.CertifiedBy id command certificate) :=
  inferInstanceAs (Decidable (_ ∧ _))

/-- What the finality of a lifecycle command must say: its target is gone. -/
def ReleasedBy (state : StoreState) (id : Digest32) (entry : StoredLifecycle)
    (finality : LifecycleFinality) : Prop :=
  entry.certificate.isSome = true ∧ finality.command = id ∧
  finality.target = entry.command.target ∧ finality.height ≠ 0 ∧
  finality.releasedSequence ≠ 0 ∧ finality.statement ≠ 0 ∧ finality.beforeRoot ≠ 0 ∧
  finality.afterRoot ≠ 0 ∧ finality.beforeRoot ≠ finality.afterRoot ∧
  0 < finality.transactionId.utf8ByteSize ∧ 0 < finality.blockId.utf8ByteSize ∧
  state.records.get? entry.command.target = none ∧
  state.privateHeads.get? entry.command.target = none

instance (state : StoreState) (id : Digest32) (entry : StoredLifecycle)
    (finality : LifecycleFinality) : Decidable (state.ReleasedBy id entry finality) :=
  inferInstanceAs (Decidable (_ ∧ _))

section

variable [NodeCrypto] [Serde]

/-- A lifecycle command under its digest, certified exactly when its digest was ordered. -/
def LifecycleValid (state : StoreState) (entry : Digest32 × StoredLifecycle) : Prop :=
  entry.1 = entry.2.command.digest ∧
  (entry.2.certificate.isSome = true ↔ entry.1 ∈ state.orderedCommitments) ∧
  (entry.2.certificate.all fun certificate =>
    decide (state.CertifiedBy entry.1 entry.2.command certificate)) = true ∧
  (entry.2.finality.all fun finality =>
    decide (state.ReleasedBy entry.1 entry.2 finality)) = true

instance (state : StoreState) (entry : Digest32 × StoredLifecycle) :
    Decidable (state.LifecycleValid entry) :=
  inferInstanceAs (Decidable (_ ∧ _))

end

/-- A head belongs to a stored order and points into a finalized round. -/
def HeadValid (state : StoreState) (entry : Digest32 × PrivateBookStateRef) : Prop :=
  state.records.contains entry.1 = true ∧ entry.2.roundId ≠ 0 ∧
  entry.2.privateStateSha256 ≠ 0 ∧ entry.2.wireOffset ≤ maxMatchSlots * privateOrderWires ∧
  entry.2.wireOffset % privateOrderWires = 0 ∧ entry.2.transitionDigest ≠ 0 ∧
  entry.2.canonicalReceiptDigest ≠ 0 ∧ entry.2.canonicalHeight ≠ 0 ∧
  ((state.completedRounds.get? entry.2.roundId).any fun receipt =>
    decide (receipt.privateStateSha256 = entry.2.privateStateSha256)) = true ∧
  ((state.finalizedPrivateRounds.get? entry.2.roundId).any fun finalization =>
    decide (finalization.transitionDigest = entry.2.transitionDigest ∧
      finalization.canonicalReceiptDigest = entry.2.canonicalReceiptDigest ∧
      finalization.canonicalHeight = entry.2.canonicalHeight)) = true

instance (state : StoreState) (entry : Digest32 × PrivateBookStateRef) :
    Decidable (state.HeadValid entry) :=
  inferInstanceAs (Decidable (_ ∧ _))

end StoreState

/-! ## Reading -/

section

variable [NodeCrypto] [Serde]

/-- The finality a stored finalization stands for. -/
def finalityOf (receipt : NodeExecutionReceipt) (finalization : PrivateRoundFinalization) :
    PrivateStateFinality :=
  ⟨receipt.roundId, finalization.publicOutputSha256, finalization.transitionDigest,
    finalization.canonicalReceiptDigest, finalization.canonicalHeight⟩

namespace StoreState

/-- The check of `read_state` on a lifecycle entry. -/
def checkLifecycleEntry (state : StoreState) (entry : Digest32 × StoredLifecycle) :
    Except NodeError Unit := do
  (entry.2.command.verify entry.2.manifest entry.2.command.issuedAt).mapError .state
  require (state.LifecycleValid entry) (.state "native lifecycle history is inconsistent")

/-- The check of `read_state` on the observations of a round. -/
def checkNativeFinality (state : StoreState) (entry : Digest32 × SlotRecords) :
    Except NodeError Unit := do
  let receipt ← okOr (state.completedRounds.get? entry.1)
    (.state "native finality has no completed round")
  require (entry.2.entries ≠ []) (.state "empty native observation set")
  forEach (fun observed => do
    require (observed.1 = observed.2.slot) (.state "native slot index changed")
    (observed.2.validate receipt).mapError .state) entry.2.entries

/-- The check of `read_state` on a finalization. -/
def checkFinalization (state : StoreState) (party : Nat)
    (entry : Digest32 × PrivateRoundFinalization) : Except NodeError Unit := do
  let misbound := NodeError.state
    "node share store contains a misbound private-state finalization"
  let receipt ← okOr (state.completedRounds.get? entry.1) misbound
  require (entry.2.publicOutputSha256 ≠ 0 ∧ entry.2.transitionDigest ≠ 0 ∧
    entry.2.canonicalReceiptDigest ≠ 0 ∧ entry.2.canonicalHeight ≠ 0 ∧
    receipt.publicOutputSha256 = entry.2.publicOutputSha256) misbound
  let signed ← okOr entry.2.privateStateReceipt
    (.state "node share store contains an unsigned private-state finalization")
  require (signed.signer ≠ 0)
    (.state ("invalid OCLOB v2 hybrid application key or signature; " ++
      "legacy Ed25519-only material requires explicit re-enrollment"))
  require (signed.verify receipt (finalityOf receipt entry.2) party signed.signer = true)
    (.state "fixed transport record is invalid")
  require (signed.generation ≤ state.generation)
    (.state "node share store contains a future private-state receipt")
  if entry.2.nativeFinalityRequired then do
    let records ← okOr (state.nativeFinalities.get? entry.1)
      (.state "native finalized round lacks independent observations")
    requireComplete receipt records (finalityOf receipt entry.2)
  else .ok ()

/-- The part of `read_state` after the payload is parsed. -/
def validate (state : StoreState) (party : Nat) (policy : Bytes) : Except NodeError Unit := do
  require (state.deploymentCryptoPolicy = policy)
    (.state "node share store belongs to another deployment cryptographic policy")
  require (state.ChainValid party)
    (.state "node share store has an invalid party or ordering chain")
  forEach (fun entry => require (RecordValid party entry)
    (.state "node share store contains a misbound record")) state.records.entries
  forEach state.checkLifecycleEntry state.lifecycle.entries
  forEach (fun entry => require (entry.1 ≠ 0 ∧ entry.2 ≠ 0)
    (.state "reservation claim index is malformed")) state.reservationClaims.entries
  forEach (fun entry => require (entry.1 = entry.2.roundId ∧ entry.2.Complete party)
    (.state "node share store contains a misbound completed round"))
    state.completedRounds.entries
  forEach (fun entry => require (state.HeadValid entry)
    (.state "node share store contains a misbound private-state head"))
    state.privateHeads.entries
  forEach state.checkNativeFinality state.nativeFinalities.entries
  forEach (state.checkFinalization party) state.finalizedPrivateRounds.entries

end StoreState

/-- `read_state` on the bytes of the file. -/
def readState (encoded : Bytes) (expectedParty : Nat) (expectedPolicy : Bytes) :
    Except NodeError StoreState := do
  require (encoded.length ≤ maxStoreBytes + 48)
    (.state "node share store has unsafe type or size")
  require (48 ≤ encoded.length ∧ encoded.take 8 = storeMagic)
    (.state "node share store header is invalid")
  let length := fromBeBytes ((encoded.drop 8).take 8)
  require (16 + length + 32 = encoded.length) (.state "node share store length is invalid")
  let payload := (encoded.drop 16).take length
  require (encoded.drop (16 + length) = (sha256 payload).bytes)
    (.state "node share store checksum failed")
  let version ← okOr (parseVersion payload) (.state "node share store payload is invalid")
  let version ← okOr version (.state "node share store version is invalid")
  require (version = storeVersion)
    (.state ("policy-less node store requires explicit authenticated migration; " ++
      "existing state is preserved"))
  let state ← okOr (parseState payload) (.state "node share store payload is invalid")
  state.validate expectedParty expectedPolicy
  return state

/-! ## The round trip -/

/-- `serde_json` reads this state back from the text it writes for it. -/
def RoundTrips (state : StoreState) : Prop :=
  parseState (stateJson state) = some state ∧
    parseVersion (stateJson state) = some (some state.version)

/-- **The file of a state is read back as that state**, unless its rules fail. -/
theorem readState_frame {state : StoreState} {party : Nat} {policy : Bytes}
    (hserde : RoundTrips state) (hversion : state.version = storeVersion)
    (hsize : (stateJson state).length ≤ maxStoreBytes) :
    readState (frame (stateJson state)) party policy =
      (state.validate party policy).map fun _ => state := by
  obtain ⟨hparse, hparseVersion⟩ := hserde
  set payload := stateJson state with hpayload
  have hmagic : storeMagic.length = 8 := by decide +kernel
  have hlen : (frame payload).length = payload.length + 48 := by
    simp [frame, Digest32.bytes, hmagic]
    omega
  have hframe : frame payload = storeMagic ++ (toBeBytes 8 payload.length ++
      (payload ++ (sha256 payload).bytes)) := by
    simp [frame]
  have htake : (frame payload).take 8 = storeMagic := by
    rw [hframe, List.take_left' hmagic]
  have hdrop8 : (frame payload).drop 8 =
      toBeBytes 8 payload.length ++ (payload ++ (sha256 payload).bytes) := by
    rw [hframe, List.drop_left' hmagic]
  have hfield : fromBeBytes (((frame payload).drop 8).take 8) =
      payload.length := by
    rw [hdrop8, List.take_left' (length_toBeBytes 8 _), fromBeBytes_toBeBytes]
    refine Nat.mod_eq_of_lt (lt_of_le_of_lt hsize ?_)
    decide
  have hdrop16 : (frame payload).drop 16 =
      payload ++ (sha256 payload).bytes := by
    have hsplit : (frame payload).drop 16 =
        ((frame payload).drop 8).drop 8 := by rw [List.drop_drop]
    rw [hsplit, hdrop8, List.drop_left' (length_toBeBytes 8 _)]
  have hend : (frame payload).drop (16 + payload.length) =
      (sha256 payload).bytes := by
    rw [← List.drop_drop, hdrop16, List.drop_left]
  have hbound : payload.length + 48 ≤ maxStoreBytes + 48 := by omega
  have htotal : 16 + payload.length + 32 = payload.length + 48 := by omega
  unfold readState
  rw [hfield, hlen, htake, hdrop16]
  simp only [List.take_left, hend, hparseVersion, hparse, hversion]
  simp only [okOr, bind, Except.bind, require, pure, Except.pure, hbound, htotal, if_true,
    true_and, Nat.le_add_left]
  cases state.validate party policy <;> rfl

omit [Serde] in
theorem frame_injective {first second : Bytes}
    (h : frame first = frame second) : first = second := by
  have hlength : first.length = second.length := by
    have := congrArg List.length h
    simp only [frame, List.length_append, length_toBeBytes, Digest32.bytes] at this
    omega
  simp only [frame, List.append_assoc, hlength, List.append_cancel_left_eq] at h
  exact (List.append_inj h hlength).1

theorem eq_of_readState_frame {saved state : StoreState} {party : Nat} {policy : Bytes}
    (hserde : RoundTrips saved) (hversion : saved.version = storeVersion)
    (hsize : (stateJson saved).length ≤ maxStoreBytes)
    (h : readState (frame (stateJson saved)) party policy = .ok state) :
    state = saved := by
  rw [readState_frame hserde hversion hsize] at h
  cases hvalid : saved.validate party policy with
  | error e =>
    rw [hvalid] at h
    exact absurd h (by simp [Except.map])
  | ok u =>
    rw [hvalid] at h
    exact (Except.ok.inj h).symm

end

end Oclob.Node
