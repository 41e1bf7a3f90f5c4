import Oclob.Edge.Decimal
import Oclob.Node.Checks
import Oclob.Settlement.Native

/-!
# The node share store

Model of `NodeShareStore` in `oclob-node/src/lib.rs` and of its lifecycle half in
`native_lifecycle.rs`: admission, votes, certificates, completed rounds, finality, lifecycle
commands and the two removal calls.

A store is its state in memory and the durable file. `persist` writes the framed text of the
state, or fails with the old or the new file in place (`Disk`). Two patterns of the source carry
every call: those that use `bump_generation` restore the previous state on any failure (`commit`),
`ingest`, `remove_terminal`, `record_completed_round` and `prune_expired` return from an exhausted
generation without restoring it (`commitEager`).

The checks of a call are a function of the state, so that only the writes are effects. Party-local
private state files are read through `PrivateFiles`; what a node observes of DeFMI during
`confirm_release` is a `ReleaseObservation`.
-/

namespace Oclob.Node

open Oclob.Core Oclob.Lib Oclob.Edge Oclob.Ordering
open Settlement (ApplicationReserveScope CanonicalApplicationReservation NativeReservationAuthority)

/-- `ReservationTrust`. -/
structure ReservationTrust where
  venueId : Digest32
  defmiId : Digest32
  signer : Bytes
deriving DecidableEq

/-- `NodeShareStore`, with the content of its file. -/
structure NodeShareStore where
  key : NodeDecryptionKey
  state : StoreState
  file : Bytes
  reservationTrust : Option ReservationTrust

/-- How a write ends: the rename may have happened before the failure. -/
inductive Disk where
  | written
  | failed
  | failedAfterRename
deriving DecidableEq, Repr

/-- A private state file as read: its size, its digest and its shares. -/
structure StateFile where
  size : Nat
  digest : Digest32
  shares : List Nat
deriving DecidableEq

/-- The private state directory, `none` while it is not bound: the file of each round. -/
abbrev PrivateFiles := Option (Digest32 → Option StateFile)

/-- `MAX_STORE_BYTES`. -/
def maxStoreBytes : Nat := 64 * 1024 * 1024

/-- `STORE_MAGIC`. -/
def storeMagic : Bytes := asBytes "OCLOBN01"

/-! ## Queries -/

namespace StoreState

/-- `NodeShareStore::lifecycle_blocks`. -/
def lifecycleBlocks (state : StoreState) (target : Digest32) : Bool :=
  state.lifecycle.values.any fun entry =>
    decide (entry.command.target = target) && entry.certificate.isSome

/-- The test of `NodeShareStore::require_lifecycle_barrier`. -/
def Settled (state : StoreState) : Prop :=
  (∀ entry ∈ state.lifecycle.values, entry.certificate.isSome → entry.finality.isSome) ∧
  ∀ round ∈ state.completedRounds.entries, anyMatched round.2.result = true →
    state.finalizedPrivateRounds.contains round.1 = true

instance (state : StoreState) : Decidable state.Settled :=
  inferInstanceAs (Decidable (_ ∧ _))

/-- `NodeShareStore::require_lifecycle_barrier`. -/
def requireLifecycleBarrier (state : StoreState) : Except NodeError Unit :=
  require state.Settled
    (.ordering "earlier matching or release still awaits canonical finality")

variable [NodeCrypto] [Serde]

/-- `NodeShareStore::ordering_admission`. -/
def orderingAdmission (state : StoreState) (commitment : Digest32) (now : Nat) :
    Except NodeError (String × Nat) :=
  match state.records.get? commitment with
  | some record => do
    require (state.lifecycleBlocks commitment = false) .conflict
    return (record.manifest.marketId, record.manifest.retentionDeadline)
  | none => do
    let entry ← okOr (state.lifecycle.get? commitment) .unknownOrder
    (entry.command.verify entry.manifest now).mapError .ordering
    state.requireLifecycleBarrier
    return (entry.command.marketId, entry.command.expiresAt)

/-- The part `record_order_vote` and `accept_order_certificate` share: the expected sequence and
what the order was admitted with. -/
def orderingTurn (state : StoreState) (commitment : Digest32) (now : Nat) :
    Except NodeError (Nat × String × Nat) := do
  let expected ← okOr (checkedAdd state.orderingSequence 1) .generation
  if state.lifecycle.contains commitment then .ok () else state.requireLifecycleBarrier
  let (market, deadline) ← state.orderingAdmission commitment now
  return (expected, market, deadline)

end StoreState

/-! ## Writing -/

namespace NodeShareStore

section

variable [Crypto] [Serde]

/-- The file `persist` writes for a payload. -/
def frame (payload : Bytes) : Bytes :=
  storeMagic ++ toBeBytes 8 payload.length ++ payload ++ (sha256 payload).bytes

/-- `NodeShareStore::persist`. -/
def persist (disk : Disk) : EStateM NodeError NodeShareStore Unit := do
  let self ← get
  let payload := stateJson self.state
  ensure (payload.length ≤ maxStoreBytes) (.state "node share store exceeds size limit")
  match disk with
  | .written => set { self with file := frame payload }
  | .failed => throw .ioError
  | .failedAfterRename => do
    set { self with file := frame payload }
    throw .ioError

/-- Persist, and go back to `previous` in memory when that fails. -/
def persistOr (previous : StoreState) (disk : Disk) :
    EStateM NodeError NodeShareStore Unit := fun self =>
  match (persist disk).run self with
  | .ok u next => .ok u next
  | .error e next => .error e { next with state := previous }

/-- Change the state, bump its generation and persist it; any failure restores the state. -/
def commit (disk : Disk) (next : StoreState) : EStateM NodeError NodeShareStore Unit :=
  fun self => match checkedAdd next.generation 1 with
  | none => .error .generation self
  | some generation =>
    persistOr self.state disk { self with state := { next with generation } }

/-- The same without `bump_generation`: an exhausted generation leaves the change in memory. -/
def commitEager (disk : Disk) (next : StoreState) : EStateM NodeError NodeShareStore Unit :=
  fun self => match checkedAdd next.generation 1 with
  | none => .error .generation { self with state := next }
  | some generation =>
    persistOr self.state disk { self with state := { next with generation } }

end

variable [NodeCrypto] [Serde]

/-- `open_policy_bound` for a path that does not exist yet. -/
def create (key : NodeDecryptionKey) (party : Nat) (policy : Bytes) (disk : Disk) :
    Except NodeError NodeShareStore := do
  require (party < mpcParties) .party
  let (_, store) ← stage (persist disk) ⟨key, emptyState party policy, [], none⟩
  return store

/-! ## Admission -/

/-- The check of `pin_reservation_trust` on a stored record. -/
def recoverClaim (self : NodeShareStore) (trust : ReservationTrust) (record : StoredRecord) :
    Except NodeError Unit :=
  if record.manifest.usesPretradeReservation then do
    let share ← (record.sealedShare.open self.key record.manifest self.state.party
      record.admittedAt).mapError fun e => .state e.text
    let admission ← (share.verifiedReservationAdmission record.manifest trust.venueId
      trust.defmiId trust.signer record.admittedAt).mapError fun e => .state e.text
    require (self.state.reservationClaims.get? admission.reservationNullifier =
      some record.manifest.commitment)
      (.state "reservation recovery lacks its one-order claim")
  else .ok ()

/-- `NodeShareStore::pin_reservation_trust`. -/
def pinReservationTrust (trust : ReservationTrust) : EStateM NodeError NodeShareStore Unit := do
  ensure (trust.venueId ≠ 0 ∧ trust.defmiId ≠ 0 ∧ trust.signer.length = 1984)
    (.admission "trusted DeFMI reservation identity is zero")
  let self ← get
  ensure (self.reservationTrust.all (· = trust) = true)
    (.admission "DeFMI reservation trust cannot change during one node generation")
  attempt (forEach (self.recoverClaim trust) self.state.records.values)
  set { self with reservationTrust := some trust }

/-- The reservation an arriving order claims, if it uses one. -/
def reservationTag (self : NodeShareStore) (manifest : EdgeOrderManifest)
    (opened : PartyOrderShare) (now : Nat) : Except NodeError (Option Digest32) :=
  if manifest.usesPretradeReservation then do
    let trust ← okOr self.reservationTrust
      (.admission "node has no pinned DeFMI reservation trust")
    let admission ← (opened.verifiedReservationAdmission manifest trust.venueId trust.defmiId
      trust.signer now).mapError fun e => .admission e.text
    require ((self.state.reservationClaims.get? admission.reservationNullifier).all
        (· = manifest.commitment) = true)
      (.admission
        "one DeFMI reservation cannot authorize two orders, even after permit reissuance")
    return some admission.reservationNullifier
  else .ok none

/-- The checks of `ingest` before it looks for the record. -/
def checkIngest (self : NodeShareStore) (manifest : EdgeOrderManifest)
    (sealedShare : SealedPartyShare) (sealedCapability : SealedCapabilityKeyShare) (now : Nat) :
    Except NodeError (Option Digest32) := do
  require (self.state.lifecycleBlocks manifest.commitment = false)
    (.admission "order has an ordered terminal command")
  let opened ← (sealedShare.open self.key manifest self.state.party now).mapError
    fun e => .admission e.text
  let tag ← self.reservationTag manifest opened now
  let _ ← (sealedCapability.open self.key manifest self.state.party now).mapError
    fun e => .admission e.text
  return tag

/-- The claim index after an admission. -/
def claimed (claims : OrdMap Digest32 Digest32) (commitment : Digest32) :
    Option Digest32 → OrdMap Digest32 Digest32
  | some tag => claims.insert tag commitment
  | none => claims

/-- `IngestOutcome`. -/
inductive IngestOutcome where
  | stored (generation : Nat)
  | alreadyPresent (generation : Nat)
deriving DecidableEq, Repr

/-- The state `ingest` moves to, before the generation. -/
def afterIngest (state : StoreState) (record : StoredRecord) (tag : Option Digest32) :
    StoreState :=
  { state with
    reservationClaims := claimed state.reservationClaims record.manifest.commitment tag
    records := state.records.insert record.manifest.commitment record }

/-- `NodeShareStore::ingest`. -/
def ingest (disk : Disk) (manifest : EdgeOrderManifest) (sealedShare : SealedPartyShare)
    (sealedCapability : SealedCapabilityKeyShare) (now : Nat) :
    EStateM NodeError NodeShareStore IngestOutcome := do
  let self ← get
  let tag ← attempt (self.checkIngest manifest sealedShare sealedCapability now)
  match self.state.records.get? manifest.commitment with
  | some existing =>
    ensure (existing.manifest = manifest ∧ existing.sealedShare = sealedShare ∧
      existing.sealedCapabilityKeyShare = some sealedCapability) .conflict
    return .alreadyPresent self.state.generation
  | none =>
    commitEager disk (afterIngest self.state
      ⟨manifest, sealedShare, some sealedCapability, now, none⟩ tag)
    let self ← get
    return .stored self.state.generation

/-- The receipt `admission_receipt` returns: the stored one, or a new one to be stored. -/
def admissionReceiptFor (self : NodeShareStore) (manifest : EdgeOrderManifest) (key : Bytes) :
    Except NodeError (StoredRecord × NodeAdmissionReceipt) := do
  let record ← okOr (self.state.records.get? manifest.commitment) .conflict
  let capability ← okOr record.sealedCapabilityKeyShare .conflict
  match record.admissionReceipt with
  | some receipt =>
    require (receipt.verify manifest self.state.party record.sealedShare.wireDigest
      capability.wireDigest (verifyingKey key) = true) (.state "fixed transport record is invalid")
    return (record, receipt)
  | none =>
    let receipt ← okOr (NodeAdmissionReceipt.sign self.state.party manifest
      record.sealedShare.wireDigest capability.wireDigest self.state.generation
      (stateDigest self.state) key) (.state "node state is unavailable")
    return (record, receipt)

/-- `NodeShareStore::admission_receipt`. -/
def admissionReceipt (disk : Disk) (manifest : EdgeOrderManifest) (key : Bytes) :
    EStateM NodeError NodeShareStore NodeAdmissionReceipt := do
  let self ← get
  let (record, receipt) ← attempt (self.admissionReceiptFor manifest key)
  if record.admissionReceipt.isSome then return receipt
  else
    set { self with state := { self.state with
      records := self.state.records.insert manifest.commitment
        { record with admissionReceipt := some receipt } } }
    persistOr self.state disk
    return receipt

/-! ## Ordering -/

/-- The checks of `record_order_vote` on a statement. -/
def checkVote (state : StoreState) (statement : OrderStatement) (now : Nat) :
    Except NodeError Unit := do
  let (expected, market, deadline) ← state.orderingTurn statement.commitment now
  require (0 < statement.marketId.utf8ByteSize ∧ statement.marketId.utf8ByteSize ≤ 64 ∧
    statement.sequence = expected ∧ statement.previousCertificate = state.orderingHead ∧
    now ≤ statement.expiresAt ∧ market = statement.marketId ∧ statement.expiresAt ≤ deadline ∧
    statement.commitment ∉ state.orderedCommitments)
    (.ordering "vote does not extend the node's admitted-order chain")

/-- `NodeShareStore::record_order_vote`: the digest the node then signs. -/
def recordOrderVote (disk : Disk) (statement : OrderStatement) (now : Nat) :
    EStateM NodeError NodeShareStore Digest32 := do
  let self ← get
  attempt (checkVote self.state statement now)
  let digest := voteDigest statement
  let write := commit disk { self.state with
    orderingVotes := self.state.orderingVotes.insert statement.sequence
      ⟨digest, statement.expiresAt⟩ }
  match self.state.orderingVotes.get? statement.sequence with
  | some existing =>
    if existing.statementDigest = digest then return digest
    else
      ensure (existing.expiresAt < now)
        (.ordering "node refuses an equivocal vote for a live sequence")
      write
      return digest
  | none =>
    write
    return digest

/-- The checks of `accept_order_certificate` on a certificate past the head. -/
def checkCertificate (state : StoreState) (certificate : OrderCertificate) (now : Nat) :
    Except NodeError Unit := do
  let (expected, market, deadline) ← state.orderingTurn certificate.commitment now
  require (certificate.sequence = expected ∧
    certificate.previousCertificate = state.orderingHead ∧ market = certificate.marketId ∧
    certificate.expiresAt ≤ deadline ∧ certificate.commitment ∉ state.orderedCommitments ∧
    (state.orderingVotes.get? certificate.sequence).all (fun vote => decide
      (vote.statementDigest = voteDigest certificate.toOrderStatement ∨
        vote.expiresAt < now)) = true)
    (.ordering "certificate does not extend the node's accepted chain")

/-- The state `accept_order_certificate` moves to, before the generation. -/
def afterCertificate (state : StoreState) (certificate : OrderCertificate) : StoreState :=
  { state with
    lifecycle := state.lifecycle.alter certificate.commitment fun entry =>
      entry.map fun entry => { entry with certificate := some certificate }
    orderingSequence := certificate.sequence
    orderingHead := certificate.digest
    orderedCommitments := insert certificate.commitment state.orderedCommitments
    orderingVotes := state.orderingVotes.erase certificate.sequence }

/-- `NodeShareStore::accept_order_certificate`. -/
def acceptOrderCertificate (disk : Disk) (certificate : OrderCertificate)
    (policy : CommitteePolicy) (keys : NodeKeys) (now : Nat) :
    EStateM NodeError NodeShareStore Nat := do
  attempt ((certificate.verify policy keys now).mapError fun e => .ordering e.text)
  let self ← get
  if certificate.sequence = self.state.orderingSequence then
    ensure (self.state.orderingHead = certificate.digest ∧
        certificate.commitment ∈ self.state.orderedCommitments)
      (.ordering "certificate conflicts with the accepted chain head")
    return self.state.generation
  else
    attempt (checkCertificate self.state certificate now)
    commit disk (afterCertificate self.state certificate)
    let self ← get
    return self.state.generation

/-! ## Rounds -/

/-- `NodeShareStore::open_record`. -/
def openRecord (self : NodeShareStore) (commitment : Digest32) (marketId : String) (now : Nat) :
    Except NodeError (StoredRecord × PartyOrderShare) := do
  require (self.state.lifecycleBlocks commitment = false) .unknownOrder
  let record ← okOr (self.state.records.get? commitment) .unknownOrder
  require (record.manifest.marketId = marketId)
    (.round "round market differs from the committed order market")
  let share ← (record.sealedShare.open self.key record.manifest self.state.party now).mapError
    fun e => .admission e.text
  return (record, share)

/-- An entry of `value_share_decimals` and of its siblings. -/
def scalarDecimal (scalar : Digest32) : String := scalarLeBytesToDecimal scalar.bytes

/-- `NodeShareStore::original_private_fields`. -/
def originalPrivateFields (self : NodeShareStore) (commitment : Digest32) (marketId : String)
    (now : Nat) : Except NodeError (List String) := do
  let (record, share) ← self.openRecord commitment marketId now
  let value (i : Nat) := scalarDecimal (share.valueShares.getD i 0)
  let settlement (i : Nat) := scalarDecimal (share.settlementValueShares.getD i 0)
  let (handle, reserve, reserveBlinding) :=
    if record.manifest.settlementProofEnabled then
      (settlement 0, settlement 1, scalarDecimal (share.settlementBlindingShares.getD 1 0))
    else ("0", "0", "0")
  return ["1", value 0, value 1, value 2, scalarDecimal (share.blindingShares.getD 1 0), reserve,
    reserveBlinding, handle]

/-- `NodeShareStore::verify_private_state_file`. -/
def verifyPrivateStateFile (files : PrivateFiles) (roundId expectedDigest : Digest32) :
    Except NodeError StateFile := do
  let root ← okOr files (.privateState "private state root is not bound")
  let file ← okOr (root roundId) .ioError
  require (0 < file.size ∧ file.size ≤ 16 * 1024 * 1024)
    (.privateState "party-local private state file has an unsafe size or type")
  require (file.digest = expectedDigest)
    (.privateState "party-local private state digest changed")
  require (file.shares.length = persistenceWires)
    (.privateState ("private state contains " ++ toString file.shares.length ++
      " shares; expected " ++ toString persistenceWires))
  return file

/-- `NodeShareStore::private_order_fields`. -/
def privateOrderFields (self : NodeShareStore) (files : PrivateFiles) (commitment : Digest32)
    (marketId : String) (now : Nat) : Except NodeError (List String) :=
  match self.state.privateHeads.get? commitment with
  | none => self.originalPrivateFields commitment marketId now
  | some head => do
    let file ← verifyPrivateStateFile files head.roundId head.privateStateSha256
    require (head.wireOffset + privateOrderWires ≤ file.shares.length)
      (.privateState "private state wire offset is invalid")
    return ((file.shares.drop head.wireOffset).take privateOrderWires).map toString

/-- `NodeShareStore::private_parent_digest`. -/
def privateParentDigest (state : StoreState) (resting : List Digest32) (arriving : Digest32) :
    Digest32 :=
  sha256 (asBytes "OCLOB:PRIVATE-BOOK-PARENTS:v1" ++ toBeBytes 8 resting.length ++
    (resting.flatMap fun commitment => commitment.bytes ++
      match state.privateHeads.get? commitment with
      | some head => 1 :: head.roundId.bytes ++ head.privateStateSha256.bytes ++
          toBeBytes 2 head.wireOffset
      | none => [0]) ++ arriving.bytes)

/-- `round_commitment`. -/
def roundCommitment (party generation : Nat) (resting : List Digest32) (arriving : Digest32)
    (contents : Bytes) : Digest32 :=
  sha256 (asBytes "OCLOB:NODE-ROUND:v1" ++ toBeBytes 2 party ++ toBeBytes 8 generation ++
    toBeBytes 2 resting.length ++ resting.flatMap Digest32.bytes ++ arriving.bytes ++
    (sha256 contents).bytes)

/-- `PreparedPartyInput`. -/
structure PreparedPartyInput where
  party : Nat
  generation : Nat
  roundCommitment : Digest32
  privateParentDigest : Digest32
  contents : Bytes
  arrivingManifest : EdgeOrderManifest
  restingManifests : List EdgeOrderManifest
deriving DecidableEq

/-- The fields of the eight slots: a resting order's, or zeros. -/
def slotFields (self : NodeShareStore) (files : PrivateFiles) (marketId : String) (now : Nat)
    (resting : List Digest32) : Nat → Except NodeError (List String)
  | 0 => .ok []
  | slots + 1 => do
    let before ← self.slotFields files marketId now resting slots
    let fields ← match resting[slots]? with
      | some commitment => self.privateOrderFields files commitment marketId now
      | none => .ok (List.replicate privateOrderWires "0")
    return before ++ fields

/-- The manifests of the resting orders. -/
def manifestsOf (state : StoreState) : List Digest32 → Except NodeError (List EdgeOrderManifest)
  | [] => .ok []
  | commitment :: rest => do
    let record ← okOr (state.records.get? commitment) (.round "resting manifest disappeared")
    let manifests ← manifestsOf state rest
    return record.manifest :: manifests

/-- `NodeShareStore::prepare_round`. -/
def prepareRound (self : NodeShareStore) (files : PrivateFiles) (marketId : String)
    (resting : List Digest32) (arriving : Digest32) (now : Nat) :
    Except NodeError PreparedPartyInput := do
  self.state.requireLifecycleBarrier
  require (0 < marketId.utf8ByteSize ∧ marketId.utf8ByteSize ≤ 64 ∧
    resting.length ≤ maxMatchSlots ∧ arriving ∉ resting ∧ resting.Nodup)
    (.round "round market or order commitments are invalid")
  let (_, arrivingShare) ← self.openRecord arriving marketId now
  let arrivingFields ← self.originalPrivateFields arriving marketId now
  let restingFields ← self.slotFields files marketId now resting maxMatchSlots
  let field (i : Nat) := arrivingFields.getD i ""
  let fields := restingFields ++ [field 1, field 2, field 3,
    scalarDecimal (arrivingShare.valueShares.getD 5 0), field 4, field 5, field 6, field 7]
  let contents := asBytes (" ".intercalate fields) ++ [10]
  let record ← okOr (self.state.records.get? arriving) (.round "arriving manifest disappeared")
  let restingManifests ← manifestsOf self.state resting
  return {
    party := self.state.party
    generation := self.state.generation
    roundCommitment := roundCommitment self.state.party self.state.generation resting arriving
      contents
    privateParentDigest := privateParentDigest self.state resting arriving
    contents
    arrivingManifest := record.manifest
    restingManifests }

/-- `NodeShareStore::record_completed_round`. -/
def recordCompletedRound (disk : Disk) (receipt : NodeExecutionReceipt) :
    EStateM NodeError NodeShareStore Unit := do
  let self ← get
  ensure (receipt.Complete self.state.party)
    (.round "execution receipt is not a complete party result")
  match self.state.completedRounds.get? receipt.roundId with
  | some existing => ensure (existing = receipt) .conflict
  | none => commitEager disk { self.state with
      completedRounds := self.state.completedRounds.insert receipt.roundId receipt }

/-! ## Finality -/

/-- `NodeShareStore::record_native_finality`. -/
def recordNativeFinality (disk : Disk) (record : NativeFinalityRecord) :
    EStateM NodeError NodeShareStore Unit := do
  let self ← get
  let receipt ← attempt (okOr (self.state.completedRounds.get? record.roundId)
    (.privateState "MPC round is not complete"))
  attempt ((record.validate receipt).mapError .privateState)
  let observed := (self.state.nativeFinalities.get? record.roundId).getD .empty
  match observed.get? record.slot with
  | some existing => ensure (existing = record) .conflict
  | none =>
    ensure (self.state.finalizedPrivateRounds.contains record.roundId = false) .conflict
    commit disk { self.state with
      nativeFinalities := self.state.nativeFinalities.insert record.roundId
        (observed.insert record.slot record) }

/-- Whether a round of `plan` needs node-observed finality: as recorded, or because one of its
orders holds a reservation. -/
def nativeFinalityRequired (state : StoreState) (plan : RoundPlan) : Except NodeError Bool :=
  match state.finalizedPrivateRounds.get? plan.roundId with
  | some existing => .ok existing.nativeFinalityRequired
  | none => do
    let records ← okOr ((plan.resting ++ [plan.arriving]).mapM state.records.get?)
      (.privateState "round order is absent from this node")
    return records.any fun record => record.manifest.usesPretradeReservation

/-- The node-observed finality `finalize_private_round` asks of a native round. -/
def checkObserved (state : StoreState) (plan : RoundPlan) (receipt : NodeExecutionReceipt)
    (finality : PrivateStateFinality) : Except NodeError Unit := do
  let records ← okOr (state.nativeFinalities.get? plan.roundId)
    (.privateState "native round has no node-observed canonical finality")
  requireComplete receipt records finality
  require (∀ record ∈ records.values, plan.resting[record.slot]? = some record.makerOrder ∧
    plan.arriving = record.takerOrder)
    (.privateState "canonical fill belongs to another ordered pair")

/-- The checks of `finalize_private_round` up to the finalization it would record. -/
def checkFinality (state : StoreState) (plan : RoundPlan) (finality : PrivateStateFinality) :
    Except NodeError (NodeExecutionReceipt × PrivateRoundFinalization) := do
  finality.validate
  require (finality.roundId = plan.roundId)
    (.privateState "finality refers to another MPC round")
  let receipt ← okOr (state.completedRounds.get? plan.roundId)
    (.privateState "MPC round is not complete")
  require (receipt.publicOutputSha256 = finality.publicOutputSha256)
    (.privateState "canonical finality does not bind this MPC output")
  let required ← nativeFinalityRequired state plan
  if required then checkObserved state plan receipt finality else .ok ()
  return (receipt, ⟨required, finality.publicOutputSha256, finality.transitionDigest,
    finality.canonicalReceiptDigest, finality.canonicalHeight, none⟩)

/-- The retry of a round that is already finalized: the stored receipt. -/
def finalizedReceipt (state : StoreState) (existing candidate : PrivateRoundFinalization)
    (receipt : NodeExecutionReceipt) (finality : PrivateStateFinality) (signingKey : Bytes) :
    Except NodeError NodePrivateStateReceipt := do
  require ({ existing with privateStateReceipt := none } = candidate) .conflict
  let stored ← okOr existing.privateStateReceipt
    (.state "finalized private state lacks its signed receipt")
  require (stored.verify receipt finality state.party (verifyingKey signingKey) = true)
    (.state "fixed transport record is invalid")
  require (stored.generation ≤ state.generation)
    (.state "private-state receipt refers to a future store generation")
  return stored

/-- The head a finalized round leaves at a wire offset. -/
def headAt (plan : RoundPlan) (receipt : NodeExecutionReceipt) (finality : PrivateStateFinality)
    (wireOffset : Nat) : PrivateBookStateRef where
  roundId := plan.roundId
  privateStateSha256 := receipt.privateStateSha256
  wireOffset
  transitionDigest := finality.transitionDigest
  canonicalReceiptDigest := finality.canonicalReceiptDigest
  canonicalHeight := finality.canonicalHeight

/-- The loop of `finalize_private_round` over the resting orders, from a slot on. A wire offset
that does not fit `u16` ends it with the heads written so far. -/
def insertHeads (plan : RoundPlan) (receipt : NodeExecutionReceipt)
    (finality : PrivateStateFinality) :
    Nat → List Digest32 → EStateM NodeError NodeShareStore Unit
  | _, [] => pure ()
  | slot, commitment :: rest => do
    ensure (slot * privateOrderWires < 2 ^ 16)
      (.privateState "private wire offset overflowed")
    modify fun self => { self with state := { self.state with
      privateHeads := self.state.privateHeads.insert commitment
        (headAt plan receipt finality (slot * privateOrderWires)) } }
    insertHeads plan receipt finality (slot + 1) rest

/-- The arriving order's head: set while it rests, dropped otherwise. -/
def arrivingHead (plan : RoundPlan) (receipt : NodeExecutionReceipt)
    (finality : PrivateStateFinality) (state : StoreState) : StoreState :=
  { state with
    privateHeads := if 0 < receipt.result.arrivingRemaining then
        state.privateHeads.insert plan.arriving
          (headAt plan receipt finality (maxMatchSlots * privateOrderWires))
      else state.privateHeads.erase plan.arriving }

/-- The end of `finalize_private_round`: the finalization, the next generation and the signed
receipt over that state. -/
def signedFinalization (state : StoreState) (plan : RoundPlan) (receipt : NodeExecutionReceipt)
    (finality : PrivateStateFinality) (candidate : PrivateRoundFinalization)
    (signingKey : Bytes) : Except NodeError (StoreState × NodePrivateStateReceipt) := do
  let generation ← okOr (checkedAdd state.generation 1) .generation
  let bumped := { state with
    generation
    finalizedPrivateRounds := state.finalizedPrivateRounds.insert plan.roundId candidate }
  let signed ← okOr (NodePrivateStateReceipt.sign bumped.party receipt finality generation
    (stateDigest bumped) signingKey) (.state "node state is unavailable")
  return ({ bumped with
    finalizedPrivateRounds := state.finalizedPrivateRounds.insert plan.roundId
      { candidate with privateStateReceipt := some signed } }, signed)

/-- `NodeShareStore::finalize_private_round`. -/
def finalizePrivateRound (disk : Disk) (files : PrivateFiles) (plan : RoundPlan)
    (finality : PrivateStateFinality) (signingKey : Bytes) :
    EStateM NodeError NodeShareStore NodePrivateStateReceipt := do
  let self ← get
  let (receipt, candidate) ← attempt (checkFinality self.state plan finality)
  match self.state.finalizedPrivateRounds.get? plan.roundId with
  | some existing =>
    attempt (finalizedReceipt self.state existing candidate receipt finality signingKey)
  | none =>
    ensure (receipt.privateParentDigest =
        privateParentDigest self.state plan.resting plan.arriving)
      (.privateState "private book parent advanced before this round finalized")
    let _ ← attempt (verifyPrivateStateFile files plan.roundId receipt.privateStateSha256)
    insertHeads plan receipt finality 0 plan.resting
    let moved ← get
    match signedFinalization (arrivingHead plan receipt finality moved.state) plan receipt
        finality candidate signingKey with
    | .error e => do
      set { moved with state := self.state }
      throw e
    | .ok (next, signed) => do
      set { moved with state := next }
      persistOr self.state disk
      return signed

/-! ## Lifecycle -/

/-- The checks of `register_lifecycle` for a new command: the manifest of its target. -/
def checkLifecycle (state : StoreState) (command : LifecycleCommand) (now : Nat) :
    Except NodeError EdgeOrderManifest := do
  state.requireLifecycleBarrier
  require (state.lifecycleBlocks command.target = false) .conflict
  let record ← okOr (state.records.get? command.target) .unknownOrder
  (command.verify record.manifest now).mapError .ordering
  require (command.target ∈ state.orderedCommitments)
    (.ordering "lifecycle target has not entered the ordered market")
  return record.manifest

/-- `NodeShareStore::register_lifecycle`. -/
def registerLifecycle (disk : Disk) (command : LifecycleCommand) (now : Nat) :
    EStateM NodeError NodeShareStore Digest32 := do
  let self ← get
  match self.state.lifecycle.get? command.digest with
  | some entry =>
    ensure (entry.command = command) .conflict
    return command.digest
  | none =>
    let manifest ← attempt (checkLifecycle self.state command now)
    commit disk { self.state with
      lifecycle := self.state.lifecycle.insert command.digest ⟨command, manifest, none, none⟩ }
    return command.digest

end NodeShareStore

/-- `AcceptedTransition` of the DeFMI client. -/
structure AcceptedTransition where
  txId : String
  statement : Digest32
  beforeRoot : Digest32
  afterRoot : Digest32
  height : Nat
  blockId : String

/-- `NativeReleaseRequest`, with the fields of its `ApplicationNoteRelease` that are read here. -/
structure NativeReleaseRequest where
  command : Digest32
  scope : ApplicationReserveScope
  beforeRoot : Digest32
  operationId : Digest32
  holdId : Digest32
  sequence : Nat
  reason : ReleaseReason
  authority : NativeReservationAuthority

/-- A release request and what the node reads of DeFMI while it confirms it. -/
structure ReleaseObservation where
  request : NativeReleaseRequest
  transactionId : String
  trust : ReservationTrust
  accepted : AcceptedTransition
  head : CanonicalApplicationReservation
  /-- What the DeFMI packages verify of the admission and the permit, and the statement
  `ApplicationNoteRelease::verify` returns. -/
  evidence : Except String Unit
  statement : Except String Digest32

/-- `validate_accepted`. -/
def validateAccepted (tx : String) (statement before : Digest32) (accepted : AcceptedTransition) :
    Except String Unit :=
  require (0 < tx.utf8ByteSize ∧ accepted.txId = tx ∧ accepted.statement = statement ∧
    statement ≠ 0 ∧ accepted.beforeRoot = before ∧ before ≠ 0 ∧ accepted.afterRoot ≠ 0 ∧
    accepted.afterRoot ≠ before ∧ accepted.height ≠ 0 ∧ 0 < accepted.blockId.utf8ByteSize ∧
    accepted.blockId.utf8ByteSize ≤ 128)
    "configured DeFMI has not confirmed this exact native fill"

namespace NodeShareStore

variable [NodeCrypto] [Serde]

/-- `NodeShareStore::lifecycle_entry`. -/
def lifecycleEntry (state : StoreState) (digest : Digest32) :
    Except NodeError StoredLifecycle := do
  let entry ← okOr (state.lifecycle.get? digest) .unknownOrder
  require (entry.certificate.isSome = true)
    (.ordering "lifecycle command has no accepted ordering certificate")
  return entry

/-- `verify_authority`. -/
def verifyAuthority (entry : StoredLifecycle) (observation : ReleaseObservation) :
    Except String Unit := do
  let ⟨request, _, trust, _, head, evidence, _⟩ := observation
  let ⟨admission, permit, _, _, _⟩ := request.authority
  entry.command.verify entry.manifest entry.command.issuedAt
  evidence
  require (entry.command.digest = request.command ∧ request.operationId = request.command ∧
    request.reason = entry.command.reason ∧ request.scope.venueId = trust.venueId ∧
    request.scope.defmiId = trust.defmiId ∧ head.scope = request.scope ∧
    request.holdId = head.holdId ∧ request.holdId = permit.reservationId ∧
    permit.application = true ∧ permit.venueId = trust.venueId ∧
    NodeCrypto.admissionDigest admission = entry.manifest.reservationAdmissionDigest ∧
    admission.orderCommitment = entry.manifest.sourceOrderCommitment ∧
    entry.manifest.settlementFieldCommitments.map (·.head?) =
      [some admission.participantHandle, some admission.amountCommitment] ∧
    entry.manifest.fieldCommitments.flatten.head? = some admission.sideCommitment ∧
    head.amountCommitment = permit.amountCommitment ∧ head.assetId = permit.assetId ∧
    head.reserveReceiptDigest = permit.reserveReceiptDigest ∧
    head.validUntil = entry.manifest.retentionDeadline)
    "release authority differs from this node's ordered reservation"

/-- The checks of `confirm_release`: the entry and the finality it would record. -/
def checkRelease (state : StoreState) (observation : ReleaseObservation) :
    Except String (StoredLifecycle × LifecycleFinality) := do
  let request := observation.request
  let head := observation.head
  let entry ← (lifecycleEntry state request.command).mapError NodeError.text
  verifyAuthority entry observation
  let _ ← okOr (checkedAdd head.validUntil 1) "release deadline overflow"
  let statement ← observation.statement
  validateAccepted observation.transactionId statement request.beforeRoot observation.accepted
  require (head.status = "released") "canonical release has not terminated this reservation"
  let next ← okOr (checkedAdd request.sequence 1) "release sequence overflow"
  require (head.sequence = next ∧ head.headReceipt = statement ∧ head.remainingOpening = none)
    "canonical release has not terminated this reservation"
  return (entry, {
    command := request.command
    target := entry.command.target
    transactionId := observation.accepted.txId
    blockId := observation.accepted.blockId
    height := observation.accepted.height
    statement
    beforeRoot := observation.accepted.beforeRoot
    afterRoot := observation.accepted.afterRoot
    releasedSequence := head.sequence })

/-- The state `confirm_release` moves to, before the generation. -/
def afterRelease (state : StoreState) (finality : LifecycleFinality) : StoreState :=
  { state with
    lifecycle := state.lifecycle.alter finality.command fun entry =>
      entry.map fun entry => { entry with finality := some finality }
    privateHeads := state.privateHeads.erase finality.target
    records := state.records.erase finality.target }

/-- `NativeFinalityHandle::confirm_release`. -/
def confirmRelease (disk : Disk) (observation : ReleaseObservation) :
    EStateM String NodeShareStore LifecycleFinality := do
  let self ← get
  let (entry, finality) ← attempt (checkRelease self.state observation)
  match entry.finality with
  | some existing =>
    ensure (existing = finality) "release finality changed"
    return finality
  | none =>
    match (commit disk (afterRelease self.state finality)).run self with
    | .ok _ next => do
      set next
      return finality
    | .error e next => do
      set next
      throw e.text

/-! ## Removal -/

/-- `NodeShareStore::remove_terminal`. -/
def removeTerminal (disk : Disk) (commitment : Digest32) :
    EStateM NodeError NodeShareStore Bool := do
  let self ← get
  match self.state.records.get? commitment with
  | none => return false
  | some record =>
    ensure (record.manifest.usesPretradeReservation = false)
      (.privateState "native shares require node-observed canonical release")
    commitEager disk { self.state with records := self.state.records.erase commitment }
    return true

/-- The records `prune_expired` drops. -/
def expiredRecord (now : Nat) (record : StoredRecord) : Bool :=
  decide (record.manifest.retentionDeadline < now) &&
    !record.manifest.usesPretradeReservation

/-- `NodeShareStore::prune_expired`. -/
def pruneExpired (disk : Disk) (now : Nat) : EStateM NodeError NodeShareStore Nat := do
  let self ← get
  let expired := self.state.records.values.countP (expiredRecord now)
  if expired = 0 then return 0
  else
    commitEager disk { self.state with
      records := self.state.records.retain fun _ record => !expiredRecord now record }
    return expired

end NodeShareStore

end Oclob.Node
