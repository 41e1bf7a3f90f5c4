import Oclob.Settlement.Engine

/-!
# Canonical transitions of the settlement engine

Model of the two-phase half of `SettlementEngine` in `oclob-settlement/src/lib.rs`:
`state_snapshot`, `prepare_canonical_reservation`, `prepare_canonical_batch`,
`prepare_canonical_admission_batch` and the `accept` of what they prepare.

* A prepared reservation and a prepared batch differ in their receipts, which nothing here reads;
  what both carry is a `PreparedCanonical`.
* The roots of the two DeFMI ledgers, the openings and deltas of canonical accounts, the zkPI and
  the binding digest are computed by other packages over Pedersen commitments: `Canonical` is what
  they answer.

A prepared transition changes an engine only through `accept`, and only an engine with the
snapshot it was prepared from.
-/

namespace Oclob.Settlement

open Oclob.Core Oclob.Lib

/-- `reservation_status_tag`. -/
def ReservationStatus.tag : ReservationStatus → Nat
  | .active => 1
  | .consumed => 2
  | .released => 3

/-- `time_in_force_tag`. -/
def timeInForceTag : TimeInForce → Nat
  | .goodTilCancelled => 1
  | .immediateOrCancel => 2

/-- The bytes of a record in `ReservationBook::root`. -/
def ReservationRecord.text (record : ReservationRecord) : Bytes :=
  record.reservationId.bytes ++ record.orderCommitment.bytes ++ record.participantHandle.bytes ++
    record.entityNullifier.bytes ++ putBytes (asBytes record.marketId) ++
    toBeBytes 1 record.kind.tag ++ toBeBytes 8 record.limitPrice ++
    toBeBytes 1 (timeInForceTag record.timeInForce) ++ toBeBytes 8 record.originalQuantity ++
    toBeBytes 8 record.remainingQuantity ++ toBeBytes 8 record.maxFee ++
    toBeBytes 8 record.expiresAt ++ toBeBytes 8 record.reserved ++ toBeBytes 8 record.remaining ++
    record.reserveCommitment.bytes ++ toBeBytes 1 record.status.tag

/-- `ReservationBook::root`. -/
def ReservationBook.root [Crypto] (self : ReservationBook) : Digest32 :=
  sha256 (asBytes "OCLOB:DEFMI-RESERVATIONS:v3" ++
    (self.capacities.entries.flatMap fun entry => (ofLex entry.1).1.bytes ++
      toBeBytes 1 (ofLex entry.1).2 ++ toBeBytes 8 entry.2) ++
    (self.participantEntities.entries.flatMap fun entry => entry.1.bytes ++ entry.2.bytes) ++
    self.records.values.flatMap ReservationRecord.text)

/-- `ReservationBook::validate_active_order`. -/
def ReservationBook.validateActiveOrder (self : ReservationBook) (order : SettlementOrderView) :
    Except SettlementError Unit := do
  let record ← okOr (self.recordFor order.commitment) (.reservation "reservation is absent")
  require (record.reservationId = order.reservationId ∧
    record.orderCommitment = order.commitment ∧
    record.participantHandle = order.participantHandle ∧
    record.entityNullifier = order.dekyxNullifier ∧ record.marketId = order.marketId ∧
    record.kind = kindOf order.side ∧ record.limitPrice = order.limitPrice ∧
    record.timeInForce = order.timeInForce ∧ record.originalQuantity = order.quantity ∧
    record.remainingQuantity = order.quantity ∧ record.maxFee = order.maxFee ∧
    record.expiresAt = order.expiresAt ∧ record.reserved = order.reservationLimit ∧
    record.remaining = order.reservationLimit ∧ record.status = .active)
    (.reservation "reservation candidate does not match the admitted order")

/-- `SettlementStateSnapshot`. -/
structure SettlementStateSnapshot where
  securitiesRoot : Digest32
  cashRoot : Digest32
  reservationRoot : Digest32
  height : Nat
deriving DecidableEq

/-- `ReservationReceipt`, as far as it is compared. -/
structure ReservationReceipt where
  orderCommitment : Digest32
  reservationId : Digest32
  reserved : Nat
  stateRoot : Digest32
deriving DecidableEq

/-- What the packages around the engine answer while a transition is prepared. -/
structure Canonical where
  /-- `Ledger::snapshot` of the two rails. -/
  securitiesRoot : Participants → Digest32
  cashRoot : Participants → Digest32
  /-- `verify_admission_binding` and `verify_execution_binding`. -/
  verifyAdmission : Except String Unit
  verifyExecution : Digest32 → List PublicFill → Except String Unit
  /-- `canonical_account_openings` of two engines and the tests on their deltas, for the
  reservation alone and for the whole batch. -/
  reservationDeltas : SettlementEngine → SettlementEngine → Except SettlementError Unit
  batchDeltas : SettlementEngine → SettlementEngine → Except SettlementError Unit
  /-- `build_reservation_zkpi`. -/
  buildZkpi : Except SettlementError Unit
  /-- The digest of `oclob_manifest_v1`. -/
  applicationBinding : Except SettlementError Digest32
  /-- `canonical_binding_digest`. -/
  bindingDigest : SettlementEngine → SettlementEngine → Digest32

/-- `CanonicalSettlementAcceptance`. -/
structure CanonicalSettlementAcceptance where
  transactionId : String
  blockId : String
  height : Nat
  statement : Digest32
  beforeStateRoot : Digest32
  afterStateRoot : Digest32
  receiptDigest : Digest32
  applicationBinding : Digest32
  bindingDigest : Digest32

/-- `verify_acceptance`. -/
def verifyAcceptance (acceptance : CanonicalSettlementAcceptance)
    (applicationBinding bindingDigest : Digest32) : Except SettlementError Unit :=
  require (acceptance.transactionId ≠ "" ∧ acceptance.blockId ≠ "" ∧ acceptance.height ≠ 0 ∧
    acceptance.statement ≠ 0 ∧ acceptance.receiptDigest ≠ 0 ∧
    acceptance.beforeStateRoot ≠ acceptance.afterStateRoot ∧
    acceptance.applicationBinding = applicationBinding ∧
    acceptance.bindingDigest = bindingDigest)
    (.finality "canonical settlement acceptance is incomplete")

/-- What `PreparedCanonicalReservation` and `PreparedCanonicalBatch` both carry. -/
structure PreparedCanonical where
  candidate : SettlementEngine
  baseSnapshot : SettlementStateSnapshot
  applicationBinding : Digest32
  bindingDigest : Digest32
  deadline : Nat

/-- `PreparedCanonicalTransition`. -/
inductive PreparedCanonicalTransition where
  | reservation (prepared : PreparedCanonical)
  | settlement (prepared : PreparedCanonical)

section

variable [Crypto]

namespace SettlementEngine

/-- `SettlementEngine::state_snapshot`. -/
def stateSnapshot (self : SettlementEngine) (canonical : Canonical) : SettlementStateSnapshot :=
  ⟨canonical.securitiesRoot self.participants, canonical.cashRoot self.participants,
    self.reservations.root, self.height⟩

/-- The receipt `reserve_order` has returned when it leaves this engine behind. -/
def reservationReceipt (self : SettlementEngine) (order : SettlementOrderView) :
    ReservationReceipt :=
  ⟨order.commitment, order.reservationId, order.reservationLimit, self.reservations.root⟩

/-- The comparison of a reserved candidate with its base and its receipt. -/
def checkReserved (self candidate : SettlementEngine) (canonical : Canonical)
    (receipt : ReservationReceipt) (order : SettlementOrderView) : Except SettlementError Unit :=
  let base := self.stateSnapshot canonical
  let reserved := candidate.stateSnapshot canonical
  require (reserved.height = saturatingAdd base.height 1 ∧
    receipt.orderCommitment = order.commitment ∧ receipt.reservationId = order.reservationId ∧
    receipt.reserved = order.reservationLimit ∧ receipt.stateRoot = reserved.reservationRoot ∧
    reserved.securitiesRoot = base.securitiesRoot ∧ reserved.cashRoot = base.cashRoot)
    .canonicalDivergence

/-- `SettlementEngine::prepare_canonical_reservation`. -/
def prepareCanonicalReservation (self : SettlementEngine) (canonical : Canonical)
    (candidate : SettlementEngine) (receipt : ReservationReceipt) (order : SettlementOrderView) :
    Except SettlementError PreparedCanonicalTransition := do
  canonical.verifyAdmission.mapError .proof
  candidate.reservations.validateActiveOrder order
  self.checkReserved candidate canonical receipt order
  canonical.reservationDeltas self candidate
  canonical.buildZkpi
  let applicationBinding ← canonical.applicationBinding
  return .reservation ⟨candidate, self.stateSnapshot canonical, applicationBinding,
    canonical.bindingDigest self candidate, order.expiresAt⟩

/-- `SettlementEngine::prepare_canonical_batch`. -/
def prepareCanonicalBatch (self : SettlementEngine) (backend : Backend) (canonical : Canonical)
    (fills : List PublicFill) (arriving : SettlementOrderView) (arrivingRemaining now : Nat) :
    Except SettlementError PreparedCanonical := do
  let (_, candidate) ← stage (settleBatch backend fills arriving arrivingRemaining now) self
  canonical.batchDeltas self candidate
  let applicationBinding ← canonical.applicationBinding
  let deadline ← okOr (checkedAdd now 600) (.finality "settlement deadline overflowed")
  return ⟨candidate, self.stateSnapshot canonical, applicationBinding,
    canonical.bindingDigest self candidate, deadline⟩

/-- `SettlementEngine::prepare_canonical_admission_batch`. -/
def prepareCanonicalAdmissionBatch (self : SettlementEngine) (backend : Backend)
    (canonical : Canonical) (candidate : SettlementEngine) (receipt : ReservationReceipt)
    (fills : List PublicFill) (arriving : SettlementOrderView) (arrivingRemaining now : Nat) :
    Except SettlementError PreparedCanonicalTransition := do
  (canonical.verifyExecution arriving.commitment fills).mapError .proof
  candidate.reservations.validateActiveOrder arriving
  self.checkReserved candidate canonical receipt arriving
  require (candidate.spentInstructions = self.spentInstructions) .canonicalDivergence
  canonical.reservationDeltas self candidate
  canonical.buildZkpi
  let prepared ←
    candidate.prepareCanonicalBatch backend canonical fills arriving arrivingRemaining now
  canonical.batchDeltas self prepared.candidate
  return .settlement { prepared with
    baseSnapshot := self.stateSnapshot canonical
    deadline := min prepared.deadline arriving.expiresAt
    bindingDigest := canonical.bindingDigest self prepared.candidate }

end SettlementEngine

/-- `PreparedCanonicalBatch::accept` and `PreparedCanonicalReservation::accept`. -/
def PreparedCanonical.accept (self : PreparedCanonical) (canonical : Canonical)
    (acceptance : CanonicalSettlementAcceptance) :
    EStateM SettlementError SettlementEngine Unit := do
  let engine ← get
  ensure (engine.stateSnapshot canonical = self.baseSnapshot) .canonicalDivergence
  attempt (verifyAcceptance acceptance self.applicationBinding self.bindingDigest)
  set { self.candidate with height := acceptance.height }

/-- `PreparedCanonicalTransition::accept`. -/
def PreparedCanonicalTransition.accept (canonical : Canonical)
    (acceptance : CanonicalSettlementAcceptance) :
    PreparedCanonicalTransition → EStateM SettlementError SettlementEngine Unit
  | .reservation prepared => prepared.accept canonical acceptance
  | .settlement prepared => prepared.accept canonical acceptance

end

end Oclob.Settlement
