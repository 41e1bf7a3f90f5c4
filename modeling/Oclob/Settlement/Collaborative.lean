import Oclob.Settlement.Engine

/-!
# Collaborative settlement

Model of the collaborative path of `oclob-settlement/src/lib.rs`: `settle_batch_collaborative`,
which settles a batch on commitments and proofs alone, the two reservation updates it makes
(`apply_collaborative_remainders`, `reconcile_arriving_collaborative`) and the read-only
`participant_portfolio`.

The proofs are verified by other packages, whose answers during one call are a
`CollaborativeBackend`; nothing is assumed of them. Unlike `settle_batch` this path debits the
payers itself (`checked_debit`), so the balances it writes are its own.

What a successful turn of the loop and a successful call have done is in `Settlement/Delivery.lean`;
what `verify_for_settlement` checks is in `Settlement/LimitProof.lean`.
-/

namespace Oclob.Settlement

open Oclob.Core Oclob.Lib

namespace ReservationBook

/-- `ReservationBook::reserved_for`. -/
def reservedFor (self : ReservationBook) (participant : Digest32) (kind : ReservationKind) :
    Except SettlementError Nat :=
  okOr (checkedSum ((self.records.values.filter fun record =>
    decide (record.participantHandle = participant ∧ record.kind = kind ∧
      record.status = .active)).map ReservationRecord.remaining))
    (.reservation "reservation sum overflowed")

/-- `ReservationBook::apply_collaborative_remainders`. -/
def applyCollaborativeRemainders (consumed : ConsumedFill)
    (securitiesRemainder cashRemainder makerPoolRemainder : Digest32) :
    EStateM SettlementError ReservationBook Unit := do
  let takerRemainder := match consumed.makerKind with
    | .securities => cashRemainder
    | .cash => securitiesRemainder
  let self ← get
  let maker ← attempt (okOr (self.records.get? consumed.makerReservationId)
    (.reservation "maker reservation disappeared"))
  set (self.writeBack { maker with reserveCommitment := makerPoolRemainder })
  let self ← get
  let taker ← attempt (okOr (self.records.get? consumed.takerReservationId)
    (.reservation "taker reservation disappeared"))
  set (self.writeBack { taker with reserveCommitment := takerRemainder })

/-- `ReservationBook::reconcile_arriving_collaborative`. -/
def reconcileArrivingCollaborative (commitment : Digest32) (remainingQuantity : Nat) :
    EStateM SettlementError ReservationBook Nat := do
  let self ← get
  let record ← attempt (okOr (self.recordFor commitment)
    (.reservation "taker reservation is absent"))
  ensure (remainingQuantity = record.remainingQuantity)
    (.reservation "reported arriving remainder differs from consumed fills")
  if remainingQuantity = 0 ∨ record.timeInForce = .immediateOrCancel then
    set (self.writeBack { record with
      remaining := 0
      remainingQuantity := 0
      status := if remainingQuantity = 0 then .consumed else .released })
    return 0
  else
    set (self.writeBack { record with status := .active })
    return record.remaining

end ReservationBook

/-- `PriceLimitDirection`. -/
inductive PriceLimitDirection where
  | maximumBuyPrice
  | minimumSellPrice
deriving DecidableEq, Repr

/-- `QuoteBinding` of zkPI. -/
inductive QuoteBinding where
  | proofDigest (digest : Digest32)
  | legacyPackedKey (key : Nat)
deriving DecidableEq

/-- The fields of a zkPI `Instruction` that settlement reads. `evidence` is what only the venue's
own verification reads: range proofs and signatures. -/
structure Instruction where
  nonce : Digest32
  deadline : Nat
  quoteBinding : QuoteBinding
  payerHandle : Digest32
  payeeHandle : Digest32
  assetCommitment : Digest32
  amountCommitment : Digest32
  priceCommitment : Digest32
  /-- `ranges.is_threshold()`. -/
  thresholdRanges : Bool
  evidence : Bytes
deriving DecidableEq

/-- The fields of an `OpeningEnvelope` that settlement reads; `sealed` are its shares. -/
structure OpeningEnvelope where
  context : Digest32
  recipientView : Digest32
  sealed : Bytes
deriving DecidableEq

/-- The four legs whose openings a fill proof delivers. -/
structure FillOpenings where
  securitiesDelivery : OpeningEnvelope
  securitiesRefund : OpeningEnvelope
  cashDelivery : OpeningEnvelope
  cashRefund : OpeningEnvelope
deriving DecidableEq

/-- `CollaborativeFillProof`. Points are their compressed encodings, proofs their bytes. -/
structure CollaborativeFillProof where
  jobId : Digest32
  marketProofDigest : Digest32
  limitDirection : PriceLimitDirection
  limitCommitment : Digest32
  limitContext : Digest32
  assetId : Digest32
  instruction : Instruction
  frostPublic : Bytes
  pqCommittee : Bytes
  makerHandle : Digest32
  priceLimitProof : Bytes
  dvpProofs : Bytes
  cashCommitment : Digest32
  securitiesRemainder : Digest32
  cashRemainder : Digest32
  makerPoolRemainder : Digest32
  makerPoolRemainderProof : Bytes
  openings : FillOpenings
  assetLink : Bytes
deriving DecidableEq

/-- `CollaborativeSettlementContext`: what a proof is verified against. -/
structure CollaborativeSettlementContext where
  expectedJobId : Digest32
  marketProofDigest : Digest32
  makerHandle : Digest32
  takerHandle : Digest32
  makerReserve : Digest32
  takerReserve : Digest32
  marketId : String
  now : Nat

/-- The verified instruction of one fill. -/
structure CollaborativePackage where
  nullifier : Digest32
  securitiesRemainder : Digest32
  cashRemainder : Digest32

/-- What the packages outside the repository answer during one collaborative call. -/
structure CollaborativeBackend where
  /-- `verify_settlement_binding`. -/
  verifyBinding : String → Digest32 → List PublicFill → Except SettlementError Unit
  /-- The `mpc_output_digest` of the transition's statement. -/
  mpcOutputDigest : Digest32
  /-- Whether `collaborative_pq_policy` is set. -/
  pqCommitteePinned : Bool
  /-- Whether `collaborative_public_key` is set. -/
  publicKeyPinned : Bool
  sha256 : Bytes → Digest32
  /-- `CollaborativeFillProof::verify_for_settlement`. -/
  verifyForSettlement : CollaborativeFillProof → CollaborativeSettlementContext →
    Except SettlementError CollaborativePackage
  /-- `Ledger::conserved` on both rails. -/
  conserved : Participants → Bool
  /-- `CanonicalReadback::new`, the manifest digest and `accept_canonical_transition`. -/
  finality : Except SettlementError Unit

/-- `collaborative_job_id`. -/
def collaborativeJobId (sha256 : Bytes → Digest32) (roundId : Digest32) (slot : Nat)
    (publicOutputDigest : Digest32) : Except String Digest32 := do
  require (slot < 8 ∧ roundId ≠ 0 ∧ publicOutputDigest ≠ 0)
    "collaborative fill identity is outside its fixed bounds"
  return sha256 (asBytes "OCLOB:COLLABORATIVE-FILL:v1" ++ roundId.bytes ++ toBeBytes 2 slot ++
    publicOutputDigest.bytes)

/-- `checked_debit`. -/
def checkedDebit (balance amount : Nat) : Except SettlementError Nat :=
  okOr (checkedSub balance amount) .insolvent

/-- The handles and the limit direction a proof must show, from the rail of the maker. -/
def expectedRoles (consumed : ConsumedFill) : Digest32 × Digest32 × PriceLimitDirection :=
  match consumed.makerKind with
  | .securities => (consumed.sellerHandle, consumed.buyerHandle, .maximumBuyPrice)
  | .cash => (consumed.buyerHandle, consumed.sellerHandle, .minimumSellPrice)

/-- The commitment a proof is checked against: the fill itself does not change it. -/
def ReservationBook.reserveCommitmentOf (self : ReservationBook) (id : Digest32) : Digest32 :=
  (self.records.get? id).elim 0 ReservationRecord.reserveCommitment

/-- One turn of the loop of `settle_batch_collaborative`. -/
def settleFillCollaborative (backend : CollaborativeBackend) (roundId : Digest32)
    (marketId : String) (now index : Nat) (fill : PublicFill) (proof : CollaborativeFillProof)
    (staged : StagedBatch) : Except SettlementError StagedBatch := do
  let (consumed, reservations) ←
    stage (ReservationBook.consumeFill fill marketId now) staged.reservations
  require (consumed.sellerHandle ≠ consumed.buyerHandle)
    (.reservation "self-trading orders cannot produce a DvP between one account")
  let seller ← okOr (staged.participants.get? consumed.sellerHandle)
    (.reservation "seller account is absent")
  let buyer ← okOr (staged.participants.get? consumed.buyerHandle)
    (.reservation "buyer account is absent")
  let (makerHandle, takerHandle, expectedDirection) := expectedRoles consumed
  require (proof.limitDirection = expectedDirection)
    (.proof "MPC limit proof has the opposite Taker direction")
  let expectedJobId ←
    (collaborativeJobId backend.sha256 roundId index backend.mpcOutputDigest).mapError .proof
  let package ← backend.verifyForSettlement proof {
    expectedJobId, makerHandle, takerHandle, marketId, now
    marketProofDigest := backend.mpcOutputDigest
    makerReserve := staged.reservations.reserveCommitmentOf consumed.makerReservationId
    takerReserve := staged.reservations.reserveCommitmentOf consumed.takerReservationId }
  let (_, reservations) ← stage (ReservationBook.applyCollaborativeRemainders consumed
    package.securitiesRemainder package.cashRemainder proof.makerPoolRemainder) reservations
  require (package.nullifier ∉ staged.spent) .replayAccepted
  let cashValue ← okOr (checkedMul fill.price fill.quantity) (.reservation "cash fill overflowed")
  let sellerSecurities ← checkedDebit seller.securities.value fill.quantity
  let buyerCash ← checkedDebit buyer.cash.value cashValue
  let sellerCash ← checkedCredit seller.cash.value cashValue
  let buyerSecurities ← checkedCredit buyer.securities.value fill.quantity
  let participants := (staged.participants.insert consumed.sellerHandle
      ⟨⟨sellerSecurities, false⟩, ⟨sellerCash, false⟩⟩).insert consumed.buyerHandle
      ⟨⟨buyerSecurities, false⟩, ⟨buyerCash, false⟩⟩
  require (backend.conserved participants = true) .insolvent
  return ⟨reservations, participants, insert package.nullifier staged.spent⟩

/-- The loop of `settle_batch_collaborative`. -/
def settleFillsCollaborative (backend : CollaborativeBackend) (roundId : Digest32)
    (marketId : String) (now : Nat) :
    Nat → List (PublicFill × CollaborativeFillProof) → StagedBatch →
      Except SettlementError StagedBatch
  | _, [], staged => .ok staged
  | index, (fill, proof) :: rest, staged => do
    let staged ← settleFillCollaborative backend roundId marketId now index fill proof staged
    settleFillsCollaborative backend roundId marketId now (index + 1) rest staged

/-- `ParticipantPortfolio`. -/
structure ParticipantPortfolio where
  securities : Nat
  cash : Nat
  reservedSecurities : Nat
  reservedCash : Nat
  availableSecurities : Nat
  availableCash : Nat
deriving DecidableEq

namespace SettlementEngine

/-- `SettlementEngine::reserve_order_with_commitment`. -/
def reserveOrderWithCommitment (order : SettlementOrderView) (reserveCommitment : Digest32) :
    EStateM SettlementError SettlementEngine Unit :=
  commitReservations (ReservationBook.reserve order reserveCommitment)

/-- `SettlementEngine::participant_portfolio`; the subtractions of the source saturate, as those of
`Nat` do. -/
def participantPortfolio (self : SettlementEngine) (participantHandle : Digest32) :
    Except SettlementError ParticipantPortfolio := do
  let balances ← okOr (self.participants.get? participantHandle)
    (.reservation "participant account is absent")
  let reservedSecurities ← self.reservations.reservedFor participantHandle .securities
  let reservedCash ← self.reservations.reservedFor participantHandle .cash
  return {
    securities := balances.securities.value
    cash := balances.cash.value
    reservedSecurities, reservedCash
    availableSecurities := balances.securities.value - reservedSecurities
    availableCash := balances.cash.value - reservedCash }

/-- The checks of `settle_batch_collaborative` before anything is staged, and the record of the
arriving order. -/
def checkCollaborativeBatch (backend : CollaborativeBackend) (self : SettlementEngine)
    (fills : List PublicFill) (proofs : List CollaborativeFillProof) (roundId arriving : Digest32)
    (arrivingRemaining now : Nat) : Except SettlementError ReservationRecord := do
  require (fills ≠ [] ∧ fills.length = proofs.length ∧ fills.length ≤ maxMatchSlots ∧
    roundId ≠ 0 ∧ (∀ fill ∈ fills, fill.quantity ≠ 0 ∧ fill.price ≠ 0) ∧
    ∀ fill ∈ fills, fill.takerOrder = arriving) .invalidFill
  let record ← okOr (self.reservations.recordFor arriving)
    (.reservation "taker reservation is absent")
  require (record.status = .active ∧ now ≤ record.expiresAt)
    (.reservation "an inactive or expired arriving reservation cannot settle")
  let _ ← okOr (ReservationBook.checkedSum (fills.map PublicFill.quantity))
    (.reservation "fill quantity overflowed")
  require (conservesQuantity fills arrivingRemaining record.originalQuantity)
    (.reservation "fills and arriving remainder do not conserve order quantity")
  require (fills.map PublicFill.makerOrder).Nodup
    (.reservation "one resting order cannot appear twice in an atomic match batch")
  backend.verifyBinding record.marketId arriving fills
  require (backend.mpcOutputDigest ≠ 0) (.proof "transition omitted the MPC public-output digest")
  require (backend.pqCommitteePinned = true)
    (.proof "MPC PQ settlement committee is not pinned in DeFMI")
  require (backend.publicKeyPinned = true)
    (.proof "MPC settlement committee is not pinned in DeFMI")
  return record

/-- `SettlementEngine::settle_batch_collaborative`. -/
def settleBatchCollaborative (backend : CollaborativeBackend) (fills : List PublicFill)
    (proofs : List CollaborativeFillProof) (roundId arriving : Digest32)
    (arrivingRemaining now : Nat) : EStateM SettlementError SettlementEngine Unit := do
  let self ← get
  let record ← attempt (checkCollaborativeBatch backend self fills proofs roundId arriving
    arrivingRemaining now)
  let staged ← attempt (settleFillsCollaborative backend roundId record.marketId now 0
    (fills.zip proofs) ⟨self.reservations, self.participants, self.spentInstructions⟩)
  let (_, reconciled) ← attempt (stage (ReservationBook.reconcileArrivingCollaborative arriving
    arrivingRemaining) staged.reservations)
  let (_, reservations) ← attempt (stage (refreshCapacities staged.participants.entries)
    reconciled)
  finish self fills.length backend.conserved backend.finality staged reservations

end SettlementEngine

end Oclob.Settlement
