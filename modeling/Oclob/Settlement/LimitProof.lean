import Oclob.Settlement.Delivery

/-!
# The price limit of a collaborative fill

Model of `CollaborativeFillProof::verify_for_settlement` of `oclob-settlement/src/collaborative.rs`,
and of the limit statement the market runtime has the parties prove (`signedTakerLimit`, from
`oclob-node/src/market_runtime.rs`). The other packages it calls are a `ProofVerifier`; a
`ProofVerifier` set into a `CollaborativeBackend` makes the whole of `settle_batch_collaborative`.

`verify_for_settlement` compares the job, the output digest, the asset, the handles and the keys of
a proof with the canonical context, and `settle_batch_collaborative` compares its direction with
the rail of the maker. The commitment and the context of the limit itself go to
`threshold_price_limit` as the proof carries them.

* `settleFillsCollaborative_verified`: what every accepted proof has passed, by induction on the
  fills.
* `price_limit_bound_iff`: the statements proved are the arriving order's exactly when the supplied
  proofs carry its commitment and its context; the price then respects its limit.
* `foreign_limit_accepted`: an accepted batch that was proved against another limit.
-/

namespace Oclob.Settlement

open Oclob.Core Oclob.Lib

/-! ## The verifier -/

/-- What `threshold_price_limit` is told about the limit. -/
structure PriceLimitStatement where
  limitCommitment : Digest32
  limitDirection : PriceLimitDirection
  limitContext : Digest32
deriving DecidableEq

/-- The functions of zkPI and DeFMI that `verify_for_settlement` calls, and the keys DeFMI pins. -/
structure ProofVerifier where
  /-- `canonical_securities_asset_id`. -/
  assetId : String → Digest32
  /-- The serialized `collaborative_public_key`. -/
  pinnedKey : Bytes
  /-- `collaborative_pq_policy`. -/
  pinnedCommittee : Bytes
  /-- `asset_link::verify`. -/
  verifyAssetLink : Digest32 → Digest32 → Bytes → Bool
  /-- `Venue::verify` with threshold ranges and the pinned committee. -/
  verifyVenue : Instruction → Nat → Except String Unit
  /-- `price_limit::from_threshold`, on the committed price. -/
  thresholdPriceLimit : Digest32 → PriceLimitStatement → Bytes → Except String Unit
  /-- `build_threshold_package_from_proofs`, on the two reserves and the committed cash. -/
  buildPackage : Instruction → Digest32 → Digest32 → Digest32 → Bytes →
    Except String CollaborativePackage
  /-- `verify_threshold_range`. -/
  verifyThresholdRange : Digest32 → Bytes → Bool
  /-- `OpeningEnvelope::validate`. -/
  validateEnvelope : OpeningEnvelope → Except String Unit
  /-- `opening_context`. -/
  openingContext : Digest32 → String → Except String Digest32

/-- The statement `verify_for_settlement` passes on. -/
def CollaborativeFillProof.priceLimitStatement (proof : CollaborativeFillProof) :
    PriceLimitStatement :=
  ⟨proof.limitCommitment, proof.limitDirection, proof.limitContext⟩

namespace ProofVerifier

/-- One turn of the last loop of `verify_for_settlement`. -/
def checkOpening (verifier : ProofVerifier) (jobId : Digest32) (leg : String)
    (envelope : OpeningEnvelope) (recipient : Digest32) : Except String Unit := do
  verifier.validateEnvelope envelope
  let context ← verifier.openingContext jobId leg
  require (envelope.context = context ∧ envelope.recipientView = recipient)
    (leg ++ " opening envelope is not bound to its proof job and recipient")

/-- The checks of `verify_for_settlement` before the price limit. -/
def checkBinding (verifier : ProofVerifier) (proof : CollaborativeFillProof)
    (context : CollaborativeSettlementContext) : Except String Unit := do
  require (proof.jobId = context.expectedJobId ∧ proof.instruction.nonce = proof.jobId ∧
    proof.marketProofDigest = context.marketProofDigest ∧
    proof.assetId = verifier.assetId context.marketId ∧
    proof.makerHandle = context.makerHandle ∧ context.now ≤ proof.instruction.deadline)
    "collaborative fill is not bound to this canonical transition"
  let quoteDigest ← match proof.instruction.quoteBinding with
    | .proofDigest digest => Except.ok digest
    | .legacyPackedKey _ => .error "canonical settlement refuses a legacy quote key"
  require (quoteDigest = context.marketProofDigest) "zkPI names another MPC public output"
  let expectedHandles := match proof.limitDirection with
    | .maximumBuyPrice => (context.takerHandle, context.makerHandle)
    | .minimumSellPrice => (context.makerHandle, context.takerHandle)
  require ((proof.instruction.payerHandle, proof.instruction.payeeHandle) = expectedHandles)
    "zkPI payer and payee do not match the reserved Maker and Taker"
  require (verifier.verifyAssetLink (verifier.assetId context.marketId)
      proof.instruction.assetCommitment proof.assetLink = true ∧
      proof.instruction.thresholdRanges = true)
    "zkPI asset or range evidence is not the canonical threshold form"
  require (proof.frostPublic = verifier.pinnedKey ∧ proof.pqCommittee = verifier.pinnedCommittee)
    "zkPI was authorized by an unpinned MPC settlement committee"
  verifier.verifyVenue proof.instruction context.now

/-- The checks of `verify_for_settlement` after the price limit. -/
def checkPackage (verifier : ProofVerifier) (proof : CollaborativeFillProof)
    (context : CollaborativeSettlementContext) : Except String CollaborativePackage := do
  let (securitiesReserve, cashReserve, expectedMakerRemainder) := match proof.limitDirection with
    | .maximumBuyPrice => (context.makerReserve, context.takerReserve, proof.securitiesRemainder)
    | .minimumSellPrice => (context.takerReserve, context.makerReserve, proof.cashRemainder)
  let package ← verifier.buildPackage proof.instruction securitiesReserve cashReserve
    proof.cashCommitment proof.dvpProofs
  require (package.securitiesRemainder = proof.securitiesRemainder ∧
    package.cashRemainder = proof.cashRemainder ∧
    proof.makerPoolRemainder = expectedMakerRemainder ∧
    verifier.verifyThresholdRange proof.makerPoolRemainder proof.makerPoolRemainderProof = true)
    "MPC reserve remainder differs from the canonical reservation"
  let payer := proof.instruction.payerHandle
  let payee := proof.instruction.payeeHandle
  verifier.checkOpening proof.jobId "securities_delivery" proof.openings.securitiesDelivery payer
  verifier.checkOpening proof.jobId "securities_refund" proof.openings.securitiesRefund payee
  verifier.checkOpening proof.jobId "cash_delivery" proof.openings.cashDelivery payee
  verifier.checkOpening proof.jobId "cash_refund" proof.openings.cashRefund payer
  return package

/-- `CollaborativeFillProof::verify_for_settlement`. -/
def verifyForSettlement (verifier : ProofVerifier) (proof : CollaborativeFillProof)
    (context : CollaborativeSettlementContext) : Except String CollaborativePackage := do
  verifier.checkBinding proof context
  verifier.thresholdPriceLimit proof.instruction.priceCommitment proof.priceLimitStatement
    proof.priceLimitProof
  verifier.checkPackage proof context

/-- The backend whose fill proofs go through `verify_for_settlement`. -/
def backend (verifier : ProofVerifier) (answers : CollaborativeBackend) : CollaborativeBackend :=
  { answers with
    verifyForSettlement := fun proof context =>
      (verifier.verifyForSettlement proof context).mapError .proof }

theorem verifyForSettlement_ok {verifier : ProofVerifier} {proof : CollaborativeFillProof}
    {context : CollaborativeSettlementContext} {package : CollaborativePackage}
    (h : verifier.verifyForSettlement proof context = .ok package) :
    verifier.thresholdPriceLimit proof.instruction.priceCommitment proof.priceLimitStatement
      proof.priceLimitProof = .ok () := by
  obtain ⟨-, -, hrest⟩ := except_bind_eq_ok.mp h
  obtain ⟨⟨⟩, hlimit, -⟩ := except_bind_eq_ok.mp hrest
  exact hlimit

end ProofVerifier

/-! ## The statement of the arriving order -/

/-- The direction of a limit, from the rail its order reserved on. -/
def ReservationKind.limitDirection : ReservationKind → PriceLimitDirection
  | .cash => .maximumBuyPrice
  | .securities => .minimumSellPrice

/-- The limit the market runtime asks the parties to prove: the price commitment of the arriving
order's manifest, the direction of its side, and the digest of its transition. -/
def signedTakerLimit [Crypto] (committedPrice : Digest32) (kind : ReservationKind)
    (arriving certificateDigest outputDigest : Digest32) : PriceLimitStatement where
  limitCommitment := committedPrice
  limitDirection := kind.limitDirection
  limitContext := sha256 (asBytes "OCLOB:SIGNED-TAKER-LIMIT:v1" ++ arriving.bytes ++
    certificateDigest.bytes ++ outputDigest.bytes)

/-- `price` is no worse than `limit`. -/
def PriceLimitDirection.Allows (direction : PriceLimitDirection) (limit price : Nat) : Prop :=
  match direction with
  | .maximumBuyPrice => price ≤ limit
  | .minimumSellPrice => limit ≤ price

instance (direction : PriceLimitDirection) (limit price : Nat) :
    Decidable (direction.Allows limit price) :=
  match direction with
  | .maximumBuyPrice => inferInstanceAs (Decidable (price ≤ limit))
  | .minimumSellPrice => inferInstanceAs (Decidable (limit ≤ price))

theorem ReservationRecord.respectsLimit_iff {record : ReservationRecord} {price : Nat} :
    record.respectsLimit price = true ↔
      record.kind.limitDirection.Allows record.limitPrice price := by
  unfold respectsLimit
  cases record.kind with
  | cash => exact decide_eq_true_iff
  | securities => exact decide_eq_true_iff

/-- Commitments open to one value, and an accepted limit proof is about the values its two
commitments open to. -/
structure ProofVerifier.Sound (verifier : ProofVerifier) (Opens : Digest32 → Nat → Prop) :
    Prop where
  binding : ∀ c a b, Opens c a → Opens c b → a = b
  price_limit : ∀ c statement evidence,
    verifier.thresholdPriceLimit c statement evidence = .ok () →
      ∃ price limit, Opens c price ∧ Opens statement.limitCommitment limit ∧
        statement.limitDirection.Allows limit price

/-! ## What an accepted proof has passed -/

/-- The proof of one fill of the order whose record is `taker`: the direction is that of the order,
the public price respects its limit, and the verification succeeded. -/
structure ProvedFill (backend : CollaborativeBackend) (taker : ReservationRecord)
    (fill : PublicFill) (proof : CollaborativeFillProof) : Prop where
  direction : proof.limitDirection = taker.kind.limitDirection
  public_price : taker.respectsLimit fill.price = true
  verified : ∃ context package, backend.verifyForSettlement proof context = .ok package

theorem ProvedFill.of_updates {backend : CollaborativeBackend} {taker stored : ReservationRecord}
    {fill : PublicFill} {proof : CollaborativeFillProof}
    (h : ProvedFill backend taker fill proof) (hupd : ReservationBook.Updates taker stored) :
    ProvedFill backend stored fill proof := by
  obtain ⟨hdirection, hprice, hverified⟩ := h
  rw [hupd] at hdirection hprice
  exact ⟨hdirection, hprice, hverified⟩

theorem expectedRoles_direction {consumed : ConsumedFill} {kind : ReservationKind}
    (h : consumed.makerKind ≠ kind) : (expectedRoles consumed).2.2 = kind.limitDirection := by
  unfold expectedRoles
  cases hmaker : consumed.makerKind with
  | securities =>
    cases kind with
    | securities => exact absurd hmaker h
    | cash => rfl
  | cash =>
    cases kind with
    | securities => rfl
    | cash => exact absurd hmaker h

theorem ReservationBook.consumeFill_proves {self book : ReservationBook} {fill : PublicFill}
    {marketId : String} {now : Nat} {consumed : ConsumedFill} {taker : ReservationRecord}
    (h : (consumeFill fill marketId now).run self = .ok consumed book)
    (htaker : self.recordFor fill.takerOrder = some taker) :
    consumed.makerKind ≠ taker.kind ∧ taker.respectsLimit fill.price = true := by
  unfold consumeFill at h
  simp only [run_rules] at h
  obtain ⟨s₁, s₂, ⟨rfl, rfl⟩, ⟨maker, t, cash⟩, s₃, ⟨hparties, rfl⟩, -, s₄, ⟨-, rfl⟩, -, s₅, rfl,
    -, s₆, ⟨-, rfl⟩, -, s₇, rfl, rfl, -⟩ := h
  obtain ⟨hfits, -⟩ := fillParties_fits hparties
  obtain rfl : taker = t := Option.some.inj (htaker.symm.trans hfits.taker_eq)
  exact ⟨hfits.rails, hfits.limits.2⟩

section

variable {backend : CollaborativeBackend} {roundId : Digest32} {marketId : String} {now index : Nat}
  {staged staged' : StagedBatch} {taker : ReservationRecord}

/-- One turn of the loop. -/
theorem settleFillCollaborative_verified {fill : PublicFill} {proof : CollaborativeFillProof}
    (h : settleFillCollaborative backend roundId marketId now index fill proof staged =
      .ok staged')
    (htaker : staged.reservations.recordFor fill.takerOrder = some taker) :
    ProvedFill backend taker fill proof ∧ ∃ takerAfter,
      staged'.reservations.recordFor fill.takerOrder = some takerAfter ∧
      ReservationBook.Updates takerAfter taker := by
  obtain ⟨htaken, -, -⟩ := settleFillCollaborative_settled h
  obtain rfl := Option.some.inj (htaker.symm.trans htaken.taker_eq)
  refine ⟨?_, _, htaken.after_eq.2, htaken.taker_spent.updates⟩
  unfold settleFillCollaborative at h
  simp only [ok_rules] at h
  obtain ⟨⟨consumed, consumedBook⟩, hconsume, -, -, -, -, -, -, -, hdirection, jobId, -, package,
    hverified, -⟩ := h
  obtain ⟨hrails, hprice⟩ := ReservationBook.consumeFill_proves (stage_eq_ok.mp hconsume) htaker
  exact ⟨hdirection.trans (expectedRoles_direction hrails), hprice, _, package, hverified⟩

/-- The loop, over fills of one arriving order. -/
theorem settleFillsCollaborative_verified {arriving : Digest32}
    {pairs : List (PublicFill × CollaborativeFillProof)}
    (h : settleFillsCollaborative backend roundId marketId now index pairs staged = .ok staged')
    (htaker : staged.reservations.recordFor arriving = some taker)
    (hfills : ∀ pair ∈ pairs, pair.1.takerOrder = arriving) :
    ∀ pair ∈ pairs, ProvedFill backend taker pair.1 pair.2 := by
  induction pairs generalizing index staged taker with
  | nil => exact fun pair hpair => absurd hpair List.not_mem_nil
  | cons pair pairs ih =>
    obtain ⟨fill, proof⟩ := pair
    obtain ⟨mid, hfill, hrest⟩ := except_bind_eq_ok.mp h
    obtain ⟨hhead, htail⟩ := List.forall_mem_cons.mp hfills
    rw [← hhead] at htaker
    obtain ⟨hproved, takerAfter, hafter, hupd⟩ := settleFillCollaborative_verified hfill htaker
    rw [hhead] at hafter
    -- the record keeps its rail and its limit, so what the later fills pass is about it as well
    refine List.forall_mem_cons.mpr ⟨hproved, fun p hp => ?_⟩
    exact (ih hrest hafter htail p hp).of_updates hupd

end

namespace SettlementEngine

variable {self engine : SettlementEngine} {fills : List PublicFill}
  {proofs : List CollaborativeFillProof} {roundId arriving : Digest32} {arrivingRemaining now : Nat}
  {record : ReservationRecord} {u : Unit}

theorem settleBatchCollaborative_proved {backend : CollaborativeBackend}
    (hrun : (settleBatchCollaborative backend fills proofs roundId arriving arrivingRemaining
      now).run self = .ok u engine)
    (hrecord : self.reservations.recordFor arriving = some record) :
    (∀ fill ∈ fills, ∃ proof, ProvedFill backend record fill proof) ∧
      ∀ proof ∈ proofs, ∃ fill, ProvedFill backend record fill proof := by
  obtain ⟨r, staged, -, -, hcheck, hfills, -⟩ := settleBatchCollaborative_run hrun
  obtain ⟨hlen, htakers, -⟩ := checkCollaborativeBatch_ok hcheck
  have hproved := settleFillsCollaborative_verified hfills hrecord fun pair hpair =>
    htakers pair.1 (List.of_mem_zip hpair).1
  refine ⟨fun fill hfill => ?_, fun proof hproof => ?_⟩
  · rw [← List.map_fst_zip hlen.le] at hfill
    obtain ⟨pair, hpair, rfl⟩ := List.mem_map.mp hfill
    exact ⟨pair.2, hproved pair hpair⟩
  · rw [← List.map_snd_zip hlen.ge] at hproof
    obtain ⟨pair, hpair, rfl⟩ := List.mem_map.mp hproof
    exact ⟨pair.1, hproved pair hpair⟩

/-- **Which limit a fill is proved against.** Of an accepted batch, every proof has the direction
of the arriving order, and every public price respects its limit. The commitment and the context
that are proved are the arriving order's exactly when the supplied proofs carry them; then no
price a proof commits to is worse than the limit. -/
theorem price_limit_bound_iff [Crypto] {verifier : ProofVerifier} {answers : CollaborativeBackend}
    {Opens : Digest32 → Nat → Prop} {committedPrice : Digest32} (certificateDigest : Digest32)
    (hsound : verifier.Sound Opens)
    (hrecord : self.reservations.recordFor arriving = some record)
    (hopens : Opens committedPrice record.limitPrice)
    (hrun : (settleBatchCollaborative (verifier.backend answers) fills proofs roundId arriving
      arrivingRemaining now).run self = .ok u engine) :
    let own := signedTakerLimit committedPrice record.kind arriving certificateDigest
      answers.mpcOutputDigest
    (∀ proof ∈ proofs, proof.priceLimitStatement.limitDirection = own.limitDirection) ∧
    (∀ fill ∈ fills, record.respectsLimit fill.price = true) ∧
    (((∀ proof ∈ proofs, proof.priceLimitStatement = own) ∧
        ∀ proof ∈ proofs, ∀ price, Opens proof.instruction.priceCommitment price →
          record.respectsLimit price = true) ↔
      ∀ proof ∈ proofs, proof.limitCommitment = own.limitCommitment ∧
        proof.limitContext = own.limitContext) := by
  intro own
  obtain ⟨hfills, hproofs⟩ := settleBatchCollaborative_proved hrun hrecord
  have hdirection : ∀ proof ∈ proofs, proof.limitDirection = own.limitDirection := by
    intro proof hproof
    obtain ⟨fill, h⟩ := hproofs proof hproof
    exact h.direction
  refine ⟨hdirection, ?_, ?_, ?_⟩
  · intro fill hfill
    obtain ⟨proof, h⟩ := hfills fill hfill
    exact h.public_price
  · rintro ⟨hstatements, -⟩ proof hproof
    rw [← hstatements proof hproof]
    exact ⟨rfl, rfl⟩
  · intro hcarries
    refine ⟨fun proof hproof => ?_, fun proof hproof price hprice => ?_⟩
    · obtain ⟨hcommitment, hcontext⟩ := hcarries proof hproof
      unfold CollaborativeFillProof.priceLimitStatement
      rw [hcommitment, hdirection proof hproof, hcontext]
    · obtain ⟨fill, h⟩ := hproofs proof hproof
      obtain ⟨context, package, hverified⟩ := h.verified
      have hlimit := ProofVerifier.verifyForSettlement_ok (mapError_eq_ok.mp hverified)
      obtain ⟨p, limit, hp, hlimitOpens, hallows⟩ := hsound.price_limit _ _ _ hlimit
      obtain rfl := hsound.binding _ _ _ hprice hp
      have hcommitment : proof.priceLimitStatement.limitCommitment = committedPrice :=
        (hcarries proof hproof).1
      rw [hcommitment] at hlimitOpens
      obtain rfl := hsound.binding _ _ _ hlimitOpens hopens
      have hown : proof.priceLimitStatement.limitDirection = record.kind.limitDirection :=
        hdirection proof hproof
      rw [hown] at hallows
      exact ReservationRecord.respectsLimit_iff.mpr hallows

end SettlementEngine

section Sample

attribute [local instance] transparentCrypto

/-- A verifier over commitments that are the numbers they open to. Delivery and payment are
checked as the threshold proofs check them: the cash is the price of the amount, and no reserve
goes below zero. -/
def transparentVerifier : ProofVerifier where
  assetId := fun _ => 8
  pinnedKey := [7]
  pinnedCommittee := [6]
  verifyAssetLink := fun asset commitment _ => decide (asset = commitment)
  verifyVenue := fun instruction now => require (now ≤ instruction.deadline) "instruction expired"
  thresholdPriceLimit := fun price statement _ =>
    require (statement.limitDirection.Allows statement.limitCommitment.val price.val)
      "price is outside the limit"
  buildPackage := fun instruction securities cash cashCommitment _ => do
    require (instruction.amountCommitment * instruction.priceCommitment = cashCommitment ∧
      instruction.amountCommitment ≤ securities ∧ cashCommitment ≤ cash) "DvP proof is invalid"
    return ⟨instruction.nonce, securities - instruction.amountCommitment, cash - cashCommitment⟩
  verifyThresholdRange := fun _ _ => true
  validateEnvelope := fun _ => .ok ()
  openingContext := fun jobId leg => .ok (sha256 (jobId.bytes ++ asBytes leg))

theorem transparentVerifier_sound : transparentVerifier.Sound fun c value => c.val = value where
  binding := fun _ _ _ ha hb => ha.symm.trans hb
  price_limit := fun _ _ _ h => ⟨_, _, rfl, rfl, require_eq_ok.mp h⟩

/-- The two covered orders, with reserves committed as the amounts they are. -/
def provedEngine : SettlementEngine :=
  { coveredEngine with
    reservations := ReservationCall.run
      ([coveredSell, coveredBuy].flatMap fun order =>
        [.bindParticipant order.participantHandle order.dekyxNullifier 1000 1000,
          .reserve order (Fin.ofNat _ order.reservationLimit)]) .default }

/-- The limit of the buy: at most 101. -/
def buyLimit : PriceLimitStatement :=
  signedTakerLimit 101 .cash coveredBuy.commitment 12 1

/-- A proof that 3 change hands at `price`, against a limit of the caller's choice. -/
def fillProofAt (price limitCommitment : Digest32) : CollaborativeFillProof :=
  let envelope (leg : String) (recipient : Digest32) : OpeningEnvelope :=
    ⟨sha256 ((1 : Digest32).bytes ++ asBytes leg), recipient, []⟩
  { fillProof 0 coveredSell with
    limitCommitment
    limitContext := buyLimit.limitContext
    instruction := { (fillProof 0 coveredSell).instruction with priceCommitment := price }
    cashCommitment := 3 * price
    securitiesRemainder := 0
    cashRemainder := 505 - 3 * price
    makerPoolRemainder := 0
    openings :=
      { securitiesDelivery := envelope "securities_delivery" coveredBuy.participantHandle
        securitiesRefund := envelope "securities_refund" coveredSell.participantHandle
        cashDelivery := envelope "cash_delivery" coveredSell.participantHandle
        cashRefund := envelope "cash_refund" coveredBuy.participantHandle } }

/-- The call that settles the buy's fill with this proof. -/
def settleFillAt (proof : CollaborativeFillProof) : EStateM SettlementError SettlementEngine Unit :=
  SettlementEngine.settleBatchCollaborative (transparentVerifier.backend acceptingBackend)
    [coveredFill 100 3] [proof] 5 coveredBuy.commitment 2 1000

/-- The record of the buy before the batch. -/
def buyRecord : ReservationRecord :=
  ReservationBook.newRecord (settlementView coveredBuy) 505

theorem price_limit_bound_iff_sample :
    succeeds ((settleFillAt (fillProofAt 100 101)).run provedEngine) = true ∧
      (fillProofAt 100 101).priceLimitStatement = buyLimit ∧
      buyRecord.respectsLimit 100 = true := by
  have hsucceeds : succeeds ((settleFillAt (fillProofAt 100 101)).run provedEngine) = true := by
    decide +kernel
  have hrecord : provedEngine.reservations.recordFor coveredBuy.commitment = some buyRecord := by
    decide +kernel
  obtain ⟨-, -, hiff⟩ := SettlementEngine.price_limit_bound_iff 12 transparentVerifier_sound
    hrecord (show (101 : Digest32).val = 101 from rfl) (eq_ok_after hsucceeds)
  obtain ⟨hstatement, hprice⟩ := hiff.mpr fun proof hproof => by
    rw [List.mem_singleton.mp hproof]
    exact ⟨rfl, rfl⟩
  exact ⟨hsucceeds, hstatement _ (List.mem_singleton.mpr rfl),
    hprice _ (List.mem_singleton.mpr rfl) 100 rfl⟩

/-- **A proof about another limit.** The buy's limit is 101. A proof that carries a commitment to
500 as its limit is accepted, at a price of 150. -/
theorem foreign_limit_accepted :
    let proof := fillProofAt 150 500
    transparentVerifier.Sound (fun c value => c.val = value) ∧
      provedEngine.reservations.recordFor coveredBuy.commitment = some buyRecord ∧
      succeeds ((settleFillAt proof).run provedEngine) = true ∧
      proof.priceLimitStatement ≠ buyLimit ∧
      proof.instruction.priceCommitment.val = 150 ∧ buyRecord.respectsLimit 150 = false := by
  exact ⟨transparentVerifier_sound, by decide +kernel, by decide +kernel, by decide +kernel, rfl,
    rfl⟩

end Sample

end Oclob.Settlement
