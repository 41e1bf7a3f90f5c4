import Mathlib.Data.Finset.Card
import Oclob.Settlement.Consumption

/-!
# The settlement engine

Model of `SettlementEngine` in `oclob-settlement/src/lib.rs`: `bind_eligible_participant`,
`reserve_order`, `release_order`, `release_orders_atomic` and `settle_batch`.

The payment instructions, range proofs, the DeFMI ledgers and canonical finality belong to other
packages. What they answer during one call is a `Backend`, on which nothing is assumed: every
result below holds whatever it answers. Balances keep their value and whether their opening is
known; commitments and receipts, which nothing below reads, are left out.

`settleBatch_ok` is what a successful `settle_batch` says about its fills and does to the
reservations.
-/

namespace Oclob.Settlement

open Oclob.Core Oclob.Lib ReservationBook

/-- `ConfidentialBalance`. -/
structure ConfidentialBalance where
  value : Nat
  opened : Bool
deriving DecidableEq

/-- `ParticipantBalances`. -/
structure ParticipantBalances where
  securities : ConfidentialBalance
  cash : ConfidentialBalance
deriving DecidableEq

abbrev Participants := OrdMap Digest32 ParticipantBalances

/-- `SettlementEngine`. -/
structure SettlementEngine where
  participants : Participants
  reservations : ReservationBook
  spentInstructions : Finset Digest32
  height : Nat

/-- The instruction built for one fill: its nullifier and the balances it leaves the payers. -/
structure FillPackage where
  nullifier : Digest32
  securitiesBalance : Nat
  cashBalance : Nat

/-- What the packages outside the repository answer during one call. -/
structure Backend where
  /-- The random commitment `reserve_order` makes. -/
  reserveCommitment : Digest32
  /-- `verify_settlement_binding`. -/
  verifyBinding : String → Digest32 → List PublicFill → Except SettlementError Unit
  /-- The range proofs and the signature of a fill's instruction. -/
  prove : Nat → PublicFill → Except SettlementError Unit
  /-- `build_package` for a fill, given the seller and the buyer. -/
  buildPackage : Nat → PublicFill → ParticipantBalances → ParticipantBalances →
    Except SettlementError FillPackage
  /-- The status of `Defmi::settle`. -/
  settle : Nat → PublicFill → Except SettlementError Unit
  /-- Whether the settled ledgers are those of the updated participants. -/
  agrees : Nat → Participants → Bool
  /-- `Ledger::conserved` on both rails. -/
  conserved : Participants → Bool
  /-- `CanonicalReadback::new`, the manifest digest and `accept_canonical_transition`. -/
  finality : Except SettlementError Unit

/-- `RANGE_BITS`. -/
def rangeBits : Nat := 32

/-- `checked_credit`. -/
def checkedCredit (balance amount : Nat) : Except SettlementError Nat := do
  let credited ← okOr (checkedAdd balance amount) (.reservation "credited balance overflowed")
  require (credited < 2 ^ rangeBits)
    (.reservation "credited balance exceeds the DeFMI range-proof domain")
  return credited

/-- The staged copies of `settle_batch`. -/
structure StagedBatch where
  reservations : ReservationBook
  participants : Participants
  spent : Finset Digest32

/-- The test of `settle_batch` that fills and remainder add up to the order. -/
def conservesQuantity (fills : List PublicFill) (arrivingRemaining quantity : Nat) : Prop :=
  ∃ filled ∈ checkedSum (fills.map PublicFill.quantity),
    checkedAdd filled arrivingRemaining = some quantity

instance (fills : List PublicFill) (arrivingRemaining quantity : Nat) :
    Decidable (conservesQuantity fills arrivingRemaining quantity) :=
  inferInstanceAs (Decidable (∃ filled ∈ checkedSum _, _))

/-- One turn of the loop of `settle_batch`. -/
def settleFill (backend : Backend) (marketId : String) (now index : Nat) (fill : PublicFill)
    (staged : StagedBatch) : Except SettlementError StagedBatch := do
  let (consumed, reservations) ←
    stage (consumeFill fill marketId now) staged.reservations
  require (consumed.sellerHandle ≠ consumed.buyerHandle)
    (.reservation "self-trading orders cannot produce a DvP between one account")
  let seller ← okOr (staged.participants.get? consumed.sellerHandle)
    (.reservation "seller account is absent")
  let buyer ← okOr (staged.participants.get? consumed.buyerHandle)
    (.reservation "buyer account is absent")
  backend.prove index fill
  let noSecurities := "legacy settlement cannot reopen an MPC-updated securities account"
  let noCash := "legacy settlement cannot reopen an MPC-updated cash account"
  require (seller.securities.opened = true) (.proof noSecurities)
  require (seller.cash.opened = true) (.proof noCash)
  require (buyer.cash.opened = true) (.proof noCash)
  require (buyer.securities.opened = true) (.proof noSecurities)
  let package ← backend.buildPackage index fill seller buyer
  require (package.nullifier ∉ staged.spent) .replayAccepted
  backend.settle index fill
  let cashValue ← okOr (checkedMul fill.price fill.quantity) (.reservation "cash fill overflowed")
  let sellerCash ← checkedCredit seller.cash.value cashValue
  let buyerSecurities ← checkedCredit buyer.securities.value fill.quantity
  let participants := (staged.participants.insert consumed.sellerHandle
      ⟨⟨package.securitiesBalance, true⟩, ⟨sellerCash, true⟩⟩).insert consumed.buyerHandle
      ⟨⟨buyerSecurities, true⟩, ⟨package.cashBalance, true⟩⟩
  require (backend.agrees index participants = true) .canonicalDivergence
  return ⟨reservations, participants, insert package.nullifier staged.spent⟩

/-- The loop of `settle_batch`. -/
def settleFills (backend : Backend) (marketId : String) (now : Nat) :
    Nat → List PublicFill → StagedBatch → Except SettlementError StagedBatch
  | _, [], staged => .ok staged
  | index, fill :: fills, staged => do
    let staged ← settleFill backend marketId now index fill staged
    settleFills backend marketId now (index + 1) fills staged

/-- The `refresh_capacity` calls after the loop. -/
def refreshCapacities : List (Digest32 × ParticipantBalances) →
    EStateM SettlementError ReservationBook Unit
  | [] => pure ()
  | (participant, balances) :: rest => do
    refreshCapacity participant balances.cash.value balances.securities.value
    refreshCapacities rest

namespace SettlementEngine

/-- `SettlementEngine::new`: the two demo participants, whose handles come from fixed seeds. -/
def new (first second : Digest32) : SettlementEngine where
  participants := ((OrdMap.empty : Participants).insert first
    ⟨⟨10000, true⟩, ⟨100000000, true⟩⟩).insert second ⟨⟨10000, true⟩, ⟨100000000, true⟩⟩
  reservations := .default
  spentInstructions := ∅
  height := 0

/-- `SettlementEngine::bind_eligible_participant`. -/
def bindEligibleParticipant (participantHandle entityNullifier : Digest32) :
    EStateM SettlementError SettlementEngine Unit := do
  let self ← get
  let balances ← attempt (okOr (self.participants.get? participantHandle)
    (.reservation "participant account is absent"))
  let (_, reservations) ← attempt (stage (bindParticipant participantHandle
    entityNullifier balances.cash.value balances.securities.value) self.reservations)
  set { self with reservations }

/-- `reserve_order`, `release_order` and `release_orders_atomic`: a change of the reservations on a
copy, kept with the next height. -/
def commitReservations (change : EStateM SettlementError ReservationBook Unit) :
    EStateM SettlementError SettlementEngine Unit := do
  let self ← get
  let (_, reservations) ← attempt (stage change self.reservations)
  let height ← attempt (okOr (checkedAdd self.height 1) (.reservation "DeFMI height exhausted"))
  set { self with reservations, height }

/-- `SettlementEngine::reserve_order`. -/
def reserveOrder (backend : Backend) (order : SettlementOrderView) :
    EStateM SettlementError SettlementEngine Unit :=
  commitReservations (reserve order backend.reserveCommitment)

/-- `SettlementEngine::release_order`. -/
def releaseOrder (commitment : Digest32) : EStateM SettlementError SettlementEngine Unit :=
  commitReservations (ReservationBook.releaseOrder commitment)

/-- The release of each order in turn. -/
def releaseAll : List Digest32 → EStateM SettlementError ReservationBook Unit
  | [] => pure ()
  | commitment :: rest => do
    ReservationBook.releaseOrder commitment
    releaseAll rest

/-- `SettlementEngine::release_orders_atomic`. -/
def releaseOrdersAtomic (commitments : List Digest32) :
    EStateM SettlementError SettlementEngine Unit := do
  ensure (commitments ≠ []) (.reservation "reservation release batch cannot be empty")
  commitReservations (releaseAll commitments)

/-- The checks of `settle_batch` on its arguments, before anything is staged. -/
def checkBatch (backend : Backend) (fills : List PublicFill) (arriving : SettlementOrderView)
    (arrivingRemaining now : Nat) : Except SettlementError Unit := do
  require (fills ≠ [] ∧ ∀ fill ∈ fills, fill.quantity ≠ 0 ∧ fill.price ≠ 0) .invalidFill
  require (∀ fill ∈ fills, fill.takerOrder = arriving.commitment)
    (.reservation "atomic batch contains a fill from another arriving order")
  require (now ≤ arriving.expiresAt)
    (.reservation "an expired arriving order cannot settle")
  let _ ← okOr (checkedSum (fills.map PublicFill.quantity))
    (.reservation "fill quantity overflowed")
  require (conservesQuantity fills arrivingRemaining arriving.quantity)
    (.reservation "fills and arriving remainder do not conserve order quantity")
  require (fills.map PublicFill.makerOrder).Nodup
    (.reservation "one resting order cannot appear twice in an atomic match batch")
  backend.verifyBinding arriving.marketId arriving.commitment fills

/-- The end of `settle_batch` and `settle_batch_collaborative` for `n` fills. The height is written
before finality is known. -/
def finish (self : SettlementEngine) (n : Nat) (conserved : Participants → Bool)
    (finality : Except SettlementError Unit) (staged : StagedBatch)
    (reservations : ReservationBook) : EStateM SettlementError SettlementEngine Unit := do
  ensure (conserved staged.participants = true) .insolvent
  ensure (staged.spent.card = self.spentInstructions.card + n) .replayAccepted
  let height ← attempt (okOr (checkedAdd self.height 1) (.reservation "DeFMI height exhausted"))
  modify fun engine => { engine with height }
  attempt finality
  modify fun engine => { engine with
    reservations
    participants := staged.participants
    spentInstructions := staged.spent }

/-- `SettlementEngine::settle_batch`. -/
def settleBatch (backend : Backend) (fills : List PublicFill) (arriving : SettlementOrderView)
    (arrivingRemaining now : Nat) : EStateM SettlementError SettlementEngine Unit := do
  attempt (checkBatch backend fills arriving arrivingRemaining now)
  let self ← get
  let staged ← attempt (settleFills backend arriving.marketId now 0 fills
    ⟨self.reservations, self.participants, self.spentInstructions⟩)
  let (_, reconciled) ← attempt (stage (reconcileArriving arriving
    arrivingRemaining) staged.reservations)
  let (_, reservations) ← attempt (stage (refreshCapacities staged.participants.entries)
    reconciled)
  finish self fills.length backend.conserved backend.finality staged reservations

end SettlementEngine

/-! ## What the calls do to the reservations -/

section

variable {backend : Backend} {marketId : String} {now index : Nat} {fill : PublicFill}
  {fills : List PublicFill} {staged staged' : StagedBatch}

theorem settleFill_ok (h : settleFill backend marketId now index fill staged = .ok staged') :
    ∃ consumed, (consumeFill fill marketId now).run staged.reservations =
      .ok consumed staged'.reservations := by
  unfold settleFill at h
  simp only [ok_rules] at h
  obtain ⟨⟨consumed, reservations⟩, hconsume, -, -, seller, -, buyer, -, -, -, -, -, -, -, -, -, -,
    -, package, -, -, -, -, -, cash, -, sellerCash, -, buyerSecurities, -, -, -, rfl⟩ := h
  exact ⟨consumed, stage_eq_ok.mp hconsume⟩

/-- The loop consumes the fills one after the other. -/
theorem settleFills_ok (h : settleFills backend marketId now index fills staged = .ok staged') :
    (consumeFills marketId now fills).run staged.reservations =
      .ok () staged'.reservations := by
  induction fills generalizing index staged with
  | nil =>
    obtain rfl := Except.ok.inj h
    rfl
  | cons fill fills ih =>
    obtain ⟨mid, hfill, hrest⟩ := except_bind_eq_ok.mp h
    obtain ⟨consumed, hconsume⟩ := settleFill_ok hfill
    exact run_bind_eq_ok.mpr ⟨consumed, mid.reservations, hconsume, ih hrest⟩

theorem refreshCapacity_recordFor {book book' : ReservationBook} {participant : Digest32}
    {cash securities : Nat} {u : Unit}
    (h : (refreshCapacity participant cash securities).run book = .ok u book') :
    book'.recordFor = book.recordFor := by
  unfold refreshCapacity at h
  simp only [run_rules, okOr_eq_ok] at h
  obtain ⟨s₁, s₂, ⟨rfl, rfl⟩, entity, s₃, ⟨-, rfl⟩, rfl⟩ := h
  rfl

theorem refreshCapacities_recordFor {entries : List (Digest32 × ParticipantBalances)}
    {book book' : ReservationBook} {u : Unit}
    (h : (refreshCapacities entries).run book = .ok u book') :
    book'.recordFor = book.recordFor := by
  induction entries generalizing book with
  | nil =>
    obtain ⟨-, rfl⟩ := run_pure_eq_ok.mp h
    rfl
  | cons entry rest ih =>
    obtain ⟨⟨⟩, mid, hone, hrest⟩ := run_bind_eq_ok.mp h
    rw [ih hrest, refreshCapacity_recordFor hone]

end

namespace SettlementEngine

variable {backend : Backend} {fills : List PublicFill} {arriving : SettlementOrderView}
  {arrivingRemaining now : Nat} {self engine : SettlementEngine} {u : Unit}

/-- What `settle_batch` has checked of its arguments. -/
structure BatchChecked (fills : List PublicFill) (arriving : SettlementOrderView)
    (arrivingRemaining now : Nat) : Prop where
  nonempty : fills ≠ []
  positive : ∀ fill ∈ fills, fill.quantity ≠ 0 ∧ fill.price ≠ 0
  taker : ∀ fill ∈ fills, fill.takerOrder = arriving.commitment
  unexpired : now ≤ arriving.expiresAt
  conserves : conservesQuantity fills arrivingRemaining arriving.quantity
  makers : (fills.map PublicFill.makerOrder).Nodup

theorem checkBatch_ok
    (h : checkBatch backend fills arriving arrivingRemaining now = .ok u) :
    BatchChecked fills arriving arrivingRemaining now := by
  unfold checkBatch at h
  simp only [ok_rules] at h
  obtain ⟨-, ⟨hne, hpos⟩, -, htaker, -, hexp, filled, -, -, hcons, -, hmakers, -⟩ := h
  exact ⟨hne, hpos, htaker, hexp, hcons, hmakers⟩

/-- A batch that fails only the quantity test is refused, whatever the back end answers. -/
theorem settleBatch_refuses (hpos : fills ≠ [] ∧ ∀ fill ∈ fills, fill.quantity ≠ 0 ∧ fill.price ≠ 0)
    (htaker : ∀ fill ∈ fills, fill.takerOrder = arriving.commitment)
    (hexp : now ≤ arriving.expiresAt) {filled : Nat}
    (hsum : checkedSum (fills.map PublicFill.quantity) = some filled)
    (h : ¬ conservesQuantity fills arrivingRemaining arriving.quantity) (backend : Backend)
    (self : SettlementEngine) :
    (settleBatch backend fills arriving arrivingRemaining now).run self = .error (.reservation
      "fills and arriving remainder do not conserve order quantity") self := by
  have hcheck : checkBatch backend fills arriving arrivingRemaining now = .error (.reservation
      "fills and arriving remainder do not conserve order quantity") := by
    unfold checkBatch
    rw [require, if_pos hpos, require, if_pos htaker, require, if_pos hexp, hsum, require,
      if_neg h]
    rfl
  exact run_bind_eq_error.mpr (Or.inl (run_attempt_eq_error.mpr ⟨hcheck, rfl⟩))

/-- What a successful `settle_batch` has computed on its way. -/
theorem finish_ok {n : Nat} {conserved : Participants → Bool}
    {finality : Except SettlementError Unit} {staged : StagedBatch}
    {reservations : ReservationBook}
    (h : (finish self n conserved finality staged reservations).run self = .ok u engine) :
    engine.reservations = reservations ∧ engine.participants = staged.participants := by
  simp only [finish, run_rules] at h
  obtain ⟨-, s₁, ⟨-, rfl⟩, -, s₂, ⟨-, rfl⟩, height, s₃, ⟨-, rfl⟩, -, s₄, rfl, -, s₅, ⟨-, rfl⟩,
    rfl⟩ := h
  exact ⟨rfl, rfl⟩

theorem settleBatch_run
    (h : (settleBatch backend fills arriving arrivingRemaining now).run self = .ok u engine) :
    BatchChecked fills arriving arrivingRemaining now ∧ ∃ staged reconciled required,
      settleFills backend arriving.marketId now 0 fills
        ⟨self.reservations, self.participants, self.spentInstructions⟩ = .ok staged ∧
      (reconcileArriving arriving arrivingRemaining).run staged.reservations =
        .ok required reconciled ∧
      (refreshCapacities staged.participants.entries).run reconciled = .ok () engine.reservations ∧
      engine.participants = staged.participants := by
  simp only [settleBatch, run_rules] at h
  obtain ⟨⟨⟩, s₁, ⟨hcheck, rfl⟩, s₂, s₃, ⟨rfl, rfl⟩, staged, s₄, ⟨hfills, rfl⟩,
    ⟨required, reconciled⟩, s₅, ⟨hreconcile, rfl⟩, ⟨⟨⟩, reservations⟩, s₆, ⟨hrefresh, rfl⟩,
    hfinish⟩ := h
  obtain ⟨rfl, hparticipants⟩ := finish_ok hfinish
  exact ⟨checkBatch_ok hcheck, staged, reconciled, required, hfills, stage_eq_ok.mp hreconcile,
    stage_eq_ok.mp hrefresh, hparticipants⟩

/-- **A successful `settle_batch`** has consumed the fills and reconciled the arriving order; the
other engine fields do not matter to the records. -/
theorem settleBatch_ok
    (h : (settleBatch backend fills arriving arrivingRemaining now).run self = .ok u engine) :
    BatchChecked fills arriving arrivingRemaining now ∧ ∃ consumed reconciled required,
      (consumeFills arriving.marketId now fills).run self.reservations =
        .ok () consumed ∧
      (reconcileArriving arriving arrivingRemaining).run consumed =
        .ok required reconciled ∧
      engine.reservations.recordFor = reconciled.recordFor := by
  obtain ⟨hcheck, staged, reconciled, required, hfills, hreconcile, hrefresh, -⟩ :=
    settleBatch_run h
  exact ⟨hcheck, staged.reservations, reconciled, required, settleFills_ok hfills, hreconcile,
    refreshCapacities_recordFor hrefresh⟩

theorem commitReservations_ok {change : EStateM SettlementError ReservationBook Unit}
    (h : (commitReservations change).run self = .ok u engine) :
    change.run self.reservations = .ok () engine.reservations ∧
      engine.participants = self.participants := by
  unfold commitReservations at h
  simp only [run_rules, okOr_eq_ok] at h
  obtain ⟨s₁, s₂, ⟨rfl, rfl⟩, ⟨⟨⟩, reservations⟩, s₃, ⟨hchange, rfl⟩, height, s₄, ⟨-, rfl⟩,
    rfl⟩ := h
  exact ⟨stage_eq_ok.mp hchange, rfl⟩

theorem bindEligibleParticipant_recordFor {participant entity : Digest32}
    (h : (bindEligibleParticipant participant entity).run self = .ok u engine) :
    engine.reservations.recordFor = self.reservations.recordFor := by
  unfold bindEligibleParticipant at h
  simp only [run_rules, okOr_eq_ok] at h
  obtain ⟨s₁, s₂, ⟨rfl, rfl⟩, balances, s₃, ⟨-, rfl⟩, ⟨⟨⟩, reservations⟩, s₄, ⟨hbind, rfl⟩,
    rfl⟩ := h
  exact bindParticipant_recordFor (stage_eq_ok.mp hbind)

end SettlementEngine

end Oclob.Settlement
