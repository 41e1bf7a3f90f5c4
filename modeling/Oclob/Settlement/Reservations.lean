import Mathlib.Data.Prod.Lex
import Oclob.Core.Book

/-!
# Reservations

Model of `ReservationBook` in `oclob-settlement/src/lib.rs`: the reserve each admitted order
holds, what a fill takes from it and what is left when the order is reconciled or released.

A record is stored under its reservation id and found by its order commitment. The book carries
that both are unambiguous (`keyed`, `distinct`), so `record_id_for` followed by a lookup is one
function, `recordFor`, and the source's `expect` calls on that lookup have nothing to check.
Updates in place write the mutable fields back (`writeBack`); they cannot change what identifies
a record. Group elements are their 32-byte encodings, of which the identity is zero.
-/

namespace Oclob.Settlement

open Oclob.Core Oclob.Lib OrdMap

/-- `SettlementError`. -/
inductive SettlementError where
  | invalidFill
  | cryptography (reason : String)
  | proof (reason : String)
  | replayAccepted
  | insolvent
  | canonicalDivergence
  | finality (reason : String)
  | reservation (reason : String)
deriving DecidableEq, Repr

inductive ReservationKind where
  | cash
  | securities
deriving DecidableEq, Repr

inductive ReservationStatus where
  | active
  | consumed
  | released
deriving DecidableEq, Repr

/-- The rail an order of this side pays with. -/
def kindOf : Side → ReservationKind
  | .buy => .cash
  | .sell => .securities

/-- `reservation_kind_tag`. -/
def ReservationKind.tag : ReservationKind → Nat
  | .cash => 1
  | .securities => 2

/-- What settlement reads of an order: the trait `SettlementOrderView`. -/
structure SettlementOrderView where
  marketId : String
  side : Side
  limitPrice : Nat
  quantity : Nat
  timeInForce : TimeInForce
  expiresAt : Nat
  participantHandle : Digest32
  dekyxNullifier : Digest32
  reservationId : Digest32
  reservationLimit : Nat
  maxFee : Nat
  commitment : Digest32

/-- `impl SettlementOrderView for SecretOrder`. -/
def settlementView [Crypto] (order : SecretOrder) : SettlementOrderView where
  marketId := order.marketId
  side := order.side
  limitPrice := order.limitPrice
  quantity := order.quantity
  timeInForce := order.timeInForce
  expiresAt := order.expiresAt
  participantHandle := order.participantHandle
  dekyxNullifier := order.dekyxNullifier
  reservationId := order.reservationId
  reservationLimit := order.reservationLimit
  maxFee := order.maxFee
  commitment := order.commitment

/-- `ReservationRecord`. -/
structure ReservationRecord where
  reservationId : Digest32
  orderCommitment : Digest32
  participantHandle : Digest32
  entityNullifier : Digest32
  marketId : String
  kind : ReservationKind
  limitPrice : Nat
  timeInForce : TimeInForce
  originalQuantity : Nat
  remainingQuantity : Nat
  maxFee : Nat
  expiresAt : Nat
  reserved : Nat
  remaining : Nat
  reserveCommitment : Digest32
  status : ReservationStatus
deriving DecidableEq

/-- `ReservationBook`, with one record for each order commitment, stored under its own id. -/
structure ReservationBook where
  capacities : OrdMap (Digest32 ×ₗ Nat) Nat
  participantEntities : OrdMap Digest32 Digest32
  entityParticipants : OrdMap Digest32 Digest32
  records : OrdMap Digest32 ReservationRecord
  keyed : ∀ id r, records.get? id = some r → r.reservationId = id
  distinct : ∀ id id' r r', records.get? id = some r → records.get? id' = some r' →
    r.orderCommitment = r'.orderCommitment → id = id'

namespace ReservationBook

/-- `ReservationBook::default`. -/
def default : ReservationBook where
  capacities := .empty
  participantEntities := .empty
  entityParticipants := .empty
  records := .empty
  keyed := fun _ _ h => absurd h (by simp)
  distinct := fun _ _ _ _ h => absurd h (by simp)

/-- `record_id_for`, and the record under that id. -/
def recordFor (self : ReservationBook) (commitment : Digest32) : Option ReservationRecord :=
  self.records.values.find? fun record => record.orderCommitment = commitment

theorem recordFor_eq_some {self : ReservationBook} {c : Digest32} {r : ReservationRecord} :
    self.recordFor c = some r ↔
      self.records.get? r.reservationId = some r ∧ r.orderCommitment = c := by
  constructor
  · intro h
    obtain ⟨id, hid⟩ := mem_values.mp (List.mem_of_find?_eq_some h)
    refine ⟨?_, by simpa using List.find?_some h⟩
    rw [self.keyed id r hid]
    exact hid
  · rintro ⟨hr, rfl⟩
    cases hfind : self.recordFor r.orderCommitment with
    | none =>
      have hall := List.find?_eq_none.mp hfind r (mem_values.mpr ⟨_, hr⟩)
      exact absurd (decide_eq_true rfl) hall
    | some r' =>
      obtain ⟨id, hid⟩ := mem_values.mp (List.mem_of_find?_eq_some hfind)
      have hc : r'.orderCommitment = r.orderCommitment := by simpa using List.find?_some hfind
      have hsame := self.distinct _ _ _ _ hid hr hc
      rw [hsame, hr] at hid
      exact hid.symm

theorem recordFor_eq_none {self : ReservationBook} {c : Digest32} :
    self.recordFor c = none ↔ ∀ id r, self.records.get? id = some r → r.orderCommitment ≠ c := by
  unfold recordFor
  rw [List.find?_eq_none]
  constructor
  · intro h id r hr
    simpa using h r (mem_values.mpr ⟨id, hr⟩)
  · intro h r hr
    obtain ⟨id, hid⟩ := mem_values.mp hr
    simpa using h id r hid

/-! ## Writing records -/

/-- A new record, under a fresh id and for a fresh commitment. -/
def insertRecord (self : ReservationBook) (record : ReservationRecord)
    (hfresh : self.recordFor record.orderCommitment = none) : ReservationBook :=
  { self with
    records := self.records.insert record.reservationId record
    keyed := by
      intro id r hr
      rw [get?_insert] at hr
      split at hr
      · rename_i hid
        rw [← Option.some.inj hr, hid]
      · exact self.keyed id r hr
    distinct := by
      intro id id' r r' hr hr' hc
      rw [get?_insert] at hr hr'
      have hnone := recordFor_eq_none.mp hfresh
      split at hr <;> split at hr'
      · rename_i h h'
        rw [h, h']
      · rw [← Option.some.inj hr] at hc
        exact absurd hc.symm (hnone _ _ hr')
      · rw [← Option.some.inj hr'] at hc
        exact absurd hc (hnone _ _ hr)
      · exact self.distinct id id' r r' hr hr' hc }

/-- The mutable fields of `record`, written into the record stored under its id. -/
def writeBack (self : ReservationBook) (record : ReservationRecord) : ReservationBook :=
  let write (stored : ReservationRecord) : ReservationRecord :=
    { stored with
      remainingQuantity := record.remainingQuantity
      remaining := record.remaining
      reserveCommitment := record.reserveCommitment
      status := record.status }
  { self with
    records := self.records.alter record.reservationId (Option.map write)
    keyed := by
      intro id r hr
      rw [get?_alter] at hr
      split at hr
      · rename_i hid
        obtain ⟨stored, hstored, rfl⟩ := Option.map_eq_some_iff.mp hr
        rw [hid]
        exact self.keyed _ stored hstored
      · exact self.keyed id r hr
    distinct := by
      have hback : ∀ id r, (self.records.alter record.reservationId (Option.map write)).get? id =
          some r → ∃ stored, self.records.get? id = some stored ∧
            stored.orderCommitment = r.orderCommitment := by
        intro id r hr
        rw [get?_alter] at hr
        split at hr
        · rename_i hid
          obtain ⟨stored, hstored, rfl⟩ := Option.map_eq_some_iff.mp hr
          exact ⟨stored, hid ▸ hstored, rfl⟩
        · exact ⟨r, hr, rfl⟩
      intro id id' r r' hr hr' hc
      obtain ⟨stored, hs, hsc⟩ := hback id r hr
      obtain ⟨stored', hs', hsc'⟩ := hback id' r' hr'
      exact self.distinct id id' stored stored' hs hs' (hsc.trans (hc.trans hsc'.symm)) }

variable {record stored : ReservationRecord}

theorem recordFor_insertRecord {self : ReservationBook}
    (hfresh : self.recordFor record.orderCommitment = none)
    (hid : self.records.get? record.reservationId = none) (c : Digest32) :
    (self.insertRecord record hfresh).recordFor c =
      if c = record.orderCommitment then some record else self.recordFor c := by
  refine Option.ext fun r => ?_
  rw [recordFor_eq_some]
  simp only [insertRecord, get?_insert]
  by_cases hc : c = record.orderCommitment
  · rw [if_pos hc]
    constructor
    · rintro ⟨hr, hrc⟩
      split at hr
      · exact hr
      · exact absurd (hrc.trans hc) (recordFor_eq_none.mp hfresh _ _ hr)
    · intro hr
      obtain rfl := Option.some.inj hr
      exact ⟨if_pos rfl, hc.symm⟩
  · rw [if_neg hc, recordFor_eq_some]
    constructor
    · rintro ⟨hr, hrc⟩
      split at hr
      · rw [← Option.some.inj hr] at hrc
        exact absurd hrc.symm hc
      · exact ⟨hr, hrc⟩
    · rintro ⟨hr, hrc⟩
      have hne : r.reservationId ≠ record.reservationId := fun heq => by
        rw [heq, hid] at hr
        exact absurd hr (by simp)
      exact ⟨(if_neg hne).trans hr, hrc⟩

/-- `record` is `stored` after changes to its mutable fields. -/
def Updates (record stored : ReservationRecord) : Prop :=
  record = { stored with
    remainingQuantity := record.remainingQuantity
    remaining := record.remaining
    reserveCommitment := record.reserveCommitment
    status := record.status }

theorem get?_writeBack {self : ReservationBook}
    (hstored : self.records.get? record.reservationId = some stored)
    (hupd : Updates record stored) (id : Digest32) :
    (self.writeBack record).records.get? id =
      if id = record.reservationId then some record else self.records.get? id := by
  simp only [writeBack, get?_alter]
  by_cases hid : id = record.reservationId
  · rw [if_pos hid, if_pos hid, hstored, Option.map_some, ← hupd]
  · rw [if_neg hid, if_neg hid]

theorem total_writeBack {self : ReservationBook}
    (weight : ReservationRecord → Nat)
    (hstored : self.records.get? record.reservationId = some stored)
    (hupd : Updates record stored) :
    (self.writeBack record).records.total weight + weight stored =
      self.records.total weight + weight record := by
  have h := total_alter weight self.records record.reservationId (Option.map fun stored =>
    { stored with
      remainingQuantity := record.remainingQuantity
      remaining := record.remaining
      reserveCommitment := record.reserveCommitment
      status := record.status })
  rw [hstored, Option.map_some, Option.map_some, Option.map_some, ← hupd] at h
  exact h

theorem recordFor_writeBack {self : ReservationBook}
    {commitment : Digest32} (hstored : self.recordFor commitment = some stored)
    (hupd : Updates record stored) (c : Digest32) :
    (self.writeBack record).recordFor c =
      if c = commitment then some record else self.recordFor c := by
  obtain ⟨hget, hcommit⟩ := recordFor_eq_some.mp hstored
  have hid : record.reservationId = stored.reservationId := by rw [hupd]
  have hoc : record.orderCommitment = commitment := by rw [hupd]; exact hcommit
  refine Option.ext fun r => ?_
  rw [recordFor_eq_some]
  simp only [writeBack, get?_alter]
  by_cases hr : r.reservationId = record.reservationId
  · rw [if_pos hr, hid, hget, Option.map_some, ← hupd]
    by_cases hc : c = commitment
    · rw [if_pos hc]
      refine ⟨fun h => h.1, fun h => ⟨h, ?_⟩⟩
      rw [← Option.some.inj h, hoc, hc]
    · rw [if_neg hc, recordFor_eq_some, hr, hid, hget]
      constructor
      · rintro ⟨heq, hrc⟩
        rw [← Option.some.inj heq, hoc] at hrc
        exact absurd hrc.symm hc
      · rintro ⟨heq, hrc⟩
        rw [← Option.some.inj heq, hcommit] at hrc
        exact absurd hrc.symm hc
  · rw [if_neg hr]
    by_cases hc : c = commitment
    · rw [if_pos hc]
      constructor
      · rintro ⟨hget', hrc⟩
        have hsame := self.distinct _ _ _ _ hget' hget (by rw [hrc, hc, hcommit])
        exact absurd (hsame.trans hid.symm) hr
      · intro heq
        exact absurd (congrArg ReservationRecord.reservationId (Option.some.inj heq)).symm hr
    · rw [if_neg hc, recordFor_eq_some]

section TwoWrites

variable {self : ReservationBook} {c d : Digest32} {r r' t t' : ReservationRecord}

/-- Two records written one after the other. -/
theorem recordFor_writeBack_two (hr : self.recordFor c = some r) (ht : self.recordFor d = some t)
    (hne : c ≠ d) (hur : Updates r' r) (hut : Updates t' t) (x : Digest32) :
    ((self.writeBack r').writeBack t').recordFor x =
      if x = d then some t' else if x = c then some r' else self.recordFor x := by
  have hfirst := recordFor_writeBack hr hur
  have hsecond := hfirst d
  rw [if_neg hne.symm, ht] at hsecond
  rw [recordFor_writeBack hsecond hut, hfirst]

theorem total_writeBack_two (weight : ReservationRecord → Nat) (hr : self.recordFor c = some r)
    (ht : self.recordFor d = some t) (hne : c ≠ d) (hur : Updates r' r) (hut : Updates t' t) :
    ((self.writeBack r').writeBack t').records.total weight + (weight r + weight t) =
      self.records.total weight + (weight r' + weight t') := by
  have hsecond := recordFor_writeBack hr hur d
  rw [if_neg hne.symm, ht] at hsecond
  have hrid : r'.reservationId = r.reservationId := by rw [hur]
  have htid : t'.reservationId = t.reservationId := by rw [hut]
  have hone := total_writeBack weight (hrid ▸ (recordFor_eq_some.mp hr).1) hur
  have htwo := total_writeBack weight (htid ▸ (recordFor_eq_some.mp hsecond).1) hut
  omega

end TwoWrites

/-! ## The operations -/

/-- `ReservationBook::bind_participant`. -/
def bindParticipant (participant entity : Digest32) (cash securities : Nat) :
    EStateM SettlementError ReservationBook Unit := do
  ensure (participant ≠ 0 ∧ entity ≠ 0)
    (.reservation "participant and DeKYX entity identifiers are required")
  let self ← get
  ensure ((self.participantEntities.get? participant).all (fun existing => existing = entity) ∧
      (self.entityParticipants.get? entity).all fun existing => existing = participant)
    (.reservation "one participant handle and one DeKYX entity must remain one-to-one")
  set { self with
    participantEntities := self.participantEntities.insert participant entity
    entityParticipants := self.entityParticipants.insert entity participant
    capacities := (self.capacities.insert (toLex (entity, 1)) cash).insert
      (toLex (entity, 2)) securities }

/-- `ReservationBook::refresh_capacity`. -/
def refreshCapacity (participant : Digest32) (cash securities : Nat) :
    EStateM SettlementError ReservationBook Unit := do
  let self ← get
  let entity ← attempt (okOr (self.participantEntities.get? participant)
    (.reservation "participant has no DeKYX binding"))
  set { self with
    capacities := (self.capacities.insert (toLex (entity, 1)) cash).insert
      (toLex (entity, 2)) securities }

/-- A `try_fold` of `checked_add`. -/
def checkedSum (values : List Nat) : Option Nat :=
  values.foldlM checkedAdd 0

/-- What the active reservations of an entity hold on one rail. -/
def inUse (self : ReservationBook) (entity : Digest32) (kind : ReservationKind) : Option Nat :=
  checkedSum ((self.records.values.filter fun record => decide (record.entityNullifier = entity ∧
    record.kind = kind ∧ record.status = .active)).map ReservationRecord.remaining)

/-- The record `reserve` stores for an order. -/
def newRecord (order : SettlementOrderView) (reserveCommitment : Digest32) :
    ReservationRecord where
  reservationId := order.reservationId
  orderCommitment := order.commitment
  participantHandle := order.participantHandle
  entityNullifier := order.dekyxNullifier
  marketId := order.marketId
  kind := kindOf order.side
  limitPrice := order.limitPrice
  timeInForce := order.timeInForce
  originalQuantity := order.quantity
  remainingQuantity := order.quantity
  maxFee := order.maxFee
  expiresAt := order.expiresAt
  reserved := order.reservationLimit
  remaining := order.reservationLimit
  reserveCommitment
  status := .active

/-- `ReservationBook::reserve`. -/
def reserve (order : SettlementOrderView) (reserveCommitment : Digest32) :
    EStateM SettlementError ReservationBook Unit := do
  ensure (reserveCommitment ≠ 0) (.reservation "reservation commitment is the identity point")
  let self ← get
  ensure (self.participantEntities.get? order.participantHandle = some order.dekyxNullifier)
    (.reservation "order participant is not bound to the presented DeKYX entity")
  if hfresh : self.records.get? order.reservationId = none ∧
      self.recordFor order.commitment = none then
    let capacity ← attempt (okOr
      (self.capacities.get? (toLex (order.dekyxNullifier, (kindOf order.side).tag)))
      (.reservation "entity has no canonical capacity"))
    let used ← attempt (okOr (self.inUse order.dekyxNullifier (kindOf order.side))
      (.reservation "reservation sum overflowed"))
    ensure (∃ total ∈ checkedAdd used order.reservationLimit, total ≤ capacity)
      (.reservation "the entity-wide cash, inventory, or guarantee capacity is exceeded")
    set (self.insertRecord (newRecord order reserveCommitment) hfresh.2)
  else throw (.reservation "reservation id or order commitment was already used")

end ReservationBook

/-- The reserve an order remainder must keep, `none` on overflow. -/
def ReservationRecord.requiredFor (record : ReservationRecord) (quantity : Nat) : Option Nat :=
  if quantity = 0 then some 0
  else match record.kind with
    | .cash => (checkedMul record.limitPrice quantity).bind fun value =>
        checkedAdd value record.maxFee
    | .securities => some quantity

/-- `consume_record`: the record after a fill that spent `spent` of its reserve. -/
def consumeRecord (record : ReservationRecord) (spent filledQuantity : Nat) :
    Except SettlementError ReservationRecord := do
  let remainingAfterSpend ← okOr (checkedSub record.remaining spent)
    (.reservation "reservation cannot cover the fill")
  let remainingQuantity ← okOr (checkedSub record.remainingQuantity filledQuantity)
    (.reservation "fill exceeds the order remainder")
  let required ← okOr (record.requiredFor remainingQuantity)
    (.reservation "remaining cash reservation overflowed")
  if remainingAfterSpend < required then
    .error (.reservation "reservation no longer covers the committed order remainder")
  else
    .ok { record with
      remainingQuantity
      remaining := required
      status := if remainingQuantity = 0 then .consumed else .active }

/-- The price test of a fill against the limit of a record. -/
def ReservationRecord.respectsLimit (record : ReservationRecord) (price : Nat) : Bool :=
  match record.kind with
  | .cash => decide (price ≤ record.limitPrice)
  | .securities => decide (record.limitPrice ≤ price)

/-- What a fill takes from a record: cash from one side, securities from the other. -/
def ReservationRecord.spends (record : ReservationRecord) (cash quantity : Nat) : Nat :=
  match record.kind with
  | .cash => cash
  | .securities => quantity

/-- `ConsumedFill`, without the commitments of the collaborative path. -/
structure ConsumedFill where
  makerReservationId : Digest32
  takerReservationId : Digest32
  makerKind : ReservationKind
  makerRemaining : Nat
  takerRemaining : Nat
  sellerHandle : Digest32
  buyerHandle : Digest32
deriving DecidableEq

namespace ReservationBook

/-- The reads and checks of `consume_fill`: the two records a fill joins and its cash value. -/
def fillParties (self : ReservationBook) (fill : PublicFill) (marketId : String) (now : Nat) :
    Except SettlementError (ReservationRecord × ReservationRecord × Nat) := do
  let cash ← okOr (checkedMul fill.price fill.quantity) (.reservation "cash fill overflowed")
  let maker ← okOr (self.recordFor fill.makerOrder) (.reservation "maker reservation is absent")
  let taker ← okOr (self.recordFor fill.takerOrder) (.reservation "taker reservation is absent")
  require (maker.reservationId ≠ taker.reservationId)
    (.reservation "maker and taker cannot consume the same reservation")
  require (maker.kind ≠ taker.kind)
    (.reservation "a fill must join one cash reservation and one inventory reservation")
  require (maker.marketId = marketId ∧ taker.marketId = marketId)
    (.reservation "a fill cannot cross reservations from another market")
  require (now ≤ maker.expiresAt ∧ now ≤ taker.expiresAt)
    (.reservation "an expired reservation cannot be filled")
  require (fill.quantity ≤ maker.remainingQuantity ∧ fill.quantity ≤ taker.remainingQuantity)
    (.reservation "fill quantity exceeds an order remainder")
  require (maker.respectsLimit fill.price = true ∧ taker.respectsLimit fill.price = true)
    (.reservation "fill price violates a committed order limit")
  require (maker.status = .active ∧ maker.spends cash fill.quantity ≤ maker.remaining)
    (.reservation "maker reservation cannot cover the fill")
  require (taker.status = .active ∧ taker.spends cash fill.quantity ≤ taker.remaining)
    (.reservation "taker reservation cannot cover the fill")
  return (maker, taker, cash)

/-- `ReservationBook::consume_fill`. -/
def consumeFill (fill : PublicFill) (marketId : String) (now : Nat) :
    EStateM SettlementError ReservationBook ConsumedFill := do
  let self ← get
  let (maker, taker, cash) ← attempt (self.fillParties fill marketId now)
  let (sellerHandle, buyerHandle) := match maker.kind with
    | .securities => (maker.participantHandle, taker.participantHandle)
    | .cash => (taker.participantHandle, maker.participantHandle)
  let makerAfter ← attempt (consumeRecord maker (maker.spends cash fill.quantity) fill.quantity)
  modify fun book => book.writeBack makerAfter
  let takerAfter ← attempt (consumeRecord taker (taker.spends cash fill.quantity) fill.quantity)
  modify fun book => book.writeBack takerAfter
  return {
    makerReservationId := maker.reservationId
    takerReservationId := taker.reservationId
    makerKind := maker.kind
    makerRemaining := makerAfter.remaining
    takerRemaining := takerAfter.remaining
    sellerHandle, buyerHandle }

/-- The reserve the remainder of an arriving order needs, `none` on overflow. -/
def requiredRemainder (order : SettlementOrderView) (remainingQuantity : Nat) : Option Nat :=
  if remainingQuantity = 0 ∨ order.timeInForce = .immediateOrCancel then some 0
  else requiredReserve order.side order.limitPrice remainingQuantity order.maxFee

/-- `ReservationBook::reconcile_arriving`. -/
def reconcileArriving (order : SettlementOrderView) (remainingQuantity : Nat) :
    EStateM SettlementError ReservationBook Nat := do
  let self ← get
  let record ← attempt (okOr (self.recordFor order.commitment)
    (.reservation "taker reservation is absent"))
  let required ← attempt (okOr (requiredRemainder order remainingQuantity)
    (.reservation "remaining cash reservation overflowed"))
  ensure (remainingQuantity = record.remainingQuantity)
    (.reservation "reported arriving remainder differs from consumed fills")
  ensure (required ≤ record.remaining)
    (.reservation "remaining order is not covered by its reservation")
  let unused := record.remaining - required
  set (self.writeBack { record with
    remaining := required
    remainingQuantity := if 0 < required then remainingQuantity else 0
    status := if 0 < required then .active else if 0 < unused then .released else .consumed })
  return required

/-- `ReservationBook::release_order`. -/
def releaseOrder (commitment : Digest32) : EStateM SettlementError ReservationBook Unit := do
  let self ← get
  let record ← attempt (okOr (self.recordFor commitment) (.reservation "reservation is absent"))
  ensure (record.status = .active) (.reservation "reservation is already terminal")
  set (self.writeBack { record with remaining := 0, remainingQuantity := 0, status := .released })

/-- The loop of `settle_batch` over the fills, as far as it touches reservations. -/
def consumeFills (marketId : String) (now : Nat) :
    List PublicFill → EStateM SettlementError ReservationBook Unit
  | [] => pure ()
  | fill :: fills => do
    let _ ← consumeFill fill marketId now
    consumeFills marketId now fills

end ReservationBook

end Oclob.Settlement
