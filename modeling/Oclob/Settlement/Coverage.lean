import Mathlib.Data.Set.Function
import Oclob.Settlement.Collaborative

/-!
# The reservation of an admitted order covers it

A `SecretOrder` is admitted with a reserve for its worst permitted fill. The operations of
`ReservationBook` (`oclob-settlement/src/lib.rs`) keep it that way: while a record is active its
reserve pays for the remaining quantity at the limit price, fee included, and that cost fits a
word. A partial fill at a better price can only leave more than needed
(`Backed.consumeRecord`).

* `Holds.call`: a property of records that every kind of update keeps holds of every record of
  every book a run of calls reaches.
* `reservation_covers_order`: cover in every reached book, whatever succeeded or failed on the
  way. A fill that fits the two records it joins is consumed, and the errors that report a missing
  cover are left with the arguments no fill of a batch has: a product beyond a word, a fill of
  nothing, and a remainder larger than the order.
-/

namespace Oclob.Settlement

open Oclob.Core Oclob.Lib ReservationBook ReservationRecord

/-! ## What is needed and what is held -/

/-- The cost of the remaining quantity at the limit price, fee included. -/
def ReservationRecord.needed (record : ReservationRecord) : Nat :=
  match record.kind with
  | .cash => record.limitPrice * record.remainingQuantity + record.maxFee
  | .securities => record.remainingQuantity

/-- The reserve pays for the remaining quantity, within a word. -/
def ReservationRecord.Covered (record : ReservationRecord) : Prop :=
  record.needed ≤ record.remaining ∧ record.remaining < u64Bound

/-- The reserve a quantity needs, as a number when it fits a word. -/
theorem ReservationRecord.requiredFor_eq {record : ReservationRecord} {quantity bound : Nat}
    (hle : ({ record with remainingQuantity := quantity } : ReservationRecord).needed ≤ bound)
    (hbound : bound < u64Bound) :
    record.requiredFor quantity = some (if quantity = 0 then 0
      else ({ record with remainingQuantity := quantity } : ReservationRecord).needed) := by
  unfold requiredFor
  split
  · rfl
  · unfold needed at hle ⊢
    cases hkind : record.kind with
    | securities => rfl
    | cash =>
      simp only [hkind] at hle ⊢
      rw [checkedMul, if_pos (by omega), Option.bind_some, checkedAdd, if_pos (by omega)]

/-- What an order of this side reserves is what its record needs. -/
theorem requiredReserve_eq_needed {record : ReservationRecord} {side : Side}
    (hkind : record.kind = kindOf side) {required : Nat}
    (h : requiredReserve side record.limitPrice record.remainingQuantity record.maxFee =
      some required) : required = record.needed := by
  unfold needed
  rw [hkind]
  cases side with
  | buy =>
    obtain ⟨value, hvalue, hadd⟩ := Option.bind_eq_some_iff.mp h
    rw [(checkedAdd_eq_some.mp hadd).2, (checkedMul_eq_some.mp hvalue).2]
    rfl
  | sell => exact (Option.some.inj h).symm

/-- A smaller quantity needs no more, and does not overflow either. -/
theorem requiredReserve_mono {side : Side} {limitPrice quantity quantity' maxFee required : Nat}
    (h : requiredReserve side limitPrice quantity maxFee = some required)
    (hle : quantity' ≤ quantity) :
    ∃ required', requiredReserve side limitPrice quantity' maxFee = some required' := by
  cases side with
  | sell => exact ⟨quantity', rfl⟩
  | buy =>
    obtain ⟨value, hvalue, hadd⟩ := Option.bind_eq_some_iff.mp h
    obtain ⟨hmul, rfl⟩ := checkedMul_eq_some.mp hvalue
    obtain ⟨hsum, -⟩ := checkedAdd_eq_some.mp hadd
    have hprod := Nat.mul_le_mul_left limitPrice hle
    refine ⟨limitPrice * quantity' + maxFee, ?_⟩
    rw [requiredReserve, checkedMul, if_pos (by omega), Option.bind_some, checkedAdd,
      if_pos (by omega)]

/-- What a fill within the limit spends is what its quantity may cost. -/
theorem needed_after_fill {record : ReservationRecord} {price quantity : Nat}
    (hlimit : record.respectsLimit price = true) (hle : quantity ≤ record.remainingQuantity) :
    ({ record with remainingQuantity := record.remainingQuantity - quantity } :
      ReservationRecord).needed + record.spends (price * quantity) quantity ≤ record.needed := by
  unfold needed spends
  unfold respectsLimit at hlimit
  cases hkind : record.kind with
  | securities =>
    dsimp only
    omega
  | cash =>
    simp only [hkind, decide_eq_true_eq] at hlimit ⊢
    -- `limit * (rest + quantity)` splits, and the fill costs at most its share
    obtain ⟨rest, hrest⟩ := Nat.exists_eq_add_of_le' hle
    have hcost := Nat.mul_le_mul_right quantity hlimit
    rw [hrest, Nat.add_sub_cancel, Nat.mul_add]
    omega

/-- A covered record pays for every fill within its limit and its quantity. -/
theorem consumeRecord_of_covered {record : ReservationRecord} (hcov : record.Covered)
    {price quantity : Nat} (hlimit : record.respectsLimit price = true)
    (hle : quantity ≤ record.remainingQuantity) :
    ∃ record', consumeRecord record (record.spends (price * quantity) quantity) quantity =
      .ok record' := by
  obtain ⟨hneeded, hword⟩ := hcov
  have hfill := needed_after_fill hlimit hle
  have hbound : ({ record with remainingQuantity := record.remainingQuantity - quantity } :
      ReservationRecord).needed ≤ record.needed := by omega
  have hrequired : record.requiredFor (record.remainingQuantity - quantity) = some _ :=
    requiredFor_eq hbound (by omega)
  unfold consumeRecord
  rw [checkedSub, if_pos (by omega), checkedSub, if_pos hle]
  simp only [okOr, bind, Except.bind, hrequired]
  rw [if_neg]
  · exact ⟨_, rfl⟩
  · split <;> omega

/-! ## Properties of every record -/

/-- A property of every record of a book. -/
def ReservationBook.Holds (P : ReservationRecord → Prop) (book : ReservationBook) : Prop :=
  ∀ id record, book.records.get? id = some record → P record

namespace ReservationBook

variable {P : ReservationRecord → Prop} {book : ReservationBook} {c : Digest32}
  {record stored : ReservationRecord}

theorem holds_default : Holds P default := fun _ _ h => absurd h (by simp [default])

theorem Holds.recordFor (h : book.Holds P) (hrecord : book.recordFor c = some record) : P record :=
  h _ _ (recordFor_eq_some.mp hrecord).1

theorem Holds.writeBack (h : book.Holds P)
    (hstored : book.records.get? record.reservationId = some stored)
    (hupd : Updates record stored) (hrecord : P record) : (book.writeBack record).Holds P := by
  intro id r hr
  rw [get?_writeBack hstored hupd] at hr
  split at hr
  · exact Option.some.inj hr ▸ hrecord
  · exact h id r hr

theorem Holds.insertRecord (h : book.Holds P)
    (hfresh : book.recordFor record.orderCommitment = none) (hrecord : P record) :
    (book.insertRecord record hfresh).Holds P := by
  intro id r hr
  simp only [ReservationBook.insertRecord, OrdMap.get?_insert] at hr
  split at hr
  · exact Option.some.inj hr ▸ hrecord
  · exact h id r hr

end ReservationBook

section

variable [Crypto]

/-- The methods of `ReservationBook`, with their arguments. Orders have passed
`SecretOrder::new_with_controls`. -/
inductive ReservationCall where
  | bindParticipant (participant entity : Digest32) (cash securities : Nat)
  | refreshCapacity (participant : Digest32) (cash securities : Nat)
  | reserve (order : SecretOrder) (reserveCommitment : Digest32)
  | consumeFill (fill : PublicFill) (marketId : String) (now : Nat)
  | applyCollaborativeRemainders (consumed : ConsumedFill)
      (securitiesRemainder cashRemainder makerPoolRemainder : Digest32)
  | reconcileArriving (order : SecretOrder) (remainingQuantity : Nat)
  | reconcileArrivingCollaborative (commitment : Digest32) (remainingQuantity : Nat)
  | releaseOrder (commitment : Digest32)

namespace ReservationCall

/-- The book after a call, whether it succeeded or not. -/
def apply (book : ReservationBook) : ReservationCall → ReservationBook
  | bindParticipant participant entity cash securities =>
    after ((ReservationBook.bindParticipant participant entity cash securities).run book)
  | refreshCapacity participant cash securities =>
    after ((ReservationBook.refreshCapacity participant cash securities).run book)
  | reserve order reserveCommitment =>
    after ((ReservationBook.reserve (settlementView order) reserveCommitment).run book)
  | consumeFill fill marketId now =>
    after ((ReservationBook.consumeFill fill marketId now).run book)
  | applyCollaborativeRemainders consumed securitiesRemainder cashRemainder makerPoolRemainder =>
    after ((ReservationBook.applyCollaborativeRemainders consumed securitiesRemainder
      cashRemainder makerPoolRemainder).run book)
  | reconcileArriving order remainingQuantity =>
    after ((ReservationBook.reconcileArriving (settlementView order) remainingQuantity).run book)
  | reconcileArrivingCollaborative commitment remainingQuantity =>
    after ((ReservationBook.reconcileArrivingCollaborative commitment
      remainingQuantity).run book)
  | releaseOrder commitment => after ((ReservationBook.releaseOrder commitment).run book)

/-- The orders a call presents. -/
def orders : ReservationCall → List SecretOrder
  | reserve order _ | reconcileArriving order _ => [order]
  | _ => []

def run (calls : List ReservationCall) (book : ReservationBook) : ReservationBook :=
  calls.foldl apply book

end ReservationCall

/-- The changes the calls make to a stored record, when they are given these orders. -/
inductive RecordChange (orders : List SecretOrder) (record : ReservationRecord) :
    ReservationRecord → Prop where
  | consumed {spent quantity : Nat} {record' : ReservationRecord} :
      record.status = .active → consumeRecord record spent quantity = .ok record' →
        RecordChange orders record record'
  | recommitted (reserveCommitment : Digest32) :
      RecordChange orders record { record with reserveCommitment }
  | reconciled {order : SecretOrder} {required : Nat} : order ∈ orders →
      record.orderCommitment = order.commitment →
      requiredRemainder (settlementView order) record.remainingQuantity =
        some required →
        RecordChange orders record { record with
          remaining := required
          remainingQuantity := if 0 < required then record.remainingQuantity else 0
          status := if 0 < required then .active
            else if 0 < record.remaining - required then .released else .consumed }
  | ended {status : ReservationStatus} : status ≠ .active →
      RecordChange orders record { record with remaining := 0, remainingQuantity := 0, status }
  | kept : record.remainingQuantity ≠ 0 →
      RecordChange orders record { record with status := .active }

namespace ReservationBook

variable {P : ReservationRecord → Prop} {book : ReservationBook} {orders : List SecretOrder}

theorem Holds.consumeFill (h : book.Holds P)
    (hchange : ∀ r r', P r → RecordChange orders r r' → P r') (fill : PublicFill)
    (marketId : String) (now : Nat) :
    (after ((consumeFill fill marketId now).run book)).Holds P := by
  unfold ReservationBook.consumeFill
  rw [run_get_bind]
  cases hparties : book.fillParties fill marketId now with
  | error e => exact h
  | ok parties =>
    obtain ⟨maker, taker, cash⟩ := parties
    have hjoin := (fillParties_fits hparties).1.joined
    obtain ⟨hmget, hmc⟩ := recordFor_eq_some.mp hjoin.maker_eq
    obtain ⟨htget, htc⟩ := recordFor_eq_some.mp hjoin.taker_eq
    rw [run_attempt_ok_bind]
    dsimp only
    cases hm : consumeRecord maker (maker.spends cash fill.quantity) fill.quantity with
    | error e => exact h
    | ok makerAfter =>
      have hmupd := (consumeRecord_ok hm).1
      have hmid : makerAfter.reservationId = maker.reservationId := by rw [hmupd]
      have hmstored : book.records.get? makerAfter.reservationId = some maker := by
        rw [hmid, hmget]
      have hmaker := h.writeBack hmstored hmupd
        (hchange _ _ (h _ _ hmget) (.consumed hjoin.maker_active hm))
      rw [run_attempt_ok_bind]
      cases ht : consumeRecord taker (taker.spends cash fill.quantity) fill.quantity with
      | error e => exact hmaker
      | ok takerAfter =>
        have htupd := (consumeRecord_ok ht).1
        have htid : takerAfter.reservationId = taker.reservationId := by rw [htupd]
        refine hmaker.writeBack ?_ htupd
          (hchange _ _ (h _ _ htget) (.consumed hjoin.taker_active ht))
        rw [get?_writeBack hmstored hmupd, htid, if_neg, htget]
        intro heq
        rw [heq, hmid, hmget] at htget
        exact hjoin.rails (congrArg _ (Option.some.inj htget))

theorem Holds.applyCollaborativeRemainders (h : book.Holds P)
    (hchange : ∀ r r', P r → RecordChange orders r r' → P r') (consumed : ConsumedFill)
    (securitiesRemainder cashRemainder makerPoolRemainder : Digest32) :
    (after ((applyCollaborativeRemainders consumed securitiesRemainder cashRemainder
      makerPoolRemainder).run book)).Holds P := by
  have hwrite : ∀ (b : ReservationBook) (id c : Digest32) (r : ReservationRecord), b.Holds P →
      b.records.get? id = some r → (b.writeBack { r with reserveCommitment := c }).Holds P := by
    intro b id c r hb hr
    have hid := b.keyed id r hr
    have hstored : b.records.get? r.reservationId = some r := by rw [hid, hr]
    exact hb.writeBack hstored rfl (hchange _ _ (hb _ _ hr) (.recommitted c))
  unfold ReservationBook.applyCollaborativeRemainders
  rw [run_get_bind]
  cases hmaker : book.records.get? consumed.makerReservationId with
  | none => exact h
  | some maker =>
    have hfirst := hwrite book _ makerPoolRemainder maker h hmaker
    simp only [okOr]
    rw [run_attempt_ok_bind, run_set_bind, run_get_bind]
    cases htaker : (book.writeBack { maker with
        reserveCommitment := makerPoolRemainder }).records.get? consumed.takerReservationId with
    | none => exact hfirst
    | some taker => exact hwrite _ _ _ taker hfirst htaker

/-- A write of the record an order has. -/
theorem Holds.update (h : book.Holds P) (hchange : ∀ r r', P r → RecordChange orders r r' → P r')
    {c : Digest32} {record record' : ReservationRecord} (hrecord : book.recordFor c = some record)
    (hupd : Updates record' record) (hstep : RecordChange orders record record') :
    (book.writeBack record').Holds P := by
  have hget := (recordFor_eq_some.mp hrecord).1
  have hid : record'.reservationId = record.reservationId := by rw [hupd]
  have hstored : book.records.get? record'.reservationId = some record := by rw [hid, hget]
  exact h.writeBack hstored hupd (hchange _ _ (h _ _ hget) hstep)

theorem Holds.reconcileArriving (h : book.Holds P) {order : SecretOrder} (horder : order ∈ orders)
    (hchange : ∀ r r', P r → RecordChange orders r r' → P r') (remaining : Nat) :
    (after ((reconcileArriving (settlementView order) remaining).run book)).Holds P := by
  unfold ReservationBook.reconcileArriving
  rw [run_get_bind]
  cases hrecord : book.recordFor (settlementView order).commitment with
  | none => exact h
  | some record =>
    cases hrequired : requiredRemainder (settlementView order) remaining with
    | none => exact h
    | some required =>
      simp only [okOr]
      rw [run_attempt_ok_bind, run_attempt_ok_bind, run_ensure_bind]
      split
      · rename_i hquantity
        subst hquantity
        rw [run_ensure_bind]
        split
        · exact h.update hchange hrecord rfl
            (.reconciled horder (recordFor_eq_some.mp hrecord).2 hrequired)
        · exact h
      · exact h

theorem Holds.reconcileArrivingCollaborative (h : book.Holds P)
    (hchange : ∀ r r', P r → RecordChange orders r r' → P r') (commitment : Digest32)
    (remaining : Nat) :
    (after ((reconcileArrivingCollaborative commitment remaining).run book)).Holds P := by
  unfold ReservationBook.reconcileArrivingCollaborative
  rw [run_get_bind]
  cases hrecord : book.recordFor commitment with
  | none => exact h
  | some record =>
    simp only [okOr]
    rw [run_attempt_ok_bind, run_ensure_bind]
    split
    · rename_i hquantity
      split
      · exact h.update hchange hrecord rfl (.ended (by split <;> simp))
      · rename_i hopen
        exact h.update hchange hrecord rfl (.kept fun hz => hopen (Or.inl (hquantity.trans hz)))
    · exact h

theorem Holds.releaseOrder (h : book.Holds P)
    (hchange : ∀ r r', P r → RecordChange orders r r' → P r') (commitment : Digest32) :
    (after ((releaseOrder commitment).run book)).Holds P := by
  unfold ReservationBook.releaseOrder
  rw [run_get_bind]
  cases hrecord : book.recordFor commitment with
  | none => exact h
  | some record =>
    simp only [okOr]
    rw [run_attempt_ok_bind, run_ensure_bind]
    split
    · exact h.update hchange hrecord rfl (.ended (by simp))
    · exact h

omit [Crypto] in
theorem Holds.reserve (h : book.Holds P) {order : SettlementOrderView}
    (hnew : ∀ c, P (newRecord order c)) (reserveCommitment : Digest32) :
    (after ((reserve order reserveCommitment).run book)).Holds P := by
  unfold ReservationBook.reserve
  rw [run_ensure_bind]
  split
  · rw [run_get_bind, run_ensure_bind]
    split
    · split
      · rename_i hfresh
        cases book.capacities.get? (toLex (order.dekyxNullifier, (kindOf order.side).tag)) with
        | none => exact h
        | some capacity =>
          cases book.inUse order.dekyxNullifier (kindOf order.side) with
          | none => exact h
          | some used =>
            simp only [okOr]
            rw [run_attempt_ok_bind, run_attempt_ok_bind, run_ensure_bind]
            split
            · exact h.insertRecord hfresh.2 (hnew reserveCommitment)
            · exact h
      · exact h
    · exact h
  · exact h

omit [Crypto] in
theorem Holds.bindParticipant (h : book.Holds P) (participant entity : Digest32)
    (cash securities : Nat) :
    (after ((bindParticipant participant entity cash securities).run book)).Holds P := by
  unfold ReservationBook.bindParticipant
  rw [run_ensure_bind]
  split
  · rw [run_get_bind, run_ensure_bind]
    split
    · exact h
    · exact h
  · exact h

omit [Crypto] in
theorem Holds.refreshCapacity (h : book.Holds P) (participant : Digest32) (cash securities : Nat) :
    (after ((refreshCapacity participant cash securities).run book)).Holds P := by
  unfold ReservationBook.refreshCapacity
  rw [run_get_bind]
  cases book.participantEntities.get? participant with
  | none => exact h
  | some entity => exact h

/-- **One call** keeps what new records have and the changes of records keep. -/
theorem Holds.call (h : book.Holds P) (call : ReservationCall)
    (hnew : ∀ order ∈ call.orders, ∀ c, P (newRecord (settlementView order) c))
    (hchange : ∀ r r', P r → RecordChange call.orders r r' → P r') :
    (call.apply book).Holds P := by
  cases call with
  | bindParticipant participant entity cash securities =>
    exact h.bindParticipant participant entity cash securities
  | refreshCapacity participant cash securities =>
    exact h.refreshCapacity participant cash securities
  | reserve order reserveCommitment =>
    exact h.reserve (hnew order List.mem_cons_self) reserveCommitment
  | consumeFill fill marketId now => exact h.consumeFill hchange fill marketId now
  | applyCollaborativeRemainders consumed securitiesRemainder cashRemainder makerPoolRemainder =>
    exact h.applyCollaborativeRemainders hchange _ _ _ _
  | reconcileArriving order remaining =>
    exact h.reconcileArriving List.mem_cons_self hchange remaining
  | reconcileArrivingCollaborative commitment remaining =>
    exact h.reconcileArrivingCollaborative hchange commitment remaining
  | releaseOrder commitment => exact h.releaseOrder hchange commitment

end ReservationBook

/-! ## Every active record is covered -/

/-- A record of an admitted order: an active one has something left and is covered, an ended one
has nothing left. -/
structure Backed (known : Set SecretOrder) (record : ReservationRecord) : Prop where
  ofOrder : ∃ order ∈ known, record.orderCommitment = order.commitment ∧
    record.kind = kindOf order.side ∧ record.limitPrice = order.limitPrice ∧
    record.maxFee = order.maxFee
  active : record.status = .active → 0 < record.remainingQuantity ∧ record.Covered
  ended : record.status ≠ .active → record.remainingQuantity = 0

variable {known : Set SecretOrder} {record record' : ReservationRecord}

variable {order : SecretOrder}

theorem backed_newRecord (horder : order ∈ known) (c : Digest32) :
    Backed known (newRecord (settlementView order) c) := by
  obtain ⟨required, hrequired, hle⟩ := order.covered
  refine ⟨⟨order, horder, rfl, rfl, rfl, rfl⟩, fun _ => ⟨order.positive.2.1, ?_, ?_⟩,
    fun h => absurd rfl h⟩
  · have hneeded : required = (newRecord (settlementView order) c).needed :=
      requiredReserve_eq_needed rfl hrequired
    exact hneeded ▸ hle
  · exact order.words.2.2.2.1

theorem Backed.consumeRecord {spent quantity : Nat} (h : Backed known record)
    (hactive : record.status = .active) (hrun : consumeRecord record spent quantity = .ok record') :
    Backed known record' := by
  obtain ⟨hupd, -, hquantity, hstatus, hrequired⟩ := consumeRecord_ok hrun
  obtain ⟨-, hneeded, hword⟩ := h.active hactive
  have hspends := consumeRecord_spends hrun
  refine ⟨by rw [hupd]; exact h.ofOrder, fun hact => ?_, fun hend => ?_⟩
  · have hpos : record'.remainingQuantity ≠ 0 := fun hz => by
      rw [hstatus, if_pos hz] at hact
      exact absurd hact (by simp)
    refine ⟨Nat.pos_of_ne_zero hpos, ?_, by omega⟩
    -- what is left is exactly what the remainder needs
    unfold requiredFor at hrequired
    rw [if_neg hpos] at hrequired
    rw [hupd]
    unfold needed
    cases hkind : record.kind with
    | securities =>
      rw [hkind] at hrequired
      exact (Option.some.inj hrequired).le
    | cash =>
      rw [hkind] at hrequired
      obtain ⟨value, hvalue, hadd⟩ := Option.bind_eq_some_iff.mp hrequired
      rw [(checkedAdd_eq_some.mp hadd).2, (checkedMul_eq_some.mp hvalue).2]
  · by_contra hpos
    rw [hstatus, if_neg hpos] at hend
    exact hend rfl

/-- The arriving order's remainder is what its record needs. -/
theorem Backed.reconciled (hinj : Set.InjOn SecretOrder.commitment known)
    (h : Backed known record) (horder : order ∈ known)
    (hcommit : record.orderCommitment = order.commitment) {required : Nat}
    (hrequired : requiredRemainder (settlementView order)
      record.remainingQuantity = some required) :
    required = 0 ∨ record.status = .active ∧ required = record.needed := by
  unfold requiredRemainder at hrequired
  split at hrequired
  · exact Or.inl (Option.some.inj hrequired).symm
  · rename_i hopen
    right
    obtain ⟨order', horder', hc, hkind, hlimit, hfee⟩ := h.ofOrder
    obtain rfl := hinj horder horder' (hcommit.symm.trans hc)
    refine ⟨?_, requiredReserve_eq_needed hkind ?_⟩
    · by_contra hend
      exact hopen (Or.inl (h.ended hend))
    · rw [hlimit, hfee]
      exact hrequired

theorem Backed.needed_pos (h : Backed known record) (hpos : 0 < record.remainingQuantity) :
    0 < record.needed := by
  obtain ⟨order, -, -, -, hlimit, -⟩ := h.ofOrder
  have hprice := order.positive.1
  rw [← hlimit] at hprice
  unfold needed
  split
  · have hcost := Nat.mul_pos hprice hpos
    omega
  · exact hpos

theorem Backed.change (hinj : Set.InjOn SecretOrder.commitment known) {orders : List SecretOrder}
    (horders : ∀ order ∈ orders, order ∈ known) (h : Backed known record)
    (hchange : RecordChange orders record record') : Backed known record' := by
  cases hchange with
  | consumed hactive hrun => exact h.consumeRecord hactive hrun
  | recommitted c => exact ⟨h.ofOrder, h.active, h.ended⟩
  | ended hstatus => exact ⟨h.ofOrder, fun hact => absurd hact hstatus, fun _ => rfl⟩
  | kept hpos =>
    refine ⟨h.ofOrder, fun _ => h.active ?_, fun hend => absurd rfl hend⟩
    by_contra hend
    exact hpos (h.ended hend)
  | reconciled horder hcommit hrequired =>
    rcases h.reconciled hinj (horders _ horder) hcommit hrequired with rfl | ⟨hactive, rfl⟩
    · have hstatus : (if 0 < record.remaining - 0 then ReservationStatus.released
          else .consumed) ≠ .active := by
        split <;> simp
      simp only [Nat.lt_irrefl, if_false]
      exact ⟨h.ofOrder, fun hact => absurd hact hstatus, fun _ => rfl⟩
    · obtain ⟨hpos, hneeded, hword⟩ := h.active hactive
      have hlive := h.needed_pos hpos
      simp only [if_pos hlive]
      exact ⟨h.ofOrder, fun _ => ⟨hpos, Nat.le_refl _, Nat.lt_of_le_of_lt hneeded hword⟩,
        fun hend => absurd rfl hend⟩

/-- **A run of calls** leaves every record backed by the order it was made for. -/
theorem holds_backed_run (hinj : Set.InjOn SecretOrder.commitment known)
    {calls : List ReservationCall} (hcalls : ∀ call ∈ calls, ∀ order ∈ call.orders, order ∈ known)
    {book : ReservationBook} (h : book.Holds (Backed known)) :
    (ReservationCall.run calls book).Holds (Backed known) := by
  induction calls generalizing book with
  | nil => exact h
  | cons call rest ih =>
    have horders := hcalls call List.mem_cons_self
    refine ih (fun c hc => hcalls c (List.mem_cons_of_mem _ hc)) (h.call call ?_ ?_)
    · exact fun order horder c => backed_newRecord (horders order horder) c
    · exact fun r r' hr hchange => hr.change hinj horders hchange

/-! ## Which errors are left -/

/-- The errors that report a missing cover or an overflow. -/
def coverErrors : List SettlementError :=
  [.reservation "cash fill overflowed",
    .reservation "maker reservation cannot cover the fill",
    .reservation "taker reservation cannot cover the fill",
    .reservation "reservation cannot cover the fill",
    .reservation "remaining cash reservation overflowed",
    .reservation "reservation no longer covers the committed order remainder",
    .reservation "remaining order is not covered by its reservation"]

variable {book book' : ReservationBook} {fill : PublicFill} {marketId : String} {now : Nat}
  {maker taker : ReservationRecord} {e : SettlementError}

omit [Crypto] in
/-- What a fill within the limit spends is at most what is needed. -/
theorem spends_le_remaining (hcov : record.Covered) {price quantity : Nat}
    (hlimit : record.respectsLimit price = true) (hle : quantity ≤ record.remainingQuantity) :
    record.spends (price * quantity) quantity ≤ record.remaining := by
  have hfill := needed_after_fill hlimit hle
  have hneeded := hcov.1
  omega

omit [Crypto] in
/-- One of the two parties pays in cash, within a word. -/
theorem ReservationBook.FillFits.cash_lt (h : book.FillFits fill marketId now maker taker)
    (hm : maker.Covered) (ht : taker.Covered) : fill.price * fill.quantity < u64Bound := by
  have hmaker := spends_le_remaining hm h.limits.1 h.quantity.1
  have htaker := spends_le_remaining ht h.limits.2 h.quantity.2
  have hrails := h.rails
  unfold spends at hmaker htaker
  cases hmk : maker.kind with
  | cash =>
    rw [hmk] at hmaker
    exact Nat.lt_of_le_of_lt hmaker hm.2
  | securities =>
    cases htk : taker.kind with
    | cash =>
      rw [htk] at htaker
      exact Nat.lt_of_le_of_lt htaker ht.2
    | securities => exact absurd (hmk.trans htk.symm) hrails

omit [Crypto] in
theorem ReservationBook.FillFits.parties (h : book.FillFits fill marketId now maker taker)
    (hm : maker.Covered) (ht : taker.Covered) :
    book.fillParties fill marketId now = .ok (maker, taker, fill.price * fill.quantity) := by
  unfold fillParties
  rw [checkedMul, if_pos (h.cash_lt hm ht), h.maker_eq, h.taker_eq]
  simp only [okOr, require, bind, Except.bind, pure, Except.pure]
  rw [if_pos h.ids_ne, if_pos h.rails, if_pos h.market, if_pos h.unexpired, if_pos h.quantity,
    if_pos h.limits, if_pos ⟨h.active.1, spends_le_remaining hm h.limits.1 h.quantity.1⟩,
    if_pos ⟨h.active.2, spends_le_remaining ht h.limits.2 h.quantity.2⟩]

/-- A fill that fits is consumed. -/
theorem ReservationBook.FillFits.consumed (hbook : book.Holds (Backed known))
    (h : book.FillFits fill marketId now maker taker) :
    ∃ consumed book', (consumeFill fill marketId now).run book =
      .ok consumed book' := by
  have hm := ((hbook.recordFor h.maker_eq).active h.active.1).2
  have ht := ((hbook.recordFor h.taker_eq).active h.active.2).2
  obtain ⟨makerAfter, hmaker⟩ := consumeRecord_of_covered hm h.limits.1 h.quantity.1
  obtain ⟨takerAfter, htaker⟩ := consumeRecord_of_covered ht h.limits.2 h.quantity.2
  unfold consumeFill
  rw [run_get_bind, h.parties hm ht, run_attempt_ok_bind]
  simp only [hmaker, htaker]
  exact ⟨_, _, rfl⟩

omit [Crypto] in
/-- A cover error of the checks is the overflow, or an uncovered party of a fill that passed the
other checks. -/
theorem fillParties_error (h : book.fillParties fill marketId now = .error e)
    (he : e ∈ coverErrors) :
    e = .reservation "cash fill overflowed" ∧ u64Bound ≤ fill.price * fill.quantity ∨
    (e = .reservation "maker reservation cannot cover the fill" ∨
      e = .reservation "taker reservation cannot cover the fill") ∧
      ∃ c record, book.recordFor c = some record ∧ fill.quantity ≤ record.remainingQuantity ∧
        record.respectsLimit fill.price = true ∧
        ¬ (record.status = .active ∧
          record.spends (fill.price * fill.quantity) fill.quantity ≤ record.remaining) := by
  unfold fillParties at h
  simp only [except_bind_eq_error, okOr_eq_error, okOr_eq_ok, require_eq_error, require_eq_ok,
    pure, Except.pure, reduceCtorEq, and_false, exists_false, or_false] at h
  rcases h with ⟨hcash, rfl⟩ | ⟨cash, hcash, h⟩
  · left
    refine ⟨rfl, ?_⟩
    by_contra hlt
    rw [checkedMul, if_pos (by omega)] at hcash
    exact absurd hcash (by simp)
  obtain ⟨-, rfl⟩ := checkedMul_eq_some.mp hcash
  rcases h with ⟨-, rfl⟩ | ⟨maker, hmaker, h⟩
  · exact absurd he (by decide)
  rcases h with ⟨-, rfl⟩ | ⟨taker, htaker, h⟩
  · exact absurd he (by decide)
  iterate 4
    rcases h with ⟨-, rfl⟩ | ⟨-, -, h⟩
    · exact absurd he (by decide)
  rcases h with ⟨-, rfl⟩ | ⟨-, hquantity, h⟩
  · exact absurd he (by decide)
  rcases h with ⟨-, rfl⟩ | ⟨-, hlimits, h⟩
  · exact absurd he (by decide)
  right
  rcases h with ⟨hm, rfl⟩ | ⟨-, -, ht, rfl⟩
  · exact ⟨Or.inl rfl, _, maker, hmaker, hquantity.1, hlimits.1, hm⟩
  · exact ⟨Or.inr rfl, _, taker, htaker, hquantity.2, hlimits.2, ht⟩

/-- The cover errors of `consume_fill` are left with arguments no batch has. -/
theorem consumeFill_cover_error (hbook : book.Holds (Backed known))
    (h : (consumeFill fill marketId now).run book = .error e book')
    (he : e ∈ coverErrors) :
    e = .reservation "cash fill overflowed" ∧ u64Bound ≤ fill.price * fill.quantity ∨
    (e = .reservation "maker reservation cannot cover the fill" ∨
      e = .reservation "taker reservation cannot cover the fill") ∧ fill.quantity = 0 := by
  unfold consumeFill at h
  rw [run_get_bind] at h
  cases hparties : book.fillParties fill marketId now with
  | error e' =>
    rw [hparties, run_attempt_error_bind] at h
    cases h
    refine (fillParties_error hparties he).imp_right ?_
    rintro ⟨hwhich, c, record, hrecord, hle, hlimit, huncovered⟩
    refine ⟨hwhich, ?_⟩
    have hbacked := hbook.recordFor hrecord
    by_cases hactive : record.status = .active
    · exact absurd ⟨hactive, spends_le_remaining (hbacked.active hactive).2 hlimit hle⟩ huncovered
    · have hzero := hbacked.ended hactive
      omega
  | ok parties =>
    -- the checks passed, so both records pay
    obtain ⟨maker, taker, cash⟩ := parties
    obtain ⟨hfits, rfl⟩ := fillParties_fits hparties
    obtain ⟨consumed, after, hrun⟩ := hfits.consumed hbook
    unfold consumeFill at hrun
    rw [run_get_bind, h] at hrun
    exact absurd hrun (by simp)

/-- The cover errors of `reconcile_arriving` are left with a remainder larger than the order. -/
theorem reconcileArriving_cover_error (hinj : Set.InjOn SecretOrder.commitment known)
    (hbook : book.Holds (Backed known)) (horder : order ∈ known)
    {remaining : Nat}
    (h : (reconcileArriving (settlementView order) remaining).run book =
      .error e book') (he : e ∈ coverErrors) :
    e = .reservation "remaining cash reservation overflowed" ∧ order.quantity < remaining := by
  unfold reconcileArriving at h
  simp only [run_bind_eq_error, run_attempt_eq_error, run_rules, run_ensure_eq_error, okOr_eq_error,
    okOr_eq_ok] at h
  rcases h with h | ⟨s₁, s₂, ⟨rfl, rfl⟩, h⟩
  · exact absurd h run_get_ne_error
  rcases h with ⟨⟨-, rfl⟩, -⟩ | ⟨record, s₃, ⟨hrecord, rfl⟩, h⟩
  · exact absurd he (by decide)
  rcases h with ⟨⟨hnone, rfl⟩, -⟩ | ⟨required, s₄, ⟨hrequired, rfl⟩, h⟩
  · refine ⟨rfl, ?_⟩
    by_contra hle
    obtain ⟨required, hfull, -⟩ := order.covered
    obtain ⟨required', hpart⟩ := requiredReserve_mono hfull (Nat.le_of_not_lt hle)
    unfold requiredRemainder at hnone
    split at hnone
    · exact absurd hnone (by simp)
    · exact absurd (hnone.symm.trans hpart) (by simp)
  rcases h with ⟨-, rfl, -⟩ | ⟨-, s₅, ⟨rfl, rfl⟩, h⟩
  · exact absurd he (by decide)
  rcases h with ⟨huncovered, -, -⟩ | ⟨-, s₆, ⟨-, rfl⟩, h⟩
  · have hbacked := hbook.recordFor hrecord
    rcases hbacked.reconciled hinj horder (recordFor_eq_some.mp hrecord).2
      hrequired with rfl | ⟨hactive, rfl⟩
    · exact absurd (Nat.zero_le _) huncovered
    · exact absurd (hbacked.active hactive).2.1 huncovered
  · rcases h with h | ⟨-, s₇, -, h⟩
    · exact absurd h run_set_ne_error
    · exact absurd h run_pure_ne_error

/-- **The reservation of an admitted order covers it**, in every book that calls with these orders
reach. A fill that fits is consumed. `consume_fill` reports a missing cover for a fill of nothing,
and an overflow for a product beyond a word, which no price within a limit gives;
`reconcile_arriving` overflows for a remainder larger than the order. -/
theorem reservation_covers_order (hinj : Set.InjOn SecretOrder.commitment known)
    {calls : List ReservationCall}
    (hcalls : ∀ call ∈ calls, ∀ order ∈ call.orders, order ∈ known) :
    let book := ReservationCall.run calls .default
    (∀ id record, book.records.get? id = some record → record.status = .active →
      record.Covered) ∧
    (∀ fill marketId now maker taker, book.FillFits fill marketId now maker taker →
      ∃ consumed book', (consumeFill fill marketId now).run book =
        .ok consumed book') ∧
    (∀ fill marketId now e book',
      (consumeFill fill marketId now).run book = .error e book' →
      e ∈ coverErrors →
        e = .reservation "cash fill overflowed" ∧ u64Bound ≤ fill.price * fill.quantity ∨
        (e = .reservation "maker reservation cannot cover the fill" ∨
          e = .reservation "taker reservation cannot cover the fill") ∧ fill.quantity = 0) ∧
    ∀ order ∈ known, ∀ remaining e book',
      (reconcileArriving (settlementView order) remaining).run book =
        .error e book' → e ∈ coverErrors →
          e = .reservation "remaining cash reservation overflowed" ∧
            order.quantity < remaining := by
  intro book
  have hbook : book.Holds (Backed known) :=
    holds_backed_run hinj hcalls holds_default
  refine ⟨?_, ?_, ?_, ?_⟩
  · exact fun id record hrecord hactive => ((hbook id record hrecord).active hactive).2
  · exact fun fill marketId now maker taker hfits => hfits.consumed hbook
  · exact fun fill marketId now e book' hrun he => consumeFill_cover_error hbook hrun he
  · exact fun order horder remaining e book' hrun he =>
      reconcileArriving_cover_error hinj hbook horder hrun he

end

section Sample

attribute [local instance] transparentCrypto

/-- A resting sell of 3 and an arriving buy of 5. -/
def coveredSell : SecretOrder := sampleOrder .sell 100 3 .goodTilCancelled 1 fits_100_3

def coveredBuy : SecretOrder := sampleOrder .buy 101 5 .goodTilCancelled 2 fits_101_5

/-- Both orders are reserved. -/
def coveredCalls : List ReservationCall :=
  [coveredSell, coveredBuy].flatMap fun order =>
    [.bindParticipant order.participantHandle order.dekyxNullifier 1000 1000, .reserve order 1]

/-- The fill of the resting order, at its price. -/
def coveredFill (price quantity : Nat) : PublicFill :=
  ⟨coveredSell.commitment, coveredBuy.commitment, price, quantity⟩

theorem reservation_covers_order_sample :
    ∃ consumed book', (ReservationBook.consumeFill (coveredFill 100 3) "JGB10Y-JPY" 1000).run
      (ReservationCall.run coveredCalls .default) = .ok consumed book' := by
  have hne : coveredSell.commitment ≠ coveredBuy.commitment := by decide +kernel
  have hinj : Set.InjOn SecretOrder.commitment {coveredSell, coveredBuy} := by
    rintro order (rfl | rfl) order' (rfl | rfl) heq
    · rfl
    · exact absurd heq hne
    · exact absurd heq.symm hne
    · rfl
  have hcalls : ∀ call ∈ coveredCalls, ∀ order ∈ call.orders,
      order ∈ ({coveredSell, coveredBuy} : Set SecretOrder) := by
    intro call hcall order horder
    simp only [coveredCalls, List.flatMap_cons, List.flatMap_nil, List.cons_append,
      List.nil_append, List.append_nil, List.mem_cons, List.not_mem_nil, or_false] at hcall
    rcases hcall with rfl | rfl | rfl | rfl
    · exact absurd horder List.not_mem_nil
    · exact Or.inl (List.mem_singleton.mp horder)
    · exact absurd horder List.not_mem_nil
    · exact Or.inr (List.mem_singleton.mp horder)
  refine (reservation_covers_order hinj hcalls).2.1 _ _ _
    (ReservationBook.newRecord (settlementView coveredSell) 1)
    (ReservationBook.newRecord (settlementView coveredBuy) 1)
    ⟨by decide +kernel, by decide +kernel, ⟨rfl, rfl⟩, by decide +kernel, by decide +kernel,
      by decide +kernel, by decide +kernel, by decide +kernel⟩

/-- **The three errors that remain.** Two orders are reserved. A price of `2^63` overflows before
any limit is looked at; once the resting order is filled, a fill of nothing reports that it cannot
cover it; and a remainder of `2^63` overflows before it is compared with the record. -/
theorem cover_errors_reached :
    let reserved := ReservationCall.run coveredCalls .default
    let filled := ReservationCall.run
      (coveredCalls ++ [.consumeFill (coveredFill 100 3) "JGB10Y-JPY" 1000]) .default
    (∃ book, (ReservationBook.consumeFill (coveredFill (2 ^ 63) 3) "JGB10Y-JPY" 1000).run
      reserved = .error (.reservation "cash fill overflowed") book) ∧
    (∃ book, (ReservationBook.consumeFill (coveredFill 100 0) "JGB10Y-JPY" 1000).run
      filled = .error (.reservation "maker reservation cannot cover the fill") book) ∧
    ∃ book, (ReservationBook.reconcileArriving (settlementView coveredBuy) (2 ^ 63)).run
      reserved = .error (.reservation "remaining cash reservation overflowed") book := by
  intro reserved filled
  exact ⟨⟨_, eq_error_after (by decide +kernel)⟩, ⟨_, eq_error_after (by decide +kernel)⟩,
    ⟨_, eq_error_after (by decide +kernel)⟩⟩

end Sample

end Oclob.Settlement
