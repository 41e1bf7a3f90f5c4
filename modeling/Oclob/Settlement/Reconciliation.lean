import Oclob.Settlement.Collaborative
import Oclob.Settlement.Batches

/-!
# Two ways to reconcile an arriving order

`reconcile_arriving` recomputes from the order what its remainder must keep and derives the status
from what is unused; `reconcile_arriving_collaborative` trusts the record. A fill leaves the
record with exactly the reserve its remainder needs (`Normal`), so after one fill or more both
end alike: `reconcile_paths_agree`.

An order is a `SecretOrder` under the identity it settles with: its own commitment, or the
manifest commitment of a verified capability.
-/

namespace Oclob.Settlement

open Oclob.Core Oclob.Lib ReservationBook

/-- Calls of `consume_fill`, each with its own market and clock. -/
def consumeCalls : List (PublicFill × String × Nat) → EStateM SettlementError ReservationBook Unit
  | [] => pure ()
  | (fill, marketId, now) :: rest => do
    let _ ← consumeFill fill marketId now
    consumeCalls rest

/-- What `consume_record` leaves: the reserve of the remainder, and the status it implies. -/
structure Normal (record : ReservationRecord) : Prop where
  required : record.requiredFor record.remainingQuantity = some record.remaining
  status : record.status = if record.remainingQuantity = 0 then .consumed else .active

variable {self book : ReservationBook} {record stored : ReservationRecord}

theorem requiredFor_of_updates (h : Updates record stored) (quantity : Nat) :
    record.requiredFor quantity = stored.requiredFor quantity := by
  rw [h]
  rfl

/-- **One fill** leaves the taker's record normal. -/
theorem normal_of_consumeFill {fill : PublicFill} {marketId : String} {now : Nat}
    {consumed : ConsumedFill} (hrun : (consumeFill fill marketId now).run self = .ok consumed book)
    (htaker : self.recordFor fill.takerOrder = some record) (hupd : Updates record stored) :
    ∃ next, book.recordFor fill.takerOrder = some next ∧ Updates next stored ∧ Normal next := by
  obtain ⟨maker, taker, makerAfter, takerAfter, hjoin, -, ⟨spent, hconsume⟩, hrecords⟩ :=
    consumeFill_ok hrun
  obtain rfl := Option.some.inj (htaker.symm.trans hjoin.taker_eq)
  obtain ⟨hnext, -, -, hstatus, hrequired⟩ := consumeRecord_ok hconsume
  refine ⟨takerAfter, by rw [hrecords, if_pos rfl], ?_, ?_, hstatus⟩
  · rw [hupd] at hnext
    exact hnext
  · rwa [requiredFor_of_updates hnext]

/-- **One fill or more** leave the record of their taker normal. -/
theorem normal_of_consumeCalls {commitment : Digest32} {calls : List (PublicFill × String × Nat)}
    (hcalls : calls ≠ []) (htaker : ∀ call ∈ calls, call.1.takerOrder = commitment) {u : Unit}
    (hrun : (consumeCalls calls).run self = .ok u book)
    (hrecord : self.recordFor commitment = some record) (hupd : Updates record stored) :
    ∃ next, book.recordFor commitment = some next ∧ Updates next stored ∧ Normal next := by
  induction calls generalizing self record with
  | nil => exact absurd rfl hcalls
  | cons call rest ih =>
    obtain ⟨fill, marketId, now⟩ := call
    obtain ⟨rfl, hrest⟩ := List.forall_mem_cons.mp htaker
    obtain ⟨consumed, mid, hfill, hmore⟩ := run_bind_eq_ok.mp hrun
    obtain ⟨next, hnext, hnextUpd, hnormal⟩ := normal_of_consumeFill hfill hrecord hupd
    rcases eq_or_ne rest [] with rfl | hne
    · obtain ⟨-, rfl⟩ := run_pure_eq_ok.mp hmore
      exact ⟨next, hnext, hnextUpd, hnormal⟩
    · exact ih hne hrest hmore hnext hnextUpd

/-- The order as it settles under an identity. -/
def settledAs [Crypto] (order : SecretOrder) (commitment : Digest32) : SettlementOrderView :=
  { settlementView order with commitment }

/-- What the remainder of an order must keep, from the order and from its record. -/
theorem requiredFor_newRecord [Crypto] (order : SecretOrder) (commitment reserve : Digest32)
    (quantity : Nat) :
    (newRecord (settledAs order commitment) reserve).requiredFor quantity =
      if quantity = 0 then some 0
      else requiredReserve order.side order.limitPrice quantity order.maxFee := by
  unfold ReservationRecord.requiredFor newRecord settledAs settlementView requiredReserve
  cases order.side <;> rfl

/-- A remainder needs a reserve: prices are positive. -/
theorem requiredReserve_pos {order : SecretOrder} {quantity required : Nat} (hq : quantity ≠ 0)
    (h : requiredReserve order.side order.limitPrice quantity order.maxFee = some required) :
    0 < required := by
  unfold requiredReserve at h
  split at h
  · simp only [Option.bind_eq_some_iff, checkedMul_eq_some, checkedAdd_eq_some] at h
    obtain ⟨value, ⟨-, rfl⟩, -, rfl⟩ := h
    have hpos := Nat.mul_pos order.positive.1 (Nat.pos_of_ne_zero hq)
    omega
  · obtain rfl := Option.some.inj h
    exact Nat.pos_of_ne_zero hq

/-- **Both reconciliations of an arriving order agree.** After any nonempty sequence of successful
fills with the order as taker, both refuse a reported remainder, or both return the same value and
leave the same book. -/
theorem reconcile_paths_agree [Crypto] (order : SecretOrder) (commitment reserve : Digest32)
    (hrecord : self.recordFor commitment = some record)
    (hown : Updates record (newRecord (settledAs order commitment) reserve))
    {calls : List (PublicFill × String × Nat)} (hcalls : calls ≠ [])
    (htaker : ∀ call ∈ calls, call.1.takerOrder = commitment)
    (hrun : (consumeCalls calls).run self = .ok () book) (remaining : Nat) :
    (∃ e₁ e₂, (reconcileArriving (settledAs order commitment) remaining).run book = .error e₁ book ∧
      (reconcileArrivingCollaborative commitment remaining).run book = .error e₂ book) ∨
    ∃ value next, (reconcileArriving (settledAs order commitment) remaining).run book =
        .ok value next ∧
      (reconcileArrivingCollaborative commitment remaining).run book = .ok value next := by
  obtain ⟨last, hlast, hupd, hnormal⟩ := normal_of_consumeCalls hcalls htaker hrun hrecord hown
  have hrequired := hnormal.required
  rw [requiredFor_of_updates hupd, requiredFor_newRecord] at hrequired
  have htif : last.timeInForce = order.timeInForce := by
    rw [hupd]
    rfl
  have hview : book.recordFor (settledAs order commitment).commitment = some last := hlast
  rw [reconcileArriving, reconcileArrivingCollaborative, run_get_bind, run_get_bind, hview, hlast]
  simp only [okOr]
  rw [run_attempt_ok_bind, run_attempt_ok_bind, run_ensure_bind]
  by_cases hr : remaining = last.remainingQuantity
  case neg =>
    -- the reported remainder is refused, or the order's own requirement overflows before that
    rw [if_neg hr]
    cases hown : requiredRemainder (settledAs order commitment) remaining with
    | none => exact Or.inl ⟨_, _, rfl, rfl⟩
    | some required =>
      rw [run_attempt_ok_bind, run_ensure_bind, if_neg hr]
      exact Or.inl ⟨_, _, rfl, rfl⟩
  subst hr
  refine Or.inr ?_
  rw [if_pos rfl]
  have hremainder : requiredRemainder (settledAs order commitment) last.remainingQuantity =
      if last.remainingQuantity = 0 ∨ last.timeInForce = .immediateOrCancel then some 0
      else some last.remaining := by
    rw [htif, ← hrequired]
    refine if_ctx_congr Iff.rfl (fun _ => rfl) fun hrests => ?_
    exact (if_neg (not_or.mp hrests).1).symm
  have hpos : last.remainingQuantity ≠ 0 → 0 < last.remaining := fun hq =>
    requiredReserve_pos hq (by rwa [if_neg hq] at hrequired)
  have hzero : last.remainingQuantity = 0 → last.remaining = 0 := fun hq => by
    rw [if_pos hq] at hrequired
    exact (Option.some.inj hrequired).symm
  rw [hremainder]
  by_cases hends : last.remainingQuantity = 0 ∨ last.timeInForce = .immediateOrCancel
  · rw [if_pos hends, if_pos hends]
    simp only
    rw [run_attempt_ok_bind, run_ensure_bind, if_pos rfl, run_ensure_bind, if_pos (Nat.zero_le _)]
    refine ⟨0, _, rfl, ?_⟩
    have hstatus : (if last.remainingQuantity = 0 then ReservationStatus.consumed else .released) =
        if 0 < last.remaining then .released else .consumed := by
      by_cases hq : last.remainingQuantity = 0
      · rw [if_pos hq, hzero hq, if_neg (lt_irrefl 0)]
      · rw [if_neg hq, if_pos (hpos hq)]
    rw [run_set_bind, hstatus]
    rfl
  · obtain ⟨hq, -⟩ := not_or.mp hends
    rw [if_neg hends, if_neg hends]
    simp only
    rw [run_attempt_ok_bind, run_ensure_bind, if_pos rfl, run_ensure_bind, if_pos le_rfl]
    refine ⟨last.remaining, _, rfl, ?_⟩
    rw [run_set_bind]
    simp only [hpos hq, if_true]
    rfl

section Sample

attribute [local instance] transparentCrypto

/-- A buy of 5 takes the 3 that rest. -/
def sampleCalls : List (PublicFill × String × Nat) :=
  [(⟨sampleMaker.commitment, (sampleTaker .goodTilCancelled).commitment, 100, 3⟩, "JGB10Y-JPY",
    1000)]

theorem reconcile_paths_agree_sample :
    let taker := sampleTaker .goodTilCancelled
    let book := after ((consumeCalls sampleCalls).run (sampleReservations .goodTilCancelled))
    ∃ value next, (reconcileArriving (settledAs taker taker.commitment) 2).run book =
        .ok value next ∧
      (reconcileArrivingCollaborative taker.commitment 2).run book = .ok value next := by
  intro taker book
  have hrecord : (sampleReservations .goodTilCancelled).recordFor taker.commitment =
      some (newRecord (settledAs taker taker.commitment) 1) := by decide +kernel
  have hrun := eq_ok_after (show succeeds ((consumeCalls sampleCalls).run
    (sampleReservations .goodTilCancelled)) = true by decide +kernel)
  have hok : succeeds ((reconcileArrivingCollaborative taker.commitment 2).run book) = true := by
    decide +kernel
  rcases reconcile_paths_agree taker taker.commitment 1 hrecord rfl (by simp [sampleCalls])
    (by simp [sampleCalls, taker]) hrun 2 with ⟨_, _, -, herror⟩ | hsame
  · rw [herror] at hok
    exact Bool.noConfusion hok
  · exact hsame

end Sample

end Oclob.Settlement
