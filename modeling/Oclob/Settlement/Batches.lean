import Oclob.Settlement.Engine

/-!
# Settling the batches of the book

`submit` hands the fills and the arriving remainder of a book transition to `settle_batch`, which
tests that they add up to the order (`conservesQuantity`), consumes the fills and, in
`reconcile_arriving`, tests that the remainder is what the fills left of the reservation.

The two crates disagree about an immediate-or-cancel order that is only partly filled. The book
reports its remainder as zero, settlement expects the quantity the fills left: it has a branch in
`reconcile_arriving` that releases that remainder, and the batch never reaches it.
`batch_settles_iff` says exactly when a batch passes both tests, `partly_filled_ioc_never_settles`
shows one that does not.
-/

namespace Oclob.Settlement

open Oclob.Core Oclob.Lib PrivateBook ReservationBook

section

variable [Crypto] {self : PrivateBook} {arriving : SecretOrder} {now : Nat}

/-- What the first eight live orders of the other side offer at a price that crosses. -/
def crossingQuantity (self : PrivateBook) (arriving : SecretOrder) (now : Nat) : Nat :=
  ((((self.live arriving.side now).take maxMatchSlots).filter fun order =>
    arriving.side.crosses arriving.limitPrice order.secret.limitPrice).map
      RestingOrder.remaining).sum

theorem unfilled_eq (hinv : self.Inv) :
    self.unfilled arriving now = arriving.quantity - crossingQuantity self arriving now := by
  unfold unfilled crossingQuantity
  rw [matchSlots_snd, sum_map_filter, batchOf, List.map_map]
  congr 2
  refine List.map_congr_left fun o ho => ?_
  exact offer_restingInput (hinv.side_of_mem_live (List.mem_of_mem_take ho))

omit [Crypto] in
/-- Below the word size the test is the equation it stands for. -/
theorem conservesQuantity_iff {fills : List PublicFill} {remaining quantity : Nat}
    (h : (fills.map PublicFill.quantity).sum < u64Bound) (hq : quantity < u64Bound) :
    conservesQuantity fills remaining quantity ↔
      (fills.map PublicFill.quantity).sum + remaining = quantity := by
  unfold conservesQuantity
  rw [checkedSum_eq_some h]
  simp only [Option.mem_some_iff, exists_eq_left', checkedAdd_eq_some]
  constructor
  · rintro ⟨-, heq⟩
    exact heq.symm
  · intro heq
    exact ⟨heq ▸ hq, heq.symm⟩

omit [Crypto] in
/-- The taker of every fill, and no maker, loses what the fills add up to. -/
theorem takenBy_taker {fills : List PublicFill} {c : Digest32}
    (h : ∀ fill ∈ fills, fill.takerOrder = c ∧ fill.makerOrder ≠ c) :
    takenBy fills c = (fills.map PublicFill.quantity).sum := by
  induction fills with
  | nil => rfl
  | cons fill fills ih =>
    obtain ⟨htaker, hmaker⟩ := h fill List.mem_cons_self
    rw [takenBy_cons, if_neg hmaker, if_pos htaker, Nat.zero_add,
      ih fun f hf => h f (List.mem_cons_of_mem _ hf), List.map_cons, List.sum_cons]

/-- What consuming the fills of a batch leaves of the arriving order's reservation. -/
theorem consumeFills_arriving (hinv : self.Inv) {authority : OrderAuthority} {seq : Nat}
    (hadm : Admits self arriving authority seq now) {reservations consumed : ReservationBook}
    {record : ReservationRecord}
    (hrecord : reservations.recordFor arriving.commitment = some record)
    (hwhole : record.remainingQuantity = arriving.quantity)
    (hconsumed : (consumeFills arriving.marketId now (slotFills authority.commitment
      (self.slotPairs arriving now))).run reservations = .ok () consumed) :
    ∃ recordAfter, consumed.recordFor arriving.commitment = some recordAfter ∧
      recordAfter.remainingQuantity = self.unfilled arriving now := by
  have hsum : _ + self.unfilled arriving now = arriving.quantity :=
    sum_slotFills authority.commitment
  have htaken : takenBy (slotFills authority.commitment (self.slotPairs arriving now))
      arriving.commitment = _ :=
    takenBy_taker fun fill hfill => by
      obtain ⟨o, ho, hmaker, htaker, -⟩ := mem_slotFills hfill
      refine ⟨htaker.trans hadm.commitment_eq, fun heq => hadm.fresh ?_⟩
      rw [hadm.commitment_eq, ← heq, hmaker]
      exact hinv.admitted o ho
  have htakes := consumeFills_takes (fun fill hfill => by
    obtain ⟨o, -, -, -, hpos, -⟩ := mem_slotFills hfill
    exact hpos) hconsumed arriving.commitment
  rw [hrecord, htaken] at htakes
  cases hafter : consumed.recordFor arriving.commitment with
  | none =>
    rw [hafter] at htakes
    cases htakes
  | some recordAfter =>
    rw [hafter] at htakes
    cases htakes with
    | some hconsumes =>
      refine ⟨recordAfter, rfl, ?_⟩
      rcases hconsumes with ⟨hzero, rfl⟩ | ⟨-, -, -, -, hleft, -, -⟩ <;> omega

/-- **When a batch settles.** For every book a run reaches, every order it accepts, and every
reservation book that still holds the order's whole quantity and in which the fills can be
consumed: the two quantity tests of settlement pass exactly when the order may rest or the
crossing quantity of the book covers it. -/
theorem batch_settles_iff {marketId : String} {book : PrivateBook}
    (hnew : new marketId = .ok book) (ops : List BookOp) {authority : OrderAuthority}
    {seq : Nat} {result : MpcBatchResult} {tr : BookTransition} {book' : PrivateBook}
    (hrun : (applyMpcBatchResult arriving authority seq now result).run
      (run ops book) = .ok tr book')
    {reservations consumed : ReservationBook} {record : ReservationRecord}
    (hrecord : reservations.recordFor arriving.commitment = some record)
    (hwhole : record.remainingQuantity = arriving.quantity)
    (hconsumed : (consumeFills arriving.marketId now tr.fills).run reservations =
      .ok () consumed) :
    (conservesQuantity tr.fills tr.arrivingRemaining arriving.quantity ∧
      ∃ recordAfter, consumed.recordFor arriving.commitment = some recordAfter ∧
        tr.arrivingRemaining = recordAfter.remainingQuantity) ↔
    (arriving.timeInForce = .goodTilCancelled ∨
      arriving.quantity ≤ crossingQuantity (run ops book) arriving now) := by
  have hinv := (inv_new hnew).run ops
  generalize run ops book = reached at hrun hinv ⊢
  obtain ⟨hadm, -, -, rfl⟩ := (applyMpcBatchResult_ok hinv.tidy fun o ho => hinv.pos ho).mp hrun
  have hsum : _ + reached.unfilled arriving now = arriving.quantity :=
    sum_slotFills authority.commitment
  have hword : arriving.quantity < u64Bound := arriving.words.2.1
  obtain ⟨recordAfter, hafter, hleft⟩ :=
    consumeFills_arriving hinv hadm hrecord hwhole hconsumed
  have hunfilled : reached.unfilled arriving now = arriving.quantity - _ := unfilled_eq hinv
  have hremaining : (reached.batchTransition arriving authority seq now).arrivingRemaining =
      if arriving.timeInForce = .goodTilCancelled then reached.unfilled arriving now else 0 :=
    arrivingRemaining_eq_unfilled
  have hfills : (reached.batchTransition arriving authority seq now).fills =
      slotFills authority.commitment (reached.slotPairs arriving now) := rfl
  rw [hremaining, hfills, conservesQuantity_iff (by omega) hword, hafter]
  simp only [Option.some.injEq, exists_eq_left', hleft]
  by_cases hgtc : arriving.timeInForce = .goodTilCancelled
  · simp only [hgtc, if_true, true_or, iff_true, and_true]
    exact hsum
  · simp only [hgtc, if_false, false_or]
    omega

end

section Witness

attribute [local instance] transparentCrypto

/-- A resting sell of 3, admitted as a batch without makers. -/
def sampleMaker : SecretOrder := sampleOrder .sell 100 3 .goodTilCancelled 1 fits_100_3

def sampleTaker (tif : TimeInForce) : SecretOrder := sampleOrder .buy 101 5 tif 2 fits_101_5

def sampleBatchOps : List BookOp :=
  [.applyMpcBatchResult sampleMaker (sampleAuthority sampleMaker) 1 1000
    ⟨[], 3, some [⟨.sell, 100, 3⟩]⟩]

/-- The reservations of both orders. -/
def sampleReservations (tif : TimeInForce) : ReservationBook :=
  let reserved (order : SecretOrder) : EStateM SettlementError ReservationBook Unit := do
    bindParticipant order.participantHandle order.dekyxNullifier 1000 1000
    reserve (settlementView order) 1
  after ((do reserved sampleMaker; reserved (sampleTaker tif)).run default)

/-- An order that may rest settles with its remainder. -/
theorem batch_settles_sample :
    let taker := sampleTaker .goodTilCancelled
    let book := run sampleBatchOps sampleBook
    let tr := book.batchTransition taker (sampleAuthority taker) 2 1000
    tr.fills.map PublicFill.quantity = [3] ∧ tr.arrivingRemaining = 2 ∧
      conservesQuantity tr.fills tr.arrivingRemaining taker.quantity := by
  intro taker book tr
  have hnew : new "JGB10Y-JPY" = .ok sampleBook := by decide
  have hinv : book.Inv := (inv_new hnew).run sampleBatchOps
  have hrun := (applyMpcBatchResult_ok hinv.tidy fun o ho => hinv.pos ho).mpr
    ⟨show Admits book taker (sampleAuthority taker) 2 1000 by decide +kernel, rfl, rfl, rfl⟩
  have hrecord : (sampleReservations .goodTilCancelled).recordFor taker.commitment =
      some (newRecord (settlementView taker) 1) := by decide +kernel
  have hconsumed := eq_ok_after (show succeeds ((consumeFills taker.marketId 1000 tr.fills).run
    (sampleReservations .goodTilCancelled)) = true by decide +kernel)
  exact ⟨by decide +kernel, by decide +kernel,
    ((batch_settles_iff hnew sampleBatchOps hrun hrecord rfl hconsumed).mpr (Or.inl rfl)).1⟩

/-- **A partly filled immediate-or-cancel order never settles.** A buy of 5 takes the 3 that rest.
The book accepts the batch and reports nothing left; the fills do not add up to the order, and
`settle_batch` refuses them in every state. -/
theorem partly_filled_ioc_never_settles :
    let taker := sampleTaker .immediateOrCancel
    ∃ tr book, (applyMpcBatchResult taker (sampleAuthority taker) 2 1000
        ⟨[⟨true, 100, 3⟩], 0, some []⟩).run (run sampleBatchOps sampleBook) =
          .ok tr book ∧
      tr.fills.map PublicFill.quantity = [3] ∧
      ¬ conservesQuantity tr.fills tr.arrivingRemaining taker.quantity ∧
      ∀ backend engine, (SettlementEngine.settleBatch backend tr.fills (settlementView taker)
        tr.arrivingRemaining 1000).run engine = .error (.reservation
          "fills and arriving remainder do not conserve order quantity") engine := by
  intro taker
  have hnew : new "JGB10Y-JPY" = .ok sampleBook := by decide
  have hinv := (inv_new hnew).run sampleBatchOps
  have hadm : Admits (run sampleBatchOps sampleBook) taker (sampleAuthority taker) 2
      1000 := by decide +kernel
  have hresult : ⟨[⟨true, 100, 3⟩], 0, some []⟩ =
      expectedBatch ((run sampleBatchOps sampleBook).batchOf taker 1000) := by
    decide +kernel
  have hrun := (applyMpcBatchResult_ok hinv.tidy fun o ho => hinv.pos ho).mpr
    ⟨hadm, hresult, rfl, rfl⟩
  refine ⟨_, _, hrun, by decide +kernel, by decide +kernel, ?_⟩
  exact SettlementEngine.settleBatch_refuses (by decide +kernel) (by decide +kernel)
    (by decide +kernel) (show _ = some 3 by decide +kernel) (by decide +kernel)

end Witness

end Oclob.Settlement
