import Oclob.Service.Positions
import Oclob.Service.Service

/-!
# The book and the reservations agree

`OclobService` changes its book through `oclob-core` and its reservations through
`oclob-settlement`; nothing in the code compares the two. `Agrees` says that they hold the same
open positions. Expiry and cancellation close the same positions on both sides
(`Agrees.stageExpiry`, `Agrees.stageCancellation`); a submission opens the position of the arriving
order, takes the same quantities off the makers and leaves the same remainder open
(`Agrees.submission`). Staged copies are written back together or not at all, so every call keeps
the agreement, and `book_agrees_with_reservations` is its form over whole runs: the resting orders
and the active records are in bijection.
-/

namespace Oclob.Service

open Oclob.Core Oclob.Lib Oclob.Settlement PrivateBook ReservationBook

section

variable [Crypto]

/-! ## What a batch does to the positions -/

section

variable {book : PrivateBook} {order : SecretOrder} {authority : OrderAuthority} {seq now : Nat}

/-- The position an arriving order keeps open with the given remainder. -/
def restingPosition (order : SecretOrder) (remaining : Nat) : Option Position :=
  if 0 < remaining ∧ order.timeInForce = .goodTilCancelled then
    some ⟨kindOf order.side, order.limitPrice, order.expiresAt, remaining⟩
  else none

theorem fresh_bookPositions (hinv : book.Inv) (hadm : Admits book order authority seq now) :
    bookPositions book order.commitment = none := by
  rw [Option.eq_none_iff_forall_ne_some]
  intro p hp
  obtain ⟨o, ho, hc, -⟩ := (bookPositions_eq_some hinv.tidy).mp hp
  refine hadm.fresh ?_
  rw [hadm.commitment_eq, ← hc]
  exact hinv.admitted o ho

/-- **A batch** takes what it trades off the makers and opens the rest of the arriving order. -/
theorem bookPositions_afterBatch (hinv : book.Inv)
    (hadm : Admits book order authority seq now) :
    bookPositions (book.afterBatch order authority seq now) =
      ((bookPositions book).take (traded (book.slotPairs order now))).set order.commitment
        (restingPosition order
          (expectedBatch (book.batchOf order now)).arrivingRemaining) := by
  have hreduce := bookPositions_reduceBy hinv.tidy (traded (book.slotPairs order now))
  have hedit : (book.editOrders (reduceBy (traded (book.slotPairs order now)))).Inv :=
    hinv.editOrders fun o _ => shrinks_reduceBy o
  have hinv' := hinv.afterBatch hadm
  unfold PrivateBook.afterBatch restRemainder restingPosition at *
  split
  · rename_i hrest
    rw [if_pos hrest] at hinv'
    have ht := hinv'.tidy
    rw [bookPositions_advance,
      bookPositions_insertRecord hedit.tidy ⟨ht.bids_noEmpty, ht.asks_noEmpty, ht.distinct⟩,
      hreduce, ← hadm.commitment_eq]
    · rfl
    · intro hmem
      obtain ⟨o, ho, hc⟩ := List.mem_map.mp hmem
      have hcommit : o.commitment = authority.commitment := hc
      exact hadm.fresh (hcommit ▸ hedit.admitted o ho)
  · rw [bookPositions_advance, hreduce, Positions.set_none]
    unfold Positions.take
    rw [fresh_bookPositions hinv hadm]
    rfl

omit [Crypto] in
/-- The makers of a batch lose what it trades. -/
theorem takenBy_slotFills {taker c : Digest32} (hc : c ≠ taker)
    (pairs : List (PrivateRestingInput × MpcSlotResult)) :
    takenBy (slotFills taker pairs) c = traded pairs c := by
  have htaker : ∀ fill ∈ slotFills taker pairs, fill.takerOrder ≠ c := fun fill hfill => by
    obtain ⟨pair, -, hsome⟩ := List.mem_filterMap.mp hfill
    split at hsome
    · obtain rfl := Option.some.inj hsome
      exact hc.symm
    · exact absurd hsome (by simp)
  rw [← makers_slotFills taker]
  generalize slotFills taker pairs = fills at htaker
  induction fills with
  | nil => rfl
  | cons fill fills ih =>
    rw [takenBy_cons, if_neg (htaker fill List.mem_cons_self),
      ih fun f hf => htaker f (List.mem_cons_of_mem _ hf), List.map_cons, tally_cons, Nat.zero_add]

/-- What the arriving order keeps reserved is positive exactly when its remainder may rest. -/
theorem requiredRemainder_pos {remaining required : Nat}
    (h : requiredRemainder (settlementView order) remaining = some required) :
    0 < required ↔ 0 < remaining ∧ order.timeInForce = .goodTilCancelled := by
  unfold requiredRemainder at h
  split at h
  · rename_i hnone
    rw [← Option.some.inj h]
    refine iff_of_false (lt_irrefl 0) fun hrest => ?_
    rcases hnone with hz | hioc
    · omega
    · exact absurd (hioc.symm.trans hrest.2) (by decide)
  · rename_i hrest
    obtain ⟨hne, htif⟩ := not_or.mp hrest
    have hgtc : order.timeInForce = .goodTilCancelled := by
      cases htime : order.timeInForce with
      | goodTilCancelled => rfl
      | immediateOrCancel => exact absurd htime htif
    refine iff_of_true ?_ ⟨Nat.pos_of_ne_zero hne, hgtc⟩
    unfold requiredReserve at h
    split at h
    · obtain ⟨value, hvalue, hsum⟩ := Option.bind_eq_some_iff.mp h
      have hmul := (checkedMul_eq_some.mp hvalue).2
      have hadd := (checkedAdd_eq_some.mp hsum).2
      have hpos : 0 < order.limitPrice * remaining :=
        Nat.mul_pos order.limitPrice_pos (Nat.pos_of_ne_zero hne)
      have hval : value = order.limitPrice * remaining := hmul
      omega
    · have := Option.some.inj h
      omega

omit [Crypto] in
theorem fields_of_updates {r r' : ReservationRecord} (h : Updates r' r) :
    r'.kind = r.kind ∧ r'.limitPrice = r.limitPrice ∧ r'.expiresAt = r.expiresAt := by
  rw [h]
  exact ⟨rfl, rfl, rfl⟩

/-- Consuming the fills of an order just reserved and reconciling it leaves its remainder open. -/
theorem reconciled_positions {fills : List PublicFill} {before reserved consumed
    after : ReservationBook} {reserveCommitment : Digest32} {remaining required : Nat}
    (hpos : ∀ fill ∈ fills, 0 < fill.quantity)
    (hlive : (reservedPositions before).Live) (hs : AllSettled before)
    (hreserve : ∀ c, reserved.recordFor c = if c = order.commitment then
      some (newRecord (settlementView order) reserveCommitment) else before.recordFor c)
    (hconsume : (consumeFills order.marketId now fills).run reserved = .ok () consumed)
    (hreconcile : (reconcileArriving (settlementView order) remaining).run consumed =
      .ok required after) :
    reservedPositions after = ((reservedPositions before).take (takenBy fills)).set
      order.commitment (restingPosition order remaining) ∧ AllSettled after := by
  have hnew : openPosition (newRecord (settlementView order) reserveCommitment) =
    some ⟨kindOf order.side, order.limitPrice, order.expiresAt, order.quantity⟩ := rfl
  have hreserved := reservedPositions_write hreserve
  have hlive' : (reservedPositions reserved).Live := fun c p hp => by
    rw [hreserved, hnew, Positions.set] at hp
    split at hp
    · rw [← Option.some.inj hp]
      exact order.quantity_pos
    · exact hlive c p hp
  have hs' : AllSettled reserved := hs.write (fun h => absurd rfl h) hreserve
  obtain ⟨htake, hs''⟩ := reservedPositions_consumeFills hpos hconsume hlive' hs'
  obtain ⟨record, recordAfter, hrecord, -, hupd, hrequired, -, hreserve', hquantity, hstatus,
    hwrite⟩ := reconcileArriving_ok hreconcile
  -- the record still names the order it was made for
  have hfields : record.kind = kindOf order.side ∧ record.limitPrice = order.limitPrice ∧
      record.expiresAt = order.expiresAt := by
    have hrel := consumeFills_takes hpos hconsume order.commitment
    rw [hreserve, if_pos rfl, show consumed.recordFor order.commitment = some record from
      hrecord] at hrel
    cases hrel with
    | some hconsumes =>
      rcases hconsumes with ⟨-, rfl⟩ | ⟨-, -, -, hupd, -⟩
      · exact ⟨rfl, rfl, rfl⟩
      · exact fields_of_updates hupd
  obtain ⟨hkind, hprice, hexp⟩ := fields_of_updates hupd
  have hiff := requiredRemainder_pos hrequired
  have hopen : openPosition recordAfter = restingPosition order remaining := by
    unfold openPosition restingPosition
    rw [hstatus, hkind, hprice, hexp, hquantity, hfields.1, hfields.2.1, hfields.2.2]
    by_cases hr : 0 < required
    · rw [if_pos hr, if_pos rfl, if_pos hr, if_pos (hiff.mp hr)]
    · rw [if_neg hr, if_neg fun h => hr (hiff.mpr h), if_neg]
      split <;> decide
  have hsettled : Settled recordAfter := fun hnot => by
    by_cases hr : 0 < required
    · rw [hstatus, if_pos hr] at hnot
      exact absurd rfl hnot
    · rw [hquantity, if_neg hr, hreserve']
      omega
  refine ⟨?_, hs''.write hsettled hwrite⟩
  rw [reservedPositions_write hwrite, hopen, htake, hreserved]
  exact Positions.set_take_set (fun _ _ => rfl) _ _

end

/-! ## The staged calls -/

namespace OclobService

variable {Ordering Eligibility : Type} {self next : OclobService Ordering Eligibility}
  {ext : Externals Ordering Eligibility} {now : Nat}

/-- The book and the reservations hold the same open positions. -/
structure Agrees (service : OclobService Ordering Eligibility) : Prop where
  inv : service.book.Inv
  same : bookPositions service.book = reservedPositions service.settlement.reservations
  settled : AllSettled service.settlement.reservations

theorem Agrees.live (h : self.Agrees) :
    (reservedPositions self.settlement.reservations).Live :=
  h.same ▸ live_bookPositions h.inv

omit [Crypto] in
theorem releaseAll_singleton {before after : ReservationBook} {c : Digest32}
    (h : (ReservationBook.releaseOrder c).run before = .ok () after) :
    (SettlementEngine.releaseAll [c]).run before = .ok () after :=
  run_bind_eq_ok.mpr ⟨(), after, h, rfl⟩

/-- Closing the same positions on both sides. -/
theorem Agrees.closed (h : self.Agrees) {cs : List Digest32} {command : Digest32}
    {reservations : ReservationBook}
    (hrelease : (SettlementEngine.releaseAll cs).run self.settlement.reservations =
      .ok () reservations)
    (hnext : next.book = (self.book.editOrders (dropOrders cs)).advance command
      (self.book.sequence + 1))
    (hres : next.settlement.reservations = reservations) : next.Agrees := by
  obtain ⟨hpos, hall⟩ := reservedPositions_releaseAll hrelease h.settled
  refine ⟨?_, ?_, hres ▸ hall⟩
  · rw [hnext]
    exact (h.inv.editOrders fun o ho => h.inv.shrinks_dropOrders cs ho).advance command
  · rw [hnext, hres, hpos, bookPositions_advance, bookPositions_dropOrders h.inv.tidy, h.same]

theorem Agrees.stageExpiry (h : self.Agrees) (hstage : self.stageExpiry ext now = .ok next) :
    next.Agrees := by
  unfold OclobService.stageExpiry at hstage
  simp only [ok_rules] at hstage
  obtain ⟨⟨seq, ordering⟩, -, ⟨transition, book⟩, hbook, -, -, ⟨⟨⟩, settlement⟩, hrelease,
    rfl⟩ := hstage
  obtain ⟨hexp, -, rfl, -⟩ := applyExpiry_ok h.inv.tidy (stage_eq_ok.mp hbook)
  obtain ⟨⟨⟩, engine, hnonempty, hcommit⟩ := run_bind_eq_ok.mp (stage_eq_ok.mp hrelease)
  obtain ⟨-, rfl⟩ := run_ensure_eq_ok.mp hnonempty
  exact h.closed (SettlementEngine.commitReservations_ok hcommit).1 (by rw [hexp.next]) rfl

theorem Agrees.stageCancellation (h : self.Agrees) {cancellation : SecretCancellation}
    (hstage : self.stageCancellation ext cancellation now = .ok next) : next.Agrees := by
  unfold OclobService.stageCancellation at hstage
  simp only [ok_rules] at hstage
  obtain ⟨⟨seq, ordering⟩, -, ⟨transition, book⟩, hbook, -, -, ⟨⟨⟩, settlement⟩, hrelease,
    rfl⟩ := hstage
  obtain ⟨target, hcancel, rfl, -⟩ := applyCancellation_ok h.inv.tidy (stage_eq_ok.mp hbook)
  have hone := (SettlementEngine.commitReservations_ok (stage_eq_ok.mp hrelease)).1
  rw [← hcancel.named] at hone
  exact h.closed (releaseAll_singleton hone) (by rw [hcancel.next]) rfl

variable {order : SecretOrder} {authority : OrderAuthority}
  {staged : StagedSubmission Ordering Eligibility} {settlement : SettlementEngine}
  {ext' : Externals Ordering Eligibility} {now' : Nat}

/-- What `stage_with_assurance` has checked and staged. -/
theorem stageSubmission_ok (hinv : self.book.Inv)
    (h : self.stageSubmission ext order authority now = .ok staged) :
    ∃ seq, Admits self.book order authority seq now ∧
      staged.book = self.book.afterBatch order authority seq now ∧
      staged.transition = self.book.batchTransition order authority seq now ∧
      ∀ c, staged.settlement.reservations.recordFor c = if c = order.commitment then
        some (newRecord (settlementView order) ext.reserveCommitment)
        else self.settlement.reservations.recordFor c := by
  unfold stageSubmission at h
  simp only [ok_rules] at h
  obtain ⟨-, -, -, -, -, -, -, -, ⟨subject, eligibility⟩, -, ⟨⟨⟩, bound⟩, hbind,
    ⟨⟨⟩, reserved⟩, hreserve, ⟨seq, ordering⟩, -, input, -, result, -, ⟨transition, book⟩, hbook,
    -, -, rfl⟩ := h
  obtain ⟨hadm, -, rfl, rfl⟩ :=
    (applyMpcBatchResult_ok hinv.tidy fun o ho => hinv.pos ho).mp (stage_eq_ok.mp hbook)
  have hcommit := SettlementEngine.commitReservations_ok (stage_eq_ok.mp hreserve)
  obtain ⟨-, hwrite⟩ := reserve_ok hcommit.1
  refine ⟨seq, hadm, rfl, rfl, fun c => ?_⟩
  rw [hwrite c, SettlementEngine.bindEligibleParticipant_recordFor (stage_eq_ok.mp hbind)]
  rfl

omit [Crypto] in
/-- A batch without fills trades nothing. -/
theorem traded_eq_zero_of_slotFills {taker : Digest32} (hfills : slotFills taker
    (self.book.slotPairs order now) = []) (c : Digest32) :
    traded (self.book.slotPairs order now) c = 0 := by
  rw [← makers_slotFills taker, hfills]
  rfl

/-- **A submission** that reaches its end keeps the agreement. -/
theorem Agrees.submission (h : self.Agrees)
    (hstage : self.stageSubmission ext order authority now = .ok staged)
    (hfinish : finishSubmission ext' order now' staged = .ok settlement) :
    Agrees { self with
      book := staged.book
      ordering := staged.ordering
      settlement
      eligibility := staged.eligibility } := by
  obtain ⟨seq, hadm, hbook, htr, hreserve⟩ := stageSubmission_ok h.inv hstage
  have hafter := bookPositions_afterBatch h.inv hadm
  have hinv := h.inv.afterBatch hadm
  have hreserved := reservedPositions_write hreserve
  have hs' : AllSettled staged.settlement.reservations :=
    h.settled.write (fun hnot => absurd rfl hnot) hreserve
  have hfills : staged.transition.fills =
      slotFills authority.commitment (self.book.slotPairs order now) := by
    rw [htr]
    rfl
  have hremaining : staged.transition.arrivingRemaining =
      (expectedBatch (self.book.batchOf order now)).arrivingRemaining := by
    rw [htr]
    rfl
  unfold finishSubmission at hfinish
  split at hfinish
  · -- nothing traded: the order rests whole, or is released
    rename_i hempty
    rw [hfills] at hempty
    rw [(live_bookPositions h.inv).take_zero (traded_eq_zero_of_slotFills hempty)] at hafter
    split at hfinish
    · rename_i hioc
      obtain ⟨⟨⟨⟩, engine⟩, hrelease, hpure⟩ := except_bind_eq_ok.mp hfinish
      obtain rfl := Except.ok.inj hpure
      have hone := (SettlementEngine.commitReservations_ok
        (stage_eq_ok.mp (mapError_eq_ok.mp hrelease))).1
      obtain ⟨hpos, hall⟩ := reservedPositions_releaseAll (releaseAll_singleton hone) hs'
      refine ⟨hbook ▸ hinv, ?_, hall⟩
      have hnone : restingPosition order
          (expectedBatch (self.book.batchOf order now)).arrivingRemaining = none :=
        if_neg fun hrest => absurd (hioc.symm.trans hrest.2) (by decide)
      rw [hbook, hafter, hnone, hpos, hreserved, Positions.close_singleton, h.same]
      exact Positions.set_congr (fun c hc => (if_neg hc).symm) none
    · rename_i hgtc
      obtain rfl := Except.ok.inj hfinish
      refine ⟨hbook ▸ hinv, ?_, hs'⟩
      have htif : order.timeInForce = .goodTilCancelled := by
        cases htime : order.timeInForce with
        | goodTilCancelled => rfl
        | immediateOrCancel => exact absurd htime hgtc
      have hwhole : _ + self.book.unfilled order now = order.quantity :=
        sum_slotFills authority.commitment
      rw [hempty] at hwhole
      have hrest : (expectedBatch (self.book.batchOf order now)).arrivingRemaining =
          order.quantity := by
        rw [arrivingRemaining_eq_unfilled, if_pos htif, ← hwhole]
        exact (Nat.zero_add _).symm
      have hopen : restingPosition order order.quantity =
          openPosition (newRecord (settlementView order) ext.reserveCommitment) :=
        if_pos ⟨order.quantity_pos, htif⟩
      rw [hbook, hafter, hrest, hopen, hreserved, h.same]
  · obtain ⟨⟨⟨⟩, engine⟩, hsettle, hpure⟩ := except_bind_eq_ok.mp hfinish
    obtain rfl := Except.ok.inj hpure
    obtain ⟨-, consumed, reconciled, required, hconsume, hreconcile, hrecords⟩ :=
      SettlementEngine.settleBatch_ok (stage_eq_ok.mp (mapError_eq_ok.mp hsettle))
    obtain ⟨hpos, hall⟩ := reconciled_positions (fun fill hfill => by
      rw [hfills] at hfill
      obtain ⟨o, -, -, -, hq, -⟩ := mem_slotFills hfill
      exact hq) h.live h.settled hreserve hconsume hreconcile
    refine ⟨hbook ▸ hinv, ?_, hall.congr hrecords⟩
    rw [hbook, hafter, reservedPositions_congr hrecords, hpos, hremaining, h.same, hfills]
    refine Positions.set_congr (fun c hc => ?_) _
    unfold Positions.take
    rw [takenBy_slotFills (hadm.commitment_eq ▸ hc)]

/-! ## Calls and runs -/

/-- **One call** keeps the agreement, whether it succeeds or not. -/
theorem Agrees.apply (h : self.Agrees) (call : Call Ordering Eligibility) :
    (self.apply call).Agrees :=
  apply_keeps call Agrees.stageExpiry (fun hself hstage => hself.stageCancellation hstage)
    Agrees.submission h

theorem Agrees.run (h : self.Agrees) (calls : List (Call Ordering Eligibility)) :
    (OclobService.run calls self).Agrees := by
  induction calls generalizing self with
  | nil => exact h
  | cons call calls ih => exact ih (h.apply call)

variable {marketId : String} {first second : Digest32} {ordering : Except String Ordering}
  {mpc : Except String Unit} {eligibility : Eligibility}

theorem agrees_new (h : new marketId first second ordering mpc eligibility = .ok self) :
    self.Agrees := by
  unfold new at h
  simp only [ok_rules] at h
  obtain ⟨book, hbook, ordering, -, -, -, rfl⟩ := h
  refine ⟨inv_new hbook, ?_, fun c r hr => ?_⟩
  · unfold PrivateBook.new at hbook
    split at hbook
    · obtain rfl := Except.ok.inj hbook
      rfl
    · exact absurd hbook (by simp)
  · exact absurd hr (by simp [SettlementEngine.new, ReservationBook.default, recordFor,
      OrdMap.values, OrdMap.empty])

/-! ## The bijection -/

/-- The record holds the reserve of exactly this resting order. -/
structure Backs (r : ReservationRecord) (o : RestingOrder) : Prop where
  commitment : r.orderCommitment = o.commitment
  remaining : r.remainingQuantity = o.remaining
  kind : r.kind = kindOf o.secret.side
  limitPrice : r.limitPrice = o.secret.limitPrice
  expiresAt : r.expiresAt = o.secret.expiresAt

/-- The active records. -/
def ActiveRecord (reservations : ReservationBook) :=
  { r : ReservationRecord // r ∈ reservations.records.values ∧ r.status = .active }

omit [Crypto] in
theorem mem_values_iff {reservations : ReservationBook} {r : ReservationRecord} :
    r ∈ reservations.records.values ↔ reservations.recordFor r.orderCommitment = some r := by
  rw [recordFor_eq_some, OrdMap.mem_values]
  constructor
  · rintro ⟨id, hid⟩
    rw [reservations.keyed id r hid]
    exact ⟨hid, rfl⟩
  · rintro ⟨hr, -⟩
    exact ⟨_, hr⟩

omit [Crypto] in
theorem backs_iff {r : ReservationRecord} {o : RestingOrder} (hactive : r.status = .active) :
    Backs r o ↔ r.orderCommitment = o.commitment ∧ openPosition r = some (positionOf o) := by
  unfold openPosition positionOf
  rw [if_pos hactive]
  simp only [Option.some.injEq, Position.mk.injEq]
  constructor
  · rintro ⟨hc, hq, hk, hp, he⟩
    exact ⟨hc, hk, hp, he, hq⟩
  · rintro ⟨hc, hk, hp, he, hq⟩
    exact ⟨hc, hq, hk, hp, he⟩

theorem Agrees.exists_record (h : self.Agrees) (o : { o // o ∈ self.book.orders }) :
    ∃ r : ActiveRecord self.settlement.reservations, Backs r.1 o.1 := by
  have hpos := (bookPositions_eq_some h.inv.tidy).mpr ⟨o.1, o.2, rfl, rfl⟩
  rw [h.same] at hpos
  obtain ⟨r, hrec, hopen⟩ := Option.bind_eq_some_iff.mp hpos
  have hactive : r.status = .active := by
    by_contra hnot
    rw [openPosition, if_neg hnot] at hopen
    exact absurd hopen (by simp)
  have hc := (recordFor_eq_some.mp hrec).2
  exact ⟨⟨r, mem_values_iff.mpr (hc ▸ hrec), hactive⟩, (backs_iff hactive).mpr ⟨hc, hopen⟩⟩

theorem Agrees.exists_order (h : self.Agrees)
    (r : ActiveRecord self.settlement.reservations) : ∃ o ∈ self.book.orders, Backs r.1 o := by
  obtain ⟨r, hmem, hactive⟩ := r
  have hpos : reservedPositions self.settlement.reservations r.orderCommitment =
      openPosition r := by
    rw [reservedPositions, mem_values_iff.mp hmem]
    rfl
  have hopen : openPosition r = some _ := if_pos hactive
  rw [← h.same, hopen, bookPositions_eq_some h.inv.tidy] at hpos
  obtain ⟨o, ho, hc, hp⟩ := hpos
  exact ⟨o, ho, (backs_iff hactive).mpr ⟨hc.symm, hopen.trans (congrArg some hp.symm)⟩⟩

/-- **Book and reservation ledger agree.** In every state a run of calls reaches from a new
service, the resting orders correspond one to one to the active records that back them, and every
other record is terminal and holds nothing. -/
theorem book_agrees_with_reservations {service : OclobService Ordering Eligibility}
    (hnew : new marketId first second ordering mpc eligibility = .ok service)
    (calls : List (Call Ordering Eligibility)) :
    let reached := OclobService.run calls service
    (∃ f : { o // o ∈ reached.book.orders } → ActiveRecord reached.settlement.reservations,
      Function.Bijective f ∧ ∀ o, Backs (f o).1 o.1) ∧
    ∀ r ∈ reached.settlement.reservations.records.values, r.status ≠ .active →
      (r.status = .consumed ∨ r.status = .released) ∧
      r.remaining = 0 ∧ r.remainingQuantity = 0 := by
  intro reached
  have h : reached.Agrees := (agrees_new hnew).run calls
  constructor
  · choose f hf using h.exists_record
    refine ⟨f, ⟨fun o o' heq => Subtype.ext ?_, fun r => ?_⟩, hf⟩
    · refine h.inv.tidy.eq_of_commitment o.2 o'.2 ?_
      rw [← (hf o).commitment, heq, (hf o').commitment]
    · obtain ⟨o, ho, hback⟩ := h.exists_order r
      refine ⟨⟨o, ho⟩, Subtype.ext (Option.some.inj ?_)⟩
      rw [← mem_values_iff.mp (f ⟨o, ho⟩).2.1, ← mem_values_iff.mp r.2.1,
        (hf ⟨o, ho⟩).commitment, hback.commitment]
  · intro r hr hnot
    refine ⟨?_, h.settled _ r (mem_values_iff.mp hr) hnot⟩
    cases hstatus : r.status with
    | active => exact absurd hstatus hnot
    | consumed => exact Or.inl rfl
    | released => exact Or.inr rfl

end OclobService

end

section Witness

attribute [local instance] transparentCrypto

namespace OclobService

/-- A committee that numbers the commands it is asked for, and a back end that agrees. -/
def sampleExternals : Externals Nat Unit where
  reserveCommitment := 1
  verifyBinding _ _ _ := .ok ()
  prove _ _ := .ok ()
  buildPackage _ fill seller buyer := .ok ⟨fill.makerOrder,
    seller.securities.value - fill.quantity, buyer.cash.value - fill.price * fill.quantity⟩
  settle _ _ := .ok ()
  agrees _ _ := true
  conserved _ := true
  finality := .ok ()
  certify sequence _ _ _ _ := .ok (sequence + 1, sequence + 1)
  verifyOrder _ _ nullifier _ _ := .ok (nullifier, ())
  executeBatch batch := .ok (expectedBatch batch)
  proveBatch _ _ := .ok ()
  proveCancellation _ _ := .ok ()
  proveExpiry _ _ := .ok ()

def sampleService : OclobService Nat Unit where
  marketId := "JGB10Y-JPY"
  book := sampleBook
  ordering := 0
  settlement := .new 12 13
  eligibility := ()

/-- A sale of 5 rests and a purchase of 8 takes it. -/
def sampleCalls : List (Call Nat Unit) :=
  let maker := sampleOrder .sell 100 5 .goodTilCancelled 1 fits_100_5
  let taker := sampleOrder .buy 101 8 .goodTilCancelled 2 fits_101_8
  [.submit sampleExternals maker (sampleAuthority maker) 1000,
    .submit sampleExternals taker (sampleAuthority taker) 1001]

/-- Afterwards 3 of the purchase rest, its record is active and that of the sale is consumed. -/
theorem book_agrees_sample :
    let reached := OclobService.run sampleCalls sampleService
    reached.book.orders.map RestingOrder.remaining = [3] ∧
    reached.settlement.reservations.records.values.map (fun r => (r.remainingQuantity, r.status)) =
      [(0, .consumed), (3, .active)] ∧
    ∃ f : { o // o ∈ reached.book.orders } → ActiveRecord reached.settlement.reservations,
      Function.Bijective f ∧ ∀ o, Backs (f o).1 o.1 :=
  ⟨by decide +kernel, by decide +kernel,
    (book_agrees_with_reservations (show new "JGB10Y-JPY" 12 13 (.ok 0) (.ok ()) () =
      .ok sampleService from rfl) sampleCalls).1⟩

end OclobService

end Witness

end Oclob.Service
