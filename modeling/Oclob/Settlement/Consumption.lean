import Oclob.Core.Ledger
import Oclob.Settlement.Reservations

/-!
# What the operations do to a reservation

One lemma for each operation of the reservation book, read off a successful run: which records it
changed, and to what. A fill takes its quantity from the two records it joins
(`consumeFill_ok`), so a run of fills takes from the arriving order's record what the fills add up
to (`consumeFills_takes`).
-/

namespace Oclob.Settlement

open Oclob.Core Oclob.Lib

variable {record record' : ReservationRecord} {spent filled : Nat}

/-- A consumed record keeps its identity and loses the filled quantity; it stays active exactly
when something is left, and nothing is reserved otherwise. -/
theorem consumeRecord_ok (h : consumeRecord record spent filled = .ok record') :
    ReservationBook.Updates record' record ∧ filled ≤ record.remainingQuantity ∧
      record'.remainingQuantity = record.remainingQuantity - filled ∧
      record'.status = (if record'.remainingQuantity = 0 then .consumed else .active) ∧
      record.requiredFor record'.remainingQuantity = some record'.remaining := by
  unfold consumeRecord at h
  simp only [ok_rules] at h
  obtain ⟨afterSpend, hspend, quantity, hquantity, required, hrequired, h⟩ := h
  obtain ⟨hle, rfl⟩ := checkedSub_eq_some.mp hquantity
  split at h
  · exact absurd h (by simp)
  · obtain rfl := Except.ok.inj h
    exact ⟨rfl, hle, rfl, rfl, hrequired⟩

/-- What a fill spends leaves the reserve, with whatever the remainder no longer needs. -/
theorem consumeRecord_spends (h : consumeRecord record spent filled = .ok record') :
    record'.remaining + spent ≤ record.remaining := by
  unfold consumeRecord at h
  simp only [ok_rules] at h
  obtain ⟨afterSpend, hspend, quantity, -, required, -, h⟩ := h
  obtain ⟨hle, rfl⟩ := checkedSub_eq_some.mp hspend
  split at h
  · exact absurd h (by simp)
  · rename_i hcovers
    obtain rfl := Except.ok.inj h
    dsimp only
    omega

namespace ReservationBook

/-- A checked sum is the sum, when that fits a word. -/
theorem checkedSum_eq_some_iff {values : List Nat} {total : Nat} :
    checkedSum values = some total ↔ values.sum < u64Bound ∧ total = values.sum := by
  -- the accumulator fits throughout
  have hfold : ∀ (values : List Nat) (acc : Nat), acc < u64Bound →
      (values.foldlM checkedAdd acc = some total ↔
        acc + values.sum < u64Bound ∧ total = acc + values.sum) := by
    intro values
    induction values with
    | nil =>
      intro acc hacc
      simp [hacc, eq_comm]
    | cons v values ih =>
      intro acc hacc
      rw [List.foldlM_cons, List.sum_cons, ← Nat.add_assoc]
      by_cases hv : acc + v < u64Bound
      · rw [checkedAdd, if_pos hv]
        exact ih (acc + v) hv
      · rw [checkedAdd, if_neg hv]
        exact iff_of_false (by simp [bind]) fun h => hv (by omega)
  have hall := hfold values 0 (by decide)
  rwa [Nat.zero_add] at hall

theorem checkedSum_eq_some {values : List Nat} (h : values.sum < u64Bound) :
    checkedSum values = some values.sum :=
  checkedSum_eq_some_iff.mpr ⟨h, rfl⟩

variable {self book : ReservationBook} {fill : PublicFill} {marketId : String} {now : Nat}

/-- The records a fill may join: active, of two orders, one on each rail. -/
structure JoinedBy (reservations : ReservationBook) (fill : PublicFill)
    (maker taker : ReservationRecord) : Prop where
  maker_eq : reservations.recordFor fill.makerOrder = some maker
  taker_eq : reservations.recordFor fill.takerOrder = some taker
  distinct : fill.makerOrder ≠ fill.takerOrder
  rails : maker.kind ≠ taker.kind
  maker_active : maker.status = .active
  taker_active : taker.status = .active

/-- A fill of two active, unexpired orders of one market on opposite rails, within both
quantities and both limits. -/
structure FillFits (book : ReservationBook) (fill : PublicFill) (marketId : String) (now : Nat)
    (maker taker : ReservationRecord) : Prop where
  maker_eq : book.recordFor fill.makerOrder = some maker
  taker_eq : book.recordFor fill.takerOrder = some taker
  active : maker.status = .active ∧ taker.status = .active
  unexpired : now ≤ maker.expiresAt ∧ now ≤ taker.expiresAt
  market : maker.marketId = marketId ∧ taker.marketId = marketId
  rails : maker.kind ≠ taker.kind
  quantity : fill.quantity ≤ maker.remainingQuantity ∧ fill.quantity ≤ taker.remainingQuantity
  limits : maker.respectsLimit fill.price = true ∧ taker.respectsLimit fill.price = true

theorem fillParties_fits {maker taker : ReservationRecord} {cash : Nat}
    (h : self.fillParties fill marketId now = .ok (maker, taker, cash)) :
    FillFits self fill marketId now maker taker ∧ cash = fill.price * fill.quantity := by
  unfold fillParties at h
  simp only [ok_rules, Prod.mk.injEq] at h
  obtain ⟨cash, hcash, maker, hmaker, taker, htaker, -, -, -, hrails, -, hmarket, -, hexpiry, -,
    hquantity, -, hlimits, -, ⟨hma, -⟩, -, ⟨hta, -⟩, rfl, rfl, rfl⟩ := h
  exact ⟨⟨hmaker, htaker, ⟨hma, hta⟩, hexpiry, hmarket, hrails, hquantity, hlimits⟩,
    (checkedMul_eq_some.mp hcash).2⟩

section

variable {maker taker : ReservationRecord}

theorem FillFits.orders_ne (h : FillFits self fill marketId now maker taker) :
    fill.makerOrder ≠ fill.takerOrder := by
  intro heq
  have hmaker := h.maker_eq
  rw [heq, h.taker_eq] at hmaker
  exact h.rails (congrArg _ (Option.some.inj hmaker)).symm

theorem FillFits.ids_ne (h : FillFits self fill marketId now maker taker) :
    maker.reservationId ≠ taker.reservationId := by
  intro heq
  have hmaker := (recordFor_eq_some.mp h.maker_eq).1
  rw [heq, (recordFor_eq_some.mp h.taker_eq).1] at hmaker
  exact h.rails (congrArg _ (Option.some.inj hmaker)).symm

theorem FillFits.joined (h : FillFits self fill marketId now maker taker) :
    JoinedBy self fill maker taker :=
  ⟨h.maker_eq, h.taker_eq, h.orders_ne, h.rails, h.active.1, h.active.2⟩

end

/-- The participants of a fill, the one who delivers first. -/
def fillHandles (maker taker : ReservationRecord) : Digest32 × Digest32 :=
  match maker.kind with
  | .securities => (maker.participantHandle, taker.participantHandle)
  | .cash => (taker.participantHandle, maker.participantHandle)

variable {consumed : ConsumedFill} {u : Unit}

/-- A successful `consume_fill`: the records it read, wrote and reported. -/
theorem consumeFill_run
    (h : (consumeFill fill marketId now).run self = .ok consumed book) :
    ∃ maker taker makerAfter takerAfter,
      FillFits self fill marketId now maker taker ∧
      consumeRecord maker (maker.spends (fill.price * fill.quantity) fill.quantity)
        fill.quantity = .ok makerAfter ∧
      consumeRecord taker (taker.spends (fill.price * fill.quantity) fill.quantity)
        fill.quantity = .ok takerAfter ∧
      book = (self.writeBack makerAfter).writeBack takerAfter ∧
      consumed.makerReservationId = maker.reservationId ∧
      consumed.takerReservationId = taker.reservationId ∧
      (consumed.sellerHandle, consumed.buyerHandle) = fillHandles maker taker ∧
      consumed.makerKind = maker.kind := by
  unfold consumeFill at h
  simp only [run_rules] at h
  obtain ⟨s₁, s₂, ⟨rfl, rfl⟩, ⟨maker, taker, cash⟩, s₃, ⟨hparties, rfl⟩, makerAfter, s₄,
    ⟨hm, rfl⟩, -, s₅, rfl, takerAfter, s₆, ⟨ht, rfl⟩, -, s₇, rfl, rfl, rfl⟩ := h
  obtain ⟨hfits, rfl⟩ := fillParties_fits hparties
  exact ⟨maker, taker, makerAfter, takerAfter, hfits, hm, ht, rfl, rfl, rfl, rfl, rfl⟩

/-- **One fill** takes its quantity from the two records it joins. -/
theorem consumeFill_ok
    (h : (consumeFill fill marketId now).run self = .ok consumed book) :
    ∃ maker taker makerAfter takerAfter, JoinedBy self fill maker taker ∧
      (∃ spent, consumeRecord maker spent fill.quantity = .ok makerAfter) ∧
      (∃ spent, consumeRecord taker spent fill.quantity = .ok takerAfter) ∧
      ∀ c, book.recordFor c = if c = fill.takerOrder then some takerAfter
        else if c = fill.makerOrder then some makerAfter else self.recordFor c := by
  obtain ⟨maker, taker, makerAfter, takerAfter, hfits, hm, ht, rfl, -⟩ := consumeFill_run h
  have hjoin := hfits.joined
  exact ⟨maker, taker, makerAfter, takerAfter, hjoin, ⟨_, hm⟩, ⟨_, ht⟩,
    recordFor_writeBack_two hjoin.maker_eq hjoin.taker_eq hjoin.distinct (consumeRecord_ok hm).1
      (consumeRecord_ok ht).1⟩

theorem reconcileArriving_ok {order : SettlementOrderView} {remaining required : Nat}
    (h : (reconcileArriving order remaining).run self = .ok required book) :
    ∃ record recordAfter, self.recordFor order.commitment = some record ∧
      remaining = record.remainingQuantity ∧ Updates recordAfter record ∧
      requiredRemainder order remaining = some required ∧ required ≤ record.remaining ∧
      recordAfter.remaining = required ∧
      recordAfter.remainingQuantity = (if 0 < required then remaining else 0) ∧
      recordAfter.status = (if 0 < required then .active
        else if 0 < record.remaining - required then .released else .consumed) ∧
      ∀ c, book.recordFor c =
        if c = order.commitment then some recordAfter else self.recordFor c := by
  unfold reconcileArriving at h
  simp only [run_rules, okOr_eq_ok] at h
  obtain ⟨s₁, s₂, ⟨rfl, rfl⟩, record, s₃, ⟨hrecord, rfl⟩, r, s₄, ⟨hreq, rfl⟩, -, s₅,
    ⟨hquantity, rfl⟩, -, s₆, ⟨hle, rfl⟩, -, s₇, rfl, rfl, rfl⟩ := h
  have hupd : Updates { record with
      remaining := required
      remainingQuantity := if 0 < required then remaining else 0
      status := if 0 < required then .active
        else if 0 < record.remaining - required then .released else .consumed } record := rfl
  exact ⟨record, _, hrecord, hquantity, hupd, hreq, hle, rfl, rfl, rfl,
    recordFor_writeBack hrecord hupd⟩

theorem releaseOrder_ok {commitment : Digest32}
    (h : (releaseOrder commitment).run self = .ok u book) :
    ∃ record, self.recordFor commitment = some record ∧ record.status = .active ∧
      ∀ c, book.recordFor c = if c = commitment then
        some { record with remaining := 0, remainingQuantity := 0, status := .released }
        else self.recordFor c := by
  unfold releaseOrder at h
  simp only [run_rules, okOr_eq_ok] at h
  obtain ⟨s₁, s₂, ⟨rfl, rfl⟩, record, s₃, ⟨hrecord, rfl⟩, -, s₄, ⟨hactive, rfl⟩, rfl⟩ := h
  exact ⟨record, hrecord, hactive, recordFor_writeBack hrecord rfl⟩

theorem bindParticipant_recordFor {participant entity : Digest32} {cash securities : Nat}
    (h : (bindParticipant participant entity cash securities).run self = .ok u book) :
    book.recordFor = self.recordFor := by
  unfold bindParticipant at h
  simp only [run_rules] at h
  obtain ⟨-, s₁, ⟨-, rfl⟩, s₂, s₃, ⟨rfl, rfl⟩, -, s₄, ⟨-, rfl⟩, rfl⟩ := h
  rfl

theorem reserve_ok {order : SettlementOrderView} {reserveCommitment : Digest32}
    (h : (reserve order reserveCommitment).run self = .ok u book) :
    self.recordFor order.commitment = none ∧
      ∀ c, book.recordFor c = if c = order.commitment then
        some (newRecord order reserveCommitment) else self.recordFor c := by
  unfold reserve at h
  simp only [run_rules] at h
  obtain ⟨-, s₁, ⟨-, rfl⟩, s₂, s₃, ⟨rfl, rfl⟩, -, s₄, ⟨-, rfl⟩, h⟩ := h
  split at h
  · rename_i hfresh
    simp only [run_rules, okOr_eq_ok] at h
    obtain ⟨capacity, s₅, ⟨-, rfl⟩, used, s₆, ⟨-, rfl⟩, -, s₇, ⟨-, rfl⟩, rfl⟩ := h
    exact ⟨hfresh.2, recordFor_insertRecord hfresh.2 hfresh.1⟩
  · exact absurd h run_throw_ne_ok

/-! ## Runs of fills -/

/-- What a list of fills takes from an order, as maker or as taker. -/
def takenBy (fills : List PublicFill) (c : Digest32) : Nat :=
  tally c (fills.flatMap fun fill =>
    [(fill.makerOrder, fill.quantity), (fill.takerOrder, fill.quantity)])

theorem takenBy_cons (fill : PublicFill) (fills : List PublicFill) (c : Digest32) :
    takenBy (fill :: fills) c = (if fill.makerOrder = c then fill.quantity else 0) +
      ((if fill.takerOrder = c then fill.quantity else 0) + takenBy fills c) := by
  simp [takenBy]

/-- `after` is `before` with `q` taken: the record itself when nothing was. -/
def Consumes (q : Nat) (before after : ReservationRecord) : Prop :=
  (q = 0 ∧ after = before) ∨
  (0 < q ∧ before.status = .active ∧ q ≤ before.remainingQuantity ∧ Updates after before ∧
    after.remainingQuantity = before.remainingQuantity - q ∧
    after.status = (if after.remainingQuantity = 0 then .consumed else .active) ∧
    (after.remainingQuantity = 0 → after.remaining = 0))

theorem Consumes.refl (r : ReservationRecord) : Consumes 0 r r := Or.inl ⟨rfl, rfl⟩

theorem Consumes.trans {p q : Nat} {r₁ r₂ r₃ : ReservationRecord} (h : Consumes p r₁ r₂)
    (h' : Consumes q r₂ r₃) : Consumes (p + q) r₁ r₃ := by
  rcases h with ⟨rfl, rfl⟩ | ⟨hp, hact, hle, hupd, hrq, hst, hz⟩
  · rwa [Nat.zero_add]
  rcases h' with ⟨rfl, rfl⟩ | ⟨hq, -, hle', hupd', hrq', hst', hz'⟩
  · exact Or.inr ⟨hp, hact, hle, hupd, hrq, hst, hz⟩
  · refine Or.inr ⟨by omega, hact, by omega, ?_, by omega, hst', hz'⟩
    rw [Updates] at hupd hupd' ⊢
    rw [hupd', hupd]

theorem rel_consumes_refl (o : Option ReservationRecord) : Option.Rel (Consumes 0) o o := by
  cases o with
  | none => exact .none
  | some r => exact .some (.refl r)

theorem consumes_consumeRecord {r r' : ReservationRecord} {spent q : Nat} (hq : 0 < q)
    (hactive : r.status = .active) (h : consumeRecord r spent q = .ok r') : Consumes q r r' := by
  obtain ⟨hupd, hle, hrq, hst, hreq⟩ := consumeRecord_ok h
  refine Or.inr ⟨hq, hactive, hle, hupd, hrq, hst, fun hz => ?_⟩
  rw [hz, ReservationRecord.requiredFor, if_pos rfl] at hreq
  exact (Option.some.inj hreq).symm

/-- One fill takes its quantity from the two orders it joins. -/
theorem consumeFill_takes (hq : 0 < fill.quantity)
    (h : (consumeFill fill marketId now).run self = .ok consumed book) (c : Digest32) :
    Option.Rel (Consumes (takenBy [fill] c)) (self.recordFor c) (book.recordFor c) := by
  obtain ⟨maker, taker, makerAfter, takerAfter, hjoin, ⟨_, hm⟩, ⟨_, ht⟩, hrec⟩ :=
    consumeFill_ok h
  have htaken : takenBy [fill] c = (if fill.makerOrder = c then fill.quantity else 0) +
      ((if fill.takerOrder = c then fill.quantity else 0) + 0) := takenBy_cons fill [] c
  rw [hrec c, htaken]
  by_cases hct : c = fill.takerOrder
  · subst hct
    rw [if_pos rfl, hjoin.taker_eq, if_neg hjoin.distinct, if_pos rfl, Nat.zero_add]
    exact .some (consumes_consumeRecord hq hjoin.taker_active ht)
  · rw [if_neg hct, if_neg (Ne.symm hct)]
    by_cases hcm : c = fill.makerOrder
    · subst hcm
      rw [if_pos rfl, hjoin.maker_eq, if_pos rfl]
      exact .some (consumes_consumeRecord hq hjoin.maker_active hm)
    · rw [if_neg hcm, if_neg (Ne.symm hcm)]
      exact rel_consumes_refl _

/-- **A run of fills** takes from each order what the fills add up to. -/
theorem consumeFills_takes {fills : List PublicFill}
    (hpos : ∀ fill ∈ fills, 0 < fill.quantity)
    (h : (consumeFills marketId now fills).run self = .ok u book) (c : Digest32) :
    Option.Rel (Consumes (takenBy fills c)) (self.recordFor c) (book.recordFor c) := by
  induction fills generalizing self with
  | nil =>
    obtain ⟨-, rfl⟩ := run_pure_eq_ok.mp h
    exact rel_consumes_refl _
  | cons fill fills ih =>
    simp only [consumeFills, run_bind_eq_ok] at h
    obtain ⟨consumed, s₁, hfill, hrest⟩ := h
    have hone := consumeFill_takes (hpos fill List.mem_cons_self) hfill c
    have hlater := ih (fun f hf => hpos f (List.mem_cons_of_mem _ hf)) hrest
    have hall := rel_comp hone hlater fun _ _ _ hr hr' => Consumes.trans hr hr'
    have hsum : takenBy [fill] c + takenBy fills c = takenBy (fill :: fills) c := by
      simp [takenBy, Nat.add_assoc]
    rwa [hsum] at hall

end ReservationBook

end Oclob.Settlement
