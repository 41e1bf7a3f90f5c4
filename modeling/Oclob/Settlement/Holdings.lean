import Oclob.Settlement.Delivery

/-!
# Reservations never exceed balances

Whole runs of a `SettlementEngine` (`oclob-settlement/src/lib.rs`) through its public calls, from
an engine without reservations. `reserve` compares the entity's active reservations with a stored
capacity, and that capacity is a copy of a balance, taken when the participant is bound and again
after each settlement. In between, a fill lowers both sides: it leaves the reserve of a record by
at least what it takes from the payer's account, because `consume_record` also lets go of what the
remainder no longer needs (`Spent.heldBy_le`).

* `Within`: what holds between the reservations and the accounts, also halfway through a batch
  (`Within.settledFill`).
* `Solvent`: the same of an engine, whose capacities are its balances; every call keeps it
  (`Solvent.call`).
* `reservations_within_balances`: the sums, the portfolio that never saturates, and the debits that
  never fail.
-/

namespace Oclob.Settlement

open Oclob.Core Oclob.Lib OrdMap ReservationBook

/-- The share of a record in what a participant holds back on a rail. -/
def heldBy (participant : Digest32) (kind : ReservationKind) (record : ReservationRecord) : Nat :=
  if record.participantHandle = participant ∧ record.kind = kind ∧ record.status = .active then
    record.remaining else 0

/-- What the active reservations of a participant hold on a rail. -/
def ReservationBook.held (self : ReservationBook) (participant : Digest32)
    (kind : ReservationKind) : Nat :=
  ((self.records.values.filter fun record => decide (record.participantHandle = participant ∧
    record.kind = kind ∧ record.status = .active)).map ReservationRecord.remaining).sum

theorem ReservationBook.held_eq_total (self : ReservationBook) (participant : Digest32)
    (kind : ReservationKind) :
    self.held participant kind = self.records.total (heldBy participant kind) := by
  unfold held total
  rw [sum_map_filter]
  refine congrArg List.sum (List.map_congr_left fun record _ => ?_)
  simp only [heldBy, decide_eq_true_eq]

/-! ## One record -/

section

variable {record record' : ReservationRecord} {fill : PublicFill}

/-- A record that is not reactivated and does not grow holds no more than before. -/
theorem heldBy_le (p : Digest32) (kind : ReservationKind)
    (hupd : ReservationBook.Updates record' record) (h : record'.status = .active →
      record.status = .active ∧ record'.remaining ≤ record.remaining) :
    heldBy p kind record' ≤ heldBy p kind record := by
  have hhandle : record'.participantHandle = record.participantHandle := by rw [hupd]
  have hkind : record'.kind = record.kind := by rw [hupd]
  unfold heldBy
  by_cases hheld : record'.participantHandle = p ∧ record'.kind = kind ∧ record'.status = .active
  · obtain ⟨hactive, hle⟩ := h hheld.2.2
    rw [if_pos hheld, if_pos ⟨hhandle ▸ hheld.1, hkind ▸ hheld.2.1, hactive⟩]
    exact hle
  · rw [if_neg hheld]
    exact Nat.zero_le _

/-- A fill frees at least what the record's owner pays for it. -/
theorem Spent.heldBy_le (h : Spent fill record record') (p : Digest32) (kind : ReservationKind) :
    heldBy p kind record' + (if record.participantHandle = p ∧ record.kind = kind then
      fillAmount kind fill else 0) ≤ heldBy p kind record := by
  have hspent := h.remaining
  by_cases howner : record.participantHandle = p ∧ record.kind = kind
  · have hamount : record.spends (fill.price * fill.quantity) fill.quantity =
        fillAmount kind fill := by
      rw [← howner.2]
      rfl
    have hbefore : heldBy p kind record = record.remaining :=
      if_pos ⟨howner.1, howner.2, h.active⟩
    have hafter : heldBy p kind record' ≤ record'.remaining := by
      unfold heldBy
      split <;> omega
    rw [if_pos howner]
    omega
  · have hafter : heldBy p kind record' = 0 := by
      refine if_neg fun hall => howner ?_
      rw [h.updates] at hall
      exact ⟨hall.1, hall.2.1⟩
    rw [if_neg howner, hafter]
    exact Nat.zero_le _

end

namespace ReservationBook

variable {self book : ReservationBook} {fill : PublicFill}
  {maker taker makerAfter takerAfter : ReservationRecord}

theorem partyOn_eq (hmaker : self.recordFor fill.makerOrder = some maker)
    (htaker : self.recordFor fill.takerOrder = some taker) (hrails : maker.kind ≠ taker.kind)
    (p : Digest32) (kind : ReservationKind) :
    self.partyOn kind fill = some p ↔
      (maker.participantHandle = p ∧ maker.kind = kind) ∨
      (taker.participantHandle = p ∧ taker.kind = kind) := by
  unfold partyOn
  rw [hmaker, htaker]
  simp only [Option.bind_some, Option.map_some, Option.some.injEq]
  by_cases hkind : maker.kind = kind
  · have htk : taker.kind ≠ kind := fun h => hrails (hkind.trans h.symm)
    simp [hkind, htk]
  · have htk : taker.kind = kind := by
      revert hrails hkind
      cases maker.kind <;> cases taker.kind <;> cases kind <;> simp
    simp [hkind, htk]

/-- **A fill frees at least what each participant pays for it.** -/
theorem FillTaken.held_le (h : FillTaken fill self book maker taker makerAfter takerAfter)
    (p : Digest32) (kind : ReservationKind) :
    book.held p kind + paidBy self [fill] kind p ≤ self.held p kind := by
  have htotal := h.total_eq (heldBy p kind)
  have hmaker := h.maker_spent.heldBy_le p kind
  have htaker := h.taker_spent.heldBy_le p kind
  have hpaid : paidBy self [fill] kind p =
      (if maker.participantHandle = p ∧ maker.kind = kind then fillAmount kind fill else 0) +
      (if taker.participantHandle = p ∧ taker.kind = kind then fillAmount kind fill else 0) := by
    simp only [paidBy, List.map_cons, List.map_nil, tally_cons, tally_nil, Nat.add_zero,
      partyOn_eq h.maker_eq h.taker_eq h.rails]
    have hrails := h.rails
    by_cases hm : maker.participantHandle = p ∧ maker.kind = kind
    · have ht : ¬ (taker.participantHandle = p ∧ taker.kind = kind) := fun ht =>
        hrails (hm.2.trans ht.2.symm)
      simp [hm, ht]
    · simp [hm]
  rw [held_eq_total, held_eq_total]
  omega

end ReservationBook

/-! ## Reservations and accounts -/

/-- Participants and entities are one to one, every record belongs to a bound participant with an
account, and no account is below what its owner's active reservations hold. A record that has ended
has nothing left to fill, so that nothing reactivates it. -/
structure Within (book : ReservationBook) (participants : Participants) : Prop where
  one_to_one : ∀ p e, book.participantEntities.get? p = some e ↔
    book.entityParticipants.get? e = some p
  bound : book.Holds fun record =>
    book.participantEntities.get? record.participantHandle = some record.entityNullifier
  ended : book.Holds fun record => record.status ≠ .active → record.remainingQuantity = 0
  accounts : ∀ p e, book.participantEntities.get? p = some e →
    ∃ balances, participants.get? p = some balances
  held_le : ∀ p balances, participants.get? p = some balances → ∀ kind,
    book.held p kind ≤ balances.on kind
  words : ∀ p balances, participants.get? p = some balances → ∀ kind, balances.on kind < u64Bound

/-- The capacities of a bound participant are the balances of the account. -/
def CapacitiesMatch (book : ReservationBook) (participants : Participants) : Prop :=
  ∀ p e balances, book.participantEntities.get? p = some e → participants.get? p = some balances →
    ∀ kind, book.capacities.get? (toLex (e, kind.tag)) = some (balances.on kind)

section

variable {book book' : ReservationBook} {participants : Participants} {c : Digest32}
  {record record' : ReservationRecord}

theorem ReservationBook.holds_of_recordFor {P : ReservationRecord → Prop}
    (h : ∀ c record, book.recordFor c = some record → P record) : book.Holds P :=
  fun id record hrecord => h record.orderCommitment record
    (recordFor_eq_some.mpr ⟨book.keyed id record hrecord ▸ hrecord, rfl⟩)

/-- A write to one record that frees reserve. -/
theorem Within.writeBack (h : Within book participants) (hrecord : book.recordFor c = some record)
    (hupd : ReservationBook.Updates record' record)
    (hactive : record'.status = .active →
      record.status = .active ∧ record'.remaining ≤ record.remaining)
    (hended : record'.status ≠ .active → record'.remainingQuantity = 0) :
    Within (book.writeBack record') participants := by
  have hget := (recordFor_eq_some.mp hrecord).1
  have hid : record'.reservationId = record.reservationId := by rw [hupd]
  have hstored : book.records.get? record'.reservationId = some record := hid ▸ hget
  refine ⟨h.one_to_one, h.bound.writeBack hstored hupd ?_, h.ended.writeBack hstored hupd hended,
    h.accounts, fun p balances hp kind => ?_, h.words⟩
  · have hbound := h.bound _ _ hget
    rw [hupd]
    exact hbound
  · have htotal := total_writeBack (heldBy p kind) hstored hupd
    have hone := heldBy_le p kind hupd hactive
    have hle := h.held_le p balances hp kind
    rw [held_eq_total] at hle ⊢
    omega

variable {u : Unit} {order : SettlementOrderView} {p e : Digest32}

theorem Within.releaseOrder (h : Within book participants)
    (hmatch : CapacitiesMatch book participants)
    (hrun : (ReservationBook.releaseOrder c).run book = .ok u book') :
    Within book' participants ∧ CapacitiesMatch book' participants := by
  unfold ReservationBook.releaseOrder at hrun
  simp only [run_rules, okOr_eq_ok] at hrun
  obtain ⟨s₁, s₂, ⟨rfl, rfl⟩, record, s₃, ⟨hrecord, rfl⟩, -, s₄, ⟨-, rfl⟩, rfl⟩ := hrun
  exact ⟨h.writeBack hrecord rfl (fun hactive => absurd hactive (by simp)) fun _ => rfl, hmatch⟩

theorem Within.reconcileArriving (h : Within book participants)
    {remaining required : Nat}
    (hrun : (ReservationBook.reconcileArriving order remaining).run book = .ok required book') :
    Within book' participants := by
  unfold ReservationBook.reconcileArriving at hrun
  simp only [run_rules, okOr_eq_ok] at hrun
  obtain ⟨s₁, s₂, ⟨rfl, rfl⟩, record, s₃, ⟨hrecord, rfl⟩, r, s₄, ⟨hrequired, rfl⟩, -, s₅,
    ⟨rfl, rfl⟩, -, s₆, ⟨hle, rfl⟩, -, s₇, rfl, rfl, rfl⟩ := hrun
  refine h.writeBack hrecord rfl (fun hactive => ⟨?_, hle⟩) fun hended => ?_
  · -- a record with nothing left needs nothing, and then is not active
    by_contra hend
    have hzero := h.ended.recordFor hrecord hend
    rw [hzero, ReservationBook.requiredRemainder, if_pos (Or.inl rfl)] at hrequired
    obtain rfl := Option.some.inj hrequired
    revert hactive
    dsimp only
    rw [if_neg (Nat.lt_irrefl 0)]
    split <;> simp
  · dsimp only at hended ⊢
    split
    · rename_i hpos
      exact absurd (if_pos hpos) hended
    · rfl

theorem Within.reconcileArrivingCollaborative (h : Within book participants)
    {remaining required : Nat}
    (hrun : (ReservationBook.reconcileArrivingCollaborative c remaining).run book =
      .ok required book') : Within book' participants := by
  unfold ReservationBook.reconcileArrivingCollaborative at hrun
  simp only [run_rules, okOr_eq_ok] at hrun
  obtain ⟨s₁, s₂, ⟨rfl, rfl⟩, record, s₃, ⟨hrecord, rfl⟩, -, s₄, ⟨rfl, rfl⟩, hrun⟩ := hrun
  split at hrun
  · simp only [run_rules] at hrun
    obtain ⟨-, s₅, rfl, -, rfl⟩ := hrun
    refine h.writeBack hrecord rfl (fun hactive => absurd hactive ?_) fun _ => rfl
    dsimp only
    split <;> simp
  · rename_i hopen
    simp only [run_rules] at hrun
    obtain ⟨-, s₅, rfl, -, rfl⟩ := hrun
    refine h.writeBack hrecord rfl (fun _ => ⟨?_, Nat.le_refl _⟩) fun hend => absurd rfl hend
    by_contra hend
    exact hopen (Or.inl (h.ended.recordFor hrecord hend))

/-- **One turn of a batch** keeps the reservations within the accounts. -/
theorem Within.settledFill {fill : PublicFill} {staged staged' : StagedBatch}
    (h : Within staged.reservations staged.participants) (hfill : SettledFill fill staged staged') :
    Within staged'.reservations staged'.participants := by
  obtain ⟨taken, handles, exchanged⟩ := hfill
  obtain ⟨hseller, hbuyer⟩ := taken.handles handles
  have hrel := exchanged.on_eq hseller hbuyer
  obtain ⟨hentities, hparticipants, -⟩ := taken.bindings
  refine ⟨?_, holds_of_recordFor fun c record hrecord => ?_,
    holds_of_recordFor fun c record hrecord => ?_, fun p e hp => ?_,
    fun p balances hp kind => ?_, fun p balances hp kind => ?_⟩
  · rw [hentities, hparticipants]
    exact h.one_to_one
  · rw [taken.recordFor_eq] at hrecord
    rw [hentities]
    split at hrecord
    · have hbound := h.bound.recordFor taken.taker_eq
      rw [← Option.some.inj hrecord, taken.taker_spent.updates]
      exact hbound
    · split at hrecord
      · have hbound := h.bound.recordFor taken.maker_eq
        rw [← Option.some.inj hrecord, taken.maker_spent.updates]
        exact hbound
      · exact h.bound.recordFor hrecord
  · have hspent : ∀ {before after : ReservationRecord}, Spent fill before after →
        after.status ≠ .active → after.remainingQuantity = 0 := by
      intro before after hspent hend
      by_contra hpos
      exact hend (hspent.status.trans (if_neg hpos))
    rw [taken.recordFor_eq] at hrecord
    split at hrecord
    · exact Option.some.inj hrecord ▸ hspent taken.taker_spent
    · split at hrecord
      · exact Option.some.inj hrecord ▸ hspent taken.maker_spent
      · exact h.ended.recordFor hrecord
  · rw [hentities] at hp
    obtain ⟨balances, hbefore⟩ := h.accounts p e hp
    have hone := hrel p
    rw [hbefore] at hone
    obtain ⟨after, hafter, -⟩ := exists_of_some_rel hone
    exact ⟨after, hafter⟩
  · have hone := hrel p
    rw [hp] at hone
    obtain ⟨before, hbefore, hon⟩ := exists_of_rel_some hone
    have hmoved := hon kind
    have hheld := taken.held_le p kind
    have hle := h.held_le p before hbefore kind
    omega
  · exact exchanged.words h.words hp kind

theorem Within.settledFills {fills : List PublicFill} {staged staged' : StagedBatch}
    (h : Within staged.reservations staged.participants)
    (hfills : SettledFills fills staged staged') :
    Within staged'.reservations staged'.participants := by
  induction hfills with
  | nil staged => exact h
  | cons hfill hrest ih => exact ih (h.settledFill hfill)

/-- What a participant pays for a fill of the book is in the account. -/
theorem Within.pays (h : Within book participants) {fill : PublicFill} {marketId : String}
    {now : Nat} {consumed : ConsumedFill}
    (hrun : (consumeFill fill marketId now).run book = .ok consumed book')
    {seller buyer : ParticipantBalances}
    (hseller : participants.get? consumed.sellerHandle = some seller)
    (hbuyer : participants.get? consumed.buyerHandle = some buyer) :
    fill.quantity ≤ seller.securities.value ∧
      fill.price * fill.quantity ≤ buyer.cash.value := by
  obtain ⟨maker, taker, makerAfter, takerAfter, taken, -, -, hhandles, -⟩ :=
    consumeFill_taken hrun
  obtain ⟨hs, hb⟩ := taken.handles hhandles
  have hsold := taken.held_le consumed.sellerHandle .securities
  have hbought := taken.held_le consumed.buyerHandle .cash
  have hsellerHeld := h.held_le _ seller hseller .securities
  have hbuyerHeld := h.held_le _ buyer hbuyer .cash
  simp only [paidBy, List.map_cons, List.map_nil, tally_cons, tally_nil, hs, hb, if_true,
    fillAmount] at hsold hbought
  simp only [ParticipantBalances.on] at hsellerHeld hbuyerHeld
  omega

/-! ## Capacities -/

theorem ReservationBook.reserve_run {reserveCommitment : Digest32}
    (h : (reserve order reserveCommitment).run book = .ok u book') :
    ∃ (hfresh : book.recordFor (newRecord order reserveCommitment).orderCommitment = none)
      (capacity used : Nat),
      book.participantEntities.get? order.participantHandle = some order.dekyxNullifier ∧
      book.records.get? order.reservationId = none ∧
      book.capacities.get? (toLex (order.dekyxNullifier, (kindOf order.side).tag)) =
        some capacity ∧
      book.inUse order.dekyxNullifier (kindOf order.side) = some used ∧
      used + order.reservationLimit ≤ capacity ∧
      book' = book.insertRecord (newRecord order reserveCommitment) hfresh := by
  unfold reserve at h
  simp only [run_rules] at h
  obtain ⟨-, s₁, ⟨-, rfl⟩, s₂, s₃, ⟨rfl, rfl⟩, -, s₄, ⟨hbound, rfl⟩, h⟩ := h
  split at h
  · rename_i hfresh
    simp only [run_rules, okOr_eq_ok] at h
    obtain ⟨capacity, s₅, ⟨hcapacity, rfl⟩, used, s₆, ⟨hused, rfl⟩, -, s₇,
      ⟨⟨total, htotal, hle⟩, rfl⟩, rfl⟩ := h
    obtain ⟨-, rfl⟩ := checkedAdd_eq_some.mp htotal
    exact ⟨hfresh.2, capacity, used, hbound, hfresh.1, hcapacity, hused, hle, rfl⟩
  · exact absurd h run_throw_ne_ok

/-- What `reserve` finds in use for the entity is what the participant holds. -/
theorem Within.inUse_eq (h : Within book participants)
    (hbound : book.participantEntities.get? p = some e) {kind : ReservationKind} {used : Nat}
    (hused : book.inUse e kind = some used) : used = book.held p kind := by
  rw [(checkedSum_eq_some_iff.mp hused).2]
  unfold held
  congr 2
  refine List.filter_congr fun record hrecord => ?_
  obtain ⟨id, hid⟩ := mem_values.mp hrecord
  have hrec : book.participantEntities.get? record.participantHandle =
    some record.entityNullifier := h.bound id record hid
  have howner : record.entityNullifier = e ↔ record.participantHandle = p := by
    constructor
    · intro heq
      rw [heq] at hrec
      have hback := (h.one_to_one _ _).mp hrec
      rw [(h.one_to_one _ _).mp hbound] at hback
      exact (Option.some.inj hback).symm
    · intro heq
      rw [heq, hbound] at hrec
      exact (Option.some.inj hrec).symm
  simp only [howner]

theorem Within.reserve (h : Within book participants) (hmatch : CapacitiesMatch book participants)
    {reserveCommitment : Digest32}
    (hrun : (reserve order reserveCommitment).run book = .ok u book') :
    Within book' participants ∧ CapacitiesMatch book' participants := by
  obtain ⟨hfresh, capacity, used, hbound, hid, hcapacity, hused, hle, rfl⟩ :=
    reserve_run hrun
  refine ⟨⟨h.one_to_one, h.bound.insertRecord hfresh hbound,
    h.ended.insertRecord hfresh fun hend => absurd rfl hend, h.accounts,
    fun p balances hp kind => ?_, h.words⟩, hmatch⟩
  have htotal := total_insert (heldBy p kind) book.records order.reservationId
    (newRecord order reserveCommitment)
  have hbefore := h.held_le p balances hp kind
  rw [hid] at htotal
  rw [held_eq_total] at hbefore ⊢
  simp only [insertRecord]
  simp only [Option.map_none, Option.getD_none, Nat.add_zero] at htotal
  refine htotal.le.trans ?_
  by_cases howner : order.participantHandle = p ∧ kindOf order.side = kind
  · obtain ⟨rfl, rfl⟩ := howner
    rw [hmatch _ _ _ hbound hp] at hcapacity
    rw [h.inUse_eq hbound hused, held_eq_total] at hle
    have hnew : heldBy order.participantHandle (kindOf order.side)
        (newRecord order reserveCommitment) = order.reservationLimit :=
      if_pos ⟨rfl, rfl, rfl⟩
    have hcap := Option.some.inj hcapacity
    omega
  · have hnew : heldBy p kind (newRecord order reserveCommitment) = 0 :=
      if_neg fun hall => howner ⟨hall.1, hall.2.1⟩
    omega

/-- The two capacities `bind_participant` and `refresh_capacity` write. -/
theorem get?_capacities (capacities : OrdMap (Digest32 ×ₗ Nat) Nat) (e f : Digest32)
    (balances : ParticipantBalances) (kind : ReservationKind) :
    ((capacities.insert (toLex (e, 1)) balances.cash.value).insert (toLex (e, 2))
      balances.securities.value).get? (toLex (f, kind.tag)) =
      if f = e then some (balances.on kind) else capacities.get? (toLex (f, kind.tag)) := by
  rw [get?_insert, get?_insert]
  by_cases hf : f = e
  · subst hf
    cases kind with
    | cash => simp [ReservationKind.tag, ParticipantBalances.on]
    | securities => simp [ReservationKind.tag, ParticipantBalances.on]
  · simp [hf]

theorem ReservationBook.bindParticipant_run {cash securities : Nat}
    (h : (bindParticipant p e cash securities).run book = .ok u book') :
    (book.participantEntities.get? p).all (fun existing => existing = e) = true ∧
      (book.entityParticipants.get? e).all (fun existing => existing = p) = true ∧
      book' = { book with
        participantEntities := book.participantEntities.insert p e
        entityParticipants := book.entityParticipants.insert e p
        capacities := (book.capacities.insert (toLex (e, 1)) cash).insert
          (toLex (e, 2)) securities } := by
  unfold bindParticipant at h
  simp only [run_rules] at h
  obtain ⟨-, s₁, ⟨-, rfl⟩, s₂, s₃, ⟨rfl, rfl⟩, -, s₄, ⟨⟨hentity, hparticipant⟩, rfl⟩, rfl⟩ := h
  exact ⟨hentity, hparticipant, rfl⟩

theorem ReservationBook.refreshCapacity_run {cash securities : Nat}
    (h : (refreshCapacity p cash securities).run book = .ok u book') :
    ∃ e, book.participantEntities.get? p = some e ∧
      book' = { book with
        capacities := (book.capacities.insert (toLex (e, 1)) cash).insert
          (toLex (e, 2)) securities } := by
  unfold refreshCapacity at h
  simp only [run_rules, okOr_eq_ok] at h
  obtain ⟨s₁, s₂, ⟨rfl, rfl⟩, e, s₃, ⟨hentity, rfl⟩, rfl⟩ := h
  exact ⟨e, hentity, rfl⟩

/-- `bind_participant` keeps handles and entities one to one: it refuses to change either. -/
theorem Within.bindParticipant (h : Within book participants)
    (hmatch : CapacitiesMatch book participants) {balances : ParticipantBalances}
    (hp : participants.get? p = some balances)
    (hrun : (bindParticipant p e balances.cash.value
      balances.securities.value).run book = .ok u book') :
    Within book' participants ∧ CapacitiesMatch book' participants := by
  obtain ⟨hentity, hparticipant, rfl⟩ := bindParticipant_run hrun
  have hsame : ∀ f, book.participantEntities.get? p = some f → f = e := by
    intro f hf
    rw [hf] at hentity
    exact of_decide_eq_true hentity
  -- no other participant has this entity
  have hother : ∀ q, q ≠ p → book.participantEntities.get? q ≠ some e := by
    intro q hq hqe
    rw [(h.one_to_one q e).mp hqe] at hparticipant
    exact hq (of_decide_eq_true hparticipant)
  refine ⟨⟨fun q f => ?_, fun id record hrecord => ?_, h.ended, fun q f hq => ?_, h.held_le,
    h.words⟩, fun q f b hq hb kind => ?_⟩
  · dsimp only
    rw [get?_insert, get?_insert]
    by_cases hq : q = p
    · subst hq
      by_cases hf : f = e
      · subst hf
        simp
      · rw [if_pos rfl, if_neg hf, ← h.one_to_one]
        exact iff_of_false (fun heq => hf (Option.some.inj heq).symm) fun hqf => hf (hsame f hqf)
    · by_cases hf : f = e
      · subst hf
        rw [if_neg hq, if_pos rfl]
        exact iff_of_false (hother q hq) fun heq => hq (Option.some.inj heq).symm
      · rw [if_neg hq, if_neg hf]
        exact h.one_to_one q f
  · have hrec := h.bound id record hrecord
    dsimp only
    rw [get?_insert]
    split
    · rename_i hq
      dsimp only at hrec
      rw [hq] at hrec
      rw [hsame _ hrec]
    · exact hrec
  · dsimp only at hq
    rw [get?_insert] at hq
    split at hq
    · rename_i heq
      exact ⟨balances, heq ▸ hp⟩
    · exact h.accounts q f hq
  · dsimp only at hq ⊢
    rw [get?_insert] at hq
    rw [get?_capacities]
    split at hq
    · rename_i heq
      rw [heq, hp] at hb
      rw [if_pos (Option.some.inj hq).symm, Option.some.inj hb]
    · rename_i hne
      rw [if_neg fun hf : f = e => hother q hne (hf ▸ hq)]
      exact hmatch q f b hq hb kind

/-- The refresh after a batch brings every capacity up to the balance. -/
theorem refreshCapacities_ok {entries : List (Digest32 × ParticipantBalances)}
    (hkeys : (entries.map Prod.fst).Nodup)
    (hone : ∀ p e, book.participantEntities.get? p = some e ↔
      book.entityParticipants.get? e = some p)
    (h : (refreshCapacities entries).run book = .ok u book') :
    book'.records = book.records ∧ book'.participantEntities = book.participantEntities ∧
      book'.entityParticipants = book.entityParticipants ∧
      (∀ f, (∀ entry ∈ entries, book.participantEntities.get? entry.1 ≠ some f) →
        ∀ kind : ReservationKind,
        book'.capacities.get? (toLex (f, kind.tag)) = book.capacities.get? (toLex (f, kind.tag))) ∧
      ∀ entry ∈ entries, ∀ e, book.participantEntities.get? entry.1 = some e → ∀ kind,
        book'.capacities.get? (toLex (e, kind.tag)) = some (entry.2.on kind) := by
  induction entries generalizing book with
  | nil =>
    obtain ⟨-, rfl⟩ := run_pure_eq_ok.mp h
    exact ⟨rfl, rfl, rfl, fun _ _ _ => rfl, fun entry hentry => absurd hentry List.not_mem_nil⟩
  | cons entry rest ih =>
    obtain ⟨p, balances⟩ := entry
    obtain ⟨⟨⟩, mid, hfirst, hrest⟩ := run_bind_eq_ok.mp h
    obtain ⟨e, hentity, rfl⟩ := refreshCapacity_run hfirst
    obtain ⟨hp, hrestKeys⟩ := List.nodup_cons.mp hkeys
    obtain ⟨hrecords, hentities, hparticipants, hkept, hset⟩ := ih hrestKeys (by exact hone) hrest
    dsimp only at hrecords hentities hparticipants hkept hset
    refine ⟨hrecords, hentities, hparticipants, fun f hf kind => ?_, ?_⟩
    · obtain ⟨hne, hothers⟩ := List.forall_mem_cons.mp hf
      rw [hkept f hothers, get?_capacities, if_neg fun heq : f = e => hne (heq ▸ hentity)]
    · refine List.forall_mem_cons.mpr ⟨fun f hf kind => ?_, hset⟩
      -- the later entries are of other participants, so of other entities
      obtain rfl := Option.some.inj (hentity.symm.trans hf)
      rw [hkept e (fun entry hentry heq => ?_), get?_capacities, if_pos rfl]
      have hback := (hone entry.1 e).mp heq
      rw [(hone p e).mp hentity] at hback
      exact hp (List.mem_map.mpr ⟨entry, hentry, (Option.some.inj hback).symm⟩)

end

/-! ## Runs of an engine -/

/-- The public calls of a `SettlementEngine`, with what other packages answer during each. -/
inductive EngineCall where
  | bindEligibleParticipant (participantHandle entityNullifier : Digest32)
  | reserveOrder (backend : Backend) (order : SettlementOrderView)
  | reserveOrderWithCommitment (order : SettlementOrderView) (reserveCommitment : Digest32)
  | releaseOrder (commitment : Digest32)
  | releaseOrdersAtomic (commitments : List Digest32)
  | settleBatch (backend : Backend) (fills : List PublicFill) (arriving : SettlementOrderView)
      (arrivingRemaining now : Nat)
  | settleBatchCollaborative (backend : CollaborativeBackend) (fills : List PublicFill)
      (proofs : List CollaborativeFillProof) (roundId arriving : Digest32)
      (arrivingRemaining now : Nat)

namespace EngineCall

def method : EngineCall → EStateM SettlementError SettlementEngine Unit
  | bindEligibleParticipant participantHandle entityNullifier =>
    SettlementEngine.bindEligibleParticipant participantHandle entityNullifier
  | reserveOrder backend order => SettlementEngine.reserveOrder backend order
  | reserveOrderWithCommitment order reserveCommitment =>
    SettlementEngine.reserveOrderWithCommitment order reserveCommitment
  | releaseOrder commitment => SettlementEngine.releaseOrder commitment
  | releaseOrdersAtomic commitments => SettlementEngine.releaseOrdersAtomic commitments
  | settleBatch backend fills arriving arrivingRemaining now =>
    SettlementEngine.settleBatch backend fills arriving arrivingRemaining now
  | settleBatchCollaborative backend fills proofs roundId arriving arrivingRemaining now =>
    SettlementEngine.settleBatchCollaborative backend fills proofs roundId arriving
      arrivingRemaining now

/-- The engine after a call, whether it succeeded or not. -/
def apply (engine : SettlementEngine) (call : EngineCall) : SettlementEngine :=
  after (call.method.run engine)

def run (calls : List EngineCall) (engine : SettlementEngine) : SettlementEngine :=
  calls.foldl apply engine

/-- The packages a `settle_batch` is given debit exactly what the fills take. -/
def ExactDebits : EngineCall → Prop
  | settleBatch backend _ _ _ _ => backend.ExactDebits
  | _ => True

end EngineCall

/-- What a failing call cannot change: a failed settlement may have advanced the height. -/
def SettlementEngine.books (engine : SettlementEngine) : ReservationBook × Participants :=
  (engine.reservations, engine.participants)

section

open SettlementEngine

theorem keeps_commitReservations {change : EStateM SettlementError ReservationBook Unit} :
    KeepsOnError books (commitReservations change) :=
  keeps_get_bind fun _ => keeps_attempt_bind fun _ => keeps_attempt_bind fun _ => keeps_set

/-- A failing call leaves the reservations and the accounts as they were. -/
theorem EngineCall.keepsOnError (call : EngineCall) : KeepsOnError books call.method := by
  cases call with
  | bindEligibleParticipant participantHandle entityNullifier =>
    exact keeps_get_bind fun _ => keeps_attempt_bind fun _ => keeps_attempt_bind fun _ => keeps_set
  | reserveOrder backend order => exact keeps_commitReservations
  | reserveOrderWithCommitment order reserveCommitment => exact keeps_commitReservations
  | releaseOrder commitment => exact keeps_commitReservations
  | releaseOrdersAtomic commitments => exact keeps_ensure_bind keeps_commitReservations
  | settleBatch backend fills arriving arrivingRemaining now =>
    exact keeps_attempt_bind fun _ => keeps_get_bind fun _ => keeps_attempt_bind fun _ =>
      keeps_attempt_bind fun _ => keeps_attempt_bind fun _ => keeps_ensure_bind
        (keeps_ensure_bind (keeps_attempt_bind fun _ => keeps_modify_bind (fun _ => rfl)
          (keeps_attempt_bind fun _ => keeps_modify)))
  | settleBatchCollaborative backend fills proofs roundId arriving arrivingRemaining now =>
    exact keeps_get_bind fun _ => keeps_attempt_bind fun _ => keeps_attempt_bind fun _ =>
      keeps_attempt_bind fun _ => keeps_attempt_bind fun _ => keeps_ensure_bind
        (keeps_ensure_bind (keeps_attempt_bind fun _ => keeps_modify_bind (fun _ => rfl)
          (keeps_attempt_bind fun _ => keeps_modify)))

/-- The reservations are within the accounts, and the capacities are the balances. -/
structure Solvent (engine : SettlementEngine) : Prop where
  within : Within engine.reservations engine.participants
  capacity : CapacitiesMatch engine.reservations engine.participants

variable {self engine : SettlementEngine}

theorem Solvent.of_books (h : Solvent self) (hbooks : engine.books = self.books) :
    Solvent engine := by
  obtain ⟨hreservations, hparticipants⟩ := Prod.mk.inj hbooks
  exact ⟨hreservations ▸ hparticipants ▸ h.within, hreservations ▸ hparticipants ▸ h.capacity⟩

theorem solvent_commitReservations {change : EStateM SettlementError ReservationBook Unit}
    {u : Unit} (hchange : ∀ book, change.run self.reservations = .ok () book →
      Within book self.participants ∧ CapacitiesMatch book self.participants)
    (hrun : (commitReservations change).run self = .ok u engine) : Solvent engine := by
  obtain ⟨hbook, hparticipants⟩ := commitReservations_ok hrun
  obtain ⟨hwithin, hmatch⟩ := hchange _ hbook
  exact ⟨hparticipants ▸ hwithin, hparticipants ▸ hmatch⟩

theorem Within.releaseAll {participants : Participants} {commitments : List Digest32}
    {book book' : ReservationBook} (h : Within book participants)
    (hmatch : CapacitiesMatch book participants) {u : Unit}
    (hrun : (releaseAll commitments).run book = .ok u book') :
    Within book' participants ∧ CapacitiesMatch book' participants := by
  induction commitments generalizing book with
  | nil =>
    obtain ⟨-, rfl⟩ := run_pure_eq_ok.mp hrun
    exact ⟨h, hmatch⟩
  | cons c rest ih =>
    obtain ⟨⟨⟩, mid, hone, hrest⟩ := run_bind_eq_ok.mp hrun
    obtain ⟨hwithin, hkept⟩ := h.releaseOrder hmatch hone
    exact ih hwithin hkept hrest

/-- The end of a batch: the arriving order is reconciled and every capacity refreshed. -/
theorem Solvent.settled (h : Solvent self) {fills : List PublicFill} {staged : StagedBatch}
    {reconciled : ReservationBook} {u : Unit}
    (hfills : SettledFills fills ⟨self.reservations, self.participants, self.spentInstructions⟩
      staged)
    (hreconciled : Within staged.reservations staged.participants →
      Within reconciled staged.participants)
    (hrefresh : (refreshCapacities staged.participants.entries).run reconciled =
      .ok u engine.reservations)
    (hparticipants : engine.participants = staged.participants) : Solvent engine := by
  have hwithin := hreconciled (h.within.settledFills hfills)
  have hkeys : (staged.participants.entries.map Prod.fst).Nodup :=
    staged.participants.sorted.imp fun hlt => ne_of_lt hlt
  obtain ⟨hrecords, hentities, hback, -, hset⟩ :=
    refreshCapacities_ok hkeys hwithin.one_to_one hrefresh
  refine ⟨⟨?_, fun id record hrecord => ?_, fun id record hrecord => ?_, ?_,
    fun p balances hp kind => ?_, ?_⟩, fun p e balances hp hb => ?_⟩
  · rw [hentities, hback]
    exact hwithin.one_to_one
  · rw [hrecords] at hrecord
    rw [hentities]
    exact hwithin.bound id record hrecord
  · rw [hrecords] at hrecord
    exact hwithin.ended id record hrecord
  · rw [hentities, hparticipants]
    exact hwithin.accounts
  · rw [hparticipants] at hp
    rw [held, hrecords]
    exact hwithin.held_le p balances hp kind
  · rw [hparticipants]
    exact hwithin.words
  · rw [hparticipants] at hb
    rw [hentities] at hp
    exact hset (p, balances) (mem_entries_iff.mpr hb) e hp

/-- **One call** keeps the engine solvent, whether it succeeds or not. -/
theorem Solvent.call (h : Solvent self) (call : EngineCall) (hexact : call.ExactDebits) :
    Solvent (call.apply self) := by
  unfold EngineCall.apply
  cases hrun : call.method.run self with
  | error e engine => exact h.of_books (call.keepsOnError _ _ _ hrun)
  | ok u engine =>
    cases call with
    | bindEligibleParticipant participantHandle entityNullifier =>
      unfold EngineCall.method bindEligibleParticipant at hrun
      simp only [run_rules, okOr_eq_ok] at hrun
      obtain ⟨s₁, s₂, ⟨rfl, rfl⟩, balances, s₃, ⟨hp, rfl⟩, ⟨⟨⟩, reservations⟩, s₄, ⟨hbind, rfl⟩,
        rfl⟩ := hrun
      obtain ⟨hwithin, hmatch⟩ :=
        h.within.bindParticipant h.capacity hp (stage_eq_ok.mp hbind)
      exact ⟨hwithin, hmatch⟩
    | reserveOrder backend order =>
      exact solvent_commitReservations (fun _ hbook => h.within.reserve h.capacity hbook) hrun
    | reserveOrderWithCommitment order reserveCommitment =>
      exact solvent_commitReservations (fun _ hbook => h.within.reserve h.capacity hbook) hrun
    | releaseOrder commitment =>
      exact solvent_commitReservations (fun _ hbook => h.within.releaseOrder h.capacity hbook) hrun
    | releaseOrdersAtomic commitments =>
      obtain ⟨⟨⟩, s₁, hensure, hcommit⟩ := run_bind_eq_ok.mp hrun
      obtain ⟨-, rfl⟩ := run_ensure_eq_ok.mp hensure
      exact solvent_commitReservations (fun _ hbook => h.within.releaseAll h.capacity hbook) hcommit
    | settleBatch backend fills arriving arrivingRemaining now =>
      obtain ⟨-, staged, reconciled, required, hfills, hreconcile, hrefresh, hparticipants⟩ :=
        settleBatch_run hrun
      exact h.settled (settleFills_settled hexact hfills)
        (fun hwithin => hwithin.reconcileArriving hreconcile) hrefresh hparticipants
    | settleBatchCollaborative backend fills proofs roundId arriving arrivingRemaining now =>
      obtain ⟨record, staged, reconciled, required, -, hfills, hreconcile, hrefresh,
        hparticipants⟩ := settleBatchCollaborative_run hrun
      exact h.settled (settleFillsCollaborative_settled hfills)
        (fun hwithin => hwithin.reconcileArrivingCollaborative hreconcile) hrefresh hparticipants

/-- **A run of calls** keeps the engine solvent. -/
theorem Solvent.run (h : Solvent self) {calls : List EngineCall}
    (hexact : ∀ call ∈ calls, call.ExactDebits) : Solvent (EngineCall.run calls self) := by
  induction calls generalizing self with
  | nil => exact h
  | cons call rest ih =>
    exact ih (h.call call (hexact call List.mem_cons_self))
      fun c hc => hexact c (List.mem_cons_of_mem _ hc)

/-- An engine that has no reservations yet. -/
theorem solvent_of_default (hempty : self.reservations = .default)
    (hwords : ∀ p balances, self.participants.get? p = some balances → ∀ kind,
      balances.on kind < u64Bound) : Solvent self := by
  refine ⟨⟨?_, ?_, ?_, ?_, ?_, hwords⟩, ?_⟩
  · rw [hempty]
    simp [ReservationBook.default]
  · rw [hempty]
    exact ReservationBook.holds_default
  · rw [hempty]
    exact ReservationBook.holds_default
  · rw [hempty]
    exact fun p e hp => absurd hp (by simp [ReservationBook.default])
  · intro p balances hp kind
    rw [hempty]
    exact Nat.zero_le _
  · rw [hempty]
    exact fun p e balances hp => absurd hp (by simp [ReservationBook.default])

/-- The staged copies of a batch in progress, by either loop. -/
inductive StagedBy (engine : SettlementEngine) (staged : StagedBatch) : Prop where
  | settleBatch (backend : Backend) (marketId : String) (now : Nat) (fills : List PublicFill) :
      backend.ExactDebits → settleFills backend marketId now 0 fills
        ⟨engine.reservations, engine.participants, engine.spentInstructions⟩ = .ok staged →
        StagedBy engine staged
  | settleBatchCollaborative (backend : CollaborativeBackend) (roundId : Digest32)
      (marketId : String) (now : Nat) (pairs : List (PublicFill × CollaborativeFillProof)) :
      settleFillsCollaborative backend roundId marketId now 0 pairs
        ⟨engine.reservations, engine.participants, engine.spentInstructions⟩ = .ok staged →
        StagedBy engine staged

theorem Solvent.staged (h : Solvent engine) {staged : StagedBatch}
    (hstaged : StagedBy engine staged) :
    Within staged.reservations staged.participants := by
  cases hstaged with
  | settleBatch backend marketId now fills hexact hrun =>
    exact h.within.settledFills (settleFills_settled hexact hrun)
  | settleBatchCollaborative backend roundId marketId now pairs hrun =>
    exact h.within.settledFills (settleFillsCollaborative_settled hrun)

/-- Without an account nothing is held. -/
theorem Within.held_eq_zero {book : ReservationBook} {participants : Participants}
    (h : Within book participants) {p : Digest32} (hp : participants.get? p = none)
    (kind : ReservationKind) : book.held p kind = 0 := by
  rw [held_eq_total]
  refine total_eq_zero fun id record hrecord => if_neg fun hall => ?_
  obtain ⟨balances, hb⟩ := h.accounts _ _ (h.bound id record hrecord)
  rw [hall.1, hp] at hb
  exact absurd hb (by simp)

/-- `participant_portfolio` reports what is held and what is left of the account. -/
theorem Solvent.portfolio (h : Solvent engine) {p : Digest32} {balances : ParticipantBalances}
    (hp : engine.participants.get? p = some balances) :
    engine.participantPortfolio p = .ok {
      securities := balances.securities.value
      cash := balances.cash.value
      reservedSecurities := engine.reservations.held p .securities
      reservedCash := engine.reservations.held p .cash
      availableSecurities := balances.securities.value - engine.reservations.held p .securities
      availableCash := balances.cash.value - engine.reservations.held p .cash } := by
  have hsum : ∀ kind, engine.reservations.reservedFor p kind =
      .ok (engine.reservations.held p kind) := by
    intro kind
    have hle := h.within.held_le p balances hp kind
    have hword := h.within.words p balances hp kind
    exact okOr_eq_ok.mpr (checkedSum_eq_some (Nat.lt_of_le_of_lt hle hword))
  unfold participantPortfolio
  rw [hp, hsum, hsum]
  rfl

theorem checkedDebit_of_le {balance amount : Nat} (h : amount ≤ balance) :
    checkedDebit balance amount = .ok (balance - amount) :=
  okOr_eq_ok.mpr (checkedSub_eq_some.mpr ⟨h, rfl⟩)

/-- **Reservations never exceed balances**, in every state a run of calls reaches from an engine
without reservations. What a participant's active reservations hold on a rail is within the balance
and, once the participant is bound, within the stored capacity. So `participant_portfolio` answers
without saturating, and at every turn of a batch the debits of a consumed fill succeed. -/
theorem reservations_within_balances {start : SettlementEngine}
    (hempty : start.reservations = .default)
    (hwords : ∀ p balances, start.participants.get? p = some balances → ∀ kind,
      balances.on kind < u64Bound)
    {calls : List EngineCall} (hexact : ∀ call ∈ calls, call.ExactDebits) :
    let engine := EngineCall.run calls start
    (∀ p kind, engine.reservations.held p kind ≤
      (engine.participants.get? p).elim 0 fun balances => balances.on kind) ∧
    (∀ p e, engine.reservations.participantEntities.get? p = some e →
      ∀ kind : ReservationKind, ∃ capacity,
        engine.reservations.capacities.get? (toLex (e, kind.tag)) = some capacity ∧
        engine.reservations.held p kind ≤ capacity) ∧
    (∀ p balances, engine.participants.get? p = some balances → ∃ portfolio,
      engine.participantPortfolio p = .ok portfolio ∧
      portfolio.reservedSecurities + portfolio.availableSecurities = portfolio.securities ∧
      portfolio.reservedCash + portfolio.availableCash = portfolio.cash) ∧
    ∀ staged, StagedBy engine staged → ∀ fill marketId now consumed book seller buyer,
      (consumeFill fill marketId now).run staged.reservations =
        .ok consumed book →
      staged.participants.get? consumed.sellerHandle = some seller →
      staged.participants.get? consumed.buyerHandle = some buyer →
      (∃ left, checkedDebit seller.securities.value fill.quantity = .ok left) ∧
        ∃ left, checkedDebit buyer.cash.value (fill.price * fill.quantity) = .ok left := by
  intro engine
  have h : Solvent engine := (solvent_of_default hempty hwords).run hexact
  refine ⟨fun p kind => ?_, fun p e hp kind => ?_, fun p balances hp => ?_, ?_⟩
  · cases hp : engine.participants.get? p with
    | none => exact (h.within.held_eq_zero hp kind).le
    | some balances => exact h.within.held_le p balances hp kind
  · obtain ⟨balances, hb⟩ := h.within.accounts p e hp
    exact ⟨_, h.capacity p e balances hp hb kind, h.within.held_le p balances hb kind⟩
  · have hsecurities := h.within.held_le p balances hp .securities
    have hcash := h.within.held_le p balances hp .cash
    exact ⟨_, h.portfolio hp, Nat.add_sub_cancel' hsecurities, Nat.add_sub_cancel' hcash⟩
  · intro staged hstaged fill marketId now consumed book seller buyer hrun hseller hbuyer
    obtain ⟨hdelivers, hpays⟩ := (h.staged hstaged).pays hrun hseller hbuyer
    exact ⟨⟨_, checkedDebit_of_le hdelivers⟩, ⟨_, checkedDebit_of_le hpays⟩⟩

end

section Sample

attribute [local instance] transparentCrypto

/-- Packages that debit what the fill takes and refuse a payer who lacks it. -/
def exactBackend : Backend where
  reserveCommitment := 1
  verifyBinding := fun _ _ _ => .ok ()
  prove := fun _ _ => .ok ()
  buildPackage := fun _ fill seller buyer =>
    if fill.quantity ≤ seller.securities.value ∧
        fill.price * fill.quantity ≤ buyer.cash.value then
      .ok ⟨7, seller.securities.value - fill.quantity,
        buyer.cash.value - fill.price * fill.quantity⟩
    else .error .insolvent
  settle := fun _ _ => .ok ()
  agrees := fun _ _ => true
  conserved := fun _ => true
  finality := .ok ()

theorem exactDebits_exactBackend : exactBackend.ExactDebits := by
  intro index fill seller buyer package h
  unfold exactBackend at h
  dsimp only at h
  split at h
  · rename_i hle
    obtain rfl := Except.ok.inj h
    exact ⟨Nat.sub_add_cancel hle.1, Nat.sub_add_cancel hle.2⟩
  · exact absurd h (by simp)

/-- Both participants are bound and reserve, and the buy takes 3 of the sell. -/
def solventCalls : List EngineCall :=
  ([coveredSell, coveredBuy].flatMap fun order =>
    [.bindEligibleParticipant order.participantHandle order.dekyxNullifier,
      .reserveOrder exactBackend (settlementView order)]) ++
  [.settleBatch exactBackend [coveredFill 100 3] (settlementView coveredBuy) 2 1000]

/-- The engine of the sample before any reservation. -/
def freshEngine : SettlementEngine := { coveredEngine with reservations := .default, height := 0 }

theorem reservations_within_balances_sample :
    let engine := EngineCall.run solventCalls freshEngine
    engine.height = 3 ∧ 0 < engine.reservations.held coveredBuy.participantHandle .cash ∧
      engine.reservations.held coveredBuy.participantHandle .cash ≤
        (engine.participants.get? coveredBuy.participantHandle).elim 0 fun balances =>
          balances.on .cash := by
  intro engine
  have hexact : ∀ call ∈ solventCalls, call.ExactDebits := by
    intro call hcall
    simp only [solventCalls, List.flatMap_cons, List.flatMap_nil, List.cons_append,
      List.nil_append, List.append_nil, List.mem_cons, List.not_mem_nil, or_false] at hcall
    rcases hcall with rfl | rfl | rfl | rfl | rfl
    · exact trivial
    · exact trivial
    · exact trivial
    · exact trivial
    · exact exactDebits_exactBackend
  have hwords : ∀ p balances, freshEngine.participants.get? p = some balances → ∀ kind,
      balances.on kind < u64Bound := by
    intro p balances hp kind
    simp only [freshEngine, coveredEngine, get?_insert, get?_empty] at hp
    have hbalances : balances = ⟨⟨1000, true⟩, ⟨1000, true⟩⟩ := by
      split at hp
      · exact (Option.some.inj hp).symm
      · split at hp
        · exact (Option.some.inj hp).symm
        · exact absurd hp (by simp)
    rw [hbalances]
    cases kind <;> decide
  refine ⟨by decide +kernel, by decide +kernel, ?_⟩
  exact (reservations_within_balances rfl hwords hexact).1 _ _

end Sample

end Oclob.Settlement
