import Oclob.Settlement.Holdings

/-!
# The supply bounds the open quantity

No call of `SettlementEngine` makes or loses balances, active reservations stay within them, and a
price is at least one, so the reserve of an open record is at least its open quantity. Summed over
all records, of either rail, the open quantity is at most the supply of the accounts
(`Funds.open_le_supply`), however many records there are.
-/

namespace Oclob.Settlement

open Oclob.Core Oclob.Lib

variable {record record' : ReservationRecord}

/-- The reserve of an open record is at least its open quantity. -/
structure Reserved (record : ReservationRecord) : Prop where
  price : 0 < record.limitPrice
  active : record.status = .active → record.remainingQuantity ≤ record.remaining
  ended : record.status ≠ .active → record.remainingQuantity = 0

theorem quantity_le_requiredFor (hprice : 0 < record.limitPrice) {quantity required : Nat}
    (h : record.requiredFor quantity = some required) : quantity ≤ required := by
  unfold ReservationRecord.requiredFor at h
  split at h
  · omega
  · cases hkind : record.kind with
    | securities =>
      rw [hkind] at h
      exact (Option.some.inj h).le
    | cash =>
      rw [hkind] at h
      obtain ⟨value, hvalue, hadd⟩ := Option.bind_eq_some_iff.mp h
      obtain ⟨-, rfl⟩ := checkedMul_eq_some.mp hvalue
      obtain ⟨-, rfl⟩ := checkedAdd_eq_some.mp hadd
      exact (Nat.le_mul_of_pos_left quantity hprice).trans (Nat.le_add_right _ _)

theorem quantity_le_requiredReserve {side : Side} {limitPrice quantity maxFee required : Nat}
    (hprice : 0 < limitPrice)
    (h : requiredReserve side limitPrice quantity maxFee = some required) :
    quantity ≤ required := by
  unfold requiredReserve at h
  cases side with
  | sell => exact (Option.some.inj h).le
  | buy =>
    obtain ⟨value, hvalue, hadd⟩ := Option.bind_eq_some_iff.mp h
    obtain ⟨-, rfl⟩ := checkedMul_eq_some.mp hvalue
    obtain ⟨-, rfl⟩ := checkedAdd_eq_some.mp hadd
    exact (Nat.le_mul_of_pos_left quantity hprice).trans (Nat.le_add_right _ _)

section

variable [Crypto]

theorem reserved_newRecord (order : SecretOrder) (c : Digest32) :
    Reserved (ReservationBook.newRecord (settlementView order) c) := by
  obtain ⟨required, hrequired, hle⟩ := order.covered
  exact ⟨order.positive.1,
    fun _ => (quantity_le_requiredReserve order.positive.1 hrequired).trans hle,
    fun h => absurd rfl h⟩

/-- **Every change of a record** keeps its quantity within its reserve. -/
theorem reserved_change (orders : List SecretOrder) (record record' : ReservationRecord)
    (h : Reserved record) (hchange : RecordChange orders record record') : Reserved record' := by
  cases hchange with
  | consumed hactive hrun =>
    obtain ⟨hupd, -, -, hstatus, hrequired⟩ := consumeRecord_ok hrun
    refine ⟨by rw [hupd]; exact h.price, fun _ => quantity_le_requiredFor h.price hrequired,
      fun hend => ?_⟩
    by_contra hpos
    rw [hstatus, if_neg hpos] at hend
    exact hend rfl
  | recommitted c => exact ⟨h.price, h.active, h.ended⟩
  | ended hstatus => exact ⟨h.price, fun hact => absurd hact hstatus, fun _ => rfl⟩
  | kept hpos =>
    refine ⟨h.price, fun _ => h.active ?_, fun hend => absurd rfl hend⟩
    by_contra hend
    exact hpos (h.ended hend)
  | @reconciled order required horder hcommit hrequired =>
    by_cases hzero : 0 < required
    · simp only [if_pos hzero]
      refine ⟨h.price, fun _ => ?_, fun hend => absurd rfl hend⟩
      unfold ReservationBook.requiredRemainder at hrequired
      split at hrequired
      · obtain rfl := Option.some.inj hrequired
        exact absurd hzero (Nat.lt_irrefl 0)
      · exact quantity_le_requiredReserve order.positive.1 hrequired
    · simp only [if_neg hzero]
      refine ⟨h.price, fun _ => Nat.zero_le _, fun _ => rfl⟩

end

/-! ## The accounts of an engine -/

/-- A solvent engine whose accounts hold this supply. -/
structure Funds (supply : ReservationKind → Nat) (engine : SettlementEngine) : Prop where
  solvent : Solvent engine
  total : ∀ kind, engine.participants.total (·.on kind) = supply kind
  reserved : engine.reservations.Holds Reserved

/-- What the active records of a rail hold is within the accounts. -/
theorem Within.held_le_total {book : ReservationBook} {participants : Participants}
    (h : Within book participants) (kind : ReservationKind) :
    book.records.total (fun record =>
      if record.kind = kind ∧ record.status = .active then record.remaining else 0) ≤
        participants.total (·.on kind) := by
  have haccounts : (participants.entries.map Prod.fst).Nodup :=
    participants.sorted.imp fun hlt => ne_of_lt hlt
  let entries := (book.records.values.filter fun record =>
    decide (record.kind = kind ∧ record.status = .active)).map fun record =>
      (record.participantHandle, record.remaining)
  have hheld : ∀ p, tally p entries = book.held p kind := fun p => by
    rw [ReservationBook.held_eq_total, tally_map_filter]
    refine congrArg List.sum (List.map_congr_left fun record _ => ?_)
    simp only [heldBy, decide_eq_true_eq, and_comm, and_assoc]
  have hbound : ∀ e ∈ entries, e.1 ∈ participants.entries.map Prod.fst := fun e he => by
    obtain ⟨record, hrecord, rfl⟩ := List.mem_map.mp he
    obtain ⟨id, hid⟩ := OrdMap.mem_values.mp (List.mem_filter.mp hrecord).1
    obtain ⟨balances, hbalances⟩ := h.accounts _ _ (h.bound id record hid)
    exact List.mem_map.mpr ⟨(_, balances), OrdMap.mem_entries_iff.mpr hbalances, rfl⟩
  have hsum := sum_tally haccounts hbound
  have hentries : (entries.map Prod.snd).sum = book.records.total (fun record =>
      if record.kind = kind ∧ record.status = .active then record.remaining else 0) := by
    rw [List.map_map, sum_map_filter]
    simp only [decide_eq_true_eq]
    rfl
  rw [← hentries, ← hsum, OrdMap.total, OrdMap.values, List.map_map, List.map_map]
  refine List.sum_le_sum fun entry hentry => ?_
  exact (hheld entry.1).le.trans
    (h.held_le entry.1 entry.2 (OrdMap.mem_entries_iff.mp hentry) kind)

/-- **The open quantity is within the supply** of the two rails. -/
theorem Funds.open_le_supply {supply : ReservationKind → Nat} {engine : SettlementEngine}
    (h : Funds supply engine) :
    engine.reservations.records.total ReservationRecord.remainingQuantity ≤
      supply .cash + supply .securities := by
  have hcash := h.solvent.within.held_le_total .cash
  have hsecurities := h.solvent.within.held_le_total .securities
  rw [h.total] at hcash hsecurities
  refine le_trans ?_ (Nat.add_le_add hcash hsecurities)
  rw [OrdMap.total, OrdMap.total, OrdMap.total, ← List.sum_map_add]
  refine List.sum_le_sum fun record hrecord => ?_
  obtain ⟨id, hid⟩ := OrdMap.mem_values.mp hrecord
  have hreserved := h.reserved id record hid
  by_cases hactive : record.status = .active
  · have hle := hreserved.active hactive
    cases hkind : record.kind <;> simp [hactive] <;> exact hle
  · rw [hreserved.ended hactive]
    exact Nat.zero_le _

/-! ## The calls of the service -/

section

open SettlementEngine ReservationBook

variable {supply : ReservationKind → Nat} {self engine : SettlementEngine} {u : Unit}

theorem Funds.of_books (h : Funds supply self) (hsolvent : Solvent engine)
    (hparticipants : engine.participants = self.participants)
    (hreserved : engine.reservations.Holds Reserved) : Funds supply engine :=
  ⟨hsolvent, fun kind => hparticipants ▸ h.total kind, hreserved⟩

/-- A call that succeeded kept the engine solvent. -/
theorem Solvent.of_run (h : Solvent self) (call : EngineCall) (hexact : call.ExactDebits)
    (hrun : call.method.run self = .ok u engine) : Solvent engine := by
  have hsolvent := h.call call hexact
  rwa [EngineCall.apply, hrun] at hsolvent

theorem Funds.bindEligibleParticipant (h : Funds supply self) {participant entity : Digest32}
    (hrun : (bindEligibleParticipant participant entity).run self = .ok u engine) :
    Funds supply engine := by
  have hsolvent := h.solvent.of_run (.bindEligibleParticipant participant entity) trivial hrun
  unfold SettlementEngine.bindEligibleParticipant at hrun
  simp only [run_rules, okOr_eq_ok] at hrun
  obtain ⟨s₁, s₂, ⟨rfl, rfl⟩, balances, s₃, ⟨-, rfl⟩, ⟨⟨⟩, reservations⟩, s₄, ⟨hbind, rfl⟩,
    rfl⟩ := hrun
  obtain ⟨-, -, hbook⟩ := bindParticipant_run (stage_eq_ok.mp hbind)
  refine h.of_books hsolvent rfl fun id record hrecord => h.reserved id record ?_
  rwa [hbook] at hrecord

variable [Crypto] {order : SecretOrder}

theorem Funds.reserveOrder (h : Funds supply self) {backend : Backend}
    (hrun : (reserveOrder backend (settlementView order)).run self = .ok u engine) :
    Funds supply engine := by
  obtain ⟨hbook, hparticipants⟩ := commitReservations_ok hrun
  have hreserved := h.reserved.reserve (reserved_newRecord order) backend.reserveCommitment
  rw [hbook] at hreserved
  exact h.of_books (h.solvent.of_run (.reserveOrder backend _) trivial hrun) hparticipants
    hreserved

theorem Holds.releaseAll {commitments : List Digest32} {book book' : ReservationBook}
    (h : book.Holds Reserved) (hrun : (releaseAll commitments).run book = .ok u book') :
    book'.Holds Reserved := by
  induction commitments generalizing book with
  | nil => exact (run_pure_eq_ok.mp hrun).2 ▸ h
  | cons c rest ih =>
    obtain ⟨⟨⟩, mid, hone, hrest⟩ := run_bind_eq_ok.mp hrun
    have hmid := h.releaseOrder (reserved_change []) c
    rw [hone] at hmid
    exact ih hmid hrest

theorem Funds.releaseOrdersAtomic (h : Funds supply self) {commitments : List Digest32}
    (hrun : (releaseOrdersAtomic commitments).run self = .ok u engine) : Funds supply engine := by
  have hsolvent := h.solvent.of_run (.releaseOrdersAtomic commitments) trivial hrun
  obtain ⟨⟨⟩, s₁, hensure, hcommit⟩ := run_bind_eq_ok.mp hrun
  obtain ⟨-, rfl⟩ := run_ensure_eq_ok.mp hensure
  obtain ⟨hbook, hparticipants⟩ := commitReservations_ok hcommit
  exact h.of_books hsolvent hparticipants (Holds.releaseAll h.reserved hbook)

theorem Funds.releaseOrder (h : Funds supply self) {commitment : Digest32}
    (hrun : (SettlementEngine.releaseOrder commitment).run self = .ok u engine) :
    Funds supply engine := by
  obtain ⟨hbook, hparticipants⟩ := commitReservations_ok hrun
  have hreserved := h.reserved.releaseOrder (reserved_change []) commitment
  rw [hbook] at hreserved
  exact h.of_books (h.solvent.of_run (.releaseOrder commitment) trivial hrun) hparticipants
    hreserved

theorem Holds.consumeFills {marketId : String} {now : Nat} {fills : List PublicFill}
    {book book' : ReservationBook} (h : book.Holds Reserved)
    (hrun : (consumeFills marketId now fills).run book = .ok u book') : book'.Holds Reserved := by
  induction fills generalizing book with
  | nil => exact (run_pure_eq_ok.mp hrun).2 ▸ h
  | cons fill rest ih =>
    obtain ⟨consumed, mid, hone, hrest⟩ := run_bind_eq_ok.mp hrun
    have hmid := h.consumeFill (reserved_change []) fill marketId now
    rw [hone] at hmid
    exact ih hmid hrest

theorem Funds.settleBatch (h : Funds supply self) {backend : Backend} (hexact : backend.ExactDebits)
    {fills : List PublicFill} {arrivingRemaining now : Nat}
    (hrun : (settleBatch backend fills (settlementView order) arrivingRemaining now).run self =
      .ok u engine) : Funds supply engine := by
  refine ⟨h.solvent.of_run (.settleBatch backend fills _ arrivingRemaining now) hexact hrun,
    fun kind => ?_, ?_⟩
  · obtain ⟨staged, hsettled, hparticipants⟩ :=
      (SettlesBatch.settleBatch backend _ arrivingRemaining now hexact hrun).settled
    rw [hparticipants, hsettled.total_eq]
    exact h.total kind
  · obtain ⟨-, consumed, reconciled, required, hconsume, hreconcile, hrecords⟩ :=
      settleBatch_ok hrun
    have hreserved := (Holds.consumeFills h.reserved hconsume).reconcileArriving
      (List.mem_singleton_self order) (reserved_change [order]) arrivingRemaining
    rw [hreconcile] at hreserved
    refine holds_of_recordFor fun c record hrecord => ?_
    exact hreserved.recordFor (congrFun hrecords c ▸ hrecord)

end

end Oclob.Settlement
