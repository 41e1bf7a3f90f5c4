import Oclob.Service.TwoPhase
import Oclob.Service.Words
import Oclob.Settlement.Supply

/-!
# No sum of a live book wraps

The book bounds the number of its orders by nothing, and an order may ask for any `u64` quantity.
What keeps the sums of `Words` within a word is the settlement side: every resting order is backed
by an active reservation of its own (`Agrees`), whose reserve is at least the open quantity, and
the reserves are within the accounts, whose totals no call changes (`Funds`). A service starts with
20 000 securities and 200 000 000 of cash in all.

`Funded` is that invariant, and `DeskFunded` says it of every state of a service that also serves
two-phase submissions: what `accept` writes back was staged on a service with the same supply.
-/

namespace Oclob.Service

open Oclob.Core Oclob.Lib Oclob.Settlement OclobService

section

variable {Ordering Eligibility : Type} [Crypto]

/-- The book agrees with the reservations, and those are funded. -/
structure OclobService.Funded (supply : ReservationKind → Nat)
    (service : OclobService Ordering Eligibility) : Prop where
  agrees : service.Agrees
  funds : Funds supply service.settlement

section Calls

open OclobService

variable {supply : ReservationKind → Nat} {self next : OclobService Ordering Eligibility}
  {ext ext' : Externals Ordering Eligibility} {order : SecretOrder} {authority : OrderAuthority}
  {now now' : Nat} {staged : StagedSubmission Ordering Eligibility} {settlement : SettlementEngine}

/-- **The open quantity of a funded service is within its supply.** -/
theorem OclobService.Funded.openTotal_le (h : self.Funded supply) :
    openTotal self.book ≤ supply .cash + supply .securities := by
  refine le_trans ?_ h.funds.open_le_supply
  have hsum := sum_le_of_nodup (l := self.settlement.reservations.records.values.map fun r =>
    (r.orderCommitment, r.remainingQuantity)) h.agrees.inv.distinct fun o ho => by
      obtain ⟨r, hback⟩ := h.agrees.exists_record ⟨o, ho⟩
      exact ⟨r.1.remainingQuantity, hback.remaining.ge, List.mem_map.mpr
        ⟨r.1, r.2.1, by rw [hback.commitment]⟩⟩
  rwa [List.map_map] at hsum

theorem OclobService.Funded.stageExpiry (h : self.Funded supply)
    (hstage : self.stageExpiry ext now = .ok next) : next.Funded supply := by
  refine ⟨h.agrees.stageExpiry hstage, ?_⟩
  simp only [OclobService.stageExpiry, ok_rules] at hstage
  obtain ⟨⟨seq, ordering⟩, -, ⟨transition, book⟩, -, -, -, ⟨⟨⟩, settlement⟩, hrelease, rfl⟩ :=
    hstage
  exact h.funds.releaseOrdersAtomic (stage_eq_ok.mp hrelease)

theorem OclobService.Funded.stageCancellation (h : self.Funded supply)
    {cancellation : SecretCancellation}
    (hstage : self.stageCancellation ext cancellation now = .ok next) : next.Funded supply := by
  refine ⟨h.agrees.stageCancellation hstage, ?_⟩
  simp only [OclobService.stageCancellation, ok_rules] at hstage
  obtain ⟨⟨seq, ordering⟩, -, ⟨transition, book⟩, -, -, -, ⟨⟨⟩, settlement⟩, hrelease, rfl⟩ :=
    hstage
  exact h.funds.releaseOrder (stage_eq_ok.mp hrelease)

theorem funds_stageSubmission (h : Funds supply self.settlement)
    (hstage : self.stageSubmission ext order authority now = .ok staged) :
    Funds supply staged.settlement := by
  simp only [stageSubmission, ok_rules] at hstage
  obtain ⟨_, -, _, -, _, -, _, -, ⟨_, _⟩, -, ⟨⟨⟩, bound⟩, hbind, ⟨⟨⟩, reserved⟩, hreserve, ⟨_, _⟩,
    -, _, -, _, -, ⟨_, _⟩, -, _, -, rfl⟩ := hstage
  exact (h.bindEligibleParticipant (stage_eq_ok.mp hbind)).reserveOrder (stage_eq_ok.mp hreserve)

theorem funds_finishSubmission (h : Funds supply staged.settlement)
    (hexact : ext.toBackend.ExactDebits)
    (hfinish : finishSubmission ext order now staged = .ok settlement) :
    Funds supply settlement := by
  unfold finishSubmission at hfinish
  split at hfinish
  · split at hfinish
    · obtain ⟨⟨⟨⟩, engine⟩, hrelease, hpure⟩ := except_bind_eq_ok.mp hfinish
      obtain rfl := Except.ok.inj hpure
      exact h.releaseOrder (stage_eq_ok.mp (mapError_eq_ok.mp hrelease))
    · exact Except.ok.inj hfinish ▸ h
  · obtain ⟨⟨⟨⟩, engine⟩, hsettle, hpure⟩ := except_bind_eq_ok.mp hfinish
    obtain rfl := Except.ok.inj hpure
    exact h.settleBatch hexact (stage_eq_ok.mp (mapError_eq_ok.mp hsettle))

/-- **A submission** that reaches its end keeps the service funded. -/
theorem OclobService.Funded.submission (h : self.Funded supply)
    (hexact : ext'.toBackend.ExactDebits)
    (hstage : self.stageSubmission ext order authority now = .ok staged)
    (hfinish : finishSubmission ext' order now' staged = .ok settlement) :
    OclobService.Funded supply { self with
      book := staged.book
      ordering := staged.ordering
      settlement
      eligibility := staged.eligibility } :=
  ⟨h.agrees.submission hstage hfinish,
    funds_finishSubmission (funds_stageSubmission h.funds hstage) hexact hfinish⟩

theorem OclobService.Funded.apply (h : self.Funded supply) (call : Call Ordering Eligibility)
    (hexact : call.externals.toBackend.ExactDebits) : (self.apply call).Funded supply :=
  apply_keeps call OclobService.Funded.stageExpiry
    (fun hself hstage => hself.stageCancellation hstage)
    (fun hself hstage hfinish => hself.submission hexact hstage hfinish) h

end Calls

/-! ## Two-phase submissions -/

/-- The engine that acceptance writes back, up to its height. -/
def candidateOf : PreparedCanonicalTransition → SettlementEngine
  | .reservation prepared | .settlement prepared => prepared.candidate

section Desk

variable {supply : ReservationKind → Nat} {self next : OclobService Ordering Eligibility}
  {backend : Backend} {canonical : Canonical} {order : SecretOrder} {now : Nat}
  {staged : StagedSubmission Ordering Eligibility}
  {item : PreparedOclobSubmission Ordering Eligibility}

/-- What is prepared is what `submit` would have written back. -/
theorem prepareStaged_finishes
    (h : self.prepareStaged backend canonical order staged now = .ok item)
    (ext : Externals Ordering Eligibility) : item.stagedBook = staged.book ∧
      finishSubmission { ext with toBackend := backend } order now staged =
        .ok (candidateOf item.canonical) := by
  simp only [prepareStaged, ok_rules] at h
  obtain ⟨-, hrests, prepared, hprepared, rfl⟩ := h
  refine ⟨rfl, ?_⟩
  unfold finishSubmission
  split
  · rename_i hempty
    rw [if_pos hempty] at hprepared
    rw [if_neg fun hioc => hrests ⟨hempty, hioc⟩]
    simp only [SettlementEngine.prepareCanonicalReservation, ok_rules] at hprepared
    obtain ⟨_, -, _, -, _, -, _, -, _, -, _, -, rfl⟩ := hprepared
    rfl
  · rename_i hfills
    rw [if_neg hfills] at hprepared
    simp only [SettlementEngine.prepareCanonicalAdmissionBatch,
      SettlementEngine.prepareCanonicalBatch, ok_rules] at hprepared
    obtain ⟨_, -, _, -, _, -, _, -, _, -, _, -, batch, ⟨⟨⟨⟩, engine⟩, hsettle, _, -, _, -, _, -,
      rfl⟩, _, -, rfl⟩ := hprepared
    simp only [hsettle]
    rfl

theorem preparedCanonical_accept {prepared : PreparedCanonical}
    {acceptance : CanonicalSettlementAcceptance} {engine engine' : SettlementEngine} {u : Unit}
    (h : (prepared.accept canonical acceptance).run engine = .ok u engine') :
    engine' = { prepared.candidate with height := acceptance.height } := by
  simp only [PreparedCanonical.accept, run_rules] at h
  obtain ⟨_, _, ⟨rfl, rfl⟩, _, _, ⟨-, rfl⟩, _, _, ⟨-, rfl⟩, rfl⟩ := h
  rfl

/-- A successful `accept` wrote the prepared book and engine back. -/
theorem accept_writes {acceptance : CanonicalSettlementAcceptance} {u : Unit}
    (h : (item.accept canonical acceptance).run self = .ok u next) :
    next = { self with
      book := item.stagedBook
      ordering := item.stagedOrdering
      settlement := { candidateOf item.canonical with height := acceptance.height }
      eligibility := item.stagedEligibility } := by
  simp only [PreparedOclobSubmission.accept, run_rules, mapError_eq_ok] at h
  obtain ⟨_, _, ⟨rfl, rfl⟩, _, _, ⟨-, rfl⟩, ⟨_, settlement⟩, _, ⟨haccept, rfl⟩, rfl⟩ := h
  have hrun := stage_eq_ok.mp haccept
  cases hitem : item.canonical with
  | reservation prepared =>
    rw [hitem] at hrun
    rw [preparedCanonical_accept hrun]
    rfl
  | settlement prepared =>
    rw [hitem] at hrun
    rw [preparedCanonical_accept hrun]
    rfl

/-- The back ends an action asks debit exactly what the fills take. -/
def Action.ExactDebits : Action Ordering Eligibility → Prop
  | .call served => served.externals.toBackend.ExactDebits
  | .prepareCanonical ext _ _ _ _ => ext.toBackend.ExactDebits
  | .finalize _ backend _ _ _ _ => backend.ExactDebits
  | .prepareOptimistic _ _ _ _ _ _ | .accept _ _ _ => True

/-- The service is funded, and so is what the held submissions will write back. -/
structure DeskFunded (supply : ReservationKind → Nat) (desk : Desk Ordering Eligibility) :
    Prop where
  service : desk.service.Funded supply
  pending : ∀ held ∈ desk.pending, ∃ (origin : OclobService Ordering Eligibility)
    (ext : Externals Ordering Eligibility) (authority : OrderAuthority) (now : Nat),
      origin.Funded supply ∧
        origin.stageSubmission ext held.item.order authority now = .ok held.item.staged
  prepared : ∀ held ∈ desk.prepared, ∀ service : OclobService Ordering Eligibility,
    OclobService.Funded supply { service with
      book := held.item.stagedBook
      settlement := candidateOf held.item.canonical }

/-- Funds and agreement are a matter of the book, the reservations and the accounts. -/
theorem OclobService.Funded.congr (h : self.Funded supply) (hbook : next.book = self.book)
    (hbooks : next.settlement.books = self.settlement.books) : next.Funded supply := by
  obtain ⟨hreservations, hparticipants⟩ := Prod.mk.inj hbooks
  refine ⟨⟨hbook ▸ h.agrees.inv, ?_, ?_⟩, h.funds.of_books (h.funds.solvent.of_books hbooks)
    hparticipants ?_⟩
  · rw [hbook, hreservations]
    exact h.agrees.same
  · rw [hreservations]
    exact h.agrees.settled
  · rw [hreservations]
    exact h.funds.reserved

/-- A prepared submission is funded when it was staged on a funded service. -/
theorem funded_prepareStaged {origin : OclobService Ordering Eligibility}
    {ext : Externals Ordering Eligibility} {authority : OrderAuthority} {time : Nat}
    (horigin : origin.Funded supply)
    (hstage : origin.stageSubmission ext order authority time = .ok staged)
    (hexact : backend.ExactDebits)
    (h : self.prepareStaged backend canonical order staged now = .ok item) :
    OclobService.Funded supply { next with
      book := item.stagedBook
      settlement := candidateOf item.canonical } := by
  obtain ⟨hbook, hfinish⟩ := prepareStaged_finishes h ext
  exact (horigin.submission hexact hstage hfinish).congr hbook rfl

variable {desk : Desk Ordering Eligibility} {action : Action Ordering Eligibility}

/-- **One operation** keeps the desk funded, whether it succeeds or not. -/
theorem DeskFunded.act (h : DeskFunded supply desk) (hexact : action.ExactDebits) :
    DeskFunded supply (desk.act action) := by
  cases action with
  | call served => exact ⟨h.service.apply served hexact, h.pending, h.prepared⟩
  | prepareCanonical ext canonical order authority now =>
    simp only [Desk.act]
    split
    · rename_i item hprepare
      simp only [prepareCanonicalSubmit, except_bind_eq_ok] at hprepare
      obtain ⟨_, -, staged, hstage, hprepared⟩ := hprepare
      refine ⟨h.service, h.pending, List.forall_mem_cons.mpr ⟨fun service => ?_, h.prepared⟩⟩
      exact funded_prepareStaged h.service hstage hexact hprepared
    · exact h
  | prepareOptimistic ext canonical optimistic order authority now =>
    simp only [Desk.act]
    split
    · rename_i item hprepare
      simp only [prepareOptimisticSubmit, ok_rules] at hprepare
      obtain ⟨_, -, _, -, staged, hstage, _, -, rfl⟩ := hprepare
      exact ⟨h.service, List.forall_mem_cons.mpr
        ⟨⟨desk.service, _, authority, now, h.service, hstage⟩, h.pending⟩, h.prepared⟩
    · exact h
  | finalize index backend canonical claimed fromCanonical now =>
    simp only [Desk.act]
    split
    · exact h
    · rename_i held hheld
      have hrest : ∀ other ∈ desk.pending.eraseIdx index, _ := fun other hother =>
        h.pending other (List.mem_of_mem_eraseIdx hother)
      split
      · rename_i item hfinalize
        obtain ⟨origin, ext, authority, time, horigin, hstage⟩ :=
          h.pending held (List.mem_of_getElem? hheld)
        simp only [PendingOclobSubmission.finalize, except_bind_eq_ok] at hfinalize
        obtain ⟨_, -, _, -, _, -, hprepared⟩ := hfinalize
        refine ⟨h.service, hrest, List.forall_mem_cons.mpr ⟨fun service => ?_, h.prepared⟩⟩
        exact funded_prepareStaged horigin hstage hexact hprepared
      · exact ⟨h.service, hrest, h.prepared⟩
  | accept index canonical acceptance =>
    simp only [Desk.act]
    split
    · exact h
    · rename_i held hheld
      have hrest : ∀ other ∈ desk.prepared.eraseIdx index, _ := fun other hother =>
        h.prepared other (List.mem_of_mem_eraseIdx hother)
      split
      · rename_i service haccept
        refine ⟨?_, h.pending, hrest⟩
        rw [accept_writes haccept]
        exact (h.prepared held (List.mem_of_getElem? hheld) desk.service).congr rfl rfl
      · rename_i service haccept
        exact ⟨Desk.accept_error haccept ▸ h.service, h.pending, hrest⟩

theorem DeskFunded.step (h : DeskFunded supply desk) (hexact : action.ExactDebits) :
    DeskFunded supply (desk.step action) := by
  have hact := h.act hexact
  refine ⟨hact.service, fun held hheld => ?_, fun held hheld => ?_⟩
  · obtain ⟨before, hbefore, rfl⟩ := List.mem_map.mp hheld
    exact hact.pending before hbefore
  · obtain ⟨before, hbefore, rfl⟩ := List.mem_map.mp hheld
    exact hact.prepared before hbefore

theorem DeskFunded.run (h : DeskFunded supply desk) {actions : List (Action Ordering Eligibility)}
    (hexact : ∀ action ∈ actions, action.ExactDebits) : DeskFunded supply (desk.run actions) := by
  induction actions generalizing desk with
  | nil => exact h
  | cons action rest ih =>
    obtain ⟨hfirst, hrest⟩ := List.forall_mem_cons.mp hexact
    exact ih (h.step hfirst) hrest

end Desk

/-! ## From a new service -/

/-- The accounts of a new service. -/
def initialSupply (first second : Digest32) (kind : ReservationKind) : Nat :=
  (SettlementEngine.new first second).participants.total (·.on kind)

omit [Crypto] in
theorem initialSupply_le (first second : Digest32) (kind : ReservationKind) :
    initialSupply first second kind ≤ 200000000 := by
  have hone := OrdMap.total_insert (·.on kind) (OrdMap.empty : Participants) first
    ⟨⟨10000, true⟩, ⟨100000000, true⟩⟩
  have htwo := OrdMap.total_insert (·.on kind) ((OrdMap.empty : Participants).insert first
    ⟨⟨10000, true⟩, ⟨100000000, true⟩⟩) second ⟨⟨10000, true⟩, ⟨100000000, true⟩⟩
  have hnone : (OrdMap.empty : Participants).total (·.on kind) = 0 := rfl
  have hon : (⟨⟨10000, true⟩, ⟨100000000, true⟩⟩ : ParticipantBalances).on kind ≤ 100000000 := by
    cases kind <;> decide
  change OrdMap.total _ (OrdMap.insert _ second _) ≤ _
  omega

variable {marketId : String} {first second : Digest32} {ordering : Except String Ordering}
  {mpc : Except String Unit} {eligibility : Eligibility}
  {service : OclobService Ordering Eligibility}

theorem funded_new (h : new marketId first second ordering mpc eligibility = .ok service) :
    service.Funded (initialSupply first second) := by
  refine ⟨agrees_new h, ?_⟩
  unfold new at h
  simp only [ok_rules] at h
  obtain ⟨book, -, ordering, -, -, -, rfl⟩ := h
  refine ⟨solvent_of_default rfl fun p balances hp kind => ?_, fun kind => rfl,
    ReservationBook.holds_default⟩
  have hbalances : balances = ⟨⟨10000, true⟩, ⟨100000000, true⟩⟩ := by
    simp only [SettlementEngine.new, OrdMap.get?_insert, OrdMap.get?_empty] at hp
    split at hp
    · exact (Option.some.inj hp).symm
    · exact (Option.some.inj (Option.ite_none_right_eq_some.mp hp).2).symm
  rw [hbalances]
  cases kind <;> decide

/-- The order passes the checks on its authority, the market rules, its eligibility and its
reservation. -/
structure PassesChecks (service : OclobService Ordering Eligibility)
    (ext : Externals Ordering Eligibility) (order : SecretOrder) (authority : OrderAuthority)
    (now : Nat) : Prop where
  authorized : authority.verify order now = .ok ()
  rules : order.validateMarketRules .p1 = .ok ()
  reserved : ∃ subject eligibility bound engine, ext.verifyOrder service.eligibility
      order.commitment order.dekyxNullifier order.expiresAt now = .ok (subject, eligibility) ∧
    (SettlementEngine.bindEligibleParticipant order.participantHandle subject).run
      service.settlement = .ok () bound ∧
    (SettlementEngine.reserveOrder ext.toBackend (settlementView order)).run bound =
      .ok () engine

/-- A reserved order is within the supply, together with everything that rests. -/
theorem PassesChecks.total_le {supply : ReservationKind → Nat}
    {self : OclobService Ordering Eligibility} {ext : Externals Ordering Eligibility}
    {order : SecretOrder} {authority : OrderAuthority} {now : Nat} (h : self.Funded supply)
    (hchecks : PassesChecks self ext order authority now) :
    openTotal self.book + order.quantity ≤ 2 * (supply .cash + supply .securities) := by
  obtain ⟨subject, eligibility, bound, engine, -, hbind, hreserve⟩ := hchecks.reserved
  have hfunds := (h.funds.bindEligibleParticipant hbind).reserveOrder hreserve
  obtain ⟨-, hwrite⟩ :=
    ReservationBook.reserve_ok (SettlementEngine.commitReservations_ok hreserve).1
  have hrecord := (hwrite order.commitment).trans (if_pos rfl)
  have hsingle : order.quantity ≤
      engine.reservations.records.total ReservationRecord.remainingQuantity :=
    List.le_sum_of_mem (List.mem_map.mpr
      ⟨ReservationBook.newRecord (settlementView order) ext.reserveCommitment,
        mem_values_iff.mpr hrecord, rfl⟩)
  have hopen := h.openTotal_le
  have hsupply := hfunds.open_le_supply
  omega

/-- **No sum of a live book wraps.** In every state that calls and two-phase submissions reach
from a new service, each level of the book adds up within a word and no expiry pass fails with an
overflow. For an order that passes the checks of a submission, `exceeds_fixed_match_capacity` and
`expected_batch` run without wrapping, and so do the levels of the book that the batch stages. -/
theorem no_overflow_in_live_book
    (hnew : new marketId first second ordering mpc eligibility = .ok service)
    {actions : List (Action Ordering Eligibility)}
    (hexact : ∀ action ∈ actions, action.ExactDebits) :
    let reached := ((Desk.opened service).run actions).service
    (∀ side price queue, (reached.book.levels side).get? price = some queue →
      checkedLevel side price queue = some (level side price queue)) ∧
    (∀ cutoff command seq e book',
      (PrivateBook.applyExpiry cutoff command seq).run reached.book = .error e book' →
        e ≠ .invalid "expired quantity overflowed") ∧
    ∀ ext order authority now, PassesChecks reached ext order authority now →
      checkedExceedsLoop order.side order.limitPrice order.quantity 0
          (reached.book.live order.side now) =
        some (reached.book.exceedsFixedMatchCapacity order now) ∧
      (∀ batch, reached.book.privateMatchBatch order now = .ok batch →
        checkedExpectedBatch batch = some (expectedBatch batch)) ∧
      ∀ seq result tr book', (PrivateBook.applyMpcBatchResult order authority seq now result).run
          reached.book = .ok tr book' →
        ∀ side price queue, (book'.levels side).get? price = some queue →
          checkedLevel side price queue = some (level side price queue) := by
  intro reached
  have hstart : DeskFunded (initialSupply first second) (Desk.opened service) :=
    ⟨funded_new hnew, fun held hheld => absurd hheld List.not_mem_nil,
      fun held hheld => absurd hheld List.not_mem_nil⟩
  have h : reached.Funded (initialSupply first second) := (hstart.run hexact).service
  have hinv := h.agrees.inv
  have hcash := initialSupply_le first second .cash
  have hsecurities := initialSupply_le first second .securities
  have hsmall : 800000000 < u64Bound := by decide
  have hopen : openTotal reached.book < u64Bound := by
    have hle := h.openTotal_le
    omega
  refine ⟨fun side price queue hqueue => checkedLevel_eq ((level_sum_le hqueue).trans_lt hopen),
    fun _ _ _ _ _ hrun => applyExpiry_ne_overflow hinv hopen hrun, ?_⟩
  intro ext order authority now hchecks
  have htotal : openTotal reached.book + order.quantity < u64Bound := by
    have hle := hchecks.total_le h
    omega
  refine ⟨checkedExceedsLoop_eq _ (Nat.zero_le _) _, fun batch hbatch => ?_, ?_⟩
  · obtain ⟨-, rfl⟩ := PrivateBook.privateMatchBatch_eq_ok.mp hbatch
    exact checkedExpectedBatch_eq
      ((Nat.add_le_add_right (resting_sum_le hinv order now) _).trans_lt htotal)
  · intro seq result tr book' hrun side price queue hqueue
    obtain ⟨-, -, rfl, -⟩ :=
      (PrivateBook.applyMpcBatchResult_ok hinv.tidy fun o ho => hinv.pos ho).mp hrun
    exact checkedLevel_eq (((level_sum_le hqueue).trans openTotal_afterBatch).trans_lt htotal)

end

section Sample

attribute [local instance] transparentCrypto

open OclobService (sampleService)

/-- The back end of `exactBackend` and components that agree. -/
def exactExternals : Externals Nat Unit :=
  { sampleExternals with toBackend := exactBackend }

def restingSale : SecretOrder := sampleOrder .sell 100 5 .goodTilCancelled 1 fits_100_5

def arrivingPurchase : SecretOrder := sampleOrder .buy 101 8 .goodTilCancelled 2 fits_101_8

/-- A sale of 5 has been submitted. -/
def saleActions : List (Action Nat Unit) :=
  [.call (.submit exactExternals restingSale (sampleAuthority restingSale) 1000)]

theorem no_overflow_in_live_book_sample :
    let reached := ((Desk.opened sampleService).run saleActions).service
    let batch := reached.book.batchOf arrivingPurchase 1001
    PassesChecks reached exactExternals arrivingPurchase (sampleAuthority arrivingPurchase) 1001 ∧
    (expectedBatch batch).arrivingRemaining = 3 ∧
    checkedExpectedBatch batch = some (expectedBatch batch) := by
  intro reached batch
  have hnew : new "JGB10Y-JPY" 12 13 (.ok 0) (.ok ()) () = .ok sampleService := rfl
  have hexact : ∀ action ∈ saleActions, action.ExactDebits :=
    List.forall_mem_singleton.mpr exactDebits_exactBackend
  have hbound := eq_ok_after (by decide +kernel : succeeds
    ((SettlementEngine.bindEligibleParticipant arrivingPurchase.participantHandle
      arrivingPurchase.dekyxNullifier).run reached.settlement) = true)
  have hchecks : PassesChecks reached exactExternals arrivingPurchase
      (sampleAuthority arrivingPurchase) 1001 :=
    ⟨by decide +kernel, by decide +kernel, arrivingPurchase.dekyxNullifier, (), _, _, rfl, hbound,
      eq_ok_after (by decide +kernel)⟩
  obtain ⟨-, -, hpass⟩ := no_overflow_in_live_book hnew hexact
  obtain ⟨-, hbatch, -⟩ := hpass _ _ _ _ hchecks
  exact ⟨hchecks, by decide +kernel,
    hbatch _ (PrivateBook.privateMatchBatch_eq_ok.mpr ⟨by decide +kernel, rfl⟩)⟩

end Sample

end Oclob.Service
