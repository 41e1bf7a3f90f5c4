import Oclob.Settlement.Coverage

/-!
# Delivery versus payment

What a settled batch moves, for `settle_batch` and `settle_batch_collaborative` of
`oclob-settlement/src/lib.rs`. Each turn of either loop takes its fill from the two reservations it
joins (`FillTaken`) and moves the quantity and its price between two accounts (`Exchanged`); the
accounts are read from and written to the staged map, so a participant of several fills
accumulates them.

On the securities rail the seller pays and the buyer is paid, on the cash rail the other way round;
who is who follows from the two records, which keep their participant and their rail for good
(`FillTaken.partyOn`).

* `Exchanged.on_eq`: one turn, one participant, one rail.
* `SettledFills.deliver`: the loop, by induction on the fills.
* `settlement_conserves_value`: a successful call, with any number of fills.

`settle_batch` takes the payers' new balances from `build_package` of another package; that these
are the exact debits is the assumption `ExactDebits`. The collaborative path computes them itself.
-/

namespace Oclob.Settlement

open Oclob.Core Oclob.Lib

/-! ## What a fill takes from the reservations -/

/-- `after` is `before` once the fill has taken its share. -/
structure Spent (fill : PublicFill) (before after : ReservationRecord) : Prop where
  updates : ReservationBook.Updates after before
  active : before.status = .active
  quantity : after.remainingQuantity + fill.quantity = before.remainingQuantity
  status : after.status = if after.remainingQuantity = 0 then .consumed else .active
  remaining : after.remaining + before.spends (fill.price * fill.quantity) fill.quantity ≤
    before.remaining

theorem spent_consumeRecord {fill : PublicFill} {record record' : ReservationRecord}
    (hactive : record.status = .active)
    (h : consumeRecord record (record.spends (fill.price * fill.quantity) fill.quantity)
      fill.quantity = .ok record') : Spent fill record record' := by
  obtain ⟨hupd, hle, hquantity, hstatus, -⟩ := consumeRecord_ok h
  exact ⟨hupd, hactive, by omega, hstatus, consumeRecord_spends h⟩

theorem Spent.recommitted {fill : PublicFill} {record record' : ReservationRecord}
    (h : Spent fill record record') (c : Digest32) :
    Spent fill record { record' with reserveCommitment := c } := by
  refine ⟨?_, h.active, h.quantity, h.status, h.remaining⟩
  rw [h.updates]
  rfl

namespace ReservationBook

/-- The fill has taken its share of the two records it joins, and nothing else of the book. -/
structure FillTaken (fill : PublicFill) (book book' : ReservationBook)
    (maker taker makerAfter takerAfter : ReservationRecord) : Prop where
  maker_eq : book.recordFor fill.makerOrder = some maker
  taker_eq : book.recordFor fill.takerOrder = some taker
  orders_ne : fill.makerOrder ≠ fill.takerOrder
  rails : maker.kind ≠ taker.kind
  maker_spent : Spent fill maker makerAfter
  taker_spent : Spent fill taker takerAfter
  recordFor_eq : ∀ c, book'.recordFor c = if c = fill.takerOrder then some takerAfter
    else if c = fill.makerOrder then some makerAfter else book.recordFor c
  total_eq : ∀ weight, book'.records.total weight + (weight maker + weight taker) =
    book.records.total weight + (weight makerAfter + weight takerAfter)
  bindings : book'.participantEntities = book.participantEntities ∧
    book'.entityParticipants = book.entityParticipants ∧ book'.capacities = book.capacities

variable {self book book' : ReservationBook} {fill : PublicFill} {marketId : String} {now : Nat}
  {consumed : ConsumedFill} {maker taker makerAfter takerAfter : ReservationRecord}

theorem consumeFill_taken (h : (consumeFill fill marketId now).run self = .ok consumed book) :
    ∃ maker taker makerAfter takerAfter,
      FillTaken fill self book maker taker makerAfter takerAfter ∧
      consumed.makerReservationId = maker.reservationId ∧
      consumed.takerReservationId = taker.reservationId ∧
      (consumed.sellerHandle, consumed.buyerHandle) = fillHandles maker taker ∧
      consumed.makerKind = maker.kind := by
  obtain ⟨maker, taker, makerAfter, takerAfter, hfits, hm, ht, rfl, hmid, htid, hhandles⟩ :=
    consumeFill_run h
  have hmaker := spent_consumeRecord hfits.active.1 hm
  have htaker := spent_consumeRecord hfits.active.2 ht
  exact ⟨maker, taker, makerAfter, takerAfter, ⟨hfits.maker_eq, hfits.taker_eq, hfits.orders_ne,
    hfits.rails, hmaker, htaker,
    recordFor_writeBack_two hfits.maker_eq hfits.taker_eq hfits.orders_ne hmaker.updates
      htaker.updates,
    fun weight => total_writeBack_two weight hfits.maker_eq hfits.taker_eq hfits.orders_ne
      hmaker.updates htaker.updates, rfl, rfl, rfl⟩, hmid, htid, hhandles⟩

/-- What the fill left of the two records. -/
theorem FillTaken.after_eq (h : FillTaken fill self book maker taker makerAfter takerAfter) :
    book.recordFor fill.makerOrder = some makerAfter ∧
      book.recordFor fill.takerOrder = some takerAfter := by
  refine ⟨?_, ?_⟩
  · rw [h.recordFor_eq, if_neg h.orders_ne, if_pos rfl]
  · rw [h.recordFor_eq, if_pos rfl]

/-- The collaborative path replaces the commitments of the two records just written. -/
theorem FillTaken.recommits (h : FillTaken fill self book maker taker makerAfter takerAfter)
    (hmid : consumed.makerReservationId = maker.reservationId)
    (htid : consumed.takerReservationId = taker.reservationId)
    {securities cash pool : Digest32} {u : Unit}
    (hrun : (applyCollaborativeRemainders consumed securities cash pool).run book = .ok u book') :
    book' = (book.writeBack { makerAfter with reserveCommitment := pool }).writeBack
      { takerAfter with reserveCommitment := match consumed.makerKind with
        | .securities => cash
        | .cash => securities } := by
  obtain ⟨hmaker, htaker⟩ := h.after_eq
  have hmaid : makerAfter.reservationId = maker.reservationId := by rw [h.maker_spent.updates]
  have htaid : takerAfter.reservationId = taker.reservationId := by rw [h.taker_spent.updates]
  unfold applyCollaborativeRemainders at hrun
  simp only [run_rules, okOr_eq_ok] at hrun
  obtain ⟨s₁, s₂, ⟨rfl, rfl⟩, r, s₃, ⟨hr, rfl⟩, -, s₄, rfl, s₅, s₆, ⟨rfl, rfl⟩, t, s₇, ⟨ht, rfl⟩,
    rfl⟩ := hrun
  rw [hmid, ← hmaid, (recordFor_eq_some.mp hmaker).1] at hr
  obtain rfl := Option.some.inj hr
  have hpool : Updates { makerAfter with reserveCommitment := pool } makerAfter := rfl
  have hkept := recordFor_writeBack hmaker hpool fill.takerOrder
  rw [if_neg h.orders_ne.symm, htaker] at hkept
  rw [htid, ← htaid, (recordFor_eq_some.mp hkept).1] at ht
  obtain rfl := Option.some.inj ht
  rfl

theorem FillTaken.recommitted (h : FillTaken fill self book maker taker makerAfter takerAfter)
    (makerCommitment takerCommitment : Digest32) :
    FillTaken fill self
      ((book.writeBack { makerAfter with reserveCommitment := makerCommitment }).writeBack
        { takerAfter with reserveCommitment := takerCommitment }) maker taker
      { makerAfter with reserveCommitment := makerCommitment }
      { takerAfter with reserveCommitment := takerCommitment } := by
  obtain ⟨hmaker, htaker⟩ := h.after_eq
  have hum : Updates { makerAfter with reserveCommitment := makerCommitment } makerAfter := rfl
  have hut : Updates { takerAfter with reserveCommitment := takerCommitment } takerAfter := rfl
  refine ⟨h.maker_eq, h.taker_eq, h.orders_ne, h.rails, h.maker_spent.recommitted _,
    h.taker_spent.recommitted _, fun x => ?_, fun weight => ?_, h.bindings⟩
  · rw [recordFor_writeBack_two hmaker htaker h.orders_ne hum hut, h.recordFor_eq]
    split
    · rfl
    · split <;> rfl
  · have hbefore := h.total_eq weight
    have hwrites := total_writeBack_two weight hmaker htaker h.orders_ne hum hut
    omega

/-! ## Who pays and who is paid -/

/-- The participant of a fill whose reservation is on this rail: on the securities rail the seller,
on the cash rail the buyer. -/
def partyOn (self : ReservationBook) (kind : ReservationKind) (fill : PublicFill) :
    Option Digest32 :=
  (self.recordFor fill.makerOrder).bind fun maker =>
    (self.recordFor fill.takerOrder).map fun taker =>
      if maker.kind = kind then maker.participantHandle else taker.participantHandle

/-- A taken fill leaves every record its participant and its rail. -/
theorem FillTaken.partyOn (h : FillTaken fill self book maker taker makerAfter takerAfter)
    (kind : ReservationKind) (f : PublicFill) : book.partyOn kind f = self.partyOn kind f := by
  have hsame : ∀ c, (book.recordFor c).map (fun r => (r.kind, r.participantHandle)) =
      (self.recordFor c).map fun r => (r.kind, r.participantHandle) := by
    intro c
    rw [h.recordFor_eq]
    split
    · rename_i hc
      rw [hc, h.taker_eq, Option.map_some, Option.map_some, h.taker_spent.updates]
    · split
      · rename_i hc
        rw [hc, h.maker_eq, Option.map_some, Option.map_some, h.maker_spent.updates]
      · rfl
  have hform : ∀ b : ReservationBook, b.partyOn kind f =
      ((b.recordFor f.makerOrder).map fun r => (r.kind, r.participantHandle)).bind fun maker =>
        ((b.recordFor f.takerOrder).map fun r => (r.kind, r.participantHandle)).map fun taker =>
          if maker.1 = kind then maker.2 else taker.2 := by
    intro b
    unfold ReservationBook.partyOn
    rw [Option.bind_map]
    cases b.recordFor f.makerOrder with
    | none => rfl
    | some r =>
      cases b.recordFor f.takerOrder with
      | none => rfl
      | some t => rfl
  rw [hform, hform, hsame, hsame]

/-- The handles `consume_fill` reports are the two parties. -/
theorem FillTaken.handles (h : FillTaken fill self book maker taker makerAfter takerAfter)
    {seller buyer : Digest32} (hhandles : (seller, buyer) = fillHandles maker taker) :
    self.partyOn .securities fill = some seller ∧ self.partyOn .cash fill = some buyer := by
  unfold ReservationBook.partyOn
  unfold fillHandles at hhandles
  rw [h.maker_eq, h.taker_eq]
  cases hkind : maker.kind with
  | securities =>
    rw [hkind] at hhandles
    obtain ⟨rfl, rfl⟩ := Prod.mk.inj hhandles
    exact ⟨by simp [hkind], by simp [hkind]⟩
  | cash =>
    rw [hkind] at hhandles
    obtain ⟨rfl, rfl⟩ := Prod.mk.inj hhandles
    exact ⟨by simp [hkind], by simp [hkind]⟩

end ReservationBook

/-- The other rail of a delivery versus payment. -/
def ReservationKind.other : ReservationKind → ReservationKind
  | .cash => .securities
  | .securities => .cash

/-- The balance on a rail. -/
def ParticipantBalances.on (balances : ParticipantBalances) : ReservationKind → Nat
  | .cash => balances.cash.value
  | .securities => balances.securities.value

/-- What a fill moves on a rail. -/
def fillAmount (kind : ReservationKind) (fill : PublicFill) : Nat :=
  match kind with
  | .cash => fill.price * fill.quantity
  | .securities => fill.quantity

/-- What a participant pays on a rail for these fills, the records being those of `book`. -/
def paidBy (book : ReservationBook) (fills : List PublicFill) (kind : ReservationKind)
    (participant : Digest32) : Nat :=
  tally (some participant) (fills.map fun fill => (book.partyOn kind fill, fillAmount kind fill))

/-- What a participant is paid: the payer's rail is the other one's. -/
def paidTo (book : ReservationBook) (fills : List PublicFill) (kind : ReservationKind)
    (participant : Digest32) : Nat :=
  tally (some participant)
    (fills.map fun fill => (book.partyOn kind.other fill, fillAmount kind fill))

/-! ## One fill on the accounts -/

/-- The accounts after a fill: the seller's securities and the buyer's cash are down by what the
fill moves, the other two balances up by as much, and no other account is touched. -/
structure Exchanged (fill : PublicFill) (seller buyer : Digest32) (before after : Participants)
    (sold sold' bought bought' : ParticipantBalances) : Prop where
  distinct : seller ≠ buyer
  seller_eq : before.get? seller = some sold
  buyer_eq : before.get? buyer = some bought
  after_eq : after = (before.insert seller sold').insert buyer bought'
  seller_on : ∀ kind, sold'.on kind + (if kind = .securities then fillAmount kind fill else 0) =
    sold.on kind + (if kind = .cash then fillAmount kind fill else 0)
  buyer_on : ∀ kind, bought'.on kind + (if kind = .cash then fillAmount kind fill else 0) =
    bought.on kind + (if kind = .securities then fillAmount kind fill else 0)
  credits : sold'.on .cash < 2 ^ rangeBits ∧ bought'.on .securities < 2 ^ rangeBits

section

variable {fill : PublicFill} {seller buyer : Digest32} {before after : Participants}
  {sold sold' bought bought' : ParticipantBalances}

/-- The four balances of an exchange. -/
theorem exchanged_of_values (distinct : seller ≠ buyer) (hseller : before.get? seller = some sold)
    (hbuyer : before.get? buyer = some bought)
    (hdelivered : sold'.securities.value + fill.quantity = sold.securities.value)
    (hcredited : sold'.cash.value = sold.cash.value + fill.price * fill.quantity ∧
      sold'.cash.value < 2 ^ rangeBits)
    (hreceived : bought'.securities.value = bought.securities.value + fill.quantity ∧
      bought'.securities.value < 2 ^ rangeBits)
    (hpaid : bought'.cash.value + fill.price * fill.quantity = bought.cash.value) :
    Exchanged fill seller buyer before ((before.insert seller sold').insert buyer bought') sold
      sold' bought bought' := by
  refine ⟨distinct, hseller, hbuyer, rfl, fun kind => ?_, fun kind => ?_, hcredited.2,
    hreceived.2⟩
  · cases kind with
    | cash => simpa [ParticipantBalances.on, fillAmount] using hcredited.1
    | securities => simpa [ParticipantBalances.on, fillAmount] using hdelivered
  · cases kind with
    | cash => simpa [ParticipantBalances.on, fillAmount] using hpaid
    | securities => simpa [ParticipantBalances.on, fillAmount] using hreceived.1

theorem Exchanged.get?_eq (h : Exchanged fill seller buyer before after sold sold' bought bought')
    (p : Digest32) : after.get? p =
      if p = buyer then some bought' else if p = seller then some sold' else before.get? p := by
  rw [h.after_eq, OrdMap.get?_insert, OrdMap.get?_insert]

/-- A credit stays below the range proof's bound, and a debit only lowers a balance. -/
theorem Exchanged.words (h : Exchanged fill seller buyer before after sold sold' bought bought')
    (hwords : ∀ p balances, before.get? p = some balances → ∀ kind, balances.on kind < u64Bound)
    {p : Digest32} {balances : ParticipantBalances} (hp : after.get? p = some balances)
    (kind : ReservationKind) : balances.on kind < u64Bound := by
  have hrange : 2 ^ rangeBits < u64Bound := by decide
  have hsold := hwords seller sold h.seller_eq kind
  have hbought := hwords buyer bought h.buyer_eq kind
  have hseller := h.seller_on kind
  have hbuyer := h.buyer_on kind
  obtain ⟨hcash, hsecurities⟩ := h.credits
  rw [h.get?_eq] at hp
  split at hp
  · obtain rfl := Option.some.inj hp
    cases kind with
    | cash =>
      simp at hbuyer
      omega
    | securities => omega
  · split at hp
    · obtain rfl := Option.some.inj hp
      cases kind with
      | cash => omega
      | securities =>
        simp at hseller
        omega
    · exact hwords p balances hp kind

/-- **No value is made or lost** on either rail. -/
theorem Exchanged.total_eq (h : Exchanged fill seller buyer before after sold sold' bought bought')
    (kind : ReservationKind) : after.total (·.on kind) = before.total (·.on kind) := by
  have hfirst := OrdMap.total_insert (·.on kind) before seller sold'
  have hsecond := OrdMap.total_insert (·.on kind) (before.insert seller sold') buyer bought'
  rw [h.seller_eq] at hfirst
  rw [OrdMap.get?_insert, if_neg h.distinct.symm, h.buyer_eq] at hsecond
  have hseller := h.seller_on kind
  have hbuyer := h.buyer_on kind
  rw [h.after_eq]
  simp only [Option.map_some, Option.getD_some] at hfirst hsecond
  cases kind with
  | cash =>
    simp at hseller hbuyer
    omega
  | securities =>
    simp at hseller hbuyer
    omega

/-- One participant, both rails: what is paid leaves, what is paid to them arrives. -/
theorem Exchanged.on_eq (h : Exchanged fill seller buyer before after sold sold' bought bought')
    {book : ReservationBook} (hseller : book.partyOn .securities fill = some seller)
    (hbuyer : book.partyOn .cash fill = some buyer) (p : Digest32) :
    Option.Rel (fun b a : ParticipantBalances => ∀ kind, a.on kind + paidBy book [fill] kind p =
      b.on kind + paidTo book [fill] kind p) (before.get? p) (after.get? p) := by
  have hparty : ∀ kind, book.partyOn kind fill =
      some (if kind = .securities then seller else buyer) := by
    intro kind
    cases kind with
    | cash => exact hbuyer
    | securities => exact hseller
  simp only [paidBy, paidTo, List.map_cons, List.map_nil, tally_cons, tally_nil, hparty,
    Option.some.injEq, Nat.add_zero]
  rw [h.get?_eq]
  by_cases hb : p = buyer
  · subst hb
    rw [if_pos rfl, h.buyer_eq]
    refine .some fun kind => ?_
    have hon := h.buyer_on kind
    have hne := h.distinct
    cases kind with
    | cash => simpa [hne, ReservationKind.other] using hon
    | securities => simpa [hne, ReservationKind.other] using hon
  · rw [if_neg hb]
    by_cases hs : p = seller
    · subst hs
      rw [if_pos rfl, h.seller_eq]
      refine .some fun kind => ?_
      have hon := h.seller_on kind
      have hne := Ne.symm hb
      cases kind with
      | cash => simpa [hne, ReservationKind.other] using hon
      | securities => simpa [hne, ReservationKind.other] using hon
    · rw [if_neg hs]
      cases before.get? p with
      | none => exact .none
      | some b =>
        refine .some fun kind => ?_
        cases kind with
        | cash => simp [Ne.symm hb, Ne.symm hs, ReservationKind.other]
        | securities => simp [Ne.symm hb, Ne.symm hs, ReservationKind.other]

end

/-! ## The loops -/

/-- A turn of either loop. -/
inductive SettledFill (fill : PublicFill) (staged staged' : StagedBatch) : Prop where
  | intro {maker taker makerAfter takerAfter : ReservationRecord} {seller buyer : Digest32}
      {sold sold' bought bought' : ParticipantBalances}
      (taken : ReservationBook.FillTaken fill staged.reservations staged'.reservations maker taker
        makerAfter takerAfter)
      (handles : (seller, buyer) = ReservationBook.fillHandles maker taker)
      (exchanged : Exchanged fill seller buyer staged.participants staged'.participants sold sold'
        bought bought')

/-- The turns of either loop, one after the other. -/
inductive SettledFills : List PublicFill → StagedBatch → StagedBatch → Prop where
  | nil (staged : StagedBatch) : SettledFills [] staged staged
  | cons {fill : PublicFill} {fills : List PublicFill} {staged mid staged' : StagedBatch} :
      SettledFill fill staged mid → SettledFills fills mid staged' →
        SettledFills (fill :: fills) staged staged'

/-- `build_package` leaves the payers exactly what remains after the fill. -/
def Backend.ExactDebits (backend : Backend) : Prop :=
  ∀ index fill seller buyer package, backend.buildPackage index fill seller buyer = .ok package →
    package.securitiesBalance + fill.quantity = seller.securities.value ∧
      package.cashBalance + fill.price * fill.quantity = buyer.cash.value

theorem checkedCredit_ok {balance amount credited : Nat}
    (h : checkedCredit balance amount = .ok credited) :
    credited = balance + amount ∧ credited < 2 ^ rangeBits := by
  unfold checkedCredit at h
  simp only [ok_rules] at h
  obtain ⟨sum, hsum, -, hrange, rfl⟩ := h
  exact ⟨(checkedAdd_eq_some.mp hsum).2, hrange⟩

theorem checkedDebit_ok {balance amount left : Nat} (h : checkedDebit balance amount = .ok left) :
    left + amount = balance := by
  obtain ⟨hle, rfl⟩ := checkedSub_eq_some.mp (okOr_eq_ok.mp h)
  omega

section

variable {fill : PublicFill} {staged staged' : StagedBatch} {marketId : String} {now index : Nat}

theorem settleFill_settled {backend : Backend} (hexact : backend.ExactDebits)
    (h : settleFill backend marketId now index fill staged = .ok staged') :
    SettledFill fill staged staged' := by
  unfold settleFill at h
  simp only [ok_rules] at h
  obtain ⟨⟨consumed, reservations⟩, hconsume, -, hdistinct, seller, hseller, buyer, hbuyer, -, -, -,
    -, -, -, -, -, -, -, package, hpackage, -, -, -, -, cash, hcash, sellerCash, hsc,
    buyerSecurities, hbs, -, -, rfl⟩ := h
  obtain ⟨maker, taker, makerAfter, takerAfter, htaken, -, -, hhandles, -⟩ :=
    ReservationBook.consumeFill_taken (stage_eq_ok.mp hconsume)
  obtain ⟨hsecurities, hcashLeft⟩ := hexact _ _ _ _ _ hpackage
  obtain ⟨-, rfl⟩ := checkedMul_eq_some.mp hcash
  exact ⟨htaken, hhandles, exchanged_of_values hdistinct hseller hbuyer hsecurities
    (checkedCredit_ok hsc) (checkedCredit_ok hbs) hcashLeft⟩

theorem settleFillCollaborative_settled {backend : CollaborativeBackend} {roundId : Digest32}
    {proof : CollaborativeFillProof}
    (h : settleFillCollaborative backend roundId marketId now index fill proof staged =
      .ok staged') : SettledFill fill staged staged' := by
  unfold settleFillCollaborative at h
  simp only [ok_rules] at h
  obtain ⟨⟨consumed, consumedBook⟩, hconsume, -, hdistinct, seller, hseller, buyer, hbuyer, -, -,
    jobId, -, package, -, ⟨⟨⟩, reservations⟩, happly, -, -, cash, hcash, sellerSecurities, hss,
    buyerCash, hbc, sellerCash, hsc, buyerSecurities, hbs, -, -, rfl⟩ := h
  obtain ⟨maker, taker, makerAfter, takerAfter, htaken, hmid, htid, hhandles, -⟩ :=
    ReservationBook.consumeFill_taken (stage_eq_ok.mp hconsume)
  obtain rfl := htaken.recommits hmid htid (stage_eq_ok.mp happly)
  obtain ⟨-, rfl⟩ := checkedMul_eq_some.mp hcash
  exact ⟨htaken.recommitted _ _, hhandles,
    exchanged_of_values hdistinct hseller hbuyer (checkedDebit_ok hss) (checkedCredit_ok hsc)
      (checkedCredit_ok hbs) (checkedDebit_ok hbc)⟩

theorem settleFills_settled {backend : Backend} (hexact : backend.ExactDebits)
    {fills : List PublicFill}
    (h : settleFills backend marketId now index fills staged = .ok staged') :
    SettledFills fills staged staged' := by
  induction fills generalizing index staged with
  | nil =>
    obtain rfl := Except.ok.inj h
    exact .nil staged
  | cons fill fills ih =>
    obtain ⟨mid, hfill, hrest⟩ := except_bind_eq_ok.mp h
    exact .cons (settleFill_settled hexact hfill) (ih hrest)

theorem settleFillsCollaborative_settled {backend : CollaborativeBackend} {roundId : Digest32}
    {pairs : List (PublicFill × CollaborativeFillProof)}
    (h : settleFillsCollaborative backend roundId marketId now index pairs staged = .ok staged') :
    SettledFills (pairs.map Prod.fst) staged staged' := by
  induction pairs generalizing index staged with
  | nil =>
    obtain rfl := Except.ok.inj h
    exact .nil staged
  | cons pair pairs ih =>
    obtain ⟨fill, proof⟩ := pair
    obtain ⟨mid, hfill, hrest⟩ := except_bind_eq_ok.mp h
    exact .cons (settleFillCollaborative_settled hfill) (ih hrest)

end

/-! ## What the turns amount to -/

namespace SettledFills

variable {fills : List PublicFill} {staged staged' : StagedBatch}

/-- Every fill has a seller and a buyer, who are not the same. -/
theorem parties (h : SettledFills fills staged staged') :
    ∀ fill ∈ fills, ∃ seller buyer, seller ≠ buyer ∧
      staged.reservations.partyOn .securities fill = some seller ∧
      staged.reservations.partyOn .cash fill = some buyer := by
  induction h with
  | nil staged => exact fun fill hfill => absurd hfill List.not_mem_nil
  | cons hfill hrest ih =>
    obtain ⟨taken, handles, exchanged⟩ := hfill
    obtain ⟨hseller, hbuyer⟩ := taken.handles handles
    refine List.forall_mem_cons.mpr ⟨⟨_, _, exchanged.distinct, hseller, hbuyer⟩, ?_⟩
    intro f hf
    obtain ⟨seller, buyer, hne, hs, hb⟩ := ih f hf
    rw [taken.partyOn] at hs hb
    exact ⟨seller, buyer, hne, hs, hb⟩

theorem total_eq (h : SettledFills fills staged staged') (kind : ReservationKind) :
    staged'.participants.total (·.on kind) = staged.participants.total (·.on kind) := by
  induction h with
  | nil staged => rfl
  | cons hfill hrest ih =>
    obtain ⟨taken, handles, exchanged⟩ := hfill
    rw [ih, exchanged.total_eq]

/-- **The fills of a batch add up** on each account: what the earlier fills left is what the later
ones find. -/
theorem deliver (h : SettledFills fills staged staged') (p : Digest32) :
    Option.Rel (fun b a : ParticipantBalances => ∀ kind,
      a.on kind + paidBy staged.reservations fills kind p =
        b.on kind + paidTo staged.reservations fills kind p)
      (staged.participants.get? p) (staged'.participants.get? p) := by
  induction h with
  | nil staged =>
    cases staged.participants.get? p with
    | none => exact .none
    | some b => exact .some fun _ => rfl
  | @cons fill fills staged mid staged' hfill hrest ih =>
    obtain ⟨taken, handles, exchanged⟩ := hfill
    obtain ⟨hseller, hbuyer⟩ := taken.handles handles
    have hone := exchanged.on_eq hseller hbuyer p
    refine rel_comp hone ih fun b m a hb hm kind => ?_
    have hfirst := hb kind
    have hlater := hm kind
    simp only [paidBy, paidTo, taken.partyOn, List.map_cons, List.map_nil, tally_cons,
      tally_nil] at hfirst hlater ⊢
    omega

/-- An account that is no party to any fill is as before. -/
theorem untouched (h : SettledFills fills staged staged') {p : Digest32}
    (hp : ∀ fill ∈ fills, ∀ kind, staged.reservations.partyOn kind fill ≠ some p) :
    staged'.participants.get? p = staged.participants.get? p := by
  induction h with
  | nil staged => rfl
  | cons hfill hrest ih =>
    obtain ⟨taken, handles, exchanged⟩ := hfill
    obtain ⟨hseller, hbuyer⟩ := taken.handles handles
    obtain ⟨hfirst, hlater⟩ := List.forall_mem_cons.mp hp
    rw [ih (by simpa only [taken.partyOn] using hlater), exchanged.get?_eq, if_neg, if_neg]
    · exact fun heq => hfirst .securities (heq ▸ hseller)
    · exact fun heq => hfirst .cash (heq ▸ hbuyer)

end SettledFills

/-! ## A settled batch -/

namespace SettlementEngine

variable {fills : List PublicFill} {self engine : SettlementEngine} {u : Unit}

theorem checkCollaborativeBatch_ok {backend : CollaborativeBackend}
    {proofs : List CollaborativeFillProof} {roundId arriving : Digest32}
    {arrivingRemaining now : Nat} {record : ReservationRecord}
    (h : checkCollaborativeBatch backend self fills proofs roundId arriving arrivingRemaining now =
      .ok record) :
    fills.length = proofs.length ∧ (∀ fill ∈ fills, fill.takerOrder = arriving) ∧
      self.reservations.recordFor arriving = some record := by
  unfold checkCollaborativeBatch at h
  simp only [ok_rules] at h
  obtain ⟨-, ⟨-, hlen, -, -, -, htakers⟩, r, hr, -, -, -, -, -, -, -, -, -, -, -, -, -, -, -, -,
    rfl⟩ := h
  exact ⟨hlen, htakers, hr⟩

/-- What a successful `settle_batch_collaborative` has computed on its way. -/
theorem settleBatchCollaborative_run {backend : CollaborativeBackend}
    {proofs : List CollaborativeFillProof} {roundId arriving : Digest32}
    {arrivingRemaining now : Nat}
    (h : (settleBatchCollaborative backend fills proofs roundId arriving arrivingRemaining now).run
      self = .ok u engine) :
    ∃ (record : ReservationRecord) (staged : StagedBatch) (reconciled : ReservationBook)
      (required : Nat), checkCollaborativeBatch backend self fills proofs roundId arriving
        arrivingRemaining now = .ok record ∧
      settleFillsCollaborative backend roundId record.marketId now 0 (fills.zip proofs)
        ⟨self.reservations, self.participants, self.spentInstructions⟩ = .ok staged ∧
      (ReservationBook.reconcileArrivingCollaborative arriving arrivingRemaining).run
        staged.reservations = .ok required reconciled ∧
      (refreshCapacities staged.participants.entries).run reconciled = .ok () engine.reservations ∧
      engine.participants = staged.participants := by
  simp only [settleBatchCollaborative, run_rules] at h
  obtain ⟨s₁, s₂, ⟨rfl, rfl⟩, record, s₃, ⟨hcheck, rfl⟩, staged, s₄, ⟨hfills, rfl⟩,
    ⟨required, reconciled⟩, s₅, ⟨hreconcile, rfl⟩, ⟨⟨⟩, reservations⟩, s₆, ⟨hrefresh, rfl⟩,
    hfinish⟩ := h
  obtain ⟨rfl, hparticipants⟩ := finish_ok hfinish
  exact ⟨record, staged, reconciled, required, hcheck, hfills, stage_eq_ok.mp hreconcile,
    stage_eq_ok.mp hrefresh, hparticipants⟩

/-- A successful settlement of these fills, by either path. -/
inductive SettlesBatch (fills : List PublicFill) (self engine : SettlementEngine) : Prop where
  | settleBatch (backend : Backend) (arriving : SettlementOrderView) (arrivingRemaining now : Nat) :
      backend.ExactDebits →
      (settleBatch backend fills arriving arrivingRemaining now).run self = .ok () engine →
        SettlesBatch fills self engine
  | settleBatchCollaborative (backend : CollaborativeBackend)
      (proofs : List CollaborativeFillProof) (roundId arriving : Digest32)
      (arrivingRemaining now : Nat) :
      (settleBatchCollaborative backend fills proofs roundId arriving arrivingRemaining now).run
        self = .ok () engine → SettlesBatch fills self engine

theorem SettlesBatch.settled (h : SettlesBatch fills self engine) :
    ∃ staged, SettledFills fills ⟨self.reservations, self.participants, self.spentInstructions⟩
      staged ∧ engine.participants = staged.participants := by
  cases h with
  | settleBatch backend arriving arrivingRemaining now hexact hrun =>
    obtain ⟨-, staged, -, -, hfills, -, -, hparticipants⟩ := settleBatch_run hrun
    exact ⟨staged, settleFills_settled hexact hfills, hparticipants⟩
  | settleBatchCollaborative backend proofs roundId arriving arrivingRemaining now hrun =>
    obtain ⟨record, staged, -, -, hcheck, hfills, -, -, hparticipants⟩ :=
      settleBatchCollaborative_run hrun
    have hsettled := settleFillsCollaborative_settled hfills
    rw [List.map_fst_zip (checkCollaborativeBatch_ok hcheck).1.le] at hsettled
    exact ⟨staged, hsettled, hparticipants⟩

/-- **Delivery versus payment conserves value.** A successful settlement, by either path and with
any number of fills, leaves the totals of both rails as they were. On each rail every participant
is down by what their fills pay and up by what their fills are paid; who is no party to a fill
keeps the account as it was. Every fill has a seller and a buyer, who are not the same. -/
theorem settlement_conserves_value (h : SettlesBatch fills self engine) :
    (∀ kind, engine.participants.total (·.on kind) = self.participants.total (·.on kind)) ∧
    (∀ p, Option.Rel (fun before after : ParticipantBalances => ∀ kind,
      after.on kind + paidBy self.reservations fills kind p =
        before.on kind + paidTo self.reservations fills kind p)
      (self.participants.get? p) (engine.participants.get? p)) ∧
    (∀ p, (∀ fill ∈ fills, ∀ kind, self.reservations.partyOn kind fill ≠ some p) →
      engine.participants.get? p = self.participants.get? p) ∧
    ∀ fill ∈ fills, ∃ seller buyer, seller ≠ buyer ∧
      self.reservations.partyOn .securities fill = some seller ∧
      self.reservations.partyOn .cash fill = some buyer := by
  obtain ⟨staged, hsettled, hparticipants⟩ := h.settled
  rw [hparticipants]
  exact ⟨hsettled.total_eq, hsettled.deliver, fun p hp => hsettled.untouched hp, hsettled.parties⟩

end SettlementEngine

section Sample

open SettlementEngine

attribute [local instance] transparentCrypto

/-- Two bound participants with one order each. -/
def coveredEngine : SettlementEngine where
  participants := ((OrdMap.empty : Participants).insert coveredSell.participantHandle
    ⟨⟨1000, true⟩, ⟨1000, true⟩⟩).insert coveredBuy.participantHandle
    ⟨⟨1000, true⟩, ⟨1000, true⟩⟩
  reservations := ReservationCall.run coveredCalls .default
  spentInstructions := ∅
  height := 4

/-- Proofs that verify, of an instruction not seen before. -/
def acceptingBackend : CollaborativeBackend where
  verifyBinding := fun _ _ _ => .ok ()
  mpcOutputDigest := 1
  pqCommitteePinned := true
  publicKeyPinned := true
  -- the slot of a job
  sha256 := fun bytes => Fin.ofNat _ ((bytes.getD 60 0).toNat + 1)
  verifyForSettlement := fun _ context => .ok ⟨context.expectedJobId, 2, 3⟩
  conserved := fun _ => true
  finality := .ok ()

/-- A proof of the fill in a slot, of a sell at its price. -/
def fillProof (slot : Nat) (maker : SecretOrder) : CollaborativeFillProof where
  jobId := Fin.ofNat _ (slot + 1)
  marketProofDigest := 1
  limitDirection := .maximumBuyPrice
  limitCommitment := 101
  limitContext := 9
  assetId := 8
  instruction := ⟨1, 2000, .proofDigest 1, coveredBuy.participantHandle,
    maker.participantHandle, 8, Fin.ofNat _ maker.quantity, Fin.ofNat _ maker.limitPrice, true, []⟩
  frostPublic := [7]
  pqCommittee := [6]
  makerHandle := maker.participantHandle
  priceLimitProof := []
  dvpProofs := []
  cashCommitment := Fin.ofNat _ (maker.limitPrice * maker.quantity)
  securitiesRemainder := 2
  cashRemainder := 3
  makerPoolRemainder := 4
  makerPoolRemainderProof := []
  openings := ⟨⟨1, coveredBuy.participantHandle, []⟩, ⟨2, maker.participantHandle, []⟩,
    ⟨3, maker.participantHandle, []⟩, ⟨4, coveredBuy.participantHandle, []⟩⟩
  assetLink := []

/-- A second sell, which takes the rest of the buy. -/
def nextSell : SecretOrder := sampleOrder .sell 101 2 .goodTilCancelled 3 fits_101_2

def deliveredFills : List PublicFill :=
  [coveredFill 100 3, ⟨nextSell.commitment, coveredBuy.commitment, 101, 2⟩]

/-- Three bound participants with one order each. -/
def twoSells : SettlementEngine := { coveredEngine with
  participants := coveredEngine.participants.insert nextSell.participantHandle
    ⟨⟨1000, true⟩, ⟨1000, true⟩⟩
  reservations := ReservationCall.run (coveredCalls ++
    [.bindParticipant nextSell.participantHandle nextSell.dekyxNullifier 1000 1000,
      .reserve nextSell 1]) .default }

/-- The settlement of the buy against both sells. -/
def deliver : EStateM.Result SettlementError SettlementEngine Unit :=
  (settleBatchCollaborative acceptingBackend deliveredFills
    [fillProof 0 coveredSell, fillProof 1 nextSell] 5 coveredBuy.commitment 0 1000).run twoSells

theorem deliver_ok : deliver = .ok () (after deliver) :=
  eq_ok_after (show succeeds deliver = true by decide +kernel)

theorem settlement_conserves_value_sample :
    SettlesBatch deliveredFills twoSells (after deliver) ∧
      paidBy twoSells.reservations deliveredFills .cash coveredBuy.participantHandle = 502 ∧
      (after deliver).participants.total (·.on .cash) = 3000 := by
  have hsettles : SettlesBatch deliveredFills twoSells (after deliver) :=
    .settleBatchCollaborative _ _ _ _ _ _ deliver_ok
  refine ⟨hsettles, by decide +kernel, ?_⟩
  rw [(settlement_conserves_value hsettles).1]
  decide +kernel

end Sample

end Oclob.Settlement
