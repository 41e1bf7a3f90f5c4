import Oclob.Core.Reference

/-!
# Quantity conservation over a run

`Ledger` keeps, beside the book, the history a run produces: the orders it admitted, the fills it
published, what cancellations and expiries released, and what immediate-or-cancel orders lost at
admission (a good-til-cancelled order loses nothing there). `Ledger.accounted` adds up the five
places the quantity of an order can be.

The account of every admitted order balances along every run in which no expiry pass overflows
its total (`Ledger.Fits`, `quantity_conserved`). The proviso is needed: `apply_expiry` checks the
running total inside the removal loop, so a pass whose total leaves `u64` returns an error after
it has removed orders, and nothing records what they held (`expiry_overflow_loses_quantity`).
-/

namespace Oclob.Core

open Oclob.Lib OrdMap PrivateBook

namespace PrivateBook

variable {self : PrivateBook}

/-! ## What an order still holds -/

theorem remainingOf_eq_zero {c : Digest32} (h : c ∉ self.orders.map RestingOrder.commitment) :
    self.remainingOf c = 0 := by
  unfold remainingOf
  cases hf : Core.findRecord self.bids self.asks c with
  | none => rfl
  | some o =>
    obtain ⟨ho, rfl⟩ := findRecord_eq_some hf
    exact absurd (List.mem_map.mpr ⟨o, ho, rfl⟩) h

theorem Tidy.remainingOf_reduceBy (ht : self.Tidy) (amount : Digest32 → Nat) (c : Digest32) :
    (self.editOrders (reduceBy amount)).remainingOf c = self.remainingOf c - amount c := by
  have ht' : (self.editOrders (reduceBy amount)).Tidy :=
    ht.editOrders fun o _ o' h => setRemaining_commitment h
  by_cases hc : c ∈ self.orders.map RestingOrder.commitment
  · obtain ⟨o, ho, rfl⟩ := List.mem_map.mp hc
    rw [ht.remainingOf ho]
    by_cases hz : o.remaining - amount o.commitment = 0
    · -- the order is gone, and no other order had its commitment
      rw [hz]
      refine remainingOf_eq_zero fun hmem => ?_
      obtain ⟨o', ho', heq⟩ := List.mem_map.mp hmem
      rw [orders_editOrders] at ho'
      obtain ⟨o₀, ho₀, hr⟩ := List.mem_filterMap.mp ho'
      have hcommit := setRemaining_commitment hr
      obtain rfl := ht.eq_of_commitment ho₀ ho (hcommit.symm.trans heq)
      rw [reduceBy, setRemaining, if_pos hz] at hr
      exact absurd hr (by simp)
    · have hmem : { o with remaining := o.remaining - amount o.commitment } ∈
          (self.editOrders (reduceBy amount)).orders := by
        rw [orders_editOrders]
        exact List.mem_filterMap.mpr ⟨o, ho, by rw [reduceBy, setRemaining, if_neg hz]⟩
      exact ht'.remainingOf hmem
  · have hzero := remainingOf_eq_zero hc
    rw [hzero, Nat.zero_sub]
    refine remainingOf_eq_zero fun hmem => hc ?_
    rw [orders_editOrders] at hmem
    exact (map_commitment_filterMap_sublist fun o _ o' h => setRemaining_commitment h).subset hmem

theorem Tidy.remainingOf_dropOrders (ht : self.Tidy) (cs : List Digest32) (c : Digest32) :
    (self.editOrders (dropOrders cs)).remainingOf c =
      if c ∈ cs then 0 else self.remainingOf c := by
  have ht' := ht.editOrders (keepsCommitment_dropOrders cs self.orders)
  split
  · rename_i hc
    refine remainingOf_eq_zero fun hmem => ?_
    obtain ⟨o, ho, rfl⟩ := List.mem_map.mp hmem
    exact (mem_orders_dropOrders.mp ho).2 hc
  · rename_i hc
    by_cases hmem : c ∈ self.orders.map RestingOrder.commitment
    · obtain ⟨o, ho, rfl⟩ := List.mem_map.mp hmem
      rw [ht'.remainingOf (mem_orders_dropOrders.mpr ⟨ho, hc⟩), ht.remainingOf ho]
    · rw [remainingOf_eq_zero hmem]
      refine remainingOf_eq_zero fun h => hmem ?_
      obtain ⟨o, ho, rfl⟩ := List.mem_map.mp h
      exact List.mem_map.mpr ⟨o, (mem_orders_dropOrders.mp ho).1, rfl⟩

theorem remainingOf_insertRecord {record : RestingOrder} (ht : self.Tidy)
    (ht' : (self.insertRecord record).Tidy)
    (hfresh : record.commitment ∉ self.orders.map RestingOrder.commitment) (c : Digest32) :
    (self.insertRecord record).remainingOf c =
      if c = record.commitment then record.remaining else self.remainingOf c := by
  split
  · rename_i hc
    rw [hc]
    exact ht'.remainingOf (mem_orders_insertRecord.mpr (Or.inl rfl))
  · rename_i hc
    by_cases hmem : c ∈ self.orders.map RestingOrder.commitment
    · obtain ⟨o, ho, rfl⟩ := List.mem_map.mp hmem
      rw [ht'.remainingOf (mem_orders_insertRecord.mpr (Or.inr ho)), ht.remainingOf ho]
    · rw [remainingOf_eq_zero hmem]
      refine remainingOf_eq_zero fun h => ?_
      obtain ⟨o, ho, rfl⟩ := List.mem_map.mp h
      rcases mem_orders_insertRecord.mp ho with rfl | ho
      · exact hc rfl
      · exact hmem (List.mem_map.mpr ⟨o, ho, rfl⟩)

@[simp] theorem remainingOf_advance (c c' : Digest32) (seq : Nat) :
    (self.advance c' seq).remainingOf c = self.remainingOf c := rfl

/-! ## What a batch trades -/

/-- What the loop of `expected_batch` leaves of the arriving order. -/
def unfilled (self : PrivateBook) (arriving : SecretOrder) (now : Nat) : Nat :=
  (matchSlots arriving.side arriving.limitPrice arriving.quantity
    (self.batchOf arriving now).resting).2

/-- What an order of commitment `c` loses at admission: an immediate-or-cancel order all that the
loop leaves, a good-til-cancelled order nothing. -/
def discarded (self : PrivateBook) (arriving : SecretOrder) (c : Digest32) (now : Nat) :
    List (Digest32 × Nat) :=
  match arriving.timeInForce with
  | .goodTilCancelled => []
  | .immediateOrCancel => [(c, self.unfilled arriving now)]

variable {arriving : SecretOrder} {now : Nat}

theorem tally_discarded (c c' : Digest32) :
    tally c' (self.discarded arriving c now) =
      if c = c' ∧ arriving.timeInForce ≠ .goodTilCancelled then self.unfilled arriving now
      else 0 := by
  unfold discarded
  cases arriving.timeInForce <;> simp

theorem arrivingRemaining_eq_unfilled :
    (expectedBatch (self.batchOf arriving now)).arrivingRemaining =
      if arriving.timeInForce = .goodTilCancelled then self.unfilled arriving now else 0 := by
  unfold expectedBatch unfilled
  simp only [batchOf, decide_eq_true_eq]

theorem traded_le {pairs : List (PrivateRestingInput × MpcSlotResult)} {c : Digest32} {q : Nat}
    (hnd : (pairs.map fun pair => pair.1.commitment).Nodup)
    (hle : ∀ pair ∈ pairs, pair.1.commitment = c → pair.2.tradeQuantity ≤ q) :
    traded pairs c ≤ q := by
  induction pairs with
  | nil => exact Nat.zero_le _
  | cons pair rest ih =>
    obtain ⟨resting, slot⟩ := pair
    obtain ⟨hnot, hrest⟩ := List.nodup_cons.mp hnd
    rw [traded]
    split
    · rename_i hm
      rw [traded_eq_zero (hm.2 ▸ hnot)]
      exact hle (resting, slot) List.mem_cons_self hm.2
    · rw [Nat.zero_add]
      exact ih hrest fun pair hpair => hle pair (List.mem_cons_of_mem _ hpair)

/-- No maker trades more than it holds. -/
theorem Tidy.traded_le_remainingOf (ht : self.Tidy) (c : Digest32) :
    traded (self.slotPairs arriving now) c ≤ self.remainingOf c := by
  refine traded_le ht.nodup_slotPairs fun pair hpair hc => ?_
  obtain ⟨⟨o, ho, heq⟩, left, -, hslot⟩ := mem_slotPairs hpair
  have hcommit : o.commitment = c := (congrArg PrivateRestingInput.commitment heq).trans hc
  rw [← hcommit, ht.remainingOf (mem_orders_of_mem_live ho), hslot]
  exact matchSlot_tradeQuantity_le.trans (congrArg PrivateRestingInput.quantity heq).ge

theorem makers_slotFills (taker c : Digest32)
    (pairs : List (PrivateRestingInput × MpcSlotResult)) :
    tally c ((slotFills taker pairs).map fun fill => (fill.makerOrder, fill.quantity)) =
      traded pairs c := by
  rw [traded_eq_tally, slotFills_eq_filter, List.map_map]
  rfl

/-- A fill of a batch trades with a resting order of the other side, at its price. -/
theorem mem_slotFills {taker : Digest32} {fill : PublicFill}
    (h : fill ∈ slotFills taker (self.slotPairs arriving now)) :
    ∃ o ∈ self.orders, fill.makerOrder = o.commitment ∧ fill.takerOrder = taker ∧
      0 < fill.quantity ∧ fill.price = o.secret.limitPrice ∧
      arriving.side.crosses arriving.limitPrice fill.price = true ∧
      o.secret.side = arriving.side.opposite := by
  obtain ⟨pair, hpair, hsome⟩ := List.mem_filterMap.mp h
  obtain ⟨⟨o, ho, hin⟩, left, -, hslot⟩ := mem_slotPairs hpair
  split at hsome
  · rename_i hmatched
    obtain rfl := Option.some.inj hsome
    rw [hslot] at hmatched
    obtain ⟨hpos, hprice, hside, hcross⟩ := matchSlot_matched hmatched
    rw [← hslot] at hpos hprice
    refine ⟨o, mem_orders_of_mem_live ho, congrArg (·.commitment) hin.symm, rfl, hpos,
      hprice.trans (congrArg (·.price) hin.symm), ?_, (congrArg (·.side) hin).trans hside⟩
    rw [show _ = pair.1.price from hprice]
    exact hcross
  · exact absurd hsome (by simp)

/-- The fills of a batch and what it leaves add up to the arriving quantity. -/
theorem sum_slotFills (taker : Digest32) :
    ((slotFills taker (self.slotPairs arriving now)).map PublicFill.quantity).sum +
      self.unfilled arriving now = arriving.quantity := by
  have hslots : ((slotFills taker (self.slotPairs arriving now)).map PublicFill.quantity).sum =
      ((self.slotPairs arriving now).map fun pair => pair.2.tradeQuantity).sum := by
    have hzero : ∀ pair ∈ self.slotPairs arriving now, pair.2.matched = false →
        pair.2.tradeQuantity = 0 := fun pair hpair hm => by
      obtain ⟨-, left, -, hslot⟩ := mem_slotPairs hpair
      rw [hslot] at hm ⊢
      exact matchSlot_unmatched hm
    generalize self.slotPairs arriving now = pairs at hzero
    induction pairs with
    | nil => rfl
    | cons pair rest ih =>
      have ih := ih fun p hp => hzero p (List.mem_cons_of_mem _ hp)
      unfold slotFills at ih ⊢
      by_cases hm : pair.2.matched = true
      · simp [hm, ih]
      · have hz := hzero pair List.mem_cons_self (by simpa using hm)
        simp [hm, ih, hz]
  have hsnd : (self.slotPairs arriving now).map (fun pair => pair.2.tradeQuantity) =
      allocate arriving.quantity ((self.batchOf arriving now).resting.map
        (offer arriving.side arriving.limitPrice)) := by
    rw [← tradeQuantity_matchSlots, ← map_snd_zip_matchSlots, List.map_map]
    rfl
  rw [hslots, hsnd, sum_allocate, unfilled, matchSlots_snd]
  omega

end PrivateBook

/-! ## The ledger of a run -/

/-- A book with the history of the calls that made it. -/
structure Ledger where
  book : PrivateBook
  orders : List SecretOrder
  fills : List PublicFill
  released : List (Digest32 × Nat)
  discarded : List (Digest32 × Nat)

/-- A call of one of the four mutators. -/
inductive LedgerOp where
  | insertResting (order : SecretOrder) (authority : OrderAuthority) (seq now : Nat)
  | applyMpcBatchResult (arriving : SecretOrder) (authority : OrderAuthority) (seq now : Nat)
      (result : MpcBatchResult)
  | applyCancellation (cancellation : SecretCancellation) (seq : Nat)
  | applyExpiry (cutoff : Nat) (command : Digest32) (seq : Nat)

namespace Ledger

/-- Nothing has happened yet. -/
def start (book : PrivateBook) : Ledger := ⟨book, [], [], [], []⟩

def takerFills (self : Ledger) (c : Digest32) : Nat :=
  tally c (self.fills.map fun fill => (fill.takerOrder, fill.quantity))

def makerFills (self : Ledger) (c : Digest32) : Nat :=
  tally c (self.fills.map fun fill => (fill.makerOrder, fill.quantity))

/-- Where the quantity of an order is: filled as taker, filled as maker, resting, released by a
cancellation or an expiry, or discarded at admission. -/
def accounted (self : Ledger) (c : Digest32) : Nat :=
  self.takerFills c + self.makerFills c + self.book.remainingOf c + tally c self.released +
    tally c self.discarded

section

variable [Crypto]

/-- One call, successful or not, with what it returned written down. The transition of an expiry
names the orders it released; what each of them held is read off the book before the call. -/
def apply (self : Ledger) : LedgerOp → Ledger
  | .insertResting order authority seq now =>
    match (insertResting order authority seq now).run self.book with
    | .ok _ book => { self with book, orders := order :: self.orders }
    | .error _ book => { self with book }
  | .applyMpcBatchResult arriving authority seq now result =>
    match (applyMpcBatchResult arriving authority seq now result).run self.book with
    | .ok tr book => { self with
        book
        orders := arriving :: self.orders
        fills := self.fills ++ tr.fills
        discarded := self.book.discarded arriving authority.commitment now ++ self.discarded }
    | .error _ book => { self with book }
  | .applyCancellation cancellation seq =>
    match (applyCancellation cancellation seq).run self.book with
    | .ok tr book => { self with
        book
        released := (tr.targetCommitment, tr.releasedQuantity) :: self.released }
    | .error _ book => { self with book }
  | .applyExpiry cutoff command seq =>
    match (applyExpiry cutoff command seq).run self.book with
    | .ok tr book => { self with
        book
        released := (tr.expiredOrders.map fun c => (c, self.book.remainingOf c)) ++
          self.released }
    | .error _ book => { self with book }

/-- A sequence of calls. -/
def run (ops : List LedgerOp) (self : Ledger) : Ledger := ops.foldl Ledger.apply self

/-- An expiry pass that goes through its checks finds orders whose total fits `u64`. -/
def FitsStep (self : Ledger) : LedgerOp → Prop
  | .applyExpiry cutoff command seq =>
    PrivateBook.Expires self.book cutoff command seq → self.book.expiredTotal cutoff < u64Bound
  | _ => True

/-- Every step of a run does. -/
def Fits (self : Ledger) : List LedgerOp → Prop
  | [] => True
  | op :: ops => self.FitsStep op ∧ (self.apply op).Fits ops

/-- A fill between two admitted orders: a positive quantity, at the maker's price, within the
taker's limit, between a buy and a sell. -/
def SoundFill (self : Ledger) (fill : PublicFill) : Prop :=
  0 < fill.quantity ∧ fill.makerOrder ≠ fill.takerOrder ∧
  ∃ maker ∈ self.orders, ∃ taker ∈ self.orders,
    maker.commitment = fill.makerOrder ∧ taker.commitment = fill.takerOrder ∧
    fill.price = maker.limitPrice ∧
    taker.side.crosses taker.limitPrice fill.price = true ∧ maker.side = taker.side.opposite

/-- What a run keeps. -/
structure Balanced (ledger : Ledger) : Prop where
  inv : ledger.book.Inv
  balance : ∀ order ∈ ledger.orders, order.quantity = ledger.accounted order.commitment
  admitted : ∀ order ∈ ledger.orders, order.commitment ∈ ledger.book.admitted
  resting : ∀ o ∈ ledger.book.orders, o.secret ∈ ledger.orders
  fresh : ∀ c ∉ ledger.book.admitted, ledger.takerFills c = 0 ∧ ledger.makerFills c = 0 ∧
    tally c ledger.released = 0 ∧ tally c ledger.discarded = 0
  sound : ∀ fill ∈ ledger.fills, ledger.SoundFill fill

/-! ## Steps -/

variable {self : Ledger} {order arriving : SecretOrder} {authority : OrderAuthority}
  {seq now : Nat}

variable {book : PrivateBook}

theorem SoundFill.cons {fill : PublicFill} (h : self.SoundFill fill)
    {fills : List PublicFill} {released discarded : List (Digest32 × Nat)} (order : SecretOrder) :
    SoundFill ⟨book, order :: self.orders, fills, released, discarded⟩ fill := by
  obtain ⟨hpos, hne, maker, hmaker, taker, htaker, hrest⟩ := h
  exact ⟨hpos, hne, maker, List.mem_cons_of_mem _ hmaker, taker, List.mem_cons_of_mem _ htaker,
    hrest⟩

/-- The commitment of a newly admitted order rests nowhere. -/
theorem notMem_of_admits (hinv : book.Inv)
    (hadm : PrivateBook.Admits book order authority seq now) :
    authority.commitment ∉ book.orders.map RestingOrder.commitment := fun hmem => by
  obtain ⟨o, ho, heq⟩ := List.mem_map.mp hmem
  exact hadm.fresh (heq ▸ hinv.admitted o ho)

theorem Balanced.ne_of_admits (h : self.Balanced)
    (hadm : PrivateBook.Admits self.book arriving authority seq now) {old : SecretOrder}
    (hold : old ∈ self.orders) : old.commitment ≠ authority.commitment := fun heq =>
  hadm.fresh (heq ▸ h.admitted old hold)

theorem Balanced.insertResting (h : self.Balanced)
    (hadm : PrivateBook.Admits self.book order authority seq now)
    (hgtc : order.timeInForce = .goodTilCancelled) :
    Balanced { self with
      book := (self.book.insertRecord ⟨order, authority, order.quantity, seq⟩).advance
        authority.commitment seq
      orders := order :: self.orders } := by
  set record : RestingOrder := ⟨order, authority, order.quantity, seq⟩
  have hinv := h.inv.insertRecord hadm hgtc order.quantity_pos le_rfl
  have htidy : (self.book.insertRecord record).Tidy :=
    ⟨hinv.tidy.bids_noEmpty, hinv.tidy.asks_noEmpty, hinv.tidy.distinct⟩
  have hremaining : ∀ c, (self.book.insertRecord record).remainingOf c =
      if c = authority.commitment then order.quantity else self.book.remainingOf c :=
    remainingOf_insertRecord h.inv.tidy htidy (notMem_of_admits h.inv hadm)
  have hadmitted : ((self.book.insertRecord record).advance authority.commitment seq).admitted =
      insert authority.commitment self.book.admitted := by
    rw [advance, admitted_insertRecord]
  refine ⟨hinv, fun o ho => ?_, fun o ho => ?_, fun o ho => ?_, fun c hc => ?_, fun fill hfill =>
    (h.sound fill hfill).cons order⟩
  · simp only [accounted, remainingOf_advance, hremaining]
    rcases List.mem_cons.mp ho with rfl | ho
    · obtain ⟨h1, h2, h3, h4⟩ := h.fresh _ hadm.fresh
      rw [← hadm.commitment_eq, if_pos rfl]
      simp only [takerFills, makerFills] at h1 h2 ⊢
      omega
    · rw [if_neg (h.ne_of_admits hadm ho)]
      exact h.balance o ho
  · rw [hadmitted]
    rcases List.mem_cons.mp ho with rfl | ho
    · rw [← hadm.commitment_eq]
      exact Finset.mem_insert_self _ _
    · exact Finset.mem_insert_of_mem (h.admitted o ho)
  · rcases mem_orders_insertRecord.mp ho with rfl | ho
    · exact List.mem_cons_self
    · exact List.mem_cons_of_mem _ (h.resting o ho)
  · rw [hadmitted] at hc
    exact h.fresh c fun hmem => hc (Finset.mem_insert_of_mem hmem)

/-- What is left of each order after a batch. -/
theorem remainingOf_afterBatch (hinv : book.Inv)
    (hadm : PrivateBook.Admits book arriving authority seq now) (c : Digest32) :
    (book.afterBatch arriving authority seq now).remainingOf c =
      if c = authority.commitment then
        (if arriving.timeInForce = .goodTilCancelled then book.unfilled arriving now else 0)
      else book.remainingOf c - traded (book.slotPairs arriving now) c := by
  set edit := reduceBy (traded (book.slotPairs arriving now))
  have hreduced := hinv.tidy.remainingOf_reduceBy
    (traded (book.slotPairs arriving now))
  have hself : book.remainingOf authority.commitment = 0 :=
    remainingOf_eq_zero (notMem_of_admits hinv hadm)
  have hinv' := hinv.afterBatch hadm
  unfold afterBatch restRemainder at hinv' ⊢
  rw [arrivingRemaining_eq_unfilled] at hinv' ⊢
  rw [remainingOf_advance]
  by_cases hgtc : arriving.timeInForce = .goodTilCancelled
  · rw [if_pos hgtc] at hinv' ⊢
    by_cases hpos : 0 < book.unfilled arriving now
    · rw [if_pos ⟨hpos, hgtc⟩] at hinv' ⊢
      have htidy : ((book.editOrders edit).insertRecord
          ⟨arriving, authority, book.unfilled arriving now, seq⟩).Tidy :=
        ⟨hinv'.tidy.bids_noEmpty, hinv'.tidy.asks_noEmpty, hinv'.tidy.distinct⟩
      have hkeeps : PrivateBook.KeepsCommitment edit book.orders :=
        fun o _ o' ho => setRemaining_commitment ho
      rw [remainingOf_insertRecord (hinv.tidy.editOrders hkeeps) htidy
        (fun hmem => notMem_of_admits hinv hadm (by
          rw [orders_editOrders] at hmem
          exact (map_commitment_filterMap_sublist hkeeps).subset hmem)), hreduced]
      rfl
    · rw [if_neg fun hrest => hpos hrest.1, hreduced]
      split
      · rename_i hc
        rw [hc, hself]
        omega
      · rfl
  · rw [if_neg fun hrest => hgtc hrest.2, if_neg hgtc, hreduced]
    split
    · rename_i hc
      rw [hc, hself, Nat.zero_sub]
    · rfl

/-- The fills of a batch are sound. -/
theorem Balanced.sound_slotFills (h : self.Balanced)
    (hadm : PrivateBook.Admits self.book arriving authority seq now) {fill : PublicFill}
    (hfill : fill ∈ slotFills authority.commitment
      (self.book.slotPairs arriving now)) {fills : List PublicFill}
    {released discarded : List (Digest32 × Nat)} :
    SoundFill ⟨book, arriving :: self.orders, fills, released, discarded⟩ fill := by
  obtain ⟨o, ho, hmaker, htaker, hpos, hprice, hcross, hside⟩ := mem_slotFills hfill
  refine ⟨hpos, fun heq => hadm.fresh ?_, o.secret,
    List.mem_cons_of_mem _ (h.resting o ho), arriving, List.mem_cons_self, ?_,
    hadm.commitment_eq.symm.trans htaker.symm, hprice, hcross, hside⟩
  · rw [← htaker, ← heq, hmaker]
    exact h.inv.admitted o ho
  · exact (h.inv.committed o ho).symm.trans hmaker.symm

theorem Balanced.applyMpcBatchResult (h : self.Balanced)
    (hadm : PrivateBook.Admits self.book arriving authority seq now) :
    Balanced {
      book := self.book.afterBatch arriving authority seq now
      orders := arriving :: self.orders
      fills := self.fills ++ slotFills authority.commitment
        (self.book.slotPairs arriving now)
      released := self.released
      discarded := self.book.discarded arriving authority.commitment now ++
        self.discarded } := by
  set c₀ := authority.commitment with hc₀
  set fills := slotFills c₀ (self.book.slotPairs arriving now)
  have hremaining := remainingOf_afterBatch h.inv hadm
  have hmaker : ∀ c, tally c (fills.map fun fill => (fill.makerOrder, fill.quantity)) =
      traded (self.book.slotPairs arriving now) c := fun c =>
    makers_slotFills c₀ c _
  have htakers : ∀ e ∈ fills.map fun fill => (fill.takerOrder, fill.quantity), e.1 = c₀ := by
    intro e he
    obtain ⟨fill, hfill, rfl⟩ := List.mem_map.mp he
    obtain ⟨pair, -, hsome⟩ := List.mem_filterMap.mp hfill
    split at hsome
    · obtain rfl := Option.some.inj hsome
      rfl
    · exact absurd hsome (by simp)
  have hadmitted : (self.book.afterBatch arriving authority seq now).admitted =
      insert c₀ self.book.admitted := by
    unfold afterBatch restRemainder advance
    split
    · simp only [admitted_insertRecord]
      rfl
    · rfl
  have hself : traded (self.book.slotPairs arriving now) c₀ = 0 := by
    have hle : traded (self.book.slotPairs arriving now) c₀ ≤ _ :=
      h.inv.tidy.traded_le_remainingOf c₀
    rw [remainingOf_eq_zero (notMem_of_admits h.inv hadm)] at hle
    exact Nat.le_zero.mp hle
  refine ⟨h.inv.afterBatch hadm, fun o ho => ?_, fun o ho => ?_, fun o ho => ?_, fun c hc => ?_,
    fun fill hfill => ?_⟩
  · simp only [accounted, takerFills, makerFills, List.map_append, tally_append,
      tally_discarded, hremaining, hmaker]
    rcases List.mem_cons.mp ho with rfl | ho
    · -- the arriving order: its fills, its remainder and what it lost
      obtain ⟨h1, h2, h3, h4⟩ := h.fresh _ hadm.fresh
      simp only [takerFills, makerFills, ← hc₀] at h1 h2 h3 h4
      have hsum : (fills.map PublicFill.quantity).sum + self.book.unfilled o now = o.quantity :=
        sum_slotFills c₀
      have htaker : tally c₀ (fills.map fun fill => (fill.takerOrder, fill.quantity)) =
          (fills.map PublicFill.quantity).sum := by
        rw [tally_eq_sum htakers, List.map_map]
        rfl
      rw [← hadm.commitment_eq, ← hc₀, htaker, if_pos rfl, h1, h2, h3, h4, hself]
      -- the remainder rests or is discarded
      by_cases hgtc : o.timeInForce = .goodTilCancelled
      · rw [if_pos hgtc, if_neg fun hlost => hlost.2 hgtc]
        omega
      · rw [if_neg hgtc, if_pos ⟨rfl, hgtc⟩]
        omega
    · -- an earlier order: what it traded moved from resting to filled
      have hne := h.ne_of_admits hadm ho
      have hbalance := h.balance o ho
      have htaker : tally o.commitment (fills.map fun fill => (fill.takerOrder, fill.quantity)) =
          0 := tally_eq_zero fun e he heq => hne (heq.symm.trans (htakers e he))
      have hle : traded (self.book.slotPairs arriving now) o.commitment ≤ _ :=
        h.inv.tidy.traded_le_remainingOf o.commitment
      simp only [accounted, takerFills, makerFills] at hbalance
      rw [if_neg hne, if_neg fun hlost => hne hlost.1.symm, htaker]
      omega
  · rw [hadmitted]
    rcases List.mem_cons.mp ho with rfl | ho
    · rw [← hadm.commitment_eq]
      exact Finset.mem_insert_self _ _
    · exact Finset.mem_insert_of_mem (h.admitted o ho)
  · change o ∈ (restRemainder _ _ _ _ _).orders at ho
    unfold restRemainder at ho
    have hedited : ∀ o' ∈ (self.book.editOrders (reduceBy (traded
        (self.book.slotPairs arriving now)))).orders, o'.secret ∈ arriving :: self.orders := by
      intro o' ho'
      rw [orders_editOrders] at ho'
      obtain ⟨o₀, ho₀, hr⟩ := List.mem_filterMap.mp ho'
      obtain ⟨r, rfl, -, -⟩ := shrinks_reduceBy o₀ o' hr
      exact List.mem_cons_of_mem _ (h.resting o₀ ho₀)
    split at ho
    · rcases mem_orders_insertRecord.mp ho with rfl | ho
      · exact List.mem_cons_self
      · exact hedited o ho
    · exact hedited o ho
  · rw [hadmitted] at hc
    have hne : c₀ ≠ c := fun heq => hc (heq ▸ Finset.mem_insert_self _ _)
    have hnot : c ∉ self.book.admitted := fun hmem => hc (Finset.mem_insert_of_mem hmem)
    obtain ⟨h1, h2, h3, h4⟩ := h.fresh c hnot
    have htaker : tally c (fills.map fun fill => (fill.takerOrder, fill.quantity)) = 0 :=
      tally_eq_zero fun e he heq => hne ((htakers e he).symm.trans heq)
    have hzero : traded (self.book.slotPairs arriving now) c = 0 := by
      have hle : traded (self.book.slotPairs arriving now) c ≤ _ :=
        h.inv.tidy.traded_le_remainingOf c
      rw [remainingOf_eq_zero fun hmem => hnot (by
        obtain ⟨o, ho, rfl⟩ := List.mem_map.mp hmem
        exact h.inv.admitted o ho)] at hle
      exact Nat.le_zero.mp hle
    simp only [takerFills, makerFills] at h1 h2 ⊢
    rw [List.map_append, List.map_append, tally_append, tally_append, hmaker, htaker, hzero, h1,
      h2, h3, tally_append, tally_discarded, if_neg fun hlost => hne hlost.1, h4]
    exact ⟨rfl, rfl, rfl, rfl⟩
  · rcases List.mem_append.mp hfill with hfill | hfill
    · exact (h.sound fill hfill).cons arriving
    · exact h.sound_slotFills hadm hfill

/-- Removing orders and writing down what they held. -/
theorem Balanced.release (h : self.Balanced) {cs : List Digest32} (hnd : cs.Nodup)
    (command : Digest32) :
    Balanced { self with
      book := (self.book.editOrders (dropOrders cs)).advance command
        (self.book.sequence + 1)
      released := (cs.map fun c => (c, self.book.remainingOf c)) ++ self.released } := by
  have hshrinks : ∀ o ∈ self.book.orders, PrivateBook.Shrinks (dropOrders cs) o :=
    fun o ho => h.inv.shrinks_dropOrders cs ho
  refine ⟨(h.inv.editOrders hshrinks).advance command, fun o ho => ?_, fun o ho => ?_,
    fun o ho => ?_, fun c hc => ?_, h.sound⟩
  · have hbalance := h.balance o ho
    simp only [accounted, takerFills, makerFills, remainingOf_advance,
      h.inv.tidy.remainingOf_dropOrders, tally_append, tally_map_of_nodup hnd] at hbalance ⊢
    split <;> omega
  · exact Finset.mem_insert_of_mem (h.admitted o ho)
  · obtain ⟨ho, -⟩ := mem_orders_dropOrders.mp ho
    exact h.resting o ho
  · have hnot : c ∉ self.book.admitted := fun hmem => hc (Finset.mem_insert_of_mem hmem)
    obtain ⟨h1, h2, h3, h4⟩ := h.fresh c hnot
    refine ⟨h1, h2, ?_, h4⟩
    have hzero : self.book.remainingOf c = 0 := remainingOf_eq_zero fun hmem => hnot (by
      obtain ⟨o, ho, rfl⟩ := List.mem_map.mp hmem
      exact h.inv.admitted o ho)
    rw [tally_append, tally_map_of_nodup hnd, hzero, h3]
    split <;> rfl

/-- **One call keeps the accounts balanced.** -/
theorem Balanced.apply (h : self.Balanced) {op : LedgerOp} (hfit : self.FitsStep op) :
    (self.apply op).Balanced := by
  cases op with
  | insertResting order authority seq now =>
    rw [Ledger.apply]
    split
    · rename_i u book hrun
      obtain ⟨hadm, hgtc, rfl⟩ := insertResting_ok hrun
      exact h.insertResting hadm hgtc
    · rename_i e book hrun
      rw [insertResting_error hrun]
      exact h
  | applyMpcBatchResult arriving authority seq now result =>
    rw [Ledger.apply]
    split
    · rename_i tr book hrun
      obtain ⟨hadm, -, rfl, rfl⟩ :=
        (applyMpcBatchResult_ok h.inv.tidy fun o ho => h.inv.pos ho).mp hrun
      exact h.applyMpcBatchResult hadm
    · rename_i e book hrun
      rw [applyMpcBatchResult_error h.inv.tidy (fun o ho => h.inv.pos ho) hrun]
      exact h
  | applyCancellation cancellation seq =>
    rw [Ledger.apply]
    split
    · rename_i tr book hrun
      obtain ⟨target, hcancels, rfl, htarget, hreleased⟩ :=
        applyCancellation_ok h.inv.tidy hrun
      have hrelease := h.release (List.nodup_singleton target.commitment)
        cancellation.commitment
      rw [htarget, hreleased, hcancels.next, ← h.inv.tidy.remainingOf hcancels.resting]
      exact hrelease
    · rename_i e book hrun
      rw [applyCancellation_error hrun]
      exact h
  | applyExpiry cutoff command seq =>
    rw [Ledger.apply]
    split
    · rename_i tr book hrun
      obtain ⟨hexpires, -, rfl, hcs, -⟩ := applyExpiry_ok h.inv.tidy hrun
      rw [hcs, hexpires.next]
      exact h.release (h.inv.tidy.nodup_expiredCommitments cutoff) command
    · rename_i e book hrun
      rcases applyExpiry_error h.inv.tidy hrun with rfl | ⟨hexpires, hge, -⟩
      · exact h
      · exact absurd (hfit hexpires) (not_lt.mpr hge)

theorem Balanced.run (h : self.Balanced) {ops : List LedgerOp} (hfit : self.Fits ops) :
    (Ledger.run ops self).Balanced := by
  induction ops generalizing self with
  | nil => exact h
  | cons op ops ih => exact ih (h.apply hfit.1) hfit.2

theorem balanced_start {marketId : String}
    (hnew : new marketId = .ok book) : (start book).Balanced := by
  have hinv := inv_new hnew
  unfold new at hnew
  split at hnew
  · obtain rfl := Except.ok.inj hnew
    exact ⟨hinv, fun o ho => absurd ho List.not_mem_nil, fun o ho => absurd ho List.not_mem_nil,
      fun o ho => absurd ho List.not_mem_nil, fun c _ => ⟨rfl, rfl, rfl, rfl⟩,
      fun fill hfill => absurd hfill List.not_mem_nil⟩
  · exact absurd hnew (by simp)

/-- **Quantity conservation.** In every run from a new book whose expiry passes fit `u64`, failing
calls included, the quantity of every admitted order is accounted for, and every fill is sound.
What an expiry books for its orders adds up to the quantity it reports. -/
theorem quantity_conserved {marketId : String} {book : PrivateBook}
    (hnew : new marketId = .ok book) {ops : List LedgerOp}
    (hfit : (start book).Fits ops) :
    (∀ order ∈ (Ledger.run ops (start book)).orders,
      order.quantity = (Ledger.run ops (start book)).accounted order.commitment) ∧
    (∀ fill ∈ (Ledger.run ops (start book)).fills,
      (Ledger.run ops (start book)).SoundFill fill) ∧
    ∀ cutoff command seq tr book', (applyExpiry cutoff command seq).run
        (Ledger.run ops (start book)).book = .ok tr book' →
      tr.releasedQuantity =
        (tr.expiredOrders.map (Ledger.run ops (start book)).book.remainingOf).sum := by
  have h := (balanced_start hnew).run hfit
  refine ⟨h.balance, h.sound, fun cutoff command seq tr book' hrun => ?_⟩
  obtain ⟨-, -, -, horders, hreleased⟩ := applyExpiry_ok h.inv.tidy hrun
  rw [hreleased, horders]
  rfl

end

section Witness

open PrivateBook (sampleBook)

attribute [local instance] transparentCrypto

/-- A resting sell, a buy that takes it and rests with what is left, an immediate-or-cancel sell
that takes the rest and loses a part, and a sell that expires. -/
def sampleLedgerOps : List LedgerOp :=
  let maker := sampleOrder .sell 100 5 .goodTilCancelled 1 fits_100_5
  let taker := sampleOrder .buy 101 8 .goodTilCancelled 2 fits_101_8
  let passing := sampleOrder .sell 100 5 .immediateOrCancel 1 fits_100_5
  let last := sampleOrder .sell 101 3 .goodTilCancelled 2 fits_101_3
  [.insertResting maker (sampleAuthority maker) 1 1000,
    .applyMpcBatchResult taker (sampleAuthority taker) 2 1000
      ⟨[⟨true, 100, 5⟩], 3, some [⟨.buy, 101, 3⟩]⟩,
    .applyMpcBatchResult passing (sampleAuthority passing) 3 1000
      ⟨[⟨true, 101, 3⟩], 0, some []⟩,
    .insertResting last (sampleAuthority last) 4 1000,
    .applyExpiry 2001 (expiryCommitment "JGB10Y-JPY" 2001 [last.commitment]) 5]

theorem quantity_conserved_sample :
    (Ledger.run sampleLedgerOps (start sampleBook)).fills.map PublicFill.quantity = [5, 3] ∧
    (Ledger.run sampleLedgerOps (start sampleBook)).discarded.map Prod.snd = [2] ∧
    (Ledger.run sampleLedgerOps (start sampleBook)).released.map Prod.snd = [3] ∧
    ∀ order ∈ (Ledger.run sampleLedgerOps (start sampleBook)).orders, order.quantity =
      (Ledger.run sampleLedgerOps (start sampleBook)).accounted order.commitment :=
  have hnew : new "JGB10Y-JPY" = .ok sampleBook := by decide
  have hfit : (start sampleBook).Fits sampleLedgerOps :=
    ⟨trivial, trivial, trivial, trivial, fun _ => by decide +kernel, trivial⟩
  ⟨by decide +kernel, by decide +kernel, by decide +kernel, (quantity_conserved hnew hfit).1⟩

/-- Two sells whose quantities together leave `u64`, and the expiry of both. -/
def overflowOps : List LedgerOp :=
  let a := sampleOrder .sell 1 (2 ^ 63) .goodTilCancelled 1 fits_half_a
  let b := sampleOrder .sell 1 (2 ^ 63) .goodTilCancelled 2 fits_half_b
  [.insertResting a (sampleAuthority a) 1 1000,
    .insertResting b (sampleAuthority b) 2 1000,
    .applyExpiry 2001 (expiryCommitment "JGB10Y-JPY" 2001 [a.commitment, b.commitment]) 3]

/-- **An expiry pass that overflows loses quantity.** The pass fails on its total after it has
removed one of the two orders; that order is then neither filled, resting, released nor
discarded. -/
theorem expiry_overflow_loses_quantity :
    ¬ ∀ ops : List LedgerOp, ∀ order ∈ (Ledger.run ops (start sampleBook)).orders,
      order.quantity = (Ledger.run ops (start sampleBook)).accounted order.commitment := by
  intro h
  have hall := h overflowOps
  revert hall
  decide +kernel

end Witness

end Ledger

end Oclob.Core
