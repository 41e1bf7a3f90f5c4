import Oclob.Core.Invariant
import Oclob.Lib.Tally

/-!
# The reference matcher

What the fixed-size batch is meant to compute: sort the live orders of the other side by price,
then by arrival (`referenceQueue`), walk them without a limit while the price crosses
(`referenceTrades`), trade at the maker's price, and rest what is left of a good-til-cancelled
order (`referenceBook`). None of these definitions looks at the levels of the book or at a slot.

* `live_eq_referenceQueue`: the scan of the code is the reference's order.
* `slotFills_eq`, `afterBatch_eq`: up to eight makers, the batch computes what the reference does.
* `exceedsLoop_eq`: the capacity test counts the makers the reference touches.
* `batch_refines_reference`, `Inv.exceeds_iff` put them together.
-/

namespace Oclob.Core

open Oclob.Lib OrdMap

/-- Price-time priority among the orders an arriving order of `side` may trade with. -/
def precedes (side : Side) (a b : RestingOrder) : Prop :=
  match side with
  | .buy => a.secret.limitPrice < b.secret.limitPrice ∨
      (a.secret.limitPrice = b.secret.limitPrice ∧ a.sequence ≤ b.sequence)
  | .sell => b.secret.limitPrice < a.secret.limitPrice ∨
      (a.secret.limitPrice = b.secret.limitPrice ∧ a.sequence ≤ b.sequence)

instance (side : Side) : DecidableRel (precedes side) := fun _ _ =>
  match side with
  | .buy => inferInstanceAs (Decidable (_ ∨ (_ ∧ _)))
  | .sell => inferInstanceAs (Decidable (_ ∨ (_ ∧ _)))

instance (side : Side) : Std.Total (precedes side) := ⟨fun a b => by
  cases side <;> simp only [precedes] <;> omega⟩

instance (side : Side) : IsTrans RestingOrder (precedes side) := ⟨fun a b c hab hbc => by
  cases side <;> simp only [precedes] at * <;> omega⟩

/-- The walk of the reference: trade with each order in turn while the price crosses and
something is left. -/
def walk (side : Side) (price : Nat) : Nat → List RestingOrder → List (RestingOrder × Nat)
  | _, [] => []
  | remaining, resting :: rest =>
    if side.crosses price resting.secret.limitPrice = true ∧ 0 < remaining then
      (resting, min remaining resting.remaining) ::
        walk side price (remaining - min remaining resting.remaining) rest
    else []

/-- What a list of trades took from one maker. -/
def takenFrom (trades : List (RestingOrder × Nat)) (c : Digest32) : Nat :=
  tally c (trades.map fun trade => (trade.1.commitment, trade.2))

namespace PrivateBook

/-- The live orders of the other side, best price first, then first in first out. -/
def referenceQueue (self : PrivateBook) (side : Side) (now : Nat) : List RestingOrder :=
  (self.orders.filter fun order =>
    decide (order.secret.side = side.opposite ∧ now ≤ order.secret.expiresAt)).insertionSort
      (precedes side)

/-- The trades of the unbounded reference matcher. -/
def referenceTrades (self : PrivateBook) (arriving : SecretOrder) (now : Nat) :
    List (RestingOrder × Nat) :=
  walk arriving.side arriving.limitPrice arriving.quantity
    (self.referenceQueue arriving.side now)

/-- Its fills, at the makers' prices. -/
def referenceFills (self : PrivateBook) (arriving : SecretOrder) (taker : Digest32) (now : Nat) :
    List PublicFill :=
  (self.referenceTrades arriving now).map fun trade =>
    ⟨trade.1.commitment, taker, trade.1.secret.limitPrice, trade.2⟩

/-- What it leaves of the arriving order. -/
def referenceRemaining (self : PrivateBook) (arriving : SecretOrder) (now : Nat) : Nat :=
  arriving.quantity - ((self.referenceTrades arriving now).map Prod.snd).sum

/-- The book it leaves: makers reduced, exhausted makers gone, the remainder resting behind its
price if the order is good-til-cancelled. -/
def referenceBook (self : PrivateBook) (arriving : SecretOrder) (authority : OrderAuthority)
    (seq now : Nat) : PrivateBook :=
  let reduced := self.editOrders (reduceBy (takenFrom (self.referenceTrades arriving now)))
  let remaining := self.referenceRemaining arriving now
  let rested := if 0 < remaining ∧ arriving.timeInForce = .goodTilCancelled then
      reduced.insertRecord ⟨arriving, authority, remaining, seq⟩
    else reduced
  { rested with
    admitted := insert authority.commitment self.admitted
    sequence := seq }

variable {self : PrivateBook} {arriving : SecretOrder} {now : Nat}

/-! ## The order of the scan -/

section

variable [Crypto]

theorem Inv.pairwise_queue (h : self.Inv) (target side : Side) {e : Nat × List RestingOrder}
    (he : e ∈ (self.levels target).entries) : e.2.Pairwise (precedes side) := by
  refine (h.fifo target e he).imp_of_mem fun {a b} ha hb hab => ?_
  have hpa := (h.placed target e he a ha).2
  have hpb := (h.placed target e he b hb).2
  cases side <;> exact Or.inr ⟨hpa.trans hpb.symm, hab.le⟩

theorem Inv.pairwise_ordered (h : self.Inv) (side : Side) :
    (self.ordered side).Pairwise (precedes side) := by
  have hsorted : ∀ target, (self.levels target).entries.Pairwise fun a b => a.1 < b.1 :=
    fun target => List.pairwise_map.mp (self.levels target).sorted
  cases side with
  | buy =>
    refine List.pairwise_flatMap.mpr ⟨fun e he => h.pairwise_queue .sell .buy he, ?_⟩
    refine (hsorted .sell).imp_of_mem fun {a b} ha hb hab x hx y hy => Or.inl ?_
    rw [(h.placed .sell a ha x hx).2, (h.placed .sell b hb y hy).2]
    exact hab
  | sell =>
    refine List.pairwise_flatMap.mpr
      ⟨fun e he => h.pairwise_queue .buy .sell (List.mem_reverse.mp he), ?_⟩
    refine List.pairwise_reverse.mpr ((hsorted .buy).imp_of_mem
      fun {a b} ha hb hab x hx y hy => Or.inl ?_)
    rw [(h.placed .buy a ha y hy).2, (h.placed .buy b hb x hx).2]
    exact hab

theorem Inv.filter_side (h : self.Inv) (target side : Side) (now : Nat) :
    (self.levels target).items.filter (fun order =>
      decide (order.secret.side = side ∧ now ≤ order.secret.expiresAt)) =
    if target = side then
      (self.levels target).items.filter fun order => decide (now ≤ order.secret.expiresAt)
    else [] := by
  split
  · rename_i hs
    refine List.filter_congr fun o ho => ?_
    rw [h.side_of_mem ho]
    simp [hs]
  · rename_i hs
    refine List.filter_eq_nil_iff.mpr fun o ho => ?_
    rw [h.side_of_mem ho]
    simp [hs]

theorem Inv.live_perm (h : self.Inv) (side : Side) (now : Nat) :
    (self.live side now).Perm (self.orders.filter fun order =>
      decide (order.secret.side = side.opposite ∧ now ≤ order.secret.expiresAt)) := by
  have hb := h.filter_side .buy side.opposite now
  have ha := h.filter_side .sell side.opposite now
  simp only [levels] at hb ha
  unfold orders
  rw [List.filter_append, hb, ha]
  cases side with
  | buy => exact List.Perm.refl _
  | sell =>
    rw [if_pos (show Side.buy = Side.sell.opposite from rfl), if_neg (by simp [Side.opposite]),
      List.append_nil]
    exact (itemsDesc_perm self.bids).filter _

/-- Two orders of one side that precede each other are one order. -/
theorem Inv.precedes_antisymm (h : self.Inv) {target side : Side} {a b : RestingOrder}
    (ha : a ∈ (self.levels target).items) (hb : b ∈ (self.levels target).items)
    (hab : precedes side a b) (hba : precedes side b a) : a = b := by
  obtain ⟨ea, hea, haq⟩ := mem_items.mp ha
  obtain ⟨eb, heb, hbq⟩ := mem_items.mp hb
  have hpa := (h.placed target ea hea a haq).2
  have hpb := (h.placed target eb heb b hbq).2
  have heq : a.secret.limitPrice = b.secret.limitPrice ∧ a.sequence = b.sequence := by
    cases side <;> simp only [precedes] at hab hba <;> omega
  have hkey : ea.1 = eb.1 := by rw [← hpa, ← hpb, heq.1]
  have hq : ea.2 = eb.2 := by
    have h1 := mem_entries_iff.mp hea
    have h2 := mem_entries_iff.mp heb
    rw [hkey, h2] at h1
    exact (Option.some.inj h1).symm
  rw [← hq] at hbq
  -- both sit in one queue, whose sequences increase strictly
  by_contra hne
  have hsymm : Std.Symm fun x y : RestingOrder => x.sequence ≠ y.sequence :=
    ⟨fun _ _ hxy => hxy.symm⟩
  exact ((h.fifo target ea hea).imp fun hlt => hlt.ne).forall haq hbq hne heq.2

/-- **The scan of the code is the reference's order.** -/
theorem Inv.live_eq_referenceQueue (h : self.Inv) (side : Side) (now : Nat) :
    self.live side now = self.referenceQueue side now := by
  have hperm : (self.live side now).Perm (self.referenceQueue side now) :=
    (h.live_perm side now).trans (List.perm_insertionSort _ _).symm
  refine hperm.eq_of_pairwise (fun a b ha hb hab hba => ?_)
    ((h.pairwise_ordered side).sublist List.filter_sublist)
    (List.pairwise_insertionSort _ _)
  exact h.precedes_antisymm (mem_live.mp ha).1 (mem_live.mp (hperm.mem_iff.mpr hb)).1 hab hba

end

/-! ## The walk and the slots -/

section Walk

variable {side : Side} {price Q : Nat} {queue : List RestingOrder}

/-- Once an order of the queue does not cross, no later one does. -/
def CrossesFirst (side : Side) (price : Nat) (queue : List RestingOrder) : Prop :=
  queue.Pairwise fun a b => side.crosses price b.secret.limitPrice = true →
    side.crosses price a.secret.limitPrice = true

theorem crosses_of_precedes {a b : RestingOrder} (hab : precedes side a b)
    (hb : side.crosses price b.secret.limitPrice = true) :
    side.crosses price a.secret.limitPrice = true := by
  cases side <;> simp only [precedes, Side.crosses, decide_eq_true_eq] at * <;> omega

theorem walk_take (n : Nat) :
    walk side price Q (queue.take n) = (walk side price Q queue).take n := by
  induction queue generalizing Q n with
  | nil => simp [walk]
  | cons o rest ih =>
    cases n with
    | zero => rfl
    | succ n =>
      rw [List.take_succ_cons, walk, walk]
      split
      · rw [List.take_succ_cons, ih]
      · rfl

/-- An order that offers nothing, or a taker that wants nothing, leaves the slots unmatched. -/
theorem filter_matched_eq_nil {inputs : List PrivateRestingInput}
    (h : Q = 0 ∨ ∀ resting ∈ inputs, offer side price resting = 0) :
    (inputs.zip (matchSlots side price Q inputs).1).filter (fun pair => pair.2.matched) = [] := by
  refine List.filter_eq_nil_iff.mpr fun pair hpair hmatched => ?_
  obtain ⟨hmem, left, hle, hslot⟩ := mem_zip_matchSlots hpair
  rw [hslot] at hmatched
  have hpos : 0 < min left (offer side price pair.1) := by simpa [matchSlot] using hmatched
  rcases h with rfl | h
  · omega
  · rw [h pair.1 hmem] at hpos
    omega

theorem offer_restingInput {o : RestingOrder} (hs : o.secret.side = side.opposite) :
    offer side price (restingInput o) =
      if side.crosses price o.secret.limitPrice = true then o.remaining else 0 := by
  have hne : o.secret.side ≠ side := Side.ne_iff_eq_opposite.mpr hs
  simp [offer, restingInput, hne]

/-- The matched slots are the trades of the walk over the same orders. -/
theorem filter_matched_eq (hside : ∀ o ∈ queue, o.secret.side = side.opposite)
    (hpos : ∀ o ∈ queue, 0 < o.remaining) (hcross : CrossesFirst side price queue) :
    ((queue.map restingInput).zip
      (matchSlots side price Q (queue.map restingInput)).1).filter (fun pair => pair.2.matched) =
    (walk side price Q queue).map fun trade =>
      (restingInput trade.1, ⟨true, trade.1.secret.limitPrice, trade.2⟩) := by
  induction queue generalizing Q with
  | nil => rfl
  | cons o rest ih =>
    obtain ⟨hfirst, hrest⟩ := List.pairwise_cons.mp hcross
    have hoffer : offer side price (restingInput o) = _ :=
      offer_restingInput (hside o List.mem_cons_self)
    rw [walk]
    split
    · rename_i hc
      rw [if_pos hc.1] at hoffer
      have htrade : 0 < min Q o.remaining := lt_min hc.2 (hpos o List.mem_cons_self)
      have hslot : matchSlot side price Q (restingInput o) =
          ⟨true, o.secret.limitPrice, min Q o.remaining⟩ := by
        simp only [matchSlot, hoffer, decide_eq_true htrade, if_pos htrade]
        rfl
      rw [List.map_cons, matchSlots_cons, List.zip_cons_cons, hslot, List.filter_cons, if_pos rfl,
        hoffer, ih (fun o' ho' => hside o' (List.mem_cons_of_mem _ ho'))
          (fun o' ho' => hpos o' (List.mem_cons_of_mem _ ho')) hrest, List.map_cons]
    · rename_i hc
      rw [List.map_nil]
      refine filter_matched_eq_nil (Or.symm (or_iff_not_imp_right.mpr fun hQ => ?_))
      have hno : ¬ side.crosses price o.secret.limitPrice = true := fun h =>
        hc ⟨h, Nat.pos_of_ne_zero hQ⟩
      intro resting hmem
      obtain ⟨o', ho', rfl⟩ := List.mem_map.mp hmem
      rw [offer_restingInput (hside o' ho'), if_neg]
      rcases List.mem_cons.mp ho' with rfl | ho'
      · exact hno
      · exact fun h => hno (hfirst o' ho' h)

/-- The quantities of the walk add up to the offers it can serve. -/
theorem sum_walk (hside : ∀ o ∈ queue, o.secret.side = side.opposite)
    (hcross : CrossesFirst side price queue) :
    ((walk side price Q queue).map Prod.snd).sum =
      min Q ((queue.map restingInput).map (offer side price)).sum := by
  induction queue generalizing Q with
  | nil => simp [walk]
  | cons o rest ih =>
    obtain ⟨hfirst, hrest⟩ := List.pairwise_cons.mp hcross
    have hside' : ∀ o' ∈ rest, o'.secret.side = side.opposite :=
      fun o' ho' => hside o' (List.mem_cons_of_mem _ ho')
    have hoffer : offer side price (restingInput o) = _ :=
      offer_restingInput (hside o List.mem_cons_self)
    rw [walk]
    split
    · rename_i hc
      rw [if_pos hc.1] at hoffer
      simp only [List.map_cons, List.sum_cons, hoffer]
      rw [ih hside' hrest]
      omega
    · rename_i hc
      rw [List.map_nil, List.sum_nil]
      by_cases hQ : Q = 0
      · omega
      · have hno : ¬ side.crosses price o.secret.limitPrice = true := fun h =>
          hc ⟨h, Nat.pos_of_ne_zero hQ⟩
        have hzero : (((o :: rest).map restingInput).map (offer side price)).sum = 0 := by
          refine List.sum_eq_zero fun q hq => ?_
          obtain ⟨resting, hmem, rfl⟩ := List.mem_map.mp hq
          obtain ⟨o', ho', rfl⟩ := List.mem_map.mp hmem
          rw [offer_restingInput (hside o' ho'), if_neg]
          rcases List.mem_cons.mp ho' with rfl | ho'
          · exact hno
          · exact fun h => hno (hfirst o' ho' h)
        rw [hzero]
        omega

/-- While something is left, every crossing order has been traded in full. -/
theorem mem_walk_of_lt (hcross : CrossesFirst side price queue)
    (hleft : ((walk side price Q queue).map Prod.snd).sum < Q) {o : RestingOrder}
    (ho : o ∈ queue) (hc : side.crosses price o.secret.limitPrice = true) :
    (o, o.remaining) ∈ walk side price Q queue := by
  induction queue generalizing Q with
  | nil => exact absurd ho List.not_mem_nil
  | cons head rest ih =>
    obtain ⟨hfirst, hrest⟩ := List.pairwise_cons.mp hcross
    have hhead : side.crosses price head.secret.limitPrice = true := by
      rcases List.mem_cons.mp ho with rfl | ho
      · exact hc
      · exact hfirst o ho hc
    rw [walk] at hleft ⊢
    split at hleft
    · rename_i hcond
      simp only [List.map_cons, List.sum_cons] at hleft
      rw [if_pos hcond]
      rcases List.mem_cons.mp ho with rfl | ho
      · have hmin : min Q o.remaining = o.remaining := by omega
        rw [hmin]
        exact List.mem_cons_self
      · exact List.mem_cons_of_mem _ (ih hrest (by omega) ho)
    · rename_i hcond
      rw [List.map_nil, List.sum_nil] at hleft
      exact absurd ⟨hhead, hleft⟩ hcond

/-- **The capacity test counts the makers of the walk.** -/
theorem exceedsLoop_eq {matched : Nat} (hm : matched ≤ maxMatchSlots) :
    exceedsLoop side price Q matched queue =
      decide (maxMatchSlots < matched + (walk side price Q queue).length) := by
  induction queue generalizing Q matched with
  | nil => simpa [exceedsLoop, walk] using hm
  | cons o rest ih =>
    rw [exceedsLoop, walk]
    by_cases hc : side.crosses price o.secret.limitPrice = true ∧ 0 < Q
    · have hneg : ¬ (side.crosses price o.secret.limitPrice = false ∨ Q = 0) := by
        rw [hc.1]
        simp only [Bool.true_eq_false, false_or]
        omega
      rw [if_neg hneg, if_pos hc, List.length_cons]
      split
      · rename_i hlt
        exact (decide_eq_true (by omega)).symm
      · rename_i hge
        rw [ih (by omega)]
        exact decide_eq_decide.mpr (by omega)
    · have hpos : side.crosses price o.secret.limitPrice = false ∨ Q = 0 := by
        rcases Nat.eq_zero_or_pos Q with hz | hz
        · exact Or.inr hz
        · exact Or.inl (Bool.eq_false_iff.mpr fun h => hc ⟨h, hz⟩)
      rw [if_pos hpos, if_neg hc]
      exact (decide_eq_false (by simpa using hm)).symm

end Walk

/-! ## The batch is the reference -/

theorem slotFills_eq_filter (taker : Digest32)
    (pairs : List (PrivateRestingInput × MpcSlotResult)) :
    slotFills taker pairs = (pairs.filter fun pair => pair.2.matched).map fun pair =>
      ⟨pair.1.commitment, taker, pair.2.tradePrice, pair.2.tradeQuantity⟩ := by
  induction pairs with
  | nil => rfl
  | cons pair rest ih =>
    unfold slotFills at ih ⊢
    by_cases hm : pair.2.matched = true <;> simp [hm, ih]

theorem traded_eq_tally (pairs : List (PrivateRestingInput × MpcSlotResult)) (c : Digest32) :
    traded pairs c = tally c ((pairs.filter fun pair => pair.2.matched).map fun pair =>
      (pair.1.commitment, pair.2.tradeQuantity)) := by
  induction pairs with
  | nil => rfl
  | cons pair rest ih =>
    obtain ⟨resting, slot⟩ := pair
    rw [traded, ih]
    by_cases hm : slot.matched = true <;> by_cases hc : resting.commitment = c <;> simp [hm, hc]

section

variable [Crypto]

theorem Inv.crossesFirst (h : self.Inv) (side : Side) (price now : Nat) :
    CrossesFirst side price (self.live side now) :=
  ((h.pairwise_ordered side).sublist List.filter_sublist).imp fun hab hb =>
    crosses_of_precedes hab hb

theorem Inv.side_of_mem_live (h : self.Inv) {side : Side} {o : RestingOrder}
    (ho : o ∈ self.live side now) : o.secret.side = side.opposite :=
  h.side_of_mem (mem_live.mp ho).1

theorem Inv.pos_of_mem_live (h : self.Inv) {side : Side} {o : RestingOrder}
    (ho : o ∈ self.live side now) : 0 < o.remaining :=
  h.pos (mem_levels (mem_live.mp ho).1)

/-- **Capacity.** The test is true exactly when the reference touches more than eight makers. -/
theorem Inv.exceeds_iff (h : self.Inv) (arriving : SecretOrder) (now : Nat) :
    self.exceedsFixedMatchCapacity arriving now = true ↔
      maxMatchSlots < (self.referenceTrades arriving now).length := by
  unfold exceedsFixedMatchCapacity referenceTrades
  rw [exceedsLoop_eq (Nat.zero_le _), decide_eq_true_eq, Nat.zero_add,
    h.live_eq_referenceQueue]

/-- Within capacity the eight slots see every trade of the reference. -/
theorem Inv.walk_take_live (h : self.Inv)
    (hcap : self.exceedsFixedMatchCapacity arriving now = false) :
    walk arriving.side arriving.limitPrice arriving.quantity
      ((self.live arriving.side now).take maxMatchSlots) = self.referenceTrades arriving now := by
  have hle : (self.referenceTrades arriving now).length ≤ maxMatchSlots := by
    by_contra hgt
    rw [(h.exceeds_iff arriving now).mpr (not_le.mp hgt)] at hcap
    exact absurd hcap (by simp)
  rw [walk_take, h.live_eq_referenceQueue]
  exact List.take_of_length_le hle

theorem Inv.filter_slotPairs (h : self.Inv)
    (hcap : self.exceedsFixedMatchCapacity arriving now = false) :
    (self.slotPairs arriving now).filter (fun pair => pair.2.matched) =
      (self.referenceTrades arriving now).map fun trade =>
        (restingInput trade.1, ⟨true, trade.1.secret.limitPrice, trade.2⟩) := by
  rw [← h.walk_take_live hcap]
  exact filter_matched_eq (fun o ho => h.side_of_mem_live (List.mem_of_mem_take ho))
    (fun o ho => h.pos_of_mem_live (List.mem_of_mem_take ho))
    ((h.crossesFirst _ _ now).sublist (List.take_sublist _ _))

theorem Inv.slotFills_eq (h : self.Inv)
    (hcap : self.exceedsFixedMatchCapacity arriving now = false) (taker : Digest32) :
    slotFills taker (self.slotPairs arriving now) = self.referenceFills arriving taker now := by
  rw [slotFills_eq_filter, h.filter_slotPairs hcap, List.map_map]
  rfl

theorem Inv.traded_eq (h : self.Inv)
    (hcap : self.exceedsFixedMatchCapacity arriving now = false) :
    traded (self.slotPairs arriving now) = takenFrom (self.referenceTrades arriving now) := by
  funext c
  rw [traded_eq_tally, h.filter_slotPairs hcap, List.map_map]
  rfl

theorem Inv.arrivingRemaining_eq (h : self.Inv)
    (hcap : self.exceedsFixedMatchCapacity arriving now = false) :
    (expectedBatch (self.batchOf arriving now)).arrivingRemaining =
      if arriving.timeInForce = .goodTilCancelled then self.referenceRemaining arriving now
      else 0 := by
  have hsum := sum_walk (Q := arriving.quantity)
    (fun o ho => h.side_of_mem_live (List.mem_of_mem_take ho))
    ((h.crossesFirst arriving.side arriving.limitPrice now).sublist
      (List.take_sublist maxMatchSlots _))
  rw [h.walk_take_live hcap] at hsum
  unfold expectedBatch referenceRemaining
  simp only [batchOf, matchSlots_snd, decide_eq_true_eq]
  split
  · omega
  · rfl

theorem Inv.afterBatch_eq (h : self.Inv)
    (hcap : self.exceedsFixedMatchCapacity arriving now = false) (authority : OrderAuthority)
    (seq : Nat) :
    self.afterBatch arriving authority seq now = self.referenceBook arriving authority seq now := by
  unfold PrivateBook.afterBatch PrivateBook.restRemainder referenceBook PrivateBook.advance
  rw [h.arrivingRemaining_eq hcap, h.traded_eq hcap]
  by_cases hg : arriving.timeInForce = .goodTilCancelled
  · simp only [hg, if_true, and_true]
    split
    · simp only [admitted_insertRecord]
      rfl
    · rfl
  · simp only [hg, if_false, and_false]
    rfl

/-- **The eight-slot batch is exact price-time matching.** For an order of the book's market the
batch exists, and the capacity test says whether the reference needs more than eight makers. When
it does not, whatever `apply_mpc_batch_result` accepts has the fills and leaves the book of the
reference, and it accepts the expected result of every admissible order. -/
theorem batch_refines_reference (hinv : self.Inv) (hmarket : arriving.marketId = self.marketId)
    (now : Nat) :
    ∃ batch, self.privateMatchBatch arriving now = .ok batch ∧
      (self.exceedsFixedMatchCapacity arriving now = true ↔
        maxMatchSlots < (self.referenceTrades arriving now).length) ∧
      (self.exceedsFixedMatchCapacity arriving now = false → ∀ authority seq,
        (∀ tr book', (applyMpcBatchResult arriving authority seq now (expectedBatch batch)).run
            self = .ok tr book' →
          tr.fills = self.referenceFills arriving authority.commitment now ∧
          book' = self.referenceBook arriving authority seq now) ∧
        (Admits self arriving authority seq now → ∃ tr,
          (applyMpcBatchResult arriving authority seq now (expectedBatch batch)).run self =
            .ok tr (self.referenceBook arriving authority seq now))) := by
  refine ⟨self.batchOf arriving now, privateMatchBatch_eq_ok.mpr ⟨hmarket, rfl⟩,
    hinv.exceeds_iff arriving now, fun hcap authority seq => ⟨fun tr book' hrun => ?_,
    fun hadm => ⟨self.batchTransition arriving authority seq now, ?_⟩⟩⟩
  · obtain ⟨-, -, rfl, rfl⟩ :=
      (applyMpcBatchResult_ok hinv.tidy fun o ho => hinv.pos ho).mp hrun
    exact ⟨hinv.slotFills_eq hcap _, hinv.afterBatch_eq hcap authority seq⟩
  · exact (applyMpcBatchResult_ok hinv.tidy fun o ho => hinv.pos ho).mpr
      ⟨hadm, rfl, (hinv.afterBatch_eq hcap authority seq).symm, rfl⟩

end

section Witness

attribute [local instance] transparentCrypto

/-- A buy takes the rest of the best sell and a part of the next one. -/
theorem batch_refines_reference_sample :
    let next := sampleOrder .sell 101 4 .goodTilCancelled 3 (by decide)
    let book := run (sampleOps ++ [.insertResting next (sampleAuthority next) 3 1000]) sampleBook
    let taker := sampleOrder .buy 105 5 .goodTilCancelled 4 (by decide)
    book.exceedsFixedMatchCapacity taker 1000 = false ∧
    (book.referenceFills taker taker.commitment 1000).map (fun fill =>
      (fill.price, fill.quantity)) = [(100, 2), (101, 3)] ∧
    Admits book taker (sampleAuthority taker) 4 1000 ∧
    ∃ batch, book.privateMatchBatch taker 1000 = .ok batch ∧
      ∃ tr, (applyMpcBatchResult taker (sampleAuthority taker) 4 1000 (expectedBatch batch)).run
        book = .ok tr (book.referenceBook taker (sampleAuthority taker) 4 1000) := by
  intro next book taker
  have hnew : PrivateBook.new "JGB10Y-JPY" = .ok sampleBook := by decide
  have hinv : book.Inv := (inv_new hnew).run _
  have hcap : book.exceedsFixedMatchCapacity taker 1000 = false := by decide +kernel
  have hadm : Admits book taker (sampleAuthority taker) 4 1000 := by decide +kernel
  have hmarket : taker.marketId = book.marketId := by decide +kernel
  obtain ⟨batch, hbatch, -, hrun⟩ := batch_refines_reference hinv hmarket 1000
  exact ⟨hcap, by decide +kernel, hadm, batch, hbatch, (hrun hcap _ 4).2 hadm⟩

end Witness

end PrivateBook

end Oclob.Core
