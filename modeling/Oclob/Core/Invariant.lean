import Oclob.Core.Mutators

/-!
# The representation invariant of the private book

`PrivateBook.Inv` collects what the code relies on about a book: no empty queue, every resting
order under its own side and price, good-til-cancelled, of the book's market, with a positive
remainder; queues in certificate order; commitments distinct, equal to the commitment of the
stored order, and admitted.

Three facts carry it through every mutator: an edit that only lowers remainders keeps it
(`Inv.editOrders`), a fresh record appended to its queue keeps it (`Inv.insertRecord`), recording
a command keeps it (`Inv.advance`). `Inv.apply` is the step, `Inv.run` the run; failing calls are
steps too, with whatever they leave behind.
-/

namespace Oclob.Core

open Oclob.Lib OrdMap PrivateBook

namespace PrivateBook

section

variable [Crypto]

/-- The representation invariant. -/
structure Inv (book : PrivateBook) : Prop where
  noEmpty : ∀ side, (book.levels side).NoEmpty
  placed : ∀ side, ∀ e ∈ (book.levels side).entries, ∀ o ∈ e.2,
    o.secret.side = side ∧ o.secret.limitPrice = e.1
  gtc : ∀ o ∈ book.orders, o.secret.timeInForce = .goodTilCancelled
  market : ∀ o ∈ book.orders, o.secret.marketId = book.marketId
  remaining : ∀ o ∈ book.orders, 0 < o.remaining ∧ o.remaining ≤ o.secret.quantity
  fifo : ∀ side, ∀ e ∈ (book.levels side).entries,
    e.2.Pairwise fun a b => a.sequence < b.sequence
  sequence_le : ∀ o ∈ book.orders, o.sequence ≤ book.sequence
  distinct : (book.orders.map RestingOrder.commitment).Nodup
  committed : ∀ o ∈ book.orders, o.commitment = o.secret.commitment
  admitted : ∀ o ∈ book.orders, o.commitment ∈ book.admitted

variable {self : PrivateBook} {f : RestingOrder → Option RestingOrder}

theorem Inv.tidy (h : self.Inv) : self.Tidy := ⟨h.noEmpty .buy, h.noEmpty .sell, h.distinct⟩

variable {o : RestingOrder} {authority : OrderAuthority} {seq now : Nat}

theorem Inv.pos (h : self.Inv) (ho : o ∈ self.orders) : 0 < o.remaining :=
  (h.remaining o ho).1

theorem Inv.side_of_mem (h : self.Inv) {side : Side}
    (ho : o ∈ (self.levels side).items) : o.secret.side = side := by
  obtain ⟨e, he, hoe⟩ := mem_items.mp ho
  exact (h.placed side e he o hoe).1

theorem inv_new {marketId : String} {book : PrivateBook} (h : new marketId = .ok book) :
    book.Inv := by
  unfold new at h
  split at h
  · obtain rfl := Except.ok.inj h
    have hlevels : ∀ side, (levels ⟨marketId, 0, .empty, .empty, ∅⟩ side).entries = [] := by
      intro side
      cases side <;> rfl
    constructor <;> simp [hlevels, orders, NoEmpty]
  · exact absurd h (by simp)

/-! ## What keeps it -/

/-- The edit of an order: removed, or its remainder lowered but not to zero. -/
def Shrinks (f : RestingOrder → Option RestingOrder) (o : RestingOrder) : Prop :=
  ∀ o', f o = some o' → ∃ r, o' = { o with remaining := r } ∧ 0 < r ∧ r ≤ o.remaining

omit [Crypto] in
theorem levels_editOrders (side : Side) :
    (self.editOrders f).levels side = (self.levels side).editItems f := by
  cases side <;> rfl

theorem Inv.editOrders (h : self.Inv) (hf : ∀ o ∈ self.orders, Shrinks f o) :
    (self.editOrders f).Inv := by
  -- every order of the edited book comes from one that differs in its remainder alone
  have hfrom : ∀ o' ∈ (self.editOrders f).orders, ∃ o ∈ self.orders, ∃ r,
      o' = { o with remaining := r } ∧ 0 < r ∧ r ≤ o.remaining := fun o' ho' => by
    rw [orders_editOrders] at ho'
    obtain ⟨o, ho, hfo⟩ := List.mem_filterMap.mp ho'
    exact ⟨o, ho, hf o ho o' hfo⟩
  have hqueue : ∀ side, ∀ e ∈ ((self.editOrders f).levels side).entries,
      ∃ e₀ ∈ (self.levels side).entries, e.1 = e₀.1 ∧ e.2 = e₀.2.filterMap f := fun side e he => by
    rw [levels_editOrders] at he
    obtain ⟨e₀, he₀, hk, hq, -⟩ := mem_entries_editItems.mp he
    exact ⟨e₀, he₀, hk, hq⟩
  have hmem : ∀ {side e o}, e ∈ (self.levels side).entries → o ∈ e.2 → o ∈ self.orders :=
    fun he ho => mem_levels (mem_items.mpr ⟨_, he, ho⟩)
  refine ⟨fun side => ?_, fun side e he o' ho' => ?_, fun o' ho' => ?_, fun o' ho' => ?_,
    fun o' ho' => ?_, fun side e he => ?_, fun o' ho' => ?_, ?_, fun o' ho' => ?_,
    fun o' ho' => ?_⟩
  · rw [levels_editOrders]
    exact noEmpty_editItems f _
  · obtain ⟨e₀, he₀, hk, hq⟩ := hqueue side e he
    rw [hq] at ho'
    obtain ⟨o, ho, hfo⟩ := List.mem_filterMap.mp ho'
    obtain ⟨r, rfl, -, -⟩ := hf o (hmem he₀ ho) o' hfo
    rw [hk]
    exact h.placed side e₀ he₀ o ho
  · obtain ⟨o, ho, r, rfl, -, -⟩ := hfrom o' ho'
    exact h.gtc o ho
  · obtain ⟨o, ho, r, rfl, -, -⟩ := hfrom o' ho'
    exact h.market o ho
  · obtain ⟨o, ho, r, rfl, hpos, hle⟩ := hfrom o' ho'
    exact ⟨hpos, hle.trans (h.remaining o ho).2⟩
  · obtain ⟨e₀, he₀, -, hq⟩ := hqueue side e he
    rw [hq, List.pairwise_filterMap]
    refine (h.fifo side e₀ he₀).imp_of_mem fun {a b} ha hb hab a' ha' b' hb' => ?_
    obtain ⟨ra, rfl, -, -⟩ := hf a (hmem he₀ ha) a' ha'
    obtain ⟨rb, rfl, -, -⟩ := hf b (hmem he₀ hb) b' hb'
    exact hab
  · obtain ⟨o, ho, r, rfl, -, -⟩ := hfrom o' ho'
    exact h.sequence_le o ho
  · rw [orders_editOrders]
    refine h.distinct.sublist (map_commitment_filterMap_sublist fun o ho o' hfo => ?_)
    obtain ⟨r, rfl, -, -⟩ := hf o ho o' hfo
    rfl
  · obtain ⟨o, ho, r, rfl, -, -⟩ := hfrom o' ho'
    exact h.committed o ho
  · obtain ⟨o, ho, r, rfl, -, -⟩ := hfrom o' ho'
    exact h.admitted o ho

/-- Recording a command. -/
theorem Inv.advance (h : self.Inv) (c : Digest32) :
    (self.advance c (self.sequence + 1)).Inv where
  noEmpty := fun side => by cases side; exacts [h.noEmpty .buy, h.noEmpty .sell]
  placed := fun side => by cases side; exacts [h.placed .buy, h.placed .sell]
  gtc := h.gtc
  market := h.market
  remaining := h.remaining
  fifo := fun side => by cases side; exacts [h.fifo .buy, h.fifo .sell]
  sequence_le := fun o ho => (h.sequence_le o ho).trans (Nat.le_succ _)
  distinct := h.distinct
  committed := h.committed
  admitted := fun o ho => Finset.mem_insert_of_mem (h.admitted o ho)

section

omit [Crypto]

theorem levels_insertRecord (record : RestingOrder) (side : Side) :
    (self.insertRecord record).levels side =
      if side = record.secret.side then
        (self.levels side).pushBack record.secret.limitPrice record
      else self.levels side := by
  unfold insertRecord
  cases hs : record.secret.side <;> cases side <;> rfl

theorem orders_insertRecord (record : RestingOrder) :
    (self.insertRecord record).orders.Perm (record :: self.orders) := by
  unfold insertRecord orders
  cases record.secret.side with
  | buy => exact (items_pushBack self.bids _ record).append_right _
  | sell =>
    exact ((items_pushBack self.asks _ record).append_left _).trans List.perm_middle

theorem mem_orders_insertRecord {record : RestingOrder} :
    o ∈ (self.insertRecord record).orders ↔ o = record ∨ o ∈ self.orders := by
  rw [(orders_insertRecord record).mem_iff, List.mem_cons]

@[simp] theorem marketId_insertRecord (record : RestingOrder) :
    (self.insertRecord record).marketId = self.marketId := by
  unfold insertRecord
  cases record.secret.side <;> rfl

@[simp] theorem admitted_insertRecord (record : RestingOrder) :
    (self.insertRecord record).admitted = self.admitted := by
  unfold insertRecord
  cases record.secret.side <;> rfl

end

/-- Appending the record of an admissible order and recording its commitment. -/
theorem Inv.insertRecord (h : self.Inv) {order : SecretOrder}
    {r : Nat} (hadm : Admits self order authority seq now)
    (hgtc : order.timeInForce = .goodTilCancelled) (hpos : 0 < r) (hle : r ≤ order.quantity) :
    ((self.insertRecord ⟨order, authority, r, seq⟩).advance authority.commitment seq).Inv := by
  set record : RestingOrder := ⟨order, authority, r, seq⟩ with hrecord
  set book := (self.insertRecord record).advance authority.commitment seq with hbook
  have hnext : self.sequence < seq := hadm.next ▸ Nat.lt_succ_self _
  have horders : ∀ {o}, o ∈ book.orders ↔ o = record ∨ o ∈ self.orders :=
    mem_orders_insertRecord
  have hlevels : ∀ side, book.levels side = if side = order.side then
      (self.levels side).pushBack order.limitPrice record else self.levels side := fun side => by
    rw [← levels_insertRecord record side]
    cases side <;> rfl
  -- an entry of the new book: the grown queue, or an entry from before
  have hentry : ∀ side, ∀ e ∈ (book.levels side).entries,
      (side = order.side ∧
        e = (order.limitPrice, ((self.levels side).get? order.limitPrice).getD [] ++ [record])) ∨
      e ∈ (self.levels side).entries := fun side e he => by
    rw [hlevels] at he
    split at he
    · rename_i hs
      exact (mem_entries_pushBack he).imp_left fun heq => ⟨hs, heq⟩
    · exact Or.inr he
  have hold : ∀ side, ∀ o ∈ ((self.levels side).get? order.limitPrice).getD [],
      ∃ e ∈ (self.levels side).entries, e.1 = order.limitPrice ∧ o ∈ e.2 := fun side o ho => by
    cases hq : (self.levels side).get? order.limitPrice with
    | none =>
      rw [hq] at ho
      exact absurd ho List.not_mem_nil
    | some q =>
      rw [hq] at ho
      exact ⟨(order.limitPrice, q), mem_entries_iff.mpr hq, rfl, ho⟩
  refine ⟨fun side => ?_, fun side e he o ho => ?_, fun o ho => ?_, fun o ho => ?_,
    fun o ho => ?_, fun side e he => ?_, fun o ho => ?_, ?_, fun o ho => ?_, fun o ho => ?_⟩
  · rw [hlevels]
    split
    · exact (h.noEmpty side).pushBack _ _
    · exact h.noEmpty side
  · rcases hentry side e he with ⟨hs, rfl⟩ | he
    · rcases List.mem_append.mp ho with ho | ho
      · obtain ⟨e₀, he₀, hk, hoe⟩ := hold side o ho
        rw [← hk]
        exact h.placed side e₀ he₀ o hoe
      · rw [List.mem_singleton.mp ho]
        exact ⟨hs.symm, rfl⟩
    · exact h.placed side e he o ho
  · rcases horders.mp ho with rfl | ho
    · exact hgtc
    · exact h.gtc o ho
  · have hm : book.marketId = self.marketId := marketId_insertRecord record
    rw [hm]
    rcases horders.mp ho with rfl | ho
    · exact hadm.market
    · exact h.market o ho
  · rcases horders.mp ho with rfl | ho
    · exact ⟨hpos, hle⟩
    · exact h.remaining o ho
  · rcases hentry side e he with ⟨-, rfl⟩ | he
    · rw [List.pairwise_append]
      refine ⟨?_, List.pairwise_singleton _ _, fun a ha b hb => ?_⟩
      · cases hq : (self.levels side).get? order.limitPrice with
        | none => exact List.Pairwise.nil
        | some q => exact h.fifo side (order.limitPrice, q) (mem_entries_iff.mpr hq)
      · obtain ⟨e₀, he₀, -, hae⟩ := hold side a ha
        rw [List.mem_singleton.mp hb]
        have hseq := h.sequence_le a (mem_levels (mem_items.mpr ⟨e₀, he₀, hae⟩))
        exact lt_of_le_of_lt hseq hnext
    · exact h.fifo side e he
  · rcases horders.mp ho with rfl | ho
    · exact le_rfl
    · exact (h.sequence_le o ho).trans hnext.le
  · have hperm : (book.orders.map RestingOrder.commitment).Perm
        (authority.commitment :: self.orders.map RestingOrder.commitment) :=
      (orders_insertRecord record).map _
    refine hperm.nodup_iff.mpr (List.nodup_cons.mpr ⟨fun hmem => ?_, h.distinct⟩)
    obtain ⟨o, ho, heq⟩ := List.mem_map.mp hmem
    exact hadm.fresh (heq ▸ h.admitted o ho)
  · rcases horders.mp ho with rfl | ho
    · exact hadm.commitment_eq
    · exact h.committed o ho
  · have hadmitted : book.admitted = insert authority.commitment self.admitted := by
      rw [hbook, PrivateBook.advance, admitted_insertRecord]
    rw [hadmitted]
    rcases horders.mp ho with rfl | ho
    · exact Finset.mem_insert_self _ _
    · exact Finset.mem_insert_of_mem (h.admitted o ho)

/-! ## Steps and runs -/

/-- A call of one of the five mutators. -/
inductive BookOp where
  | insertResting (order : SecretOrder) (authority : OrderAuthority) (seq now : Nat)
  | applyMpcResult (arriving : SecretOrder) (authority : OrderAuthority) (seq now : Nat)
      (result : MpcMatchResult)
  | applyMpcBatchResult (arriving : SecretOrder) (authority : OrderAuthority) (seq now : Nat)
      (result : MpcBatchResult)
  | applyCancellation (cancellation : SecretCancellation) (seq : Nat)
  | applyExpiry (cutoff : Nat) (command : Digest32) (seq : Nat)

/-- The book after a call, successful or not. -/
def BookOp.apply (op : BookOp) (self : PrivateBook) : PrivateBook :=
  match op with
  | .insertResting order authority seq now =>
    after ((PrivateBook.insertResting order authority seq now).run self)
  | .applyMpcResult arriving authority seq now result =>
    after ((PrivateBook.applyMpcResult arriving authority seq now result).run self)
  | .applyMpcBatchResult arriving authority seq now result =>
    after ((PrivateBook.applyMpcBatchResult arriving authority seq now result).run self)
  | .applyCancellation cancellation seq =>
    after ((PrivateBook.applyCancellation cancellation seq).run self)
  | .applyExpiry cutoff command seq =>
    after ((PrivateBook.applyExpiry cutoff command seq).run self)

/-- The book after a sequence of calls. -/
def run (ops : List BookOp) (self : PrivateBook) : PrivateBook :=
  ops.foldl (fun book op => op.apply book) self

omit [Crypto] in
theorem shrinks_reduceBy {amount : Digest32 → Nat} (o : RestingOrder) :
    Shrinks (reduceBy amount) o := by
  intro o' h
  unfold reduceBy setRemaining at h
  split at h
  · exact absurd h (by simp)
  · rename_i hz
    obtain rfl := Option.some.inj h
    exact ⟨_, rfl, Nat.pos_of_ne_zero hz, Nat.sub_le _ _⟩

theorem Inv.shrinks_dropOrders (h : self.Inv) (cs : List Digest32)
    (ho : o ∈ self.orders) : Shrinks (dropOrders cs) o := by
  intro o' hd
  unfold dropOrders at hd
  split at hd
  · exact absurd hd (by simp)
  · obtain rfl := Option.some.inj hd
    exact ⟨o.remaining, rfl, h.pos ho, le_rfl⟩

omit [Crypto] in
theorem mem_of_bestOpposite {side : Side} {best : RestingOrder}
    (h : self.bestOpposite side = some best) : best ∈ self.orders := by
  obtain ⟨price, queue, -, hget⟩ := bestOpposite_eq_some h
  exact mem_levels (mem_levels_of_get? hget List.mem_cons_self)

theorem Inv.shrinks_resultEdit (h : self.Inv) (arriving : SecretOrder)
    (ho : o ∈ self.orders) : Shrinks (self.resultEdit arriving) o := by
  intro o' hr
  have hkeep : some o = some o' → ∃ r, o' = { o with remaining := r } ∧ 0 < r ∧ r ≤ o.remaining :=
    fun heq => by
      obtain rfl := Option.some.inj heq
      exact ⟨o.remaining, rfl, h.pos ho, le_rfl⟩
  unfold resultEdit at hr
  split at hr
  · exact hkeep hr
  · rename_i best hbest
    split at hr
    · unfold editKey at hr
      split at hr
      · rename_i hc
        obtain rfl := h.tidy.eq_of_commitment ho (mem_of_bestOpposite hbest) hc
        unfold setRemaining at hr
        split at hr
        · exact absurd hr (by simp)
        · rename_i hz
          obtain rfl := Option.some.inj hr
          exact ⟨_, rfl, Nat.pos_of_ne_zero hz, Nat.sub_le _ _⟩
      · exact hkeep hr
    · exact hkeep hr

/-- Resting the remainder of an admissible order after an edit of the resting orders. -/
theorem Inv.restRemainder (h : self.Inv) (hf : ∀ o ∈ self.orders, Shrinks f o)
    {arriving : SecretOrder} {r : Nat}
    (hadm : Admits self arriving authority seq now) (hle : r ≤ arriving.quantity) :
    ((self.editOrders f).restRemainder arriving authority seq r).Inv := by
  have hedit := h.editOrders hf
  unfold PrivateBook.restRemainder
  split
  · rename_i hrest
    exact hedit.insertRecord ⟨hadm.verified, hadm.market, hadm.fresh, hadm.next⟩ hrest.2 hrest.1
      hle
  · rw [hadm.next]
    exact hedit.advance authority.commitment

omit [Crypto] in
theorem arrivingRemaining_le (arriving : SecretOrder) (now : Nat) :
    (expectedBatch (self.batchOf arriving now)).arrivingRemaining ≤ arriving.quantity := by
  unfold expectedBatch
  simp only [batchOf, matchSlots_snd]
  split
  · exact Nat.sub_le _ _
  · exact Nat.zero_le _

omit [Crypto] in
theorem expectedResult_arrivingRemaining_le (arriving : SecretOrder) :
    (self.expectedResult arriving).arrivingRemaining ≤ arriving.quantity := by
  unfold expectedResult
  split
  · exact le_rfl
  · exact Nat.sub_le _ _

theorem Inv.afterBatch (h : self.Inv) {arriving : SecretOrder}
    (hadm : Admits self arriving authority seq now) :
    (self.afterBatch arriving authority seq now).Inv :=
  h.restRemainder (fun o _ => shrinks_reduceBy o) hadm (arrivingRemaining_le arriving now)

/-- **One call keeps the invariant**, whether it succeeds or not. -/
theorem Inv.apply (h : self.Inv) (op : BookOp) : (op.apply self).Inv := by
  cases op with
  | insertResting order authority seq now =>
    rw [BookOp.apply]
    cases hrun : (insertResting order authority seq now).run self with
    | ok u book =>
      obtain ⟨hadm, hgtc, rfl⟩ := insertResting_ok hrun
      exact h.insertRecord hadm hgtc order.quantity_pos le_rfl
    | error e book =>
      rw [after_error, insertResting_error hrun]
      exact h
  | applyMpcResult arriving authority seq now result =>
    rw [BookOp.apply]
    cases hrun : (applyMpcResult arriving authority seq now result).run self with
    | ok tr book =>
      obtain ⟨hadm, rfl, rfl⟩ := applyMpcResult_ok h.tidy hrun
      exact h.restRemainder (fun o ho => h.shrinks_resultEdit arriving ho) hadm
        (expectedResult_arrivingRemaining_le arriving)
    | error e book =>
      rw [after_error, applyMpcResult_error hrun]
      exact h
  | applyMpcBatchResult arriving authority seq now result =>
    rw [BookOp.apply]
    cases hrun : (applyMpcBatchResult arriving authority seq now result).run self with
    | ok tr book =>
      obtain ⟨hadm, -, rfl, -⟩ := (applyMpcBatchResult_ok h.tidy fun o ho => h.pos ho).mp hrun
      exact h.afterBatch hadm
    | error e book =>
      rw [after_error, applyMpcBatchResult_error h.tidy (fun o ho => h.pos ho) hrun]
      exact h
  | applyCancellation cancellation seq =>
    rw [BookOp.apply]
    cases hrun : (applyCancellation cancellation seq).run self with
    | ok tr book =>
      obtain ⟨target, hc, rfl, -, -⟩ := applyCancellation_ok h.tidy hrun
      rw [after_ok, hc.next]
      exact (h.editOrders fun o ho => h.shrinks_dropOrders _ ho).advance cancellation.commitment
    | error e book =>
      rw [after_error, applyCancellation_error hrun]
      exact h
  | applyExpiry cutoff command seq =>
    rw [BookOp.apply]
    cases hrun : (applyExpiry cutoff command seq).run self with
    | ok tr book =>
      obtain ⟨hx, -, rfl, -, -⟩ := applyExpiry_ok h.tidy hrun
      rw [after_ok, hx.next]
      exact (h.editOrders fun o ho => h.shrinks_dropOrders _ ho).advance command
    | error e book =>
      rcases applyExpiry_error h.tidy hrun with rfl | ⟨-, -, done, -, rfl⟩
      · exact h
      · exact h.editOrders fun o ho => h.shrinks_dropOrders _ ho

theorem Inv.run (h : self.Inv) (ops : List BookOp) : (run ops self).Inv := by
  induction ops generalizing self with
  | nil => exact h
  | cons op ops ih => exact ih (h.apply op)

/-- **The representation invariant holds in every state a run reaches** from a new book. -/
theorem representation_invariant {marketId : String} {book : PrivateBook}
    (hnew : new marketId = .ok book) (ops : List BookOp) :
    (run ops book).Inv :=
  (inv_new hnew).run ops

end

section Witness

attribute [local instance] transparentCrypto

/-- A new book of the sample market. -/
def sampleBook : PrivateBook := ⟨"JGB10Y-JPY", 0, .empty, .empty, ∅⟩

/-- A resting sell of 5 and a buy of 3 that trades with it. -/
def sampleOps : List BookOp :=
  let maker := sampleOrder .sell 100 5 .goodTilCancelled 1 fits_100_5
  let taker := sampleOrder .buy 101 3 .goodTilCancelled 2 fits_101_3
  [.insertResting maker (sampleAuthority maker) 1 1000,
    .applyMpcResult taker (sampleAuthority taker) 2 1000 ⟨true, 100, 3, 2, 0⟩]

theorem representation_invariant_sample :
    PrivateBook.new "JGB10Y-JPY" = .ok sampleBook ∧
    (PrivateBook.run sampleOps sampleBook).orders.map RestingOrder.remaining = [2] ∧
    (PrivateBook.run sampleOps sampleBook).Inv :=
  have hnew : PrivateBook.new "JGB10Y-JPY" = .ok sampleBook := by decide
  ⟨hnew, by decide +kernel, representation_invariant hnew sampleOps⟩

end Witness

end PrivateBook

end Oclob.Core
