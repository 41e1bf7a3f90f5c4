import Oclob.Core.Reference

/-!
# The live book is never crossed

`Uncrossed book now`: no bid and ask that are both unexpired at `now` overlap in price. Runs are
those of the service: `apply_mpc_batch_result` at a clock that does not go back and only when the
capacity test is false, `apply_cancellation` and `apply_expiry` at any time, failing calls
included.

The one step that could cross the book is resting a remainder. Something is left of the arriving
order only after the walk has taken every live crossing order in full (`mem_walk_of_lt`), and the
capacity test guarantees that the eight slots saw the whole walk; so nothing live on the other
side crosses the new order (`Inv.uncrossed_afterBatch`). Expired makers are skipped by the walk,
and they never become live again.
-/

namespace Oclob.Core

open Oclob.Lib OrdMap PrivateBook

namespace PrivateBook

/-- No bid and ask that are unexpired at `now` overlap. -/
def Uncrossed (self : PrivateBook) (now : Nat) : Prop :=
  ∀ bid ∈ self.bids.items, ∀ ask ∈ self.asks.items,
    now ≤ bid.secret.expiresAt → now ≤ ask.secret.expiresAt →
    bid.secret.limitPrice < ask.secret.limitPrice

variable {self : PrivateBook} {now now' : Nat} {f : RestingOrder → Option RestingOrder}

theorem Uncrossed.mono (h : self.Uncrossed now) (hnow : now ≤ now') : self.Uncrossed now' :=
  fun bid hbid ask hask h1 h2 => h bid hbid ask hask (hnow.trans h1) (hnow.trans h2)

/-- An order of an edited book, traced back. -/
theorem mem_editItems {m : Levels} (hf : ∀ o ∈ m.items, Shrinks f o) {o' : RestingOrder}
    (h : o' ∈ (m.editItems f).items) :
    ∃ o ∈ m.items, f o = some o' ∧ o'.secret = o.secret ∧ o'.commitment = o.commitment := by
  rw [items_editItems] at h
  obtain ⟨o, ho, hfo⟩ := List.mem_filterMap.mp h
  obtain ⟨r, rfl, -, -⟩ := hf o ho o' hfo
  exact ⟨o, ho, hfo, rfl, rfl⟩

theorem Uncrossed.editOrders (h : self.Uncrossed now) (hf : ∀ o ∈ self.orders, Shrinks f o) :
    (self.editOrders f).Uncrossed now := by
  intro bid hbid ask hask h1 h2
  obtain ⟨b, hb, -, hbs, -⟩ :=
    mem_editItems (fun o ho => hf o (List.mem_append_left _ ho)) hbid
  obtain ⟨a, ha, -, has, -⟩ :=
    mem_editItems (fun o ho => hf o (List.mem_append_right _ ho)) hask
  rw [hbs] at h1 ⊢
  rw [has] at h2 ⊢
  exact h b hb a ha h1 h2

/-- A record that no live order of the other side crosses may rest. -/
theorem Uncrossed.insertRecord (h : self.Uncrossed now) {record : RestingOrder}
    (hclear : ∀ o ∈ (self.levels record.secret.side.opposite).items, now ≤ o.secret.expiresAt →
      record.secret.side.crosses record.secret.limitPrice o.secret.limitPrice = false) :
    (self.insertRecord record).Uncrossed now := by
  intro bid hbid ask hask h1 h2
  unfold PrivateBook.insertRecord at hbid hask
  cases hs : record.secret.side with
  | buy =>
    rw [hs] at hbid hask hclear
    rcases mem_items_pushBack.mp hbid with rfl | hbid
    · simpa [Side.crosses] using hclear ask hask h2
    · exact h bid hbid ask hask h1 h2
  | sell =>
    rw [hs] at hbid hask hclear
    rcases mem_items_pushBack.mp hask with rfl | hask
    · simpa [Side.crosses] using hclear bid hbid h1
    · exact h bid hbid ask hask h1 h2

theorem Uncrossed.advance (h : self.Uncrossed now) (c : Digest32) (seq : Nat) :
    (self.advance c seq).Uncrossed now := h

section

variable [Crypto]

/-- **A batch leaves the live book uncrossed.** -/
theorem Inv.uncrossed_afterBatch (hinv : self.Inv) (h : self.Uncrossed now)
    {arriving : SecretOrder}
    (hcap : self.exceedsFixedMatchCapacity arriving now = false) (authority : OrderAuthority)
    (seq : Nat) : (self.afterBatch arriving authority seq now).Uncrossed now := by
  have hedit : ∀ o ∈ self.orders,
      Shrinks (reduceBy (takenFrom (self.referenceTrades arriving now))) o :=
    fun o _ => shrinks_reduceBy o
  have hreduced := h.editOrders hedit
  unfold PrivateBook.afterBatch PrivateBook.restRemainder
  rw [hinv.traded_eq hcap, hinv.arrivingRemaining_eq hcap]
  refine Uncrossed.advance ?_ _ _
  by_cases hgtc : arriving.timeInForce = .goodTilCancelled
  swap
  · rw [if_neg fun hrest => hgtc hrest.2]
    exact hreduced
  rw [if_pos hgtc]
  split
  · rename_i hrest
    refine hreduced.insertRecord fun o' ho' hlive => ?_
    rw [levels_editOrders] at ho'
    obtain ⟨o, ho, hfo, hsecret, -⟩ :=
      mem_editItems (fun o ho => hedit o (mem_levels ho)) ho'
    rw [hsecret] at hlive ⊢
    -- a crossing order would have been taken in full, and then it would be gone
    by_contra hcross
    have hmem : o ∈ self.referenceQueue arriving.side now := by
      rw [← hinv.live_eq_referenceQueue]
      exact mem_live.mpr ⟨ho, hlive⟩
    have hfirst : CrossesFirst arriving.side arriving.limitPrice
        (self.referenceQueue arriving.side now) := by
      rw [← hinv.live_eq_referenceQueue]
      exact hinv.crossesFirst _ _ now
    have hleft : ((self.referenceTrades arriving now).map Prod.snd).sum < arriving.quantity := by
      have hpos := hrest.1
      unfold referenceRemaining at hpos
      omega
    have htraded := mem_walk_of_lt hfirst hleft hmem (Bool.eq_true_of_not_eq_false hcross)
    have hle : o.remaining ≤ takenFrom (self.referenceTrades arriving now) o.commitment :=
      le_tally (List.mem_map.mpr ⟨(o, o.remaining), htraded, rfl⟩)
    rw [reduceBy, setRemaining, if_pos (by omega)] at hfo
    exact absurd hfo (by simp)
  · exact hreduced

/-! ## Runs -/

/-- A book and the latest clock value it has seen. -/
structure LiveState where
  book : PrivateBook
  now : Nat

/-- A call of the service's three mutators; the clock does not go back, and a batch is applied
only when the capacity test at its clock is false. -/
inductive LiveStep : LiveState → LiveState → Prop
  | applyMpcBatchResult {s : LiveState} {now : Nat} (hnow : s.now ≤ now) (arriving : SecretOrder)
      (authority : OrderAuthority) (seq : Nat) (result : MpcBatchResult)
      (hcap : s.book.exceedsFixedMatchCapacity arriving now = false) :
      LiveStep s ⟨after ((applyMpcBatchResult arriving authority seq now result).run
        s.book), now⟩
  | applyCancellation {s : LiveState} {now : Nat} (hnow : s.now ≤ now)
      (cancellation : SecretCancellation) (seq : Nat) :
      LiveStep s ⟨after ((applyCancellation cancellation seq).run s.book), now⟩
  | applyExpiry {s : LiveState} {now : Nat} (hnow : s.now ≤ now) (cutoff : Nat)
      (command : Digest32) (seq : Nat) :
      LiveStep s ⟨after ((applyExpiry cutoff command seq).run s.book), now⟩

/-- What a live step keeps: the representation invariant and the uncrossed book. -/
theorem LiveStep.keeps {s s' : LiveState} (step : LiveStep s s') (hinv : s.book.Inv)
    (h : s.book.Uncrossed s.now) : s'.book.Inv ∧ s'.book.Uncrossed s'.now := by
  cases step with
  | @applyMpcBatchResult now hnow arriving authority seq result hcap =>
    refine ⟨hinv.apply (.applyMpcBatchResult arriving authority seq now result), ?_⟩
    have h' := h.mono hnow
    cases hrun : (PrivateBook.applyMpcBatchResult arriving authority seq now result).run
        s.book with
    | ok tr book =>
      obtain ⟨-, -, rfl, -⟩ :=
        (applyMpcBatchResult_ok hinv.tidy fun o ho => hinv.pos ho).mp hrun
      exact hinv.uncrossed_afterBatch h' hcap authority seq
    | error e book =>
      rw [applyMpcBatchResult_error hinv.tidy (fun o ho => hinv.pos ho) hrun]
      exact h'
  | @applyCancellation now hnow cancellation seq =>
    refine ⟨hinv.apply (.applyCancellation cancellation seq), ?_⟩
    have h' := h.mono hnow
    cases hrun : (PrivateBook.applyCancellation cancellation seq).run s.book with
    | ok tr book =>
      obtain ⟨target, -, rfl, -, -⟩ := applyCancellation_ok hinv.tidy hrun
      exact (h'.editOrders fun o ho => hinv.shrinks_dropOrders _ ho).advance _ _
    | error e book =>
      rw [applyCancellation_error hrun]
      exact h'
  | @applyExpiry now hnow cutoff command seq =>
    refine ⟨hinv.apply (.applyExpiry cutoff command seq), ?_⟩
    have h' := h.mono hnow
    cases hrun : (PrivateBook.applyExpiry cutoff command seq).run s.book with
    | ok tr book =>
      obtain ⟨-, -, rfl, -, -⟩ := applyExpiry_ok hinv.tidy hrun
      exact (h'.editOrders fun o ho => hinv.shrinks_dropOrders _ ho).advance _ _
    | error e book =>
      rcases applyExpiry_error hinv.tidy hrun with rfl | ⟨-, -, done, -, rfl⟩
      · exact h'
      · exact h'.editOrders fun o ho => hinv.shrinks_dropOrders _ ho

/-- **The live book is never crossed**: in every state a run of the service's mutators reaches
from a new book, no bid and ask unexpired at the latest clock value overlap. -/
theorem live_book_uncrossed {marketId : String} {book : PrivateBook}
    (hnew : new marketId = .ok book) {start : Nat} {s : LiveState}
    (hrun : Relation.ReflTransGen LiveStep ⟨book, start⟩ s) : s.book.Uncrossed s.now := by
  have hempty : book.Uncrossed start := by
    unfold new at hnew
    split at hnew
    · obtain rfl := Except.ok.inj hnew
      exact fun bid hbid => absurd hbid List.not_mem_nil
    · exact absurd hnew (by simp)
  suffices hboth : s.book.Inv ∧ s.book.Uncrossed s.now from hboth.2
  induction hrun with
  | refl => exact ⟨inv_new hnew, hempty⟩
  | tail _ step ih => exact step.keeps ih.1 ih.2

end

section Witness

attribute [local instance] transparentCrypto

/-- A sell rests, and a buy that takes it in full rests its remainder. -/
theorem live_book_uncrossed_sample :
    let maker := sampleOrder .sell 100 5 .goodTilCancelled 1 fits_100_5
    let taker := sampleOrder .buy 101 8 .goodTilCancelled 2 fits_101_8
    let first : LiveState := ⟨after ((applyMpcBatchResult maker (sampleAuthority maker) 1 1000
      ⟨[], 5, some [⟨.sell, 100, 5⟩]⟩).run sampleBook), 1000⟩
    let second : LiveState := ⟨after ((applyMpcBatchResult taker (sampleAuthority taker) 2 1001
      ⟨[⟨true, 100, 5⟩], 3, some [⟨.buy, 101, 3⟩]⟩).run first.book), 1001⟩
    first.book.orders.map RestingOrder.remaining = [5] ∧
    second.book.orders.map RestingOrder.remaining = [3] ∧ second.book.Uncrossed second.now := by
  intro maker taker first second
  have hnew : new "JGB10Y-JPY" = .ok sampleBook := by decide
  have hfirst : LiveStep ⟨sampleBook, 0⟩ first :=
    .applyMpcBatchResult (Nat.zero_le _) maker (sampleAuthority maker) 1 _ (by decide +kernel)
  have hsecond : LiveStep first second :=
    .applyMpcBatchResult (Nat.le_succ _) taker (sampleAuthority taker) 2 _ (by decide +kernel)
  exact ⟨by decide +kernel, by decide +kernel,
    live_book_uncrossed hnew ((Relation.ReflTransGen.single hfirst).tail hsecond)⟩

end Witness

end PrivateBook

end Oclob.Core
