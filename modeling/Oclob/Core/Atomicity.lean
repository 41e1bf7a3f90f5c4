import Oclob.Core.Invariant

/-!
# Failing calls of the book

A mutator of `PrivateBook` that returns an error should leave the market, the sequence, both sides
and the admitted commitments as they were. Four of the five do: they check everything before the
first edit, or the edits that follow a check cannot fail on a book that a run reaches.

`apply_expiry` does not. It adds up the released quantity inside the loop that removes the orders,
so a total that leaves `u64` is found after the first removal. `failing_call_keeps_book_iff` says
that this is the only case, and that in it the book has always changed: the first order of the
pass fits in `u64` by itself, so it is gone before a sum can overflow.
-/

namespace Oclob.Core

open Oclob.Lib

namespace PrivateBook

section

variable [Crypto] {self : PrivateBook}

/-- The call returns an error. -/
def BookOp.fails (op : BookOp) (self : PrivateBook) : Bool :=
  match op with
  | .insertResting order authority seq now =>
    !succeeds ((PrivateBook.insertResting order authority seq now).run self)
  | .applyMpcResult arriving authority seq now result =>
    !succeeds ((PrivateBook.applyMpcResult arriving authority seq now result).run self)
  | .applyMpcBatchResult arriving authority seq now result =>
    !succeeds ((PrivateBook.applyMpcBatchResult arriving authority seq now result).run self)
  | .applyCancellation cancellation seq =>
    !succeeds ((PrivateBook.applyCancellation cancellation seq).run self)
  | .applyExpiry cutoff command seq =>
    !succeeds ((PrivateBook.applyExpiry cutoff command seq).run self)

/-- The call is an expiry pass that passes the checks before its loop, on expired orders that hold
`2 ^ 64` or more together. -/
def BookOp.Overflows (op : BookOp) (self : PrivateBook) : Prop :=
  match op with
  | .applyExpiry cutoff command seq =>
    Expires self cutoff command seq ∧ u64Bound ≤ self.expiredTotal cutoff
  | _ => False

omit [Crypto] in
/-- A call whose error leaves the book alone. -/
theorem keeps_of_error {α : Type} {call : EStateM OrderError PrivateBook α}
    (herror : ∀ e book', call.run self = .error e book' → book' = self)
    (hfails : (!succeeds (call.run self)) = true) : after (call.run self) = self := by
  cases hrun : call.run self with
  | ok a book' =>
    rw [hrun] at hfails
    exact absurd hfails Bool.false_ne_true
  | error e book' => exact herror e book' hrun

omit [Crypto] in
/-- The orders of a pass that comes before the one that breaks its sum are not none: one order's
quantity is a `u64`. -/
theorem exists_removed {done rest : List Digest32} {c : Digest32} {cs : List Digest32}
    (hcs : cs = done ++ c :: rest) (hsmall : ∀ c ∈ cs, self.remainingOf c < u64Bound)
    (hbreak : u64Bound ≤ (done.map self.remainingOf).sum + self.remainingOf c) :
    ∃ removed ∈ cs, removed ∈ done := by
  cases done with
  | nil =>
    have hlt := hsmall c (hcs ▸ List.mem_cons_self)
    simp only [List.map_nil, List.sum_nil, Nat.zero_add] at hbreak
    exact absurd hlt (not_lt.mpr hbreak)
  | cons removed done =>
    exact ⟨removed, hcs ▸ List.mem_append_left _ List.mem_cons_self, List.mem_cons_self⟩

/-- **A pass that overflows fails and has removed an order.** -/
theorem Inv.expiry_overflow (h : self.Inv) {cutoff seq : Nat} {command : Digest32}
    (hx : Expires self cutoff command seq) (hover : u64Bound ≤ self.expiredTotal cutoff) :
    ∃ e book', (applyExpiry cutoff command seq).run self = .error e book' ∧ book' ≠ self := by
  have hloop := h.tidy.expireOrders_expired cutoff
  rw [if_neg (not_lt.mpr hover)] at hloop
  obtain ⟨done, c, rest, hcs, hbreak, hrun⟩ := hloop
  have hsmall : ∀ c ∈ self.expiredCommitments cutoff, self.remainingOf c < u64Bound := by
    intro c hc
    obtain ⟨o, ho, -, rfl⟩ := mem_expiredCommitments.mp hc
    rw [h.tidy.remainingOf ho]
    exact (h.remaining o ho).2.trans_lt o.secret.words.2.1
  obtain ⟨removed, hmem, hdone⟩ := exists_removed hcs hsmall hbreak
  refine ⟨.invalid "expired quantity overflowed", self.editOrders (dropOrders done), ?_,
    fun hsame => ?_⟩
  · rw [applyExpiry, run_get_bind, run_ensure_bind, if_pos hx.next, run_ensure_bind,
      if_pos hx.fresh, run_ensure_bind, if_pos ⟨hx.some_expired, hx.canonical⟩]
    exact run_bind_eq_error.mpr (Or.inl hrun)
  · obtain ⟨o, ho, -, rfl⟩ := mem_expiredCommitments.mp hmem
    rw [← hsame] at ho
    exact (mem_orders_dropOrders.mp ho).2 hdone

/-- **A failing call keeps the book unless it is an expiry pass that overflows.** In every state
that a run from a new book reaches and for every call of the five mutators: an error leaves all
five fields as they were exactly when the call is not such a pass. -/
theorem failing_call_keeps_book_iff {marketId : String} {start : PrivateBook}
    (hnew : PrivateBook.new marketId = .ok start) (ops : List BookOp) (op : BookOp) :
    (op.fails (run ops start) = true → op.apply (run ops start) = run ops start) ↔
      ¬ op.Overflows (run ops start) := by
  have h := (inv_new hnew).run ops
  generalize run ops start = self at h
  cases op with
  | insertResting order authority seq now =>
    exact ⟨fun _ => id, fun _ => keeps_of_error fun e book' => insertResting_error⟩
  | applyMpcResult arriving authority seq now result =>
    exact ⟨fun _ => id, fun _ => keeps_of_error fun e book' => applyMpcResult_error⟩
  | applyMpcBatchResult arriving authority seq now result =>
    refine ⟨fun _ => id, fun _ => keeps_of_error fun e book' => ?_⟩
    exact applyMpcBatchResult_error h.tidy fun o ho => h.pos ho
  | applyCancellation cancellation seq =>
    exact ⟨fun _ => id, fun _ => keeps_of_error fun e book' => applyCancellation_error⟩
  | applyExpiry cutoff command seq =>
    constructor
    · rintro hkeeps ⟨hx, hover⟩
      obtain ⟨e, book', hrun, hchanged⟩ := h.expiry_overflow hx hover
      simp only [BookOp.fails, BookOp.apply, hrun] at hkeeps
      exact hchanged (hkeeps rfl)
    · intro hfits
      refine keeps_of_error fun e book' hrun => ?_
      rcases applyExpiry_error h.tidy hrun with rfl | ⟨hx, hover, -⟩
      · rfl
      · exact absurd ⟨hx, hover⟩ hfits

end

section Witness

attribute [local instance] transparentCrypto

/-- A resting sell, and a pass at a cutoff that leaves it alone. -/
theorem failing_call_keeps_book_iff_sample :
    let op := BookOp.applyExpiry 1500 7 3
    ¬ op.Overflows (run sampleOps sampleBook) ∧ op.fails (run sampleOps sampleBook) = true ∧
    op.apply (run sampleOps sampleBook) = run sampleOps sampleBook := by
  intro op
  have hfits : ¬ op.Overflows (run sampleOps sampleBook) := by
    rintro ⟨hx, -⟩
    exact absurd hx.some_expired (by decide +kernel)
  have hfails : op.fails (run sampleOps sampleBook) = true := by decide +kernel
  have hnew : PrivateBook.new "JGB10Y-JPY" = .ok sampleBook := by decide
  exact ⟨hfits, hfails, (failing_call_keeps_book_iff hnew sampleOps op).mpr hfits hfails⟩

/-- Two resting sells of `2 ^ 63`. -/
def overflowingSells : List BookOp :=
  let a := sampleOrder .sell 1 (2 ^ 63) .goodTilCancelled 1 fits_half_a
  let b := sampleOrder .sell 1 (2 ^ 63) .goodTilCancelled 2 fits_half_b
  [.insertResting a (sampleAuthority a) 1 1000, .insertResting b (sampleAuthority b) 2 1000]

/-- The pass over both. -/
def overflowingPass : BookOp :=
  let a := sampleOrder .sell 1 (2 ^ 63) .goodTilCancelled 1 fits_half_a
  let b := sampleOrder .sell 1 (2 ^ 63) .goodTilCancelled 2 fits_half_b
  .applyExpiry 2001 (expiryCommitment "JGB10Y-JPY" 2001 [a.commitment, b.commitment]) 3

/-- **The pass over two sells of `2 ^ 63` fails and leaves one of them in the book.** -/
theorem failed_expiry_edits_book :
    ¬ ∀ (ops : List BookOp) (op : BookOp), op.fails (run ops sampleBook) = true →
      op.apply (run ops sampleBook) = run ops sampleBook := by
  intro h
  have hkept := congrArg (fun book => book.orders.length)
    (h overflowingSells overflowingPass (by decide +kernel))
  revert hkept
  decide +kernel

end Witness

end PrivateBook

end Oclob.Core
