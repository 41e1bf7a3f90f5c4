import Oclob.Core.Effects

/-!
# What a call of a mutator has checked and done

One lemma for a successful call of each mutator of `PrivateBook` (`*_ok`) and one for a failing
call (`*_error`). On a tidy book a failing call changes nothing, with one exception:
`apply_expiry` checks its running total inside the removal loop, so an overflow leaves the book
without the orders removed before it (`applyExpiry_error`).
-/

namespace Oclob.Core

open Oclob.Lib OrdMap

namespace PrivateBook

section

variable [Crypto] {self book' : PrivateBook} {order : SecretOrder} {authority : OrderAuthority}
  {seq now : Nat}

/-- What `OrderAuthority::verify` and `check_admission` establish for an order. -/
structure Admits (book : PrivateBook) (order : SecretOrder) (authority : OrderAuthority)
    (seq now : Nat) : Prop where
  verified : authority.verify order now = .ok ()
  market : order.marketId = book.marketId
  fresh : authority.commitment ∉ book.admitted
  next : seq = book.sequence + 1

instance : Decidable (Admits self order authority seq now) :=
  decidable_of_iff (authority.verify order now = .ok () ∧ order.marketId = self.marketId ∧
      authority.commitment ∉ self.admitted ∧ seq = self.sequence + 1)
    ⟨fun h => ⟨h.1, h.2.1, h.2.2.1, h.2.2.2⟩, fun h => ⟨h.1, h.2, h.3, h.4⟩⟩

omit [Crypto] in
theorem checkAdmission_eq_ok {commitment : Digest32} :
    self.checkAdmission order commitment seq = .ok () ↔
      order.marketId = self.marketId ∧ commitment ∉ self.admitted ∧ seq = self.sequence + 1 := by
  unfold checkAdmission
  by_cases hm : order.marketId = self.marketId <;> by_cases hf : commitment ∈ self.admitted <;>
    by_cases hs : seq = self.sequence + 1 <;> simp [hm, hf, hs]

theorem Admits.commitment_eq (h : Admits self order authority seq now) :
    authority.commitment = order.commitment := (OrderAuthority.verify_ok h.verified).2

/-! ## `insert_resting` -/

theorem insertResting_ok {u : Unit}
    (h : (insertResting order authority seq now).run self = .ok u book') :
    Admits self order authority seq now ∧ order.timeInForce = .goodTilCancelled ∧
      book' = (self.insertRecord ⟨order, authority, order.quantity, seq⟩).advance
        authority.commitment seq := by
  unfold insertResting at h
  simp only [run_rules] at h
  obtain ⟨⟨⟩, s₁, ⟨hv, rfl⟩, s₂, s₃, ⟨rfl, rfl⟩, ⟨⟩, s₄, ⟨ha, rfl⟩, -, s₅, ⟨hg, rfl⟩, rfl⟩ := h
  obtain ⟨hm, hf, hs⟩ := checkAdmission_eq_ok.mp ha
  exact ⟨⟨hv, hm, hf, hs⟩, hg, rfl⟩

theorem insertResting_error {e : OrderError}
    (h : (insertResting order authority seq now).run self = .error e book') : book' = self := by
  unfold insertResting at h
  simp only [run_bind_eq_error, run_attempt_eq_error, run_rules, run_get_ne_error,
    run_ensure_eq_error, run_set_ne_error, false_or, and_false, exists_false, or_false] at h
  rcases h with ⟨-, rfl⟩ | ⟨-, s₁, ⟨-, rfl⟩, s₂, s₃, ⟨rfl, rfl⟩, h⟩
  · rfl
  · rcases h with ⟨-, rfl⟩ | ⟨-, s₄, ⟨-, rfl⟩, -, -, rfl⟩ <;> rfl

end

/-! ## The batch -/

section

variable {self : PrivateBook} {arriving : SecretOrder} {now : Nat}

/-- The batch `private_match_batch` returns for an order of the book's market. -/
def batchOf (self : PrivateBook) (arriving : SecretOrder) (now : Nat) : PrivateMatchBatch where
  resting := ((self.live arriving.side now).take maxMatchSlots).map restingInput
  arrivingSide := arriving.side
  arrivingPrice := arriving.limitPrice
  arrivingQuantity := arriving.quantity
  arrivingCanRest := decide (arriving.timeInForce = .goodTilCancelled)

theorem privateMatchBatch_eq_ok {batch : PrivateMatchBatch} :
    self.privateMatchBatch arriving now = .ok batch ↔
      arriving.marketId = self.marketId ∧ batch = self.batchOf arriving now := by
  unfold privateMatchBatch
  split
  · rename_i hm
    simp [hm]
  · rename_i hm
    simp only [not_not] at hm
    simp [hm, batchOf, eq_comm]

/-- The slots of that batch, beside what `expected_batch` says of them. -/
def slotPairs (self : PrivateBook) (arriving : SecretOrder) (now : Nat) :
    List (PrivateRestingInput × MpcSlotResult) :=
  (self.batchOf arriving now).resting.zip (expectedBatch (self.batchOf arriving now)).slots

variable {side : Side} {o : RestingOrder}

theorem mem_ordered :
    o ∈ self.ordered side ↔ o ∈ (self.levels side.opposite).items := by
  cases side with
  | buy => exact Iff.rfl
  | sell => exact mem_itemsDesc

theorem mem_live :
    o ∈ self.live side now ↔
      o ∈ (self.levels side.opposite).items ∧ now ≤ o.secret.expiresAt := by
  unfold live
  rw [List.mem_filter, mem_ordered, decide_eq_true_eq]

theorem Tidy.distinct_live (ht : self.Tidy) (side : Side) (now : Nat) :
    ((self.live side now).map RestingOrder.commitment).Nodup := by
  have hordered : ((self.ordered side).map RestingOrder.commitment).Nodup := by
    cases side with
    | buy => exact ht.distinct_levels .sell
    | sell => exact ((itemsDesc_perm self.bids).map _).nodup_iff.mpr (ht.distinct_levels .buy)
  exact hordered.sublist (List.filter_sublist.map _)

/-- A slot pair: a live order of the other side, served from some part of the quantity. -/
theorem mem_slotPairs {pair : PrivateRestingInput × MpcSlotResult}
    (h : pair ∈ self.slotPairs arriving now) :
    (∃ o ∈ (self.live arriving.side now).take maxMatchSlots, restingInput o = pair.1) ∧
    ∃ left ≤ arriving.quantity,
      pair.2 = matchSlot arriving.side arriving.limitPrice left pair.1 := by
  obtain ⟨hmem, hslot⟩ := mem_zip_matchSlots h
  exact ⟨List.mem_map.mp hmem, hslot⟩

theorem mem_orders_of_mem_live {n : Nat}
    (h : o ∈ (self.live side now).take n) : o ∈ self.orders :=
  mem_levels (mem_live.mp (List.mem_of_mem_take h)).1

theorem Tidy.nodup_slotPairs (ht : self.Tidy) :
    ((self.slotPairs arriving now).map fun pair => pair.1.commitment).Nodup := by
  have hfst : (self.slotPairs arriving now).map Prod.fst =
      ((self.live arriving.side now).take maxMatchSlots).map restingInput :=
    map_fst_zip_matchSlots
  have hmap := congrArg (List.map PrivateRestingInput.commitment) hfst
  rw [List.map_map, List.map_map] at hmap
  have hnd : (((self.live arriving.side now).take maxMatchSlots).map
      (PrivateRestingInput.commitment ∘ restingInput)).Nodup :=
    (ht.distinct_live arriving.side now).sublist ((List.take_sublist _ _).map _)
  rw [← hmap] at hnd
  exact hnd

theorem Tidy.applySlots_slotPairs (ht : self.Tidy) (hpos : ∀ o ∈ self.orders, 0 < o.remaining)
    (taker : Digest32) (arriving : SecretOrder) (now : Nat) :
    (applySlots taker (self.slotPairs arriving now)).run self =
      .ok (slotFills taker (self.slotPairs arriving now))
        (self.editOrders (reduceBy (traded (self.slotPairs arriving now)))) := by
  refine applySlots_run taker ht hpos ht.nodup_slotPairs (fun pair hpair => ?_)
    fun pair hpair => ?_
  · obtain ⟨⟨o, ho, heq⟩, -⟩ := mem_slotPairs hpair
    exact ⟨o, mem_orders_of_mem_live ho, heq⟩
  · obtain ⟨-, left, -, heq⟩ := mem_slotPairs hpair
    rw [heq]
    exact matchSlot_tradeQuantity_le

/-- The book a batch leaves. -/
def afterBatch (self : PrivateBook) (arriving : SecretOrder) (authority : OrderAuthority)
    (seq now : Nat) : PrivateBook :=
  (self.editOrders (reduceBy (traded (self.slotPairs arriving now)))).restRemainder arriving
    authority seq (expectedBatch (self.batchOf arriving now)).arrivingRemaining

end

section

variable [Crypto] {self book' : PrivateBook} {arriving : SecretOrder}
  {authority : OrderAuthority} {seq now : Nat}

/-- The transition a batch reports. -/
def batchTransition (self : PrivateBook) (arriving : SecretOrder) (authority : OrderAuthority)
    (seq now : Nat) : BookTransition :=
  transition self (self.afterBatch arriving authority seq now) seq
    (slotFills authority.commitment (self.slotPairs arriving now))
    (expectedBatch (self.batchOf arriving now)).arrivingRemaining

/-- **`apply_mpc_batch_result`** on a tidy book: it accepts exactly the expected result of an
admissible order. -/
theorem applyMpcBatchResult_ok (ht : self.Tidy) (hpos : ∀ o ∈ self.orders, 0 < o.remaining)
    {result : MpcBatchResult} {tr : BookTransition} :
    (applyMpcBatchResult arriving authority seq now result).run self = .ok tr book' ↔
      Admits self arriving authority seq now ∧
      result = expectedBatch (self.batchOf arriving now) ∧
      book' = self.afterBatch arriving authority seq now ∧
      tr = self.batchTransition arriving authority seq now := by
  have hslots := ht.applySlots_slotPairs hpos authority.commitment arriving now
  unfold applyMpcBatchResult
  simp only [run_rules, privateMatchBatch_eq_ok]
  constructor
  · rintro ⟨⟨⟩, s₁, ⟨hv, rfl⟩, s₂, s₃, ⟨rfl, rfl⟩, ⟨⟩, s₄, ⟨ha, rfl⟩, batch, s₅,
      ⟨⟨-, rfl⟩, rfl⟩, -, s₆, ⟨rfl, rfl⟩, fills, s₇, hrun, -, s₈, rfl, s₉, s₁₀, ⟨rfl, rfl⟩,
      rfl, rfl⟩
    obtain ⟨hm, hf, hs⟩ := checkAdmission_eq_ok.mp ha
    have heq := hslots.symm.trans hrun
    injection heq with h1 h2
    subst h1 h2
    exact ⟨⟨hv, hm, hf, hs⟩, rfl, rfl, rfl⟩
  · rintro ⟨hadm, rfl, rfl, rfl⟩
    exact ⟨(), self, ⟨hadm.verified, rfl⟩, self, self, ⟨rfl, rfl⟩, (), self,
      ⟨checkAdmission_eq_ok.mpr ⟨hadm.market, hadm.fresh, hadm.next⟩, rfl⟩,
      self.batchOf arriving now, self, ⟨⟨hadm.market, rfl⟩, rfl⟩, (), self, ⟨rfl, rfl⟩, _, _,
      hslots, ⟨⟩, _, rfl, _, _, ⟨rfl, rfl⟩, rfl, rfl⟩

variable {e : OrderError}

theorem applyMpcBatchResult_error (ht : self.Tidy) (hpos : ∀ o ∈ self.orders, 0 < o.remaining)
    {result : MpcBatchResult}
    (h : (applyMpcBatchResult arriving authority seq now result).run self = .error e book') :
    book' = self := by
  have hslots := ht.applySlots_slotPairs hpos authority.commitment arriving now
  unfold applyMpcBatchResult at h
  simp only [run_bind_eq_error, run_attempt_eq_error, run_rules, run_get_ne_error,
    run_ensure_eq_error, run_modify_ne_error, run_pure_ne_error, false_or, and_false, exists_false,
    or_false, privateMatchBatch_eq_ok] at h
  rcases h with ⟨-, rfl⟩ | ⟨-, s₁, ⟨-, rfl⟩, s₂, s₃, ⟨rfl, rfl⟩, h⟩
  · rfl
  rcases h with ⟨-, rfl⟩ | ⟨-, s₄, ⟨-, rfl⟩, h⟩
  · rfl
  rcases h with ⟨-, rfl⟩ | ⟨batch, s₅, ⟨⟨-, rfl⟩, rfl⟩, h⟩
  · rfl
  rcases h with ⟨-, -, rfl⟩ | ⟨-, s₆, ⟨rfl, rfl⟩, hrun⟩
  · rfl
  · exact absurd (hslots.symm.trans hrun) (by simp)

/-! ## `apply_cancellation` -/

variable {cancellation : SecretCancellation}

/-- What `apply_cancellation` checks of the target it finds. -/
structure Cancels (book : PrivateBook) (cancellation : SecretCancellation) (seq : Nat)
    (target : RestingOrder) : Prop where
  next : seq = book.sequence + 1
  fresh : cancellation.commitment ∉ book.admitted
  resting : target ∈ book.orders
  named : target.commitment = cancellation.target
  authorized : target.secret.cancellationSecretDigest = cancellationDigest cancellation.secret

theorem applyCancellation_ok (ht : self.Tidy) {tr : CancellationTransition}
    (h : (applyCancellation cancellation seq).run self = .ok tr book') :
    ∃ target, Cancels self cancellation seq target ∧
      book' = (self.editOrders (dropOrders [target.commitment])).advance
        cancellation.commitment seq ∧
      tr.targetCommitment = target.commitment ∧ tr.releasedQuantity = target.remaining := by
  unfold applyCancellation at h
  simp only [run_rules, okOr_eq_ok] at h
  obtain ⟨s₁, s₂, ⟨rfl, rfl⟩, -, s₃, ⟨hs, rfl⟩, -, s₄, ⟨hf, rfl⟩, target, s₅, ⟨hfind, rfl⟩, -, s₆,
    ⟨hsec, rfl⟩, levels, s₇, ⟨hrm, rfl⟩, -, s₈, rfl, rfl, rfl⟩ := h
  obtain ⟨hmem, hnamed⟩ := findRecord_eq_some hfind
  rw [← hnamed, ht.removeByCommitment (List.mem_map.mpr ⟨target, hmem, rfl⟩)] at hrm
  obtain rfl := Except.ok.inj hrm
  exact ⟨target, ⟨hs, hf, hmem, hnamed, hsec⟩, rfl, hnamed.symm, rfl⟩

theorem applyCancellation_error
    (h : (applyCancellation cancellation seq).run self = .error e book') : book' = self := by
  unfold applyCancellation at h
  simp only [run_bind_eq_error, run_attempt_eq_error, run_rules, run_get_ne_error,
    run_ensure_eq_error, run_set_ne_error, run_pure_ne_error, false_or, and_false, exists_false,
    or_false] at h
  obtain ⟨s₁, s₂, ⟨rfl, rfl⟩, h⟩ := h
  rcases h with ⟨-, -, rfl⟩ | ⟨-, s₃, ⟨-, rfl⟩, h⟩
  · rfl
  rcases h with ⟨-, -, rfl⟩ | ⟨-, s₄, ⟨-, rfl⟩, h⟩
  · rfl
  rcases h with ⟨-, rfl⟩ | ⟨target, s₅, ⟨-, rfl⟩, h⟩
  · rfl
  rcases h with ⟨-, -, rfl⟩ | ⟨-, s₆, ⟨-, rfl⟩, -, rfl⟩ <;> rfl

/-! ## `apply_expiry` -/

variable {cutoff : Nat} {command : Digest32}

/-- What `apply_expiry` checks before it removes anything. -/
structure Expires (book : PrivateBook) (cutoff : Nat) (command : Digest32) (seq : Nat) :
    Prop where
  next : seq = book.sequence + 1
  fresh : command ∉ book.admitted
  some_expired : book.expiredCommitments cutoff ≠ []
  canonical : command = expiryCommitment book.marketId cutoff (book.expiredCommitments cutoff)

/-- What the orders expired at a cutoff hold together. -/
def expiredTotal (self : PrivateBook) (cutoff : Nat) : Nat :=
  ((self.expiredCommitments cutoff).map self.remainingOf).sum

omit [Crypto] in
theorem mem_expiredCommitments {c : Digest32} :
    c ∈ self.expiredCommitments cutoff ↔
      ∃ o ∈ self.orders, o.secret.expiresAt < cutoff ∧ o.commitment = c := by
  unfold expiredCommitments
  rw [List.mem_insertionSort, List.mem_map]
  simp only [List.mem_filter, decide_eq_true_eq, and_assoc]

omit [Crypto] in
theorem Tidy.nodup_expiredCommitments (ht : self.Tidy) (cutoff : Nat) :
    (self.expiredCommitments cutoff).Nodup := by
  unfold expiredCommitments
  exact (List.perm_insertionSort _ _).nodup_iff.mpr
    (ht.distinct.sublist (List.filter_sublist.map _))

omit [Crypto] in
theorem Tidy.expireOrders_expired (ht : self.Tidy) (cutoff : Nat) :
    if self.expiredTotal cutoff < u64Bound then
      (expireOrders 0 (self.expiredCommitments cutoff)).run self =
        .ok (self.expiredTotal cutoff)
          (self.editOrders (dropOrders (self.expiredCommitments cutoff)))
    else ∃ done c rest, self.expiredCommitments cutoff = done ++ c :: rest ∧
      u64Bound ≤ (done.map self.remainingOf).sum + self.remainingOf c ∧
      (expireOrders 0 (self.expiredCommitments cutoff)).run self =
        .error (.invalid "expired quantity overflowed") (self.editOrders (dropOrders done)) := by
  have h := expireOrders_run ht (ht.nodup_expiredCommitments cutoff) (fun c hc => by
    obtain ⟨o, ho, -, heq⟩ := mem_expiredCommitments.mp hc
    exact ⟨o, ho, heq⟩) 0 (Nat.two_pow_pos 64)
  simp only [Nat.zero_add] at h
  exact h

theorem applyExpiry_ok (ht : self.Tidy) {tr : ExpiryTransition}
    (h : (applyExpiry cutoff command seq).run self = .ok tr book') :
    Expires self cutoff command seq ∧ self.expiredTotal cutoff < u64Bound ∧
      book' = (self.editOrders (dropOrders (self.expiredCommitments cutoff))).advance
        command seq ∧
      tr.expiredOrders = self.expiredCommitments cutoff ∧
      tr.releasedQuantity = self.expiredTotal cutoff := by
  have hloop := ht.expireOrders_expired cutoff
  unfold applyExpiry at h
  simp only [run_rules] at h
  obtain ⟨s₁, s₂, ⟨rfl, rfl⟩, -, s₃, ⟨hs, rfl⟩, -, s₄, ⟨hf, rfl⟩, -, s₅, ⟨hc, rfl⟩, released, s₆,
    hrun, -, s₇, rfl, s₈, s₉, ⟨rfl, rfl⟩, rfl, rfl⟩ := h
  split at hloop
  · rename_i hlt
    have heq := hloop.symm.trans hrun
    injection heq with h1 h2
    subst h1 h2
    exact ⟨⟨hs, hf, hc.1, hc.2⟩, hlt, rfl, rfl, rfl⟩
  · obtain ⟨done, c, rest, -, -, herr⟩ := hloop
    exact absurd (herr.symm.trans hrun) (by simp)

theorem applyExpiry_error (ht : self.Tidy)
    (h : (applyExpiry cutoff command seq).run self = .error e book') :
    book' = self ∨ (Expires self cutoff command seq ∧ u64Bound ≤ self.expiredTotal cutoff ∧
      ∃ done, done <+: self.expiredCommitments cutoff ∧
        book' = self.editOrders (dropOrders done)) := by
  have hloop := ht.expireOrders_expired cutoff
  unfold applyExpiry at h
  simp only [run_bind_eq_error, run_rules, run_get_ne_error, run_ensure_eq_error,
    run_modify_ne_error, run_pure_ne_error, false_or, and_false, exists_false, or_false] at h
  obtain ⟨s₁, s₂, ⟨rfl, rfl⟩, h⟩ := h
  rcases h with ⟨-, -, rfl⟩ | ⟨-, s₃, ⟨hs, rfl⟩, h⟩
  · exact Or.inl rfl
  rcases h with ⟨-, -, rfl⟩ | ⟨-, s₄, ⟨hf, rfl⟩, h⟩
  · exact Or.inl rfl
  rcases h with ⟨-, -, rfl⟩ | ⟨-, s₅, ⟨hc, rfl⟩, hrun⟩
  · exact Or.inl rfl
  split at hloop
  · exact absurd (hloop.symm.trans hrun) (by simp)
  · rename_i hge
    obtain ⟨done, c, rest, hdone, -, herr⟩ := hloop
    have heq := herr.symm.trans hrun
    injection heq with h1 h2
    exact Or.inr ⟨⟨hs, hf, hc.1, hc.2⟩, not_lt.mp hge, done, ⟨c :: rest, hdone.symm⟩, h2.symm⟩

/-! ## `apply_mpc_result` -/

/-- What one crossing order trades in the single-slot path. -/
def resultEdit (self : PrivateBook) (arriving : SecretOrder) (o : RestingOrder) :
    Option RestingOrder :=
  match self.bestOpposite arriving.side with
  | none => some o
  | some best =>
    if arriving.side.crosses arriving.limitPrice best.secret.limitPrice then
      editKey RestingOrder.commitment best.commitment
        (setRemaining (best.remaining - min arriving.quantity best.remaining)) o
    else some o

omit [Crypto] in
/-- The two ways `apply_mpc_result` edits the best order are one. -/
theorem Tidy.edit_best (ht : self.Tidy) {side : Side} {best : RestingOrder}
    (hbest : self.bestOpposite side = some best) (remaining : Nat) :
    (if remaining = 0 then self.removeBest side else self.setBest side remaining) =
      self.editOrders (editKey RestingOrder.commitment best.commitment
        (setRemaining remaining)) := by
  obtain ⟨price, queue, hprice, hget⟩ := bestOpposite_eq_some hbest
  have hmem := mem_levels_of_get? hget List.mem_cons_self
  have hother := ht.notMem_other hmem
  rw [Side.opposite_opposite] at hother
  have hfix : (self.levels side).editItems (editKey RestingOrder.commitment best.commitment
      (setRemaining remaining)) = self.levels side :=
    editItems_eq_self (ht.noEmpty_levels side) fun o ho =>
      if_neg fun heq => hother (List.mem_map.mpr ⟨o, ho, heq⟩)
  have halter : ∀ F : List RestingOrder → Option (List RestingOrder),
      (F (best :: queue) = if ((setRemaining remaining best).toList ++ queue).isEmpty then none
        else some ((setRemaining remaining best).toList ++ queue)) →
      self.alterBest side F = self.editOrders (editKey RestingOrder.commitment best.commitment
        (setRemaining remaining)) := fun F hF => by
    have hedit := alter_front_eq_editItems (ht.noEmpty_levels side.opposite)
      (ht.distinct_levels side.opposite) hget hF
    unfold alterBest PrivateBook.editOrders
    rw [hprice]
    cases side with
    | buy => exact congrArg₂ (fun b a => { self with bids := b, asks := a }) hfix.symm hedit
    | sell => exact congrArg₂ (fun b a => { self with bids := b, asks := a }) hedit hfix.symm
  by_cases hz : remaining = 0
  · rw [if_pos hz]
    exact halter _ (by simp [setRemaining, hz])
  · rw [if_neg hz]
    exact halter _ (by simp [setRemaining, hz])

/-- **`apply_mpc_result`** on a tidy book: the single-slot path edits at most the best opposite
order. -/
theorem applyMpcResult_ok (ht : self.Tidy) {result : MpcMatchResult} {tr : BookTransition}
    (h : (applyMpcResult arriving authority seq now result).run self = .ok tr book') :
    Admits self arriving authority seq now ∧ result = self.expectedResult arriving ∧
      book' = (self.editOrders (self.resultEdit arriving)).restRemainder arriving authority seq
        result.arrivingRemaining := by
  unfold applyMpcResult at h
  simp only [run_rules] at h
  obtain ⟨⟨⟩, s₁, ⟨hv, rfl⟩, s₂, s₃, ⟨rfl, rfl⟩, ⟨⟩, s₄, ⟨ha, rfl⟩, -, s₅, ⟨rfl, rfl⟩, fill, s₆,
    hrun, -, s₇, rfl, s₈, s₉, ⟨rfl, rfl⟩, -, rfl⟩ := h
  obtain ⟨hm, hf, hs⟩ := checkAdmission_eq_ok.mp ha
  refine ⟨⟨hv, hm, hf, hs⟩, rfl, ?_⟩
  suffices hs6 : s₆ = s₅.editOrders (s₅.resultEdit arriving) by rw [hs6]
  unfold applyResult at hrun
  cases hbest : s₅.bestOpposite arriving.side with
  | none =>
    have hself : s₅.editOrders (s₅.resultEdit arriving) = s₅ :=
      ht.editOrders_eq_self fun o _ => by simp [resultEdit, hbest]
    rw [hself]
    simp only [expectedResult, hbest, Bool.false_eq_true, if_false, run_pure_eq_ok] at hrun
    exact hrun.2
  | some best =>
    by_cases hcross : arriving.side.crosses arriving.limitPrice best.secret.limitPrice = true
    · have hedit : s₅.resultEdit arriving = editKey RestingOrder.commitment best.commitment
          (setRemaining (best.remaining - min arriving.quantity best.remaining)) := by
        funext o
        simp only [resultEdit, hbest, hcross, if_true]
      simp only [expectedResult, hbest, hcross, if_true, run_rules, okOr_eq_ok] at hrun
      obtain ⟨s, t, ⟨rfl, rfl⟩, best', t₁, ⟨-, rfl⟩, -, t₂, rfl, -, rfl⟩ := hrun
      rw [hedit, ht.edit_best hbest]
    · have hself : s₅.editOrders (s₅.resultEdit arriving) = s₅ :=
        ht.editOrders_eq_self fun o _ => by simp [resultEdit, hbest, hcross]
      rw [hself]
      simp only [expectedResult, hbest, hcross, Bool.false_eq_true, if_false,
        run_pure_eq_ok] at hrun
      exact hrun.2

theorem applyMpcResult_error {result : MpcMatchResult}
    (h : (applyMpcResult arriving authority seq now result).run self = .error e book') :
    book' = self := by
  unfold applyMpcResult at h
  simp only [run_bind_eq_error, run_attempt_eq_error, run_rules, run_get_ne_error,
    run_ensure_eq_error, run_modify_ne_error, run_pure_ne_error, false_or, and_false, exists_false,
    or_false] at h
  rcases h with ⟨-, rfl⟩ | ⟨-, s₁, ⟨-, rfl⟩, s₂, s₃, ⟨rfl, rfl⟩, h⟩
  · rfl
  rcases h with ⟨-, rfl⟩ | ⟨-, s₄, ⟨-, rfl⟩, h⟩
  · rfl
  rcases h with ⟨-, -, rfl⟩ | ⟨-, s₅, ⟨-, rfl⟩, hrun⟩
  · rfl
  unfold applyResult at hrun
  split at hrun
  · simp only [run_bind_eq_error, run_get_eq_ok, run_get_ne_error, run_attempt_eq_error,
      run_set_ne_error, run_pure_ne_error, false_or, and_false, exists_false, or_false] at hrun
    obtain ⟨s, t, ⟨rfl, rfl⟩, -, rfl⟩ := hrun
    rfl
  · exact absurd hrun run_pure_ne_error

end

end PrivateBook

end Oclob.Core
