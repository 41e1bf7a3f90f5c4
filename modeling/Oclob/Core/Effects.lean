import Oclob.Core.Batch

/-!
# What the mutators do to the book

Every edit `update_remainder` makes, alone or in the loops of `apply_mpc_batch_result` and
`apply_expiry`, is one `editOrders`: a function applied to every resting order of both sides. This
holds on a `Tidy` book (no empty queue, no commitment resting twice), and on such a book the
loops cannot fail half way, except for the released total of an expiry that leaves `u64`.

* `applySlots_run`: the slots loop reduces every maker by what it traded.
* `expireOrders_run`: the expiry loop removes the listed orders; when the total overflows, it has
  already removed a proper part of them.
* `applyMpcBatchResult_ok`, `applyCancellation_ok`, `applyExpiry_ok`, `insertResting_ok`,
  `applyMpcResult_ok`: what a successful call has checked and what it leaves.
-/

namespace Oclob.Core

open Oclob.Lib OrdMap RestingOrder

namespace PrivateBook

/-- Apply an edit to every resting order. -/
def editOrders (f : RestingOrder → Option RestingOrder) (self : PrivateBook) : PrivateBook :=
  { self with bids := self.bids.editItems f, asks := self.asks.editItems f }

/-- No queue is empty and no commitment rests twice. -/
structure Tidy (book : PrivateBook) : Prop where
  bids_noEmpty : book.bids.NoEmpty
  asks_noEmpty : book.asks.NoEmpty
  distinct : (book.orders.map commitment).Nodup

/-- The edit leaves the identity of every order of `l` it keeps. -/
def KeepsCommitment (f : RestingOrder → Option RestingOrder) (l : List RestingOrder) : Prop :=
  ∀ o ∈ l, ∀ o', f o = some o' → o'.commitment = o.commitment

variable {self : PrivateBook} {f g : RestingOrder → Option RestingOrder}

@[simp] theorem orders_editOrders : (self.editOrders f).orders = self.orders.filterMap f := by
  unfold orders editOrders
  rw [List.filterMap_append, items_editItems, items_editItems]

theorem editOrders_editOrders :
    (self.editOrders f).editOrders g = self.editOrders fun o => (f o).bind g := by
  unfold editOrders
  simp only [editItems_editItems]

theorem editOrders_congr (h : ∀ o ∈ self.orders, f o = g o) :
    self.editOrders f = self.editOrders g := by
  unfold editOrders
  rw [editItems_congr fun o ho => h o (List.mem_append_left _ ho),
    editItems_congr fun o ho => h o (List.mem_append_right _ ho)]

theorem Tidy.editOrders_eq_self (ht : self.Tidy) (h : ∀ o ∈ self.orders, f o = some o) :
    self.editOrders f = self := by
  unfold editOrders
  rw [editItems_eq_self ht.bids_noEmpty fun o ho => h o (List.mem_append_left _ ho),
    editItems_eq_self ht.asks_noEmpty fun o ho => h o (List.mem_append_right _ ho)]

theorem map_commitment_filterMap_sublist {l : List RestingOrder} (hf : KeepsCommitment f l) :
    ((l.filterMap f).map commitment).Sublist (l.map commitment) := by
  induction l with
  | nil => exact List.Sublist.refl _
  | cons o rest ih =>
    have ih := ih fun o ho => hf o (List.mem_cons_of_mem _ ho)
    rw [List.filterMap_cons]
    cases h : f o with
    | none => exact ih.cons _
    | some o' =>
      simp only [List.map_cons, hf o List.mem_cons_self o' h]
      exact ih.cons_cons _

theorem Tidy.editOrders (ht : self.Tidy) (hf : KeepsCommitment f self.orders) :
    (self.editOrders f).Tidy where
  bids_noEmpty := noEmpty_editItems f _
  asks_noEmpty := noEmpty_editItems f _
  distinct := by
    rw [orders_editOrders]
    exact ht.distinct.sublist (map_commitment_filterMap_sublist hf)

/-! ## Single edits -/

variable {o : RestingOrder} {c : Digest32} {side : Side}

/-- Equal commitments are equal orders. -/
theorem Tidy.eq_of_commitment (ht : self.Tidy) {o' : RestingOrder} (ho : o ∈ self.orders)
    (ho' : o' ∈ self.orders) (h : o.commitment = o'.commitment) : o = o' :=
  List.inj_on_of_nodup_map ht.distinct ho ho' h

theorem findRecord_eq_some
    (h : findRecord self.bids self.asks c = some o) : o ∈ self.orders ∧ o.commitment = c :=
  ⟨List.mem_of_find?_eq_some h, by simpa using List.find?_some h⟩

theorem Tidy.findRecord (ht : self.Tidy) (ho : o ∈ self.orders) :
    findRecord self.bids self.asks o.commitment = some o := by
  cases h : Core.findRecord self.bids self.asks o.commitment with
  | none =>
    have hno := List.find?_eq_none.mp h o ho
    exact absurd (decide_eq_true rfl) hno
  | some o' =>
    obtain ⟨ho', heq⟩ := findRecord_eq_some h
    rw [ht.eq_of_commitment ho' ho heq]

/-- `update_remainder` on a book that holds the commitment. -/
theorem Tidy.updateRemainder (ht : self.Tidy) (remaining : Nat)
    (hc : c ∈ self.orders.map commitment) :
    Core.updateRemainder self.bids self.asks c remaining =
      .ok ((self.editOrders (editKey commitment c (setRemaining remaining))).bids,
        (self.editOrders (editKey commitment c (setRemaining remaining))).asks) := by
  have hnd := ht.distinct
  unfold orders at hnd hc
  rw [List.map_append] at hnd hc
  obtain ⟨hb, ha, hdisj⟩ := List.nodup_append.mp hnd
  have hfix : ∀ {m : Levels}, m.NoEmpty → c ∉ m.items.map commitment →
      m.editItems (editKey commitment c (setRemaining remaining)) = m :=
    fun {m} hne hm => editItems_eq_self hne fun o ho =>
      if_neg fun heq => hm (List.mem_map.mpr ⟨o, ho, heq⟩)
  unfold Core.updateRemainder
  rw [editFirst_eq ht.bids_noEmpty hb, editFirst_eq ht.asks_noEmpty ha]
  by_cases hcb : c ∈ self.bids.items.map commitment
  · have hca : c ∉ self.asks.items.map commitment := fun h => hdisj c hcb c h rfl
    rw [if_pos hcb]
    simp only [PrivateBook.editOrders, hfix ht.asks_noEmpty hca]
  · have hca : c ∈ self.asks.items.map commitment :=
      (List.mem_append.mp hc).resolve_left hcb
    rw [if_neg hcb, if_pos hca]
    simp only [PrivateBook.editOrders, hfix ht.bids_noEmpty hcb]

theorem setRemaining_commitment {r : Nat} {o' : RestingOrder}
    (h : setRemaining r o = some o') : o'.commitment = o.commitment := by
  unfold setRemaining at h
  split at h
  · exact absurd h (by simp)
  · obtain rfl := Option.some.inj h
    rfl

theorem keepsCommitment_editKey (c : Digest32) (r : Nat) (l : List RestingOrder) :
    KeepsCommitment (editKey commitment c (setRemaining r)) l := by
  intro o _ o' h
  unfold editKey at h
  split at h
  · exact setRemaining_commitment h
  · rw [Option.some.inj h]

/-- Drop the orders with the listed commitments. -/
def dropOrders (cs : List Digest32) (o : RestingOrder) : Option RestingOrder :=
  if o.commitment ∈ cs then none else some o

theorem keepsCommitment_dropOrders (cs : List Digest32) (l : List RestingOrder) :
    KeepsCommitment (dropOrders cs) l := by
  intro o _ o' h
  unfold dropOrders at h
  split at h
  · exact absurd h (by simp)
  · rw [Option.some.inj h]

/-- `remove_by_commitment` on a book that holds the commitment. -/
theorem Tidy.removeByCommitment (ht : self.Tidy)
    (hc : c ∈ self.orders.map commitment) :
    Core.removeByCommitment self.bids self.asks c =
      .ok ((self.editOrders (dropOrders [c])).bids, (self.editOrders (dropOrders [c])).asks) := by
  have heq : editKey commitment c (setRemaining 0) = dropOrders [c] := by
    funext o
    simp [editKey, dropOrders, setRemaining]
  unfold Core.removeByCommitment
  rw [ht.updateRemainder 0 hc, heq]

/-! ## The slots loop -/

/-- What the matched slots traded with one maker. -/
def traded : List (PrivateRestingInput × MpcSlotResult) → Digest32 → Nat
  | [], _ => 0
  | (resting, slot) :: rest, c =>
    (if slot.matched ∧ resting.commitment = c then slot.tradeQuantity else 0) + traded rest c

/-- The fills of the matched slots. -/
def slotFills (taker : Digest32) (pairs : List (PrivateRestingInput × MpcSlotResult)) :
    List PublicFill :=
  pairs.filterMap fun pair =>
    if pair.2.matched then
      some ⟨pair.1.commitment, taker, pair.2.tradePrice, pair.2.tradeQuantity⟩
    else none

/-- Take the traded quantity off a resting order; an exhausted order goes. -/
def reduceBy (amount : Digest32 → Nat) (o : RestingOrder) : Option RestingOrder :=
  setRemaining (o.remaining - amount o.commitment) o

theorem traded_eq_zero {pairs : List (PrivateRestingInput × MpcSlotResult)}
    (h : c ∉ pairs.map fun pair => pair.1.commitment) : traded pairs c = 0 := by
  induction pairs with
  | nil => rfl
  | cons pair rest ih =>
    obtain ⟨resting, slot⟩ := pair
    simp only [List.map_cons, List.mem_cons, not_or] at h
    rw [traded, if_neg fun hm => h.1 hm.2.symm, ih h.2]

theorem reduceBy_zero {amount : Digest32 → Nat} (hpos : 0 < o.remaining)
    (h : amount o.commitment = 0) : reduceBy amount o = some o := by
  unfold reduceBy setRemaining
  rw [h, Nat.sub_zero, if_neg (by omega)]

/-- One matched slot, then the rest: the same as all of them at once. -/
theorem editKey_bind_reduceBy {resting : PrivateRestingInput} {slot : MpcSlotResult}
    {rest : List (PrivateRestingInput × MpcSlotResult)}
    (hm : slot.matched = true)
    (hrest : resting.commitment ∉ rest.map fun pair => pair.1.commitment)
    (hq : o.commitment = resting.commitment → o.remaining = resting.quantity) :
    (editKey commitment resting.commitment
      (setRemaining (resting.quantity - slot.tradeQuantity)) o).bind (reduceBy (traded rest)) =
      reduceBy (traded ((resting, slot) :: rest)) o := by
  unfold editKey
  by_cases hc : o.commitment = resting.commitment
  · have ht : traded ((resting, slot) :: rest) o.commitment = slot.tradeQuantity := by
      rw [traded, hc, if_pos ⟨hm, rfl⟩, traded_eq_zero hrest, Nat.add_zero]
    rw [if_pos hc, reduceBy, ht, hq hc]
    by_cases hz : resting.quantity - slot.tradeQuantity = 0
    · simp [setRemaining, hz]
    · simp only [setRemaining, if_neg hz, Option.bind_some]
      refine reduceBy_zero (Nat.pos_of_ne_zero hz) ?_
      change traded rest o.commitment = 0
      rw [hc, traded_eq_zero hrest]
  · have ht : traded ((resting, slot) :: rest) o.commitment = traded rest o.commitment := by
      rw [traded, if_neg fun h => hc h.2.symm, Nat.zero_add]
    rw [if_neg hc, Option.bind_some, reduceBy, reduceBy, ht]

/-- **The slots loop** succeeds on a tidy book and reduces every maker by what it traded. -/
theorem applySlots_run (taker : Digest32) {pairs : List (PrivateRestingInput × MpcSlotResult)}
    (ht : self.Tidy) (hpos : ∀ o ∈ self.orders, 0 < o.remaining)
    (hnd : (pairs.map fun pair => pair.1.commitment).Nodup)
    (hin : ∀ pair ∈ pairs, ∃ o ∈ self.orders, restingInput o = pair.1)
    (hle : ∀ pair ∈ pairs, pair.2.tradeQuantity ≤ pair.1.quantity) :
    (applySlots taker pairs).run self =
      .ok (slotFills taker pairs) (self.editOrders (reduceBy (traded pairs))) := by
  induction pairs generalizing self with
  | nil =>
    rw [ht.editOrders_eq_self fun o ho => reduceBy_zero (hpos o ho) rfl]
    rfl
  | cons pair rest ih =>
    obtain ⟨resting, slot⟩ := pair
    simp only [List.map_cons, List.nodup_cons] at hnd
    simp only [List.mem_cons, forall_eq_or_imp] at hin hle
    obtain ⟨⟨o, ho, hoin⟩, hin⟩ := hin
    by_cases hm : slot.matched = true
    · -- the edited book, and why the rest of the slots find it as they found the old one
      set f := editKey commitment resting.commitment
        (setRemaining (resting.quantity - slot.tradeQuantity)) with hf
      have hcommit : o.commitment = resting.commitment := congrArg (·.commitment) hoin
      have hquantity : o.remaining = resting.quantity := congrArg (·.quantity) hoin
      have hc : resting.commitment ∈ self.orders.map commitment :=
        List.mem_map.mpr ⟨o, ho, hcommit⟩
      have hstep : (applySlots taker ((resting, slot) :: rest)).run self =
          (applySlots taker rest >>= fun fills => pure
            (⟨resting.commitment, taker, slot.tradePrice, slot.tradeQuantity⟩ :: fills)).run
            (self.editOrders f) := by
        have hsub : okOr (checkedSub resting.quantity slot.tradeQuantity)
            OrderError.invalidMpcResult = .ok (resting.quantity - slot.tradeQuantity) := by
          rw [checkedSub, if_pos hle.1]
          rfl
        rw [applySlots, if_pos hm, hsub]
        change EStateM.run (attempt (Core.updateRemainder _ _ _ _) >>= _) self = _
        rw [ht.updateRemainder _ hc]
        rfl
      have hpos' : ∀ o ∈ (self.editOrders f).orders, 0 < o.remaining := by
        intro o' ho'
        rw [orders_editOrders] at ho'
        obtain ⟨o₀, ho₀, hfo⟩ := List.mem_filterMap.mp ho'
        rw [hf, editKey] at hfo
        split at hfo
        · unfold setRemaining at hfo
          split at hfo
          · exact absurd hfo (by simp)
          · rename_i hz
            obtain rfl := Option.some.inj hfo
            exact Nat.pos_of_ne_zero hz
        · obtain rfl := Option.some.inj hfo
          exact hpos _ ho₀
      have hin' : ∀ pair ∈ rest, ∃ o ∈ (self.editOrders f).orders, restingInput o = pair.1 := by
        intro pair hpair
        obtain ⟨o₁, ho₁, heq⟩ := hin pair hpair
        refine ⟨o₁, ?_, heq⟩
        rw [orders_editOrders]
        refine List.mem_filterMap.mpr ⟨o₁, ho₁, if_neg fun hco => hnd.1 ?_⟩
        exact List.mem_map.mpr ⟨pair, hpair, by rw [← hco, ← heq]; rfl⟩
      have htail := ih (ht.editOrders (keepsCommitment_editKey _ _ _)) hpos' hnd.2 hin' hle.2
      have hfuse : (self.editOrders f).editOrders (reduceBy (traded rest)) =
          self.editOrders (reduceBy (traded ((resting, slot) :: rest))) := by
        rw [editOrders_editOrders]
        refine editOrders_congr fun o₁ ho₁ => editKey_bind_reduceBy hm hnd.1 fun hco => ?_
        rw [ht.eq_of_commitment ho₁ ho (hco.trans hcommit.symm), hquantity]
      rw [hstep, EStateM.run_bind, htail, hfuse]
      simp [slotFills, hm]
    · have htraded : traded ((resting, slot) :: rest) = traded rest := by
        funext c
        rw [traded, if_neg fun h => hm h.1, Nat.zero_add]
      rw [applySlots, if_neg hm, ih ht hpos hnd.2 hin hle.2, htraded]
      simp [slotFills, hm]

/-! ## The expiry loop -/

/-- What the order with a commitment still holds in the book. -/
def remainingOf (self : PrivateBook) (c : Digest32) : Nat :=
  ((findRecord self.bids self.asks c).map remaining).getD 0

theorem Tidy.remainingOf (ht : self.Tidy) (ho : o ∈ self.orders) :
    self.remainingOf o.commitment = o.remaining := by
  unfold PrivateBook.remainingOf
  rw [ht.findRecord ho]
  rfl

theorem mem_orders_dropOrders {cs : List Digest32} :
    o ∈ (self.editOrders (dropOrders cs)).orders ↔ o ∈ self.orders ∧ o.commitment ∉ cs := by
  rw [orders_editOrders, List.mem_filterMap]
  unfold dropOrders
  constructor
  · rintro ⟨o₀, ho₀, h⟩
    split at h
    · exact absurd h (by simp)
    · rename_i hnot
      obtain rfl := Option.some.inj h
      exact ⟨ho₀, hnot⟩
  · rintro ⟨ho, hnot⟩
    exact ⟨o, ho, if_neg hnot⟩

theorem editOrders_dropOrders_cons (c : Digest32) (cs : List Digest32) :
    (self.editOrders (dropOrders [c])).editOrders (dropOrders cs) =
      self.editOrders (dropOrders (c :: cs)) := by
  rw [editOrders_editOrders]
  refine editOrders_congr fun o _ => ?_
  unfold dropOrders
  by_cases hc : o.commitment = c <;> simp [hc]

/-- **The expiry loop** removes the listed orders and adds up what they held. When the sum leaves
`u64` it stops with an error, and the orders before the one that broke the sum are gone. -/
theorem expireOrders_run {cs : List Digest32} (ht : self.Tidy) (hnd : cs.Nodup)
    (hin : ∀ c ∈ cs, ∃ o ∈ self.orders, o.commitment = c) (released : Nat)
    (hreleased : released < u64Bound) :
    if released + (cs.map self.remainingOf).sum < u64Bound then
      (expireOrders released cs).run self =
        .ok (released + (cs.map self.remainingOf).sum) (self.editOrders (dropOrders cs))
    else ∃ done c rest, cs = done ++ c :: rest ∧
      u64Bound ≤ released + (done.map self.remainingOf).sum + self.remainingOf c ∧
      (expireOrders released cs).run self =
        .error (.invalid "expired quantity overflowed") (self.editOrders (dropOrders done)) := by
  induction cs generalizing self released with
  | nil =>
    rw [if_pos (by simpa using hreleased), ht.editOrders_eq_self fun o _ => by simp [dropOrders]]
    rfl
  | cons c cs ih =>
    obtain ⟨hc, hcs⟩ := List.nodup_cons.mp hnd
    obtain ⟨o, ho, rfl⟩ := hin c List.mem_cons_self
    rw [List.map_cons, List.sum_cons, ht.remainingOf ho]
    by_cases hsum : released + o.remaining < u64Bound
    · -- this order goes; the others are found as before
      have ht' := ht.editOrders (keepsCommitment_dropOrders [o.commitment] _)
      have hkeep : ∀ o' ∈ self.orders, o'.commitment ∈ cs →
          o' ∈ (self.editOrders (dropOrders [o.commitment])).orders := fun o' ho' hmem => by
        refine mem_orders_dropOrders.mpr ⟨ho', fun h => hc ?_⟩
        rwa [← List.mem_singleton.mp h]
      have hin' : ∀ c' ∈ cs, ∃ o' ∈ (self.editOrders (dropOrders [o.commitment])).orders,
          o'.commitment = c' := fun c' hc' => by
        obtain ⟨o', ho', rfl⟩ := hin c' (List.mem_cons_of_mem _ hc')
        exact ⟨o', hkeep o' ho' hc', rfl⟩
      have hheld : cs.map (self.editOrders (dropOrders [o.commitment])).remainingOf =
          cs.map self.remainingOf := List.map_congr_left fun c' hc' => by
        obtain ⟨o', ho', rfl⟩ := hin c' (List.mem_cons_of_mem _ hc')
        rw [ht'.remainingOf (hkeep o' ho' hc'), ht.remainingOf ho']
      have hstep : (expireOrders released (o.commitment :: cs)).run self =
          (expireOrders (released + o.remaining) cs).run
            (self.editOrders (dropOrders [o.commitment])) := by
        have hadd : okOr (checkedAdd released o.remaining)
            (OrderError.invalid "expired quantity overflowed") = .ok (released + o.remaining) := by
          rw [checkedAdd, if_pos hsum]
          rfl
        have hfound : okOr (Core.findRecord self.bids self.asks o.commitment)
            OrderError.unknownOrder = .ok o := by
          rw [ht.findRecord ho]
          rfl
        rw [expireOrders]
        change EStateM.run (attempt (okOr (Core.findRecord self.bids self.asks o.commitment) _)
          >>= _) self = _
        rw [hfound]
        change EStateM.run (attempt (okOr (checkedAdd released o.remaining) _) >>= _) self = _
        rw [hadd]
        change EStateM.run (attempt (Core.removeByCommitment _ _ _) >>= _) self = _
        rw [ht.removeByCommitment (List.mem_map.mpr ⟨o, ho, rfl⟩)]
        rfl
      have htail := ih ht' hcs hin' (released + o.remaining) hsum
      rw [hheld, Nat.add_assoc] at htail
      rw [hstep]
      split
      · rename_i hlt
        rw [if_pos hlt, editOrders_dropOrders_cons] at htail
        exact htail
      · rename_i hge
        rw [if_neg hge] at htail
        obtain ⟨done, c, rest, rfl, hbreak, hrun⟩ := htail
        obtain ⟨hdone, hrest⟩ := List.append_inj (List.map_append.symm.trans
          (hheld.trans List.map_append)) (by simp)
        rw [hdone, (List.cons.inj hrest).1] at hbreak
        rw [editOrders_dropOrders_cons] at hrun
        refine ⟨o.commitment :: done, c, rest, rfl, ?_, hrun⟩
        rwa [List.map_cons, List.sum_cons, ht.remainingOf ho, ← Nat.add_assoc]
    · rw [if_neg (by omega)]
      refine ⟨[], o.commitment, cs, rfl, ?_, ?_⟩
      · rw [ht.remainingOf ho]
        exact not_lt.mp hsum
      have hadd : okOr (checkedAdd released o.remaining)
          (OrderError.invalid "expired quantity overflowed") =
          .error (.invalid "expired quantity overflowed") := by
        rw [checkedAdd, if_neg hsum]
        rfl
      have hfound : okOr (Core.findRecord self.bids self.asks o.commitment)
          OrderError.unknownOrder = .ok o := by
        rw [ht.findRecord ho]
        rfl
      rw [ht.editOrders_eq_self fun o _ => by simp [dropOrders], expireOrders]
      change EStateM.run (attempt (okOr (Core.findRecord self.bids self.asks o.commitment) _)
        >>= _) self = _
      rw [hfound]
      change EStateM.run (attempt (okOr (checkedAdd released o.remaining) _) >>= _) self = _
      rw [hadd]
      rfl

/-! ## The best opposite order -/

theorem bestOpposite_eq_some
    (h : self.bestOpposite side = some o) :
    ∃ price queue, self.bestPrice side = some price ∧
      (self.levels side.opposite).get? price = some (o :: queue) := by
  obtain ⟨price, hprice, h⟩ := Option.bind_eq_some_iff.mp h
  obtain ⟨queue, hqueue, hhead⟩ := Option.bind_eq_some_iff.mp h
  cases queue with
  | nil => exact absurd hhead (by simp)
  | cons o' queue =>
    obtain rfl : o' = o := by simpa using hhead
    exact ⟨price, queue, hprice, hqueue⟩

theorem mem_levels (h : o ∈ (self.levels side).items) :
    o ∈ self.orders := by
  cases side with
  | buy => exact List.mem_append_left _ h
  | sell => exact List.mem_append_right _ h

theorem mem_levels_of_get? {price : Nat} {queue : List RestingOrder}
    (h : (self.levels side).get? price = some queue) (ho : o ∈ queue) :
    o ∈ (self.levels side).items :=
  mem_items.mpr ⟨(price, queue), mem_entries_iff.mpr h, ho⟩

theorem Tidy.noEmpty_levels (ht : self.Tidy) (side : Side) : (self.levels side).NoEmpty := by
  cases side with
  | buy => exact ht.bids_noEmpty
  | sell => exact ht.asks_noEmpty

theorem Tidy.distinct_levels (ht : self.Tidy) (side : Side) :
    ((self.levels side).items.map commitment).Nodup := by
  have hnd := ht.distinct
  unfold orders at hnd
  rw [List.map_append, List.nodup_append] at hnd
  cases side with
  | buy => exact hnd.1
  | sell => exact hnd.2.1

theorem Tidy.notMem_other (ht : self.Tidy)
    (ho : o ∈ (self.levels side).items) :
    o.commitment ∉ (self.levels side.opposite).items.map commitment := by
  have hnd := ht.distinct
  unfold orders at hnd
  rw [List.map_append, List.nodup_append] at hnd
  have hmem : o.commitment ∈ (self.levels side).items.map commitment :=
    List.mem_map.mpr ⟨o, ho, rfl⟩
  intro hother
  cases side with
  | buy => exact hnd.2.2 _ hmem _ hother rfl
  | sell => exact hnd.2.2 _ hother _ hmem rfl

/-- Rewriting the front of one queue is an edit of one commitment. -/
theorem alter_front_eq_editItems {m : Levels} {price remaining : Nat}
    {queue : List RestingOrder} {F : List RestingOrder → Option (List RestingOrder)}
    (hne : m.NoEmpty) (hnd : (m.items.map commitment).Nodup)
    (hget : m.get? price = some (o :: queue))
    (hF : F (o :: queue) = if ((setRemaining remaining o).toList ++ queue).isEmpty then none
      else some ((setRemaining remaining o).toList ++ queue)) :
    m.alter price (fun q => q.bind F) =
      m.editItems (editKey commitment o.commitment (setRemaining remaining)) := by
  refine ext_get? fun k => ?_
  rw [get?_alter, get?_editItems]
  by_cases hk : k = price
  · subst hk
    have htail : queue.filterMap
        (editKey commitment o.commitment (setRemaining remaining)) = queue :=
      filterMap_editKey_of_notMem (List.nodup_cons.mp (nodup_queue hnd hget)).1
    rw [if_pos rfl, hget, Option.bind_some, Option.bind_some, hF, editEntry]
    simp only [List.filterMap_cons, htail, editKey, if_true]
    cases setRemaining remaining o with
    | none => cases queue <;> rfl
    | some o' => rfl
  · rw [if_neg hk]
    cases hq : m.get? k with
    | none => rfl
    | some q =>
      have hnot : o.commitment ∉ q.map commitment :=
        notMem_other_queue hnd hget hq (Ne.symm hk) List.mem_cons_self
      have hne' : q ≠ [] := hne _ (mem_entries_iff.mpr hq)
      rw [Option.bind_some, editEntry_eq_some.mpr
        ⟨rfl, (filterMap_editKey_of_notMem hnot).symm, hne'⟩]
      rfl

end PrivateBook

end Oclob.Core
