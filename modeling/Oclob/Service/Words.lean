import Oclob.Core.Ledger
import Oclob.Settlement.Consumption

/-!
# The unchecked words of the book

`level`, `expected_batch` and `exceeds_fixed_match_capacity` of `oclob-core/src/lib.rs` add and
subtract `u64` values without a check. Each has a twin here that stops where an operation of the
source would wrap. On a book whose orders add up to a word, together with the arriving order, the
twins run to the end with the same results (`checkedLevel_eq`, `checkedExpectedBatch_eq`), and the
checked sum of `apply_expiry` does not fail (`applyExpiry_ne_overflow`).
-/

namespace Oclob.Service

open Oclob.Core Oclob.Lib Oclob.Settlement

/-- `level`, stopping where its sum wraps. -/
def checkedLevel (side : Side) (price : Nat) (queue : List RestingOrder) : Option PriceLevel :=
  (ReservationBook.checkedSum (queue.map RestingOrder.remaining)).map (⟨side, price, ·⟩)

/-- The loop of `expected_batch` over the slots, stopping where a subtraction wraps. -/
def checkedMatchSlots (side : Side) (price : Nat) : Nat → List PrivateRestingInput →
    Option (List MpcSlotResult × Nat)
  | arrivingRemaining, [] => some ([], arrivingRemaining)
  | arrivingRemaining, resting :: rest => do
    let crossed := decide (resting.side ≠ side) && side.crosses price resting.price &&
      decide (0 < arrivingRemaining) && decide (0 < resting.quantity)
    let tradeQuantity := if crossed then min arrivingRemaining resting.quantity else 0
    let left ← checkedSub arrivingRemaining tradeQuantity
    let tail ← checkedMatchSlots side price left rest
    return (⟨crossed, if crossed then resting.price else 0, tradeQuantity⟩ :: tail.1, tail.2)

/-- One addition to the published depth. -/
def checkedAddLevel (levels : OrdMap (Nat ×ₗ Nat) Nat) (side : Side) (price quantity : Nat) :
    Option (OrdMap (Nat ×ₗ Nat) Nat) :=
  if 0 < quantity then
    (checkedAdd ((levels.get? (toLex (side.wire, price))).getD 0) quantity).map
      (levels.insert (toLex (side.wire, price)))
  else some levels

/-- `expected_batch`, stopping where an addition or a subtraction wraps. -/
def checkedExpectedBatch (batch : PrivateMatchBatch) : Option MpcBatchResult := do
  let (slots, arrivingRemaining) ← checkedMatchSlots batch.arrivingSide batch.arrivingPrice
    batch.arrivingQuantity batch.resting
  let remaining := if batch.arrivingCanRest then arrivingRemaining else 0
  let resting ← (batch.resting.zip slots).foldlM (fun levels pair => do
    checkedAddLevel levels pair.1.side pair.1.price
      (← checkedSub pair.1.quantity pair.2.tradeQuantity)) OrdMap.empty
  let levels ← checkedAddLevel resting batch.arrivingSide batch.arrivingPrice remaining
  return ⟨slots, remaining, some ((levels.entries.map fun entry =>
    ⟨if (ofLex entry.1).1 = 0 then .buy else .sell, (ofLex entry.1).2, entry.2⟩).insertionSort
      fun a b => a.sortKey ≤ b.sortKey)⟩

/-- The loop of `exceeds_fixed_match_capacity`, stopping where its subtraction or its count
wraps. -/
def checkedExceedsLoop (side : Side) (price : Nat) : Nat → Nat → List RestingOrder → Option Bool
  | _, _, [] => some false
  | remaining, matched, resting :: rest =>
    if side.crosses price resting.secret.limitPrice = false ∨ remaining = 0 then some false
    else do
      let left ← checkedSub remaining (min remaining resting.remaining)
      let matched ← checkedAdd matched 1
      if maxMatchSlots < matched then some true
      else checkedExceedsLoop side price left matched rest

/-! ## The loops -/

section

variable {side : Side} {price : Nat}

theorem checkedLevel_eq {queue : List RestingOrder}
    (h : (queue.map RestingOrder.remaining).sum < u64Bound) :
    checkedLevel side price queue = some (level side price queue) := by
  rw [checkedLevel, ReservationBook.checkedSum_eq_some_iff.mpr ⟨h, rfl⟩, level, Nat.mod_eq_of_lt h]
  rfl

/-- A trade is at most what is left of the arriving order, so the loop never wraps. -/
theorem checkedMatchSlots_eq (Q : Nat) (inputs : List PrivateRestingInput) :
    checkedMatchSlots side price Q inputs = some (matchSlots side price Q inputs) := by
  induction inputs generalizing Q with
  | nil => rfl
  | cons resting inputs ih =>
    have hle : ∀ crossed : Bool, (if crossed then min Q resting.quantity else 0) ≤ Q := by
      intro crossed
      split <;> omega
    simp only [checkedMatchSlots, matchSlots, checkedSub_eq_some.mpr ⟨hle _, rfl⟩, ih, bind,
      Option.bind, pure]

theorem checkedExceedsLoop_eq (remaining : Nat) {matched : Nat} (hmatched : matched ≤ maxMatchSlots)
    (queue : List RestingOrder) :
    checkedExceedsLoop side price remaining matched queue =
      some (PrivateBook.exceedsLoop side price remaining matched queue) := by
  induction queue generalizing remaining matched with
  | nil => rfl
  | cons resting queue ih =>
    unfold checkedExceedsLoop PrivateBook.exceedsLoop
    have hword : matched + 1 < u64Bound := lt_of_le_of_lt (Nat.succ_le_succ hmatched) (by decide)
    simp only [checkedSub_eq_some.mpr ⟨min_le_left remaining resting.remaining, rfl⟩,
      checkedAdd_eq_some.mpr ⟨hword, rfl⟩, bind, Option.bind]
    split
    · rfl
    · split
      · rfl
      · rename_i hcount
        exact ih _ (Nat.le_of_not_lt hcount)

variable {levels : OrdMap (Nat ×ₗ Nat) Nat}

/-- No level is above this. -/
def Below (bound : Nat) (levels : OrdMap (Nat ×ₗ Nat) Nat) : Prop :=
  ∀ key quantity, levels.get? key = some quantity → quantity ≤ bound

theorem checkedAddLevel_eq (side : Side) (price : Nat) {bound quantity : Nat}
    (hbelow : Below bound levels) (hword : bound + quantity < u64Bound) :
    checkedAddLevel levels side price quantity = some (addLevel levels side price quantity) ∧
      Below (bound + quantity) (addLevel levels side price quantity) := by
  have hold : (levels.get? (toLex (side.wire, price))).getD 0 ≤ bound := by
    cases hget : levels.get? (toLex (side.wire, price)) with
    | none => exact Nat.zero_le _
    | some old => exact hbelow _ old hget
  have hmod := Nat.mod_eq_of_lt ((Nat.add_le_add_right hold quantity).trans_lt hword)
  unfold checkedAddLevel addLevel
  split
  · refine ⟨?_, fun key total hget => ?_⟩
    · rw [checkedAdd_eq_some.mpr ⟨(Nat.add_le_add_right hold quantity).trans_lt hword, rfl⟩]
      refine congrArg some (OrdMap.ext_get? fun key => ?_)
      rw [OrdMap.get?_insert, OrdMap.get?_alter, hmod]
    · rw [OrdMap.get?_alter, hmod] at hget
      split at hget
      · exact (Option.some.inj hget) ▸ Nat.add_le_add_right hold quantity
      · exact (hbelow key total hget).trans (Nat.le_add_right _ _)
  · exact ⟨rfl, fun key total hget => (hbelow key total hget).trans (Nat.le_add_right _ _)⟩

/-- The additions of the resting orders: no level exceeds what has been added in all. -/
theorem foldlM_checkedAddLevel {pairs : List (PrivateRestingInput × MpcSlotResult)} {bound : Nat}
    (hbelow : Below bound levels)
    (htraded : ∀ pair ∈ pairs, pair.2.tradeQuantity ≤ pair.1.quantity)
    (hword : bound + (pairs.map fun pair => pair.1.quantity).sum < u64Bound) :
    pairs.foldlM (fun levels pair => do
      checkedAddLevel levels pair.1.side pair.1.price
        (← checkedSub pair.1.quantity pair.2.tradeQuantity)) levels =
      some (pairs.foldl (fun levels pair => addLevel levels pair.1.side pair.1.price
        (pair.1.quantity - pair.2.tradeQuantity)) levels) ∧
    Below (bound + (pairs.map fun pair => pair.1.quantity).sum)
      (pairs.foldl (fun levels pair => addLevel levels pair.1.side pair.1.price
        (pair.1.quantity - pair.2.tradeQuantity)) levels) := by
  induction pairs generalizing levels bound with
  | nil => exact ⟨rfl, hbelow⟩
  | cons pair pairs ih =>
    obtain ⟨hfirst, hrest⟩ := List.forall_mem_cons.mp htraded
    rw [List.map_cons, List.sum_cons] at hword ⊢
    have hle : pair.1.quantity - pair.2.tradeQuantity ≤ pair.1.quantity := Nat.sub_le _ _
    have hroom : bound + (pair.1.quantity - pair.2.tradeQuantity) < u64Bound := by omega
    obtain ⟨hadd, hadded⟩ := checkedAddLevel_eq pair.1.side pair.1.price hbelow hroom
    have hnext : Below (bound + pair.1.quantity) _ :=
      fun key total hget => (hadded key total hget).trans (by omega)
    obtain ⟨hfold, hfolded⟩ := ih hnext hrest (by omega)
    rw [List.foldlM_cons, List.foldl_cons, checkedSub_eq_some.mpr ⟨hfirst, rfl⟩]
    refine ⟨?_, Nat.add_assoc bound _ _ ▸ hfolded⟩
    exact (congrArg (· >>= _) hadd).trans hfold

end

/-- **`expected_batch` does not wrap** when its quantities add up to a word. -/
theorem checkedExpectedBatch_eq {batch : PrivateMatchBatch}
    (hword : (batch.resting.map PrivateRestingInput.quantity).sum + batch.arrivingQuantity <
      u64Bound) : checkedExpectedBatch batch = some (expectedBatch batch) := by
  set slots := matchSlots batch.arrivingSide batch.arrivingPrice batch.arrivingQuantity
    batch.resting with hslots
  have htraded : ∀ pair ∈ batch.resting.zip slots.1,
      pair.2.tradeQuantity ≤ pair.1.quantity := fun pair hpair => by
    obtain ⟨-, left, -, heq⟩ := mem_zip_matchSlots hpair
    exact heq ▸ matchSlot_tradeQuantity_le
  have hsum : (batch.resting.zip slots.1).map (fun pair => pair.1.quantity) =
      batch.resting.map PrivateRestingInput.quantity := by
    have hfst : (batch.resting.zip slots.1).map Prod.fst = batch.resting := map_fst_zip_matchSlots
    conv_rhs => rw [← hfst, List.map_map]
    rfl
  have hleft : (if batch.arrivingCanRest then slots.2 else 0) ≤ batch.arrivingQuantity := by
    have hsnd : slots.2 = _ := matchSlots_snd
    split <;> omega
  have hempty : Below 0 OrdMap.empty := fun key total hget => by simp at hget
  obtain ⟨hfold, hfolded⟩ := foldlM_checkedAddLevel hempty htraded (by rw [hsum]; omega)
  rw [hsum] at hfolded
  obtain ⟨hadd, -⟩ := checkedAddLevel_eq batch.arrivingSide batch.arrivingPrice hfolded
    (by omega : 0 + _ + (if batch.arrivingCanRest then slots.2 else 0) < u64Bound)
  unfold checkedExpectedBatch
  rw [checkedMatchSlots_eq, ← hslots]
  simp only [bind, Option.bind, pure] at hfold ⊢
  rw [hfold]
  simp only []
  rw [hadd]
  rfl

/-! ## The book -/

section

open PrivateBook

variable {book : PrivateBook} {arriving : SecretOrder} {authority : OrderAuthority}
  {seq now : Nat}

/-- Everything that rests in the book. -/
def openTotal (book : PrivateBook) : Nat := (book.orders.map RestingOrder.remaining).sum

theorem level_sum_le {side : Side} {price : Nat} {queue : List RestingOrder}
    (h : (book.levels side).get? price = some queue) :
    (queue.map RestingOrder.remaining).sum ≤ openTotal book := by
  have hqueue : queue.Sublist (book.levels side).items :=
    List.sublist_flatten_of_mem (List.mem_map_of_mem (f := Prod.snd) (OrdMap.mem_entries_iff.mpr h))
  have horders : (book.levels side).items.Sublist book.orders := by
    cases side with
    | buy => exact List.sublist_append_left _ _
    | sell => exact List.sublist_append_right _ _
  exact ((hqueue.trans horders).map _).sum_le_sum fun _ _ => Nat.zero_le _

/-- Items with different commitments, each within an order of the book. -/
theorem sum_le_openTotal {α : Type} {items : List α} {key : α → Digest32} {amount : α → Nat}
    (hnd : (items.map key).Nodup)
    (h : ∀ a ∈ items, ∃ o ∈ book.orders, o.commitment = key a ∧ amount a ≤ o.remaining) :
    (items.map amount).sum ≤ openTotal book := by
  have hsum := sum_le_of_nodup (l := book.orders.map fun o => (o.commitment, o.remaining)) hnd
    fun a ha => by
      obtain ⟨o, ho, hkey, hle⟩ := h a ha
      exact ⟨o.remaining, hle, List.mem_map.mpr ⟨o, ho, by rw [hkey]⟩⟩
  rwa [List.map_map] at hsum

/-- An edit that only lowers orders. -/
theorem openTotal_editOrders {f : RestingOrder → Option RestingOrder}
    (hf : ∀ o o', f o = some o' → o'.remaining ≤ o.remaining) :
    openTotal (book.editOrders f) ≤ openTotal book := by
  unfold openTotal
  rw [orders_editOrders]
  induction book.orders with
  | nil => exact le_rfl
  | cons o orders ih =>
    rw [List.map_cons, List.sum_cons]
    cases ho : f o with
    | none =>
      rw [List.filterMap_cons_none ho]
      omega
    | some o' =>
      have hle := hf o o' ho
      rw [List.filterMap_cons_some ho, List.map_cons, List.sum_cons]
      omega

variable [Crypto]

theorem resting_sum_le (hinv : book.Inv) (arriving : SecretOrder) (now : Nat) :
    ((book.batchOf arriving now).resting.map PrivateRestingInput.quantity).sum ≤
      openTotal book := by
  have hnd := (hinv.tidy.distinct_live arriving.side now).sublist
    ((List.take_sublist maxMatchSlots _).map RestingOrder.commitment)
  rw [PrivateBook.batchOf, List.map_map]
  exact sum_le_openTotal hnd fun o ho =>
    ⟨o, mem_levels (mem_live.mp (List.mem_of_mem_take ho)).1, rfl, le_rfl⟩

theorem expiredTotal_le (hinv : book.Inv) (cutoff : Nat) :
    book.expiredTotal cutoff ≤ openTotal book := by
  have hnd := hinv.tidy.nodup_expiredCommitments cutoff
  rw [← List.map_id (book.expiredCommitments cutoff)] at hnd
  refine sum_le_openTotal hnd fun c hc => ?_
  obtain ⟨o, ho, -, rfl⟩ := mem_expiredCommitments.mp hc
  exact ⟨o, ho, rfl, (hinv.tidy.remainingOf ho).le⟩

/-- **The checked sum of `apply_expiry` does not fail.** -/
theorem applyExpiry_ne_overflow (hinv : book.Inv) (hword : openTotal book < u64Bound)
    {cutoff : Nat} {command : Digest32} {e : OrderError} {book' : PrivateBook}
    (h : (applyExpiry cutoff command seq).run book = .error e book') :
    e ≠ .invalid "expired quantity overflowed" := by
  have hloop := hinv.tidy.expireOrders_expired cutoff
  rw [if_pos ((expiredTotal_le hinv cutoff).trans_lt hword)] at hloop
  unfold applyExpiry at h
  simp only [run_bind_eq_error, run_rules, run_get_ne_error, run_ensure_eq_error,
    run_modify_ne_error, run_pure_ne_error, and_false, exists_false, or_false, false_or] at h
  obtain ⟨s₁, s₂, ⟨rfl, rfl⟩, h⟩ := h
  rcases h with ⟨-, rfl, -⟩ | ⟨⟨⟩, s₃, ⟨-, rfl⟩, h⟩
  · simp
  rcases h with ⟨-, rfl, -⟩ | ⟨⟨⟩, s₄, ⟨-, rfl⟩, h⟩
  · simp
  rcases h with ⟨-, rfl, -⟩ | ⟨⟨⟩, s₅, ⟨-, rfl⟩, h⟩
  · simp
  · rw [hloop] at h
    exact absurd h (by simp)

omit [Crypto] in
/-- Nothing but the remainder of the arriving order is new in the staged book of a batch. -/
theorem openTotal_afterBatch :
    openTotal (book.afterBatch arriving authority seq now) ≤
      openTotal book + arriving.quantity := by
  have hreduced : openTotal (book.editOrders (reduceBy (traded (book.slotPairs arriving now)))) ≤
      openTotal book := openTotal_editOrders fun o o' ho => by
    unfold reduceBy setRemaining at ho
    split at ho
    · exact absurd ho (by simp)
    · exact Option.some.inj ho ▸ Nat.sub_le _ _
  have hleft : (expectedBatch (book.batchOf arriving now)).arrivingRemaining ≤
      arriving.quantity := by
    have hwhole : _ + book.unfilled arriving now = arriving.quantity :=
      sum_slotFills authority.commitment
    rw [arrivingRemaining_eq_unfilled]
    split <;> omega
  unfold PrivateBook.afterBatch restRemainder
  split
  · change openTotal (PrivateBook.insertRecord _ _) ≤ _
    unfold openTotal at hreduced ⊢
    rw [((orders_insertRecord _).map _).sum_eq, List.map_cons, List.sum_cons, Nat.add_comm]
    exact Nat.add_le_add hreduced hleft
  · exact hreduced.trans (Nat.le_add_right _ _)

end

end Oclob.Service
