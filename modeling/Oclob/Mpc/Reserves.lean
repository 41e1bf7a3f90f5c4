import Oclob.Mpc.Matching

/-!
# The reserves inside the circuit

The reserve lines of `matching_program_parts` (`oclob-mpc/src/lib.rs`): each slot takes the cash and
the securities of its trade out of the maker's and the taker's reserve, and the rest of a reserve is
decomposed into 32 bits. The taker's reserve runs through the slots in slot order, while the
quantities were shared out in price-time order.

`reserve_bookkeeping_sound`: if every order is covered by its reserve when the round begins, no
remainder of any slot is negative or longer than 32 bits. For the taker this holds at every slot,
because whichever slots have been charged so far trade at most the arriving quantity, each at a
price no worse than the arriving limit (`sum_takerDelivers_le`).

Assumed of the backend: its comparisons are exact on the numbers the input gives it to compare
(`Gates.ExactBelow`, `Comparable`).
-/

namespace Oclob.Mpc

open Oclob.Core Oclob.Lib

/-! ## The numbers -/

section Values

variable {n : Nat} (slots : Fin n → RestingSlot) (arriving : ArrivingOrder)

/-- `cash_{i}`. -/
def cashOf (i : Fin n) : Nat := tradeOf slots arriving i * (slots i).price

/-- The leg a side delivers of the trade in slot `i`. -/
def deliveredBy (side : Side) (i : Fin n) : Nat :=
  match side with
  | .sell => tradeOf slots arriving i
  | .buy => cashOf slots arriving i

/-- `maker_delivery_{i}`. -/
def makerDelivers (i : Fin n) : Nat := deliveredBy slots arriving (slots i).side i

/-- `arriving_delivery_{i}`. -/
def takerDelivers (i : Fin n) : Nat := deliveredBy slots arriving arriving.side i

/-- What an order must hold: its price for its quantity, or its quantity. -/
def requiredFor (side : Side) (price quantity : Nat) : Nat :=
  match side with
  | .buy => price * quantity
  | .sell => quantity

/-- The reserves cover the orders and are 32-bit values. -/
structure Reserved (reserves : Fin n → Nat) (reserve : Nat) : Prop where
  resting : ∀ i, (slots i).active = true →
    requiredFor (slots i).side (slots i).price (slots i).quantity ≤ reserves i
  arriving : requiredFor arriving.side arriving.price arriving.quantity ≤ reserve
  restingWord : ∀ i, reserves i < 2 ^ 32
  arrivingWord : reserve < 2 ^ 32

end Values

section Bounds

variable {n : Nat} {slots : Fin n → RestingSlot} {arriving : ArrivingOrder}

/-- A slot that trades is active, on the other side, and its price crosses. -/
theorem joins_of_tradeOf {i : Fin n} (h : 0 < tradeOf slots arriving i) :
    (slots i).active = true ∧ (slots i).side = arriving.side.opposite ∧
      arriving.side.crosses arriving.price (slots i).price = true := by
  have hjoins : joins slots arriving i = true := by
    unfold tradeOf at h
    by_contra hno
    rw [if_neg hno] at h
    exact absurd h (lt_irrefl 0)
  simp only [joins, Bool.and_eq_true, decide_eq_true_eq] at hjoins
  exact ⟨hjoins.1.1, Side.ne_iff_eq_opposite.mp hjoins.1.2, hjoins.2⟩

/-- A trade costs the buyer at most its own limit, and the seller the quantity. -/
theorem deliveredBy_le_of_crosses (i : Fin n) :
    deliveredBy slots arriving arriving.side i ≤
      requiredFor arriving.side arriving.price (tradeOf slots arriving i) := by
  rcases Nat.eq_zero_or_pos (tradeOf slots arriving i) with hzero | hpos
  · cases hside : arriving.side <;> simp [deliveredBy, cashOf, hzero]
  · have hcross := (joins_of_tradeOf hpos).2.2
    cases hside : arriving.side with
    | sell => exact le_refl _
    | buy =>
      rw [hside] at hcross
      have hprice : (slots i).price ≤ arriving.price := by simpa [Side.crosses] using hcross
      simp only [deliveredBy, cashOf, requiredFor]
      rw [Nat.mul_comm]
      exact Nat.mul_le_mul_right _ hprice

variable {reserves : Fin n → Nat} {reserve : Nat}

/-- **The maker's reserve pays its leg.** -/
theorem makerDelivers_le (h : Reserved slots arriving reserves reserve) (i : Fin n) :
    makerDelivers slots arriving i ≤ reserves i := by
  rcases Nat.eq_zero_or_pos (tradeOf slots arriving i) with hzero | hpos
  · have hnone : makerDelivers slots arriving i = 0 := by
      unfold makerDelivers deliveredBy cashOf
      cases (slots i).side <;> simp [hzero]
    omega
  · refine le_trans ?_ (h.resting i (joins_of_tradeOf hpos).1)
    have hle : tradeOf slots arriving i ≤ (slots i).quantity := tradeOf_le i
    unfold makerDelivers deliveredBy cashOf requiredFor
    cases (slots i).side with
    | sell => exact hle
    | buy =>
      rw [Nat.mul_comm]
      exact Nat.mul_le_mul_left _ hle

/-- **The taker's reserve pays any selection of slots**: together they trade at most the arriving
quantity, and none at a price worse than the limit. -/
theorem sum_takerDelivers_le (h : Reserved slots arriving reserves reserve) {l : List (Fin n)}
    (hl : l.Sublist (List.finRange n)) : (l.map (takerDelivers slots arriving)).sum ≤ reserve := by
  have hsame : allocated slots arriving = tradeOf slots arriving := funext allocated_eq_tradeOf
  have htraded : (l.map (tradeOf slots arriving)).sum ≤ arriving.quantity := by
    rw [← hsame]
    exact ((hl.map _).sum_le_sum fun _ _ => Nat.zero_le _).trans sum_allocated_le
  have hlegs : (l.map (takerDelivers slots arriving)).sum ≤
      (l.map fun i => requiredFor arriving.side arriving.price (tradeOf slots arriving i)).sum :=
    List.sum_le_sum fun i _ => deliveredBy_le_of_crosses i
  refine (hlegs.trans ?_).trans h.arriving
  cases arriving.side with
  | sell => exact htraded
  | buy =>
    simp only [requiredFor]
    rw [List.sum_map_mul_left]
    exact Nat.mul_le_mul_left _ htraded

/-- The leg of the side that makes the trade comes out of the slot's reserve. -/
theorem deliveredBy_opposite_le (h : Reserved slots arriving reserves reserve) (i : Fin n) :
    deliveredBy slots arriving arriving.side.opposite i ≤ reserves i := by
  rcases Nat.eq_zero_or_pos (tradeOf slots arriving i) with hzero | hpos
  · have hnone : deliveredBy slots arriving arriving.side.opposite i = 0 := by
      unfold deliveredBy cashOf
      cases arriving.side.opposite <;> simp [hzero]
    omega
  · rw [← (joins_of_tradeOf hpos).2.1]
    exact makerDelivers_le h i

/-- The buyer of a trade has a limit of 32 bits. -/
theorem limit_lt (h : Reserved slots arriving reserves reserve) {i : Fin n}
    (hpos : 0 < tradeOf slots arriving i) :
    (match arriving.side with | .sell => (slots i).price | .buy => arriving.price) < 2 ^ 32 := by
  obtain ⟨hactive, hside, -⟩ := joins_of_tradeOf hpos
  cases harr : arriving.side with
  | sell =>
    have hcover := h.resting i hactive
    rw [hside, harr] at hcover
    have hquantity : 0 < (slots i).quantity := hpos.trans_le (tradeOf_le i)
    exact (Nat.le_mul_of_pos_right _ hquantity).trans_lt (hcover.trans_lt (h.restingWord i))
  | buy =>
    have hcover := h.arriving
    rw [harr] at hcover
    have hquantity : 0 < arriving.quantity := by
      unfold tradeOf at hpos
      split at hpos <;> omega
    exact (Nat.le_mul_of_pos_right _ hquantity).trans_lt (hcover.trans_lt h.arrivingWord)

end Bounds

/-! ## The wires -/

section Wires

variable {n : Nat} {F : Type} [CommRing F] {gates : Gates F} {env : Wire n → F}
  {slots : Fin n → RestingSlot} {arriving : ArrivingOrder} {reserves : Fin n → Nat} {reserve : Nat}

/-- The value of `x.bit_decompose(32)` is exact: the wire holds a number of 32 bits. -/
def IsWord (x : F) : Prop := ∃ v : Nat, v < 2 ^ 32 ∧ x = (v : F)

/-- The input wires hold the reserves. -/
structure Funded (env : Wire n → F) (reserves : Fin n → Nat) (reserve : Nat) : Prop where
  restingReserve : ∀ i, env (.slot i .restingReserve) = (reserves i : F)
  arrivingReserve : env (.order .arrivingReserve) = (reserve : F)

theorem Funded.exec (h : Funded env reserves reserve) {prog : List (Assign (Wire n))}
    (hprog : ∀ line ∈ prog, line.target.isInput = false) :
    Funded (exec gates env prog) reserves reserve := by
  have hkeep : ∀ w : Wire n, w.isInput = true → Lib.exec gates env prog w = env w := by
    intro w hw
    refine exec_frame fun line hline heq => ?_
    have hfalse := hprog line hline
    rw [heq, hw] at hfalse
    exact absurd hfalse (by simp)
  exact ⟨fun i => (hkeep _ rfl).trans (h.restingReserve i), (hkeep _ rfl).trans h.arrivingReserve⟩

/-- The linear form of `c.if_else(a, b)`. -/
def choose (c a b : F) : F := c * (a - b) + b

/-- A choice on the wire of a side. -/
theorem choose_side (side : Side) (a b : F) :
    choose (side.wire : F) a b = match side with | .sell => a | .buy => b := by
  cases side <;> simp [choose, Side.wire]

/-- The reserve lines of a slot as equations between the wires after them and those before. -/
theorem exec_reserveLines_eq (gates : Gates F) (env : Wire n → F) (i : Fin n) :
    let after := exec gates env (reserveLines i)
    let taker := env (.order .arrivingSide)
    let maker := env (.slot i .restingSide)
    let quantity := env (.slot i .tradeQuantity)
    let cash := quantity * env (.slot i .tradePrice)
    after (.slot i .limitDifference) = env (.slot i .matched) *
      choose taker (env (.slot i .tradePrice) - env (.order .arrivingPrice))
        (env (.order .arrivingPrice) - env (.slot i .tradePrice)) ∧
    after (.slot i .securitiesRemainder) = choose taker (env (.order .arrivingReserveRemaining))
      (env (.slot i .restingReserve)) - quantity ∧
    after (.slot i .securitiesRemainderBlinding) =
      choose taker (env (.order .arrivingReserveBlindingRemaining))
        (env (.slot i .restingReserveBlinding)) - env (.slot i .fillQuantityBlinding) ∧
    after (.slot i .cashRemainder) = choose taker (env (.slot i .restingReserve))
      (env (.order .arrivingReserveRemaining)) - cash ∧
    after (.slot i .cashRemainderBlinding) = choose taker (env (.slot i .restingReserveBlinding))
      (env (.order .arrivingReserveBlindingRemaining)) - env (.slot i .cashBlinding) ∧
    after (.slot i .makerPoolRemainder) =
      env (.slot i .restingReserve) - choose maker quantity cash ∧
    after (.slot i .makerPoolRemainderBlinding) = env (.slot i .restingReserveBlinding) -
      env (.slot i .matched) * choose maker (env (.slot i .fillQuantityBlinding))
        (env (.slot i .cashBlinding)) ∧
    after (.slot i .arrivingDelivery) = choose taker quantity cash ∧
    after (.order .arrivingReserveRemaining) =
      env (.order .arrivingReserveRemaining) - choose taker quantity cash := by
  simp [reserveLines, exec_cons, Assign.exec, slotVar, orderVar, Expr.eval, choose]

theorem isWord_sub {m v : Nat} (hle : m ≤ v) (hv : v < 2 ^ 32) : IsWord ((v : F) - (m : F)) :=
  ⟨v - m, by omega, (Nat.cast_sub hle).symm⟩

/-- Slot `i` has paid: its remainders are 32-bit numbers, and the maker's pool is left with what
the leg it delivers leaves. -/
structure Charged (env : Wire n → F) (slots : Fin n → RestingSlot) (arriving : ArrivingOrder)
    (i : Fin n) : Prop where
  securitiesRemainder : IsWord (env (.slot i .securitiesRemainder))
  cashRemainder : IsWord (env (.slot i .cashRemainder))
  makerPoolRemainder : IsWord (env (.slot i .makerPoolRemainder))
  limitDifference : IsWord (env (.slot i .limitDifference))
  makerLeg : 0 < tradeOf slots arriving i → match (slots i).side with
    | .sell => env (.slot i .makerPoolRemainder) = env (.slot i .securitiesRemainder) ∧
        env (.slot i .makerPoolRemainderBlinding) = env (.slot i .securitiesRemainderBlinding)
    | .buy => env (.slot i .makerPoolRemainder) = env (.slot i .cashRemainder) ∧
        env (.slot i .makerPoolRemainderBlinding) = env (.slot i .cashRemainderBlinding)
  arrivingDelivery : env (.slot i .arrivingDelivery) = (takerDelivers slots arriving i : F)

theorem Charged.exec {i : Fin n} (h : Charged env slots arriving i)
    {prog : List (Assign (Wire n))} (hprog : ∀ line ∈ prog, ∀ w, line.target ≠ .slot i w) :
    Charged (exec gates env prog) slots arriving i := by
  have hkeep : ∀ w, Lib.exec gates env prog (.slot i w) = env (.slot i w) :=
    fun w => exec_frame fun line hline => hprog line hline w
  obtain ⟨hsecurities, hcash, hpool, hlimit, hleg, hdelivery⟩ := h
  refine ⟨?_, ?_, ?_, ?_, ?_, ?_⟩
  all_goals simpa only [hkeep]

theorem isWord_limit (hr : Reserved slots arriving reserves reserve) (i : Fin n) :
    IsWord ((bit (decide (0 < tradeOf slots arriving i)) : F) * match arriving.side with
      | .sell => ((if 0 < tradeOf slots arriving i then (slots i).price else 0 : Nat) : F) -
          (arriving.price : F)
      | .buy => (arriving.price : F) -
          ((if 0 < tradeOf slots arriving i then (slots i).price else 0 : Nat) : F)) := by
  rcases Nat.eq_zero_or_pos (tradeOf slots arriving i) with hzero | hpos
  · exact ⟨0, by decide, by simp [hzero, bit]⟩
  · have hlt := limit_lt hr hpos
    have hcross := (joins_of_tradeOf hpos).2.2
    rw [if_pos hpos, bit, if_pos (by simpa using hpos), one_mul]
    cases harr : arriving.side with
    | sell =>
      rw [harr] at hlt hcross
      exact isWord_sub (by simpa [Side.crosses] using hcross) hlt
    | buy =>
      rw [harr] at hlt hcross
      exact isWord_sub (by simpa [Side.crosses] using hcross) hlt

/-- **One slot is charged**: what it takes is there, in the maker's reserve and in what the slots
before it have left of the taker's. -/
theorem exec_reserveLines (hr : Reserved slots arriving reserves reserve)
    (hl : Loaded env slots arriving) (hf : Funded env reserves reserve) {i : Fin n}
    (ht : Traded env slots arriving i) {spent : Nat}
    (hspent : spent + takerDelivers slots arriving i ≤ reserve)
    (hrem : env (.order .arrivingReserveRemaining) = ((reserve - spent : Nat) : F)) :
    Charged (exec gates env (reserveLines i)) slots arriving i ∧
    exec gates env (reserveLines i) (.order .arrivingReserveRemaining) =
      ((reserve - (spent + takerDelivers slots arriving i) : Nat) : F) := by
  obtain ⟨hlimit, hsec, hsecb, hcash, hcashb, hpool, hpoolb, hdelivery, hnext⟩ :=
    exec_reserveLines_eq gates env i
  generalize exec gates env (reserveLines i) = after at *
  have hpaid : env (.slot i .tradeQuantity) * env (.slot i .tradePrice) =
      (cashOf slots arriving i : F) := by
    rw [ht.tradeQuantity, ht.tradePrice, ← Nat.cast_mul]
    congr 1
    unfold cashOf
    rcases Nat.eq_zero_or_pos (tradeOf slots arriving i) with hzero | hpos
    · simp [hzero]
    · rw [if_pos hpos]
  have hleg : ∀ side : Side, (match side with
      | .sell => (tradeOf slots arriving i : F)
      | .buy => (cashOf slots arriving i : F)) = (deliveredBy slots arriving side i : F) :=
    fun side => by cases side <;> rfl
  -- the equations of the lines, in numbers
  rw [hpaid, ht.tradeQuantity, hl.restingSide, hf.restingReserve, choose_side, hleg] at hpool
  rw [hpaid, ht.tradeQuantity, hl.arrivingSide, choose_side, hleg] at hdelivery
  rw [hpaid, ht.tradeQuantity, hl.arrivingSide, choose_side, hleg, hrem] at hnext
  rw [hpaid, hl.arrivingSide, hf.restingReserve, hrem, choose_side] at hcash
  rw [ht.tradeQuantity, hl.arrivingSide, hf.restingReserve, hrem, choose_side] at hsec
  rw [hl.arrivingSide, choose_side] at hsecb hcashb
  rw [hl.restingSide, choose_side] at hpoolb
  rw [hl.arrivingSide, choose_side, ht.matched, ht.tradePrice, hl.arrivingPrice] at hlimit
  have htaker : deliveredBy slots arriving arriving.side i ≤ reserve - spent := by
    change takerDelivers slots arriving i ≤ _
    omega
  have hleft : reserve - spent < 2 ^ 32 := (Nat.sub_le _ _).trans_lt hr.arrivingWord
  have hmaker := deliveredBy_opposite_le hr i
  have hword := hr.restingWord i
  refine ⟨⟨?_, ?_, ?_, hlimit ▸ isWord_limit hr i, fun hpos => ?_, hdelivery⟩, ?_⟩
  · rw [hsec]
    cases harr : arriving.side with
    | sell =>
      rw [harr] at htaker
      exact isWord_sub htaker hleft
    | buy =>
      rw [harr] at hmaker
      exact isWord_sub hmaker hword
  · rw [hcash]
    cases harr : arriving.side with
    | sell =>
      rw [harr] at hmaker
      exact isWord_sub hmaker hword
    | buy =>
      rw [harr] at htaker
      exact isWord_sub htaker hleft
  · rw [hpool]
    exact isWord_sub (makerDelivers_le hr i) hword
  · have hside := (joins_of_tradeOf hpos).2.1
    have hmatched : env (.slot i .matched) = 1 := by
      rw [ht.matched, bit, if_pos (by simpa using hpos)]
    rw [hpool, hpoolb, hsec, hsecb, hcash, hcashb, hmatched, hside]
    cases arriving.side <;> simp [Side.opposite, deliveredBy]
  · rw [hnext, ← Nat.sub_sub]
    exact (Nat.cast_sub htaker).symm

theorem funded_priorityProgram (gates : Gates F) (hf : Funded env reserves reserve) :
    Funded (exec gates env (priorityProgram n)) reserves reserve ∧
    exec gates env (priorityProgram n) (.order .arrivingReserveRemaining) = (reserve : F) := by
  unfold priorityProgram
  rw [List.append_assoc, exec_append]
  have hstart : Funded (exec gates env startLines) reserves reserve :=
    hf.exec (by simp [startLines, Wire.isInput, OrderWire.isInput])
  refine ⟨hstart.exec fun line hline => (target_priorityProgram hline).1, ?_⟩
  rw [exec_frame fun line hline => (target_priorityProgram hline).2]
  simpa [startLines, exec_cons, Assign.exec, Function.update_apply, orderVar] using
    hf.arrivingReserve

variable {bound : Nat} (hg : gates.ExactBelow bound) (hc : Comparable bound slots arriving)
  (hr : Reserved slots arriving reserves reserve)
include hg hc hr

/-- The lines of one slot, its trade and its charge. -/
theorem charged_slotLines (h : Ready env slots arriving) (hf : Funded env reserves reserve)
    {i : Fin n} {spent : Nat} (hspent : spent + takerDelivers slots arriving i ≤ reserve)
    (hrem : env (.order .arrivingReserveRemaining) = ((reserve - spent : Nat) : F)) :
    Charged (exec gates env (slotLines i)) slots arriving i ∧
    exec gates env (slotLines i) (.order .arrivingReserveRemaining) =
      ((reserve - (spent + takerDelivers slots arriving i) : Nat) : F) := by
  have hinput : ∀ line ∈ tradeLines i, line.target.isInput = false := by
    simp [tradeLines, Wire.isInput, SlotWire.isInput, OrderWire.isInput]
  unfold slotLines
  rw [exec_append]
  refine exec_reserveLines hr (h.loaded.exec hinput) (hf.exec hinput)
    (exec_tradeLines hg hc h i).1 hspent ?_
  rw [exec_frame (by simp [tradeLines]), hrem]

/-- **The circuit after the lines of the first `k` slots**: each of them is charged, and the taker
has left what they did not take. -/
theorem charged_matchingProgramUpTo (h : Loaded env slots arriving)
    (hf : Funded env reserves reserve) (k : Nat) :
    (∀ i ∈ (List.finRange n).take k,
      Charged (exec gates env (matchingProgramUpTo n k)) slots arriving i) ∧
    exec gates env (matchingProgramUpTo n k) (.order .arrivingReserveRemaining) =
      ((reserve - (((List.finRange n).take k).map (takerDelivers slots arriving)).sum : Nat) :
        F) := by
  obtain ⟨hready, -⟩ := ready_priorityProgram hg hc h
  obtain ⟨hfunded, hstart⟩ := funded_priorityProgram gates hf
  have hall := exec_flatMap gates slotLines ((List.finRange n).take k)
    (fun done e => Ready e slots arriving ∧ Funded e reserves reserve ∧
      (∀ i ∈ done, Charged e slots arriving i) ∧ e (.order .arrivingReserveRemaining) =
        ((reserve - (done.map (takerDelivers slots arriving)).sum : Nat) : F))
    ⟨hready, hfunded, by simp, by simpa using hstart⟩ ?_
  · rw [← exec_append] at hall
    exact hall.2.2
  · rintro done i rest e hitems ⟨he, hfe, hdone, hrem⟩
    -- the slots charged so far, this one included, are some of the slots
    have hsome : (done ++ [i]).Sublist (List.finRange n) := by
      refine List.Sublist.trans ?_ (List.take_sublist k _)
      rw [hitems]
      exact (List.Sublist.refl done).append (List.singleton_sublist.mpr List.mem_cons_self)
    have hspent := sum_takerDelivers_le hr hsome
    rw [List.map_append, List.sum_append, List.map_singleton, List.sum_singleton] at hspent
    obtain ⟨hcharged, hrem'⟩ := charged_slotLines hg hc hr he hfe hspent hrem
    obtain ⟨hready', -, -⟩ := exec_slotLines hg hc he i
    refine ⟨hready', hfe.exec fun line hl => (target_slotLines hl).1, fun j hj => ?_, ?_⟩
    · by_cases hij : i = j
      · exact hij ▸ hcharged
      · have hmem : j ∈ done := (List.mem_append.mp hj).resolve_right (by simpa using Ne.symm hij)
        exact (hdone j hmem).exec fun line hl w => (target_slotLines hl).2.2 j hij w
    · rw [hrem', List.map_append, List.sum_append, List.map_singleton, List.sum_singleton]

end Wires

/-- **Reserve bookkeeping inside the circuit is sound.** For every eight slots and arriving order
whose reserves cover them: the remainders and the limit difference of every slot are 32-bit
numbers; the pool of a matched maker is left with the remainder of the leg it delivers, under that
leg's blinding; and the taker's reserve goes down by what each slot takes of it, in slot order,
from the initial reserve to the final one without ever running out. -/
theorem reserve_bookkeeping_sound {F : Type} [CommRing F] {gates : Gates F} {bound : Nat}
    (hg : gates.ExactBelow bound) {slots : Fin maxMatchSlots → RestingSlot}
    {arriving : ArrivingOrder} (hc : Comparable bound slots arriving)
    {reserves : Fin maxMatchSlots → Nat} {reserve : Nat}
    (hr : Reserved slots arriving reserves reserve) {env : Wire maxMatchSlots → F}
    (h : Loaded env slots arriving) (hf : Funded env reserves reserve) :
    let final := exec gates env (matchingProgram maxMatchSlots)
    let delivered (k : Nat) :=
      (((List.finRange maxMatchSlots).take k).map (takerDelivers slots arriving)).sum
    (∀ i, IsWord (final (.slot i .securitiesRemainder)) ∧ IsWord (final (.slot i .cashRemainder)) ∧
      IsWord (final (.slot i .makerPoolRemainder)) ∧ IsWord (final (.slot i .limitDifference))) ∧
    (∀ i, 0 < allocated slots arriving i → match (slots i).side with
      | .sell => final (.slot i .makerPoolRemainder) = final (.slot i .securitiesRemainder) ∧
          final (.slot i .makerPoolRemainderBlinding) =
            final (.slot i .securitiesRemainderBlinding)
      | .buy => final (.slot i .makerPoolRemainder) = final (.slot i .cashRemainder) ∧
          final (.slot i .makerPoolRemainderBlinding) = final (.slot i .cashRemainderBlinding)) ∧
    (∀ i, final (.slot i .arrivingDelivery) = (takerDelivers slots arriving i : F)) ∧
    (∀ k, delivered k ≤ reserve ∧
      exec gates env (matchingProgramUpTo maxMatchSlots k) (.order .arrivingReserveRemaining) =
        ((reserve - delivered k : Nat) : F)) ∧
    final (.order .arrivingReserveRemaining) = ((reserve - delivered maxMatchSlots : Nat) : F) := by
  intro final delivered
  have hupTo := charged_matchingProgramUpTo hg hc hr h hf
  have hall : ∀ i, i ∈ (List.finRange maxMatchSlots).take maxMatchSlots := fun i => by
    rw [List.take_of_length_le (by simp)]
    exact List.mem_finRange i
  have hcharged : ∀ i, Charged final slots arriving i := fun i => by
    have hlast := (hupTo maxMatchSlots).1 i (hall i)
    have hframe : ∀ line ∈ closingLines, ∀ w, line.target ≠ .slot i w := by
      simp [closingLines]
    change Charged (exec gates env (matchingProgramUpTo maxMatchSlots maxMatchSlots ++
      closingLines)) slots arriving i
    rw [exec_append]
    exact hlast.exec hframe
  refine ⟨fun i => ⟨(hcharged i).securitiesRemainder, (hcharged i).cashRemainder,
    (hcharged i).makerPoolRemainder, (hcharged i).limitDifference⟩,
    fun i hpos => (hcharged i).makerLeg (allocated_eq_tradeOf i ▸ hpos),
    fun i => (hcharged i).arrivingDelivery,
    fun k => ⟨sum_takerDelivers_le hr (List.take_sublist k _), (hupTo k).2⟩, ?_⟩
  change exec gates env (matchingProgramUpTo maxMatchSlots maxMatchSlots ++ closingLines) _ = _
  rw [exec_append, exec_frame (by simp [closingLines])]
  exact (hupTo maxMatchSlots).2

section Sample

/-- The reserves of the sample slots: the quantity of a sell, the cost of the bid. -/
def sampleReserves (i : Fin maxMatchSlots) : Nat :=
  match i.val with
  | 0 => 5
  | 1 => 2
  | 2 => 891
  | 3 => 4
  | _ => 0

def sampleFundedEnv : Wire maxMatchSlots → ZMod scalarOrder
  | .slot i .restingReserve => sampleReserves i
  | .order .arrivingReserve => (721 : Nat)
  | w => sampleEnv w

theorem reserve_bookkeeping_sound_sample :
    (List.finRange maxMatchSlots).map (takerDelivers sampleSlots sampleArriving) =
      [103, 200, 0, 400, 0, 0, 0, 0] ∧
    exec sampleGates sampleFundedEnv (matchingProgram maxMatchSlots)
      (.order .arrivingReserveRemaining) = (18 : Nat) := by
  have hdelivered : (List.finRange maxMatchSlots).map (takerDelivers sampleSlots sampleArriving) =
      [103, 200, 0, 400, 0, 0, 0, 0] := by decide +kernel
  have hrange : InRange sampleSlots sampleArriving := ⟨by decide, by decide, by decide, by decide⟩
  have hreserved : Reserved sampleSlots sampleArriving sampleReserves 721 :=
    ⟨by decide, by decide, by decide, by decide⟩
  have hloaded : Loaded sampleFundedEnv sampleSlots sampleArriving :=
    ⟨fun _ => rfl, fun _ => rfl, fun _ => rfl, fun _ => rfl, rfl, rfl, rfl⟩
  have hsound := reserve_bookkeeping_sound sampleGates_exact (hrange.comparable (by decide))
    hreserved hloaded ⟨fun _ => rfl, rfl⟩
  refine ⟨hdelivered, hsound.2.2.2.2.trans ?_⟩
  dsimp only
  rw [List.take_of_length_le (by simp), hdelivered]
  rfl

end Sample

end Oclob.Mpc
