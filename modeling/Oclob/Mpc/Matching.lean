import Mathlib.Data.List.FinRange
import Mathlib.Data.ZMod.Basic
import Oclob.Lib.Greedy
import Oclob.Mpc.Circuit

/-!
# The circuit is price-time priority

The reference takes the active slots of the other side whose price crosses, sorts them stably by
price (`queue`) and serves the arriving quantity greedily in that order (`allocated`).

The circuit never sorts. Its wires hold what `tradeOf` says of each slot alone: the smaller of its
quantity and of what the eligible slots of better priority leave. The two agree
(`allocated_eq_tradeOf`) because a greedy share depends on the other offers only through the sum
of those served before it, and in the stable order those are exactly the slots that the circuit
calls better. `matching_is_price_time` puts the wires and the reference together.

Assumed of the backend: its comparisons are exact on numbers below `2 ^ 63`, the range of the
program's 64-bit comparisons (`Gates.ExactBelow`).
-/

namespace Oclob.Mpc

open Oclob.Core Oclob.Lib

/-- The secret values of one slot. -/
structure RestingSlot where
  active : Bool
  side : Side
  price : Nat
  quantity : Nat

/-- The secret values of the arriving order. -/
structure ArrivingOrder where
  side : Side
  price : Nat
  quantity : Nat

section Values

variable {n : Nat} (slots : Fin n → RestingSlot) (arriving : ArrivingOrder)

/-- An active slot of the other side whose price crosses. -/
def joins (i : Fin n) : Bool :=
  (slots i).active && decide ((slots i).side ≠ arriving.side) &&
    arriving.side.crosses arriving.price (slots i).price

/-- The price `a` is as good for the arriving side as `b`. -/
def noWorse (side : Side) (a b : Nat) : Bool :=
  match side with
  | .buy => decide (a ≤ b)
  | .sell => decide (b ≤ a)

/-! ## The reference -/

/-- The joining slots, best price first; the sort is stable, so that at one price the lower slot
comes first. -/
def queue : List (Fin n) :=
  ((List.finRange n).filter (joins slots arriving)).mergeSort
    fun a b => noWorse arriving.side (slots a).price (slots b).price

/-- What a slot gets when the arriving quantity is served greedily in the order of the queue. -/
def allocated (i : Fin n) : Nat :=
  tally i ((queue slots arriving).zip
    (allocate arriving.quantity ((queue slots arriving).map fun j => (slots j).quantity)))

/-! ## What the circuit computes -/

/-- `better_{i}_{o}`: slot `o` comes before slot `i`. -/
def better (i o : Fin n) : Bool :=
  match arriving.side with
  | .buy => decide ((slots o).price < (slots i).price) ||
      (decide ((slots o).price = (slots i).price) && decide (o < i))
  | .sell => decide ((slots i).price < (slots o).price) ||
      (decide ((slots o).price = (slots i).price) && decide (o < i))

/-- `eligible_{i}`. -/
def eligible (i : Fin n) : Bool :=
  joins slots arriving i && decide (0 < (slots i).quantity)

/-- The contribution of slot `o` to `higher_quantity_{i}`. -/
def higherTerm (i o : Fin n) : Nat :=
  if eligible slots arriving o && better slots arriving i o then (slots o).quantity else 0

/-- `higher_quantity_{i}`. -/
def higher (i : Fin n) : Nat :=
  (((List.finRange n).filter fun o => o ≠ i).map (higherTerm slots arriving i)).sum

/-- `trade_quantity_{i}`. -/
def tradeOf (i : Fin n) : Nat :=
  if joins slots arriving i then
    min (arriving.quantity - higher slots arriving i) (slots i).quantity
  else 0

end Values

/-! ## The two agree -/

section Agreement

variable {n : Nat} {slots : Fin n → RestingSlot} {arriving : ArrivingOrder}

theorem better_asymm (i o : Fin n) (h : better slots arriving i o = true) :
    better slots arriving o i = false := by
  unfold better at h ⊢
  cases harr : arriving.side <;> simp only [harr] at h ⊢ <;>
    simp only [Bool.or_eq_true, Bool.and_eq_true, decide_eq_true_eq, Bool.or_eq_false_iff,
      Bool.and_eq_false_iff, decide_eq_false_iff_not] at h ⊢ <;> omega

theorem mem_queue {i : Fin n} : i ∈ queue slots arriving ↔ joins slots arriving i = true := by
  unfold queue
  rw [List.mem_mergeSort, List.mem_filter]
  simp

/-- The queue is sorted by priority: by price, and the stable sort keeps two slots of one price
in the order of their numbers. -/
theorem queue_sorted :
    (queue slots arriving).Pairwise fun a b => better slots arriving b a = true := by
  have hslots : ((List.finRange n).filter (joins slots arriving)).Pairwise (· < ·) :=
    (List.pairwise_lt_finRange n).sublist List.filter_sublist
  refine (pairwise_mergeSort_stable ?_ ?_ ((List.nodup_finRange n).filter _) hslots).imp ?_
  · intro a b c hab hbc
    unfold noWorse at hab hbc ⊢
    cases harr : arriving.side <;> simp only [harr, decide_eq_true_eq] at hab hbc ⊢ <;> omega
  · intro a b
    unfold noWorse
    cases arriving.side <;> simp only [Bool.or_eq_true, decide_eq_true_eq] <;> omega
  · intro a b hab
    unfold noWorse at hab
    unfold better
    cases harr : arriving.side <;> simp only [harr, decide_eq_true_eq] at hab ⊢ <;>
      simp only [Bool.or_eq_true, Bool.and_eq_true, decide_eq_true_eq] <;> omega

/-- What the queue serves before slot `i` is what the circuit calls higher. -/
theorem sum_better_queue (i : Fin n) :
    (((queue slots arriving).filter fun o => better slots arriving i o).map
      fun o => (slots o).quantity).sum = higher slots arriving i := by
  have hperm : ((queue slots arriving).filter fun o => better slots arriving i o).Perm
      (((List.finRange n).filter (joins slots arriving)).filter
        fun o => better slots arriving i o) :=
    (List.mergeSort_perm _ _).filter _
  unfold higher
  rw [(hperm.map _).sum_eq, List.filter_filter, sum_map_filter, sum_map_filter]
  refine congrArg List.sum (List.map_congr_left fun o _ => ?_)
  by_cases hoi : o = i
  · subst hoi
    have hself : better slots arriving o o = false := by
      cases h : better slots arriving o o with
      | false => rfl
      | true => rw [← h, better_asymm o o h]
    simp [hself]
  · unfold higherTerm eligible
    rcases Nat.eq_zero_or_pos (slots o).quantity with hz | hpos
    · simp [hz]
    · simp [hoi, hpos, and_comm]

/-- **A greedy share is what the circuit computes for the slot alone.** -/
theorem allocated_eq_tradeOf (i : Fin n) :
    allocated slots arriving i = tradeOf slots arriving i := by
  unfold allocated tradeOf
  by_cases hi : joins slots arriving i = true
  · rw [if_pos hi, ← sum_better_queue]
    exact tally_zip_allocate (fun a b => better_asymm b a) queue_sorted (mem_queue.mpr hi) _
  · rw [if_neg hi]
    exact tally_eq_zero fun e he heq => hi (mem_queue.mp (heq ▸ (List.of_mem_zip he).1))

theorem tradeOf_le (i : Fin n) : tradeOf slots arriving i ≤ (slots i).quantity := by
  unfold tradeOf
  split <;> omega

/-- The shares of all slots never exceed the arriving quantity. -/
theorem sum_allocated_le :
    ((List.finRange n).map (allocated slots arriving)).sum ≤ arriving.quantity := by
  have hsum := sum_tally (List.nodup_finRange n)
    (l := (queue slots arriving).zip (allocate arriving.quantity
      ((queue slots arriving).map fun j => (slots j).quantity)))
    fun e _ => List.mem_finRange e.1
  rw [List.map_snd_zip (by simp), sum_allocate] at hsum
  exact hsum.le.trans (Nat.min_le_left _ _)

theorem sum_allocated_take_le (k : Nat) :
    (((List.finRange n).take k).map (allocated slots arriving)).sum ≤ arriving.quantity :=
  calc (((List.finRange n).take k).map (allocated slots arriving)).sum
      ≤ ((List.finRange n).map (allocated slots arriving)).sum :=
        ((List.take_sublist k _).map _).sum_le_sum fun _ _ => Nat.zero_le _
    _ ≤ arriving.quantity := sum_allocated_le

end Agreement

/-! ## The wires -/

section Wires

variable {n : Nat} {F : Type} [CommRing F] {gates : Gates F} {env : Wire n → F}
  {slots : Fin n → RestingSlot} {arriving : ArrivingOrder}

/-- The input wires hold the values of the slots and of the arriving order. -/
structure Loaded (env : Wire n → F) (slots : Fin n → RestingSlot) (arriving : ArrivingOrder) :
    Prop where
  active : ∀ i, env (.slot i .active) = bit (slots i).active
  restingSide : ∀ i, env (.slot i .restingSide) = ((slots i).side.wire : F)
  restingPrice : ∀ i, env (.slot i .restingPrice) = ((slots i).price : F)
  restingQuantity : ∀ i, env (.slot i .restingQuantity) = ((slots i).quantity : F)
  arrivingSide : env (.order .arrivingSide) = (arriving.side.wire : F)
  arrivingPrice : env (.order .arrivingPrice) = (arriving.price : F)
  arrivingQuantity : env (.order .arrivingQuantity) = (arriving.quantity : F)

/-- Prices and quantities are 32-bit values. -/
structure InRange (slots : Fin n → RestingSlot) (arriving : ArrivingOrder) : Prop where
  restingPrice : ∀ i, (slots i).price < 2 ^ 32
  restingQuantity : ∀ i, (slots i).quantity < 2 ^ 32
  arrivingPrice : arriving.price < 2 ^ 32
  arrivingQuantity : arriving.quantity < 2 ^ 32

/-- Every number the circuit compares is below `bound`. -/
structure Comparable (bound : Nat) (slots : Fin n → RestingSlot) (arriving : ArrivingOrder) :
    Prop where
  one : 1 < bound
  restingPrice : ∀ i, (slots i).price < bound
  restingQuantity : ∀ i, (slots i).quantity < bound
  arrivingPrice : arriving.price < bound
  arrivingQuantity : arriving.quantity < bound
  higher : ∀ i, higher slots arriving i < bound

theorem higher_lt (hn : n ≤ 2 ^ 30) (hr : InRange slots arriving) (i : Fin n) :
    higher slots arriving i < 2 ^ 63 := by
  have hterm : ∀ x ∈ ((List.finRange n).filter fun o => o ≠ i).map (higherTerm slots arriving i),
      x ≤ 2 ^ 32 := by
    intro x hx
    obtain ⟨o, -, rfl⟩ := List.mem_map.mp hx
    have hq := hr.restingQuantity o
    unfold higherTerm
    split <;> omega
  have hlen : ((List.finRange n).filter fun o => o ≠ i).length ≤ n :=
    (List.length_filter_le _ _).trans (by simp)
  have hsum := List.sum_le_card_nsmul _ _ hterm
  rw [List.length_map, smul_eq_mul] at hsum
  calc higher slots arriving i
      ≤ ((List.finRange n).filter fun o => o ≠ i).length * 2 ^ 32 := hsum
    _ ≤ 2 ^ 30 * 2 ^ 32 := Nat.mul_le_mul_right _ (hlen.trans hn)
    _ < 2 ^ 63 := by decide

/-- 32-bit values stay in the range of the 64-bit comparisons. -/
theorem InRange.comparable (hr : InRange slots arriving) (hn : n ≤ 2 ^ 30) :
    Comparable (2 ^ 63) slots arriving where
  one := by decide
  restingPrice i := (hr.restingPrice i).trans (by decide)
  restingQuantity i := (hr.restingQuantity i).trans (by decide)
  arrivingPrice := hr.arrivingPrice.trans (by decide)
  arrivingQuantity := hr.arrivingQuantity.trans (by decide)
  higher := higher_lt hn hr

variable {prog : List (Assign (Wire n))} {i : Fin n} {line : Assign (Wire n)}

/-- Lines that write no input wire keep the inputs. -/
theorem Loaded.exec (h : Loaded env slots arriving)
    (hprog : ∀ line ∈ prog, line.target.isInput = false) :
    Loaded (exec gates env prog) slots arriving := by
  have hkeep : ∀ w : Wire n, w.isInput = true → Lib.exec gates env prog w = env w := by
    intro w hw
    refine exec_frame fun line hline heq => ?_
    have hfalse := hprog line hline
    rw [heq, hw] at hfalse
    exact absurd hfalse (by simp)
  exact {
    active := fun i => (hkeep _ rfl).trans (h.active i)
    restingSide := fun i => (hkeep _ rfl).trans (h.restingSide i)
    restingPrice := fun i => (hkeep _ rfl).trans (h.restingPrice i)
    restingQuantity := fun i => (hkeep _ rfl).trans (h.restingQuantity i)
    arrivingSide := (hkeep _ rfl).trans h.arrivingSide
    arrivingPrice := (hkeep _ rfl).trans h.arrivingPrice
    arrivingQuantity := (hkeep _ rfl).trans h.arrivingQuantity }

theorem wire_eq_bit (side : Side) : (side.wire : F) = bit (decide (side = .sell)) := by
  cases side <;> simp [Side.wire, bit]

theorem eval_positive {bound : Nat} (hg : gates.ExactBelow bound) {e : Expr (Wire n)} {m : Nat}
    (he : e.eval gates env = m) (hm : m < bound) :
    (Expr.gt e (.const 0)).eval gates env = bit (decide (0 < m)) := by
  rw [Expr.gt, hg.eval_cmp he (eval_const 0) hm ((Nat.zero_le m).trans_lt hm)]
  rfl

variable {bound : Nat} (hg : gates.ExactBelow bound) (hr : Comparable bound slots arriving)
include hg hr

theorem eval_crossesExpr (h : Loaded env slots arriving) (i : Fin n) :
    (crossesExpr i).eval gates env =
      bit (arriving.side.crosses arriving.price (slots i).price) := by
  have hside : (orderVar .arrivingSide).eval gates env = bit (decide (arriving.side = .sell)) :=
    h.arrivingSide.trans (wire_eq_bit _)
  have hresting : (slotVar i .restingPrice).eval gates env = ((slots i).price : F) :=
    h.restingPrice i
  have harriving : (orderVar .arrivingPrice).eval gates env = (arriving.price : F) :=
    h.arrivingPrice
  have hlt := hr.restingPrice i
  have hlt' := hr.arrivingPrice
  rw [crossesExpr, eval_ifElse hside, Expr.ge, Expr.ge, hg.eval_cmp hresting harriving hlt hlt',
    hg.eval_cmp harriving hresting hlt' hlt]
  cases arriving.side <;> rfl

theorem eval_joins (h : Loaded env slots arriving) (i : Fin n) :
    (slotVar i .active * Expr.ne (slotVar i .restingSide) (orderVar .arrivingSide) *
      crossesExpr i).eval gates env = bit (joins slots arriving i) := by
  have hwire : ∀ side : Side, side.wire < bound := fun side => by
    have hone := hr.one
    cases side <;> simp only [Side.wire] <;> omega
  have hopposite : (Expr.ne (slotVar i .restingSide) (orderVar .arrivingSide)).eval gates env =
      bit (decide ((slots i).side ≠ arriving.side)) := by
    rw [Expr.ne, hg.eval_cmp (show (slotVar i .restingSide).eval gates env = _ from h.restingSide i)
      (show (orderVar .arrivingSide).eval gates env = _ from h.arrivingSide) (hwire _) (hwire _)]
    cases (slots i).side <;> cases arriving.side <;> rfl
  have hactive : (slotVar i .active).eval gates env = bit (slots i).active := h.active i
  rw [eval_mul, eval_mul, hactive, hopposite, eval_crossesExpr hg hr h, bit_mul, bit_mul]
  rfl

/-! ### Eligibility -/

theorem exec_eligibleLine (h : Loaded env slots arriving) (i : Fin n) :
    exec gates env (eligibleLine i) (.slot i .eligible) = bit (eligible slots arriving i) := by
  have hquantity : (slotVar i .restingQuantity).eval gates env = ((slots i).quantity : F) :=
    h.restingQuantity i
  rw [eligibleLine, exec_cons, exec_nil, Assign.exec, Function.update_self, eval_mul,
    eval_joins hg hr h, eval_positive hg hquantity (hr.restingQuantity i), bit_mul]
  rfl

/-- The inputs and every eligibility bit are on their wires. -/
structure Rated (env : Wire n → F) (slots : Fin n → RestingSlot) (arriving : ArrivingOrder) :
    Prop where
  loaded : Loaded env slots arriving
  eligible : ∀ i, env (.slot i .eligible) = bit (eligible slots arriving i)

theorem rated_eligibleLines (h : Loaded env slots arriving) :
    Rated (exec gates env ((List.finRange n).flatMap eligibleLine)) slots arriving := by
  have hall := exec_flatMap gates eligibleLine (List.finRange n)
    (fun done e => Loaded e slots arriving ∧
      ∀ i ∈ done, e (.slot i .eligible) = bit (eligible slots arriving i)) ⟨h, by simp⟩ ?_
  · exact ⟨hall.1, fun i => hall.2 i (List.mem_finRange i)⟩
  · rintro done i rest e - ⟨hl, hdone⟩
    refine ⟨hl.exec (by simp [eligibleLine, Wire.isInput, SlotWire.isInput]), fun j hj => ?_⟩
    by_cases hji : j = i
    · subst hji
      exact exec_eligibleLine hg hr hl j
    · rw [exec_frame (by simp [eligibleLine, Ne.symm hji])]
      exact hdone j ((List.mem_append.mp hj).resolve_right (by simpa using hji))

/-! ### Priority -/

theorem eval_better (h : Loaded env slots arriving) (i o : Fin n) :
    (Expr.ifElse (orderVar .arrivingSide)
        (.gt (slotVar o .restingPrice) (slotVar i .restingPrice))
        (.lt (slotVar o .restingPrice) (slotVar i .restingPrice)) +
      .eq (slotVar o .restingPrice) (slotVar i .restingPrice) *
        .const (if o < i then 1 else 0)).eval gates env = bit (better slots arriving i o) := by
  have hside : (orderVar .arrivingSide).eval gates env = bit (decide (arriving.side = .sell)) :=
    h.arrivingSide.trans (wire_eq_bit _)
  have hprice : ∀ j, (slotVar j .restingPrice).eval gates env = ((slots j).price : F) :=
    h.restingPrice
  have hlt := hr.restingPrice
  rw [eval_add, eval_ifElse hside, eval_mul, eval_const, Expr.gt, Expr.lt, Expr.eq,
    hg.eval_cmp (hprice o) (hprice i) (hlt o) (hlt i),
    hg.eval_cmp (hprice o) (hprice i) (hlt o) (hlt i),
    hg.eval_cmp (hprice o) (hprice i) (hlt o) (hlt i)]
  -- a price is not both equal and strictly better, so the sum of the two bits is their `or`
  unfold better
  rcases lt_trichotomy (slots o).price (slots i).price with hp | hp | hp
  · cases arriving.side <;> simp [Cmp.holds, bit, hp, hp.not_gt, hp.ne]
  · by_cases hoi : o < i <;> cases arriving.side <;> simp [Cmp.holds, bit, hp, hoi]
  · cases arriving.side <;> simp [Cmp.holds, bit, hp, hp.not_gt, hp.ne']

/-- The two lines for `other` add its contribution. -/
theorem exec_betterLines (h : Rated env slots arriving) (i o : Fin n) {m : Nat}
    (hm : env (.slot i .higherQuantity) = m) :
    exec gates env (betterLines i o) (.slot i .higherQuantity) =
      ((m + higherTerm slots arriving i o : Nat) : F) := by
  have hbetter := eval_better hg hr h.loaded i o
  unfold betterLines
  rw [exec_cons, exec_cons, exec_nil, Assign.exec, Assign.exec, Function.update_self]
  simp only [slotVar, orderVar] at hbetter ⊢
  simp only [eval_add, eval_mul, eval_var, Function.update_apply, reduceCtorEq, if_false, if_true]
  simp only [eval_add, eval_mul] at hbetter
  rw [hbetter, hm, h.eligible o, h.loaded.restingQuantity o, bit_mul, bit_mul_cast, Nat.cast_add]
  rfl

omit hg hr in
theorem Rated.exec (h : Rated env slots arriving)
    (hprog : ∀ line ∈ prog, line.target.isInput = false ∧ ∀ j, line.target ≠ .slot j .eligible) :
    Rated (exec gates env prog) slots arriving :=
  ⟨h.loaded.exec fun line hline => (hprog line hline).1, fun j =>
    (exec_frame fun line hline => (hprog line hline).2 j).trans (h.eligible j)⟩

/-- The clamped subtraction: what the better slots leave of the arriving quantity. -/
theorem eval_available (h : Loaded env slots arriving)
    (hhigher : env (.slot i .higherQuantity) = (higher slots arriving i : F)) :
    (Expr.ifElse (.gt (orderVar .arrivingQuantity) (slotVar i .higherQuantity))
      (orderVar .arrivingQuantity - slotVar i .higherQuantity) (.const 0)).eval gates env =
      ((arriving.quantity - higher slots arriving i : Nat) : F) := by
  have harr : (orderVar .arrivingQuantity).eval gates env = (arriving.quantity : F) :=
    h.arrivingQuantity
  have hhigh : (slotVar i .higherQuantity).eval gates env = (higher slots arriving i : F) :=
    hhigher
  rw [Expr.gt, eval_ifElse (hg.eval_cmp harr hhigh hr.arrivingQuantity (hr.higher i)),
    eval_sub, harr, hhigh, eval_const]
  by_cases hlt : higher slots arriving i < arriving.quantity
  · simp [Cmp.holds, hlt, Nat.cast_sub hlt.le]
  · simp [Cmp.holds, hlt, Nat.sub_eq_zero_of_le (not_lt.mp hlt)]

omit hg hr in
theorem target_priorityLines (h : line ∈ priorityLines i) :
    line.target = .slot i .higherQuantity ∨ line.target = .slot i .available ∨
      ∃ o, line.target = .better i o := by
  unfold priorityLines betterLines at h
  rcases List.mem_append.mp h with h | h
  · rcases List.mem_cons.mp h with rfl | h
    · exact Or.inl rfl
    · obtain ⟨o, -, ho⟩ := List.mem_flatMap.mp h
      rcases List.mem_cons.mp ho with rfl | ho
      · exact Or.inr (Or.inr ⟨o, rfl⟩)
      · exact Or.inl (List.mem_singleton.mp ho ▸ rfl)
  · exact Or.inr (Or.inl (List.mem_singleton.mp h ▸ rfl))

omit hg hr in
/-- The lines before the slots write no input and, after the first ones, no running reserve. -/
theorem target_priorityProgram
    (h : line ∈ (List.finRange n).flatMap eligibleLine ++
      (List.finRange n).flatMap priorityLines) :
    line.target.isInput = false ∧ line.target ≠ .order .arrivingReserveRemaining := by
  rcases List.mem_append.mp h with h | h
  · obtain ⟨i, -, hi⟩ := List.mem_flatMap.mp h
    obtain rfl := List.mem_singleton.mp hi
    exact ⟨rfl, by simp⟩
  · obtain ⟨i, -, hi⟩ := List.mem_flatMap.mp h
    rcases target_priorityLines hi with ht | ht | ⟨o, ht⟩ <;> rw [ht] <;> exact ⟨rfl, by simp⟩

/-- The lines of one slot put on its wire what the better slots leave. -/
theorem exec_priorityLines (h : Rated env slots arriving) (i : Fin n) :
    Rated (exec gates env (priorityLines i)) slots arriving ∧
    exec gates env (priorityLines i) (.slot i .available) =
      ((arriving.quantity - higher slots arriving i : Nat) : F) := by
  unfold priorityLines
  rw [List.cons_append, exec_cons, exec_append]
  have hzero : Rated (Assign.exec gates env ⟨.slot i .higherQuantity, .const 0⟩) slots arriving :=
    show Rated (exec gates env [_]) slots arriving from
      h.exec (by simp [Wire.isInput, SlotWire.isInput])
  have hsum := exec_flatMap gates (betterLines i) ((List.finRange n).filter fun o => o ≠ i)
    (fun done e => Rated e slots arriving ∧ e (.slot i .higherQuantity) =
      (((done.map (higherTerm slots arriving i)).sum : Nat) : F))
    ⟨hzero, by simp [Assign.exec]⟩ ?_
  · obtain ⟨hrated, hhigher⟩ := hsum
    refine ⟨hrated.exec (by simp [Wire.isInput, SlotWire.isInput]), ?_⟩
    rw [exec_cons, exec_nil, Assign.exec, Function.update_self]
    exact eval_available hg hr hrated.loaded hhigher
  · rintro done o rest e - ⟨hrated, hdone⟩
    refine ⟨hrated.exec (by simp [betterLines, Wire.isInput, SlotWire.isInput]), ?_⟩
    rw [exec_betterLines hg hr hrated i o hdone]
    simp

/-- The inputs are on their wires, what each slot may trade is, and the running remainder is. -/
structure Ready (env : Wire n → F) (slots : Fin n → RestingSlot) (arriving : ArrivingOrder) :
    Prop where
  loaded : Loaded env slots arriving
  available : ∀ i, env (.slot i .available) =
    ((arriving.quantity - higher slots arriving i : Nat) : F)

/-- **The lines before the slots** compute every slot's priority. -/
theorem ready_priorityProgram (h : Loaded env slots arriving) :
    Ready (exec gates env (priorityProgram n)) slots arriving ∧
    exec gates env (priorityProgram n) (.order .remaining) = (arriving.quantity : F) := by
  unfold priorityProgram
  rw [exec_append, exec_append]
  have hstart : Loaded (exec gates env startLines) slots arriving :=
    h.exec (by simp [startLines, Wire.isInput, OrderWire.isInput])
  have hrated := rated_eligibleLines hg hr hstart
  have hremaining : exec gates (exec gates env startLines) ((List.finRange n).flatMap eligibleLine)
      (.order .remaining) = (arriving.quantity : F) := by
    rw [exec_frame (by simp [eligibleLine])]
    simpa [startLines, exec_cons, Assign.exec, Function.update_apply, orderVar] using
      h.arrivingQuantity
  generalize exec gates _ ((List.finRange n).flatMap eligibleLine) = e at hrated hremaining
  have hall := exec_flatMap gates priorityLines (List.finRange n)
    (fun done e => Rated e slots arriving ∧ ∀ i ∈ done, e (.slot i .available) =
      ((arriving.quantity - higher slots arriving i : Nat) : F)) ⟨hrated, by simp⟩ ?_
  · refine ⟨⟨hall.1.loaded, fun i => hall.2 i (List.mem_finRange i)⟩, ?_⟩
    rw [exec_frame fun line hline => ?_]
    · exact hremaining
    · obtain ⟨i, -, hi⟩ := List.mem_flatMap.mp hline
      rcases target_priorityLines hi with ht | ht | ⟨o, ht⟩ <;> simp [ht]
  · rintro done i rest e - ⟨hrated, hdone⟩
    obtain ⟨hrated', hi⟩ := exec_priorityLines hg hr hrated i
    refine ⟨hrated', fun j hj => ?_⟩
    by_cases hji : j = i
    · rw [hji]
      exact hi
    · rw [exec_frame fun line hline => ?_]
      · exact hdone j ((List.mem_append.mp hj).resolve_right (by simpa using hji))
      · rcases target_priorityLines hline with ht | ht | ⟨o, ht⟩ <;> simp [ht, Ne.symm hji]

/-! ### Trades -/

/-- The trade of slot `i` is on its wires. -/
structure Traded (env : Wire n → F) (slots : Fin n → RestingSlot) (arriving : ArrivingOrder)
    (i : Fin n) : Prop where
  matched : env (.slot i .matched) = bit (decide (0 < tradeOf slots arriving i))
  tradeQuantity : env (.slot i .tradeQuantity) = (tradeOf slots arriving i : F)
  tradePrice : env (.slot i .tradePrice) =
    ((if 0 < tradeOf slots arriving i then (slots i).price else 0 : Nat) : F)
  restingRemaining : env (.slot i .restingRemaining) =
    (((slots i).quantity - tradeOf slots arriving i : Nat) : F)

omit hg hr in
/-- The lines of a slot as equations between the wires after them and those before. -/
theorem exec_tradeLines_eq (gates : Gates F) (env : Wire n → F) (i : Fin n) :
    let after := exec gates env (tradeLines i)
    after (.slot i .matched) = (slotVar i .active *
        Expr.ne (slotVar i .restingSide) (orderVar .arrivingSide) * crossesExpr i).eval gates env *
      ((Expr.gt (slotVar i .restingQuantity) (.const 0)).eval gates env *
        (Expr.gt (slotVar i .available) (.const 0)).eval gates env) ∧
    after (.slot i .minimum) = (Expr.ifElse
      (.le (slotVar i .restingQuantity) (slotVar i .available))
      (slotVar i .restingQuantity) (slotVar i .available)).eval gates env ∧
    after (.slot i .tradeQuantity) = after (.slot i .matched) * after (.slot i .minimum) ∧
    after (.slot i .tradePrice) = after (.slot i .matched) * env (.slot i .restingPrice) ∧
    after (.slot i .restingRemaining) =
      env (.slot i .restingQuantity) - after (.slot i .tradeQuantity) ∧
    after (.order .remaining) = env (.order .remaining) - after (.slot i .tradeQuantity) := by
  simp [tradeLines, exec_cons, Assign.exec, crossesExpr, slotVar, orderVar,
    Expr.ne, Expr.gt, Expr.ge, Expr.le, Expr.eval]

theorem exec_tradeLines (h : Ready env slots arriving) (i : Fin n) :
    Traded (exec gates env (tradeLines i)) slots arriving i ∧
    exec gates env (tradeLines i) (.order .remaining) =
      env (.order .remaining) - (tradeOf slots arriving i : F) := by
  obtain ⟨hm, hmin, htq, htp, hrest, hrem⟩ := exec_tradeLines_eq gates env i
  generalize exec gates env (tradeLines i) = after at hm hmin htq htp hrest hrem
  have hquantity : (slotVar i .restingQuantity).eval gates env = ((slots i).quantity : F) :=
    h.loaded.restingQuantity i
  have havailable : (slotVar i .available).eval gates env =
    ((arriving.quantity - higher slots arriving i : Nat) : F) := h.available i
  have hq := hr.restingQuantity i
  have ha : arriving.quantity - higher slots arriving i < bound :=
    (Nat.sub_le _ _).trans_lt hr.arrivingQuantity
  have hmatched : after (.slot i .matched) = bit (decide (0 < tradeOf slots arriving i)) := by
    rw [hm, eval_joins hg hr h.loaded, eval_positive hg hquantity hq,
      eval_positive hg havailable ha, bit_mul, bit_mul]
    unfold tradeOf
    congr 1
    by_cases hj : joins slots arriving i = true <;> simp [hj, and_comm]
  have hminimum : after (.slot i .minimum) =
      ((min (arriving.quantity - higher slots arriving i) (slots i).quantity : Nat) : F) := by
    rw [hmin, Expr.le, eval_ifElse (hg.eval_cmp hquantity havailable hq ha), hquantity,
      havailable]
    by_cases hle : (slots i).quantity ≤ arriving.quantity - higher slots arriving i
    · simp [Cmp.holds, hle]
    · simp [Cmp.holds, hle, Nat.min_eq_left (not_le.mp hle).le]
  have htrade : after (.slot i .tradeQuantity) = (tradeOf slots arriving i : F) := by
    rw [htq, hmatched, hminimum, bit_mul_cast]
    congr 1
    unfold tradeOf
    by_cases hj : joins slots arriving i = true
    · simp only [hj, if_true, decide_eq_true_eq]
      split <;> omega
    · simp [hj]
  refine ⟨⟨hmatched, htrade, ?_, ?_⟩, by rw [hrem, htrade]⟩
  · rw [htp, hmatched, h.loaded.restingPrice, bit_mul_cast]
    simp
  · rw [hrest, htrade, h.loaded.restingQuantity, Nat.cast_sub (tradeOf_le i)]

omit hg hr in
/-- Lines that leave the wires of a trade leave the trade. -/
theorem Traded.exec (h : Traded env slots arriving i)
    (hprog : ∀ line ∈ prog, ∀ w ∈ [SlotWire.matched, .tradeQuantity, .tradePrice,
      .restingRemaining], line.target ≠ .slot i w) :
    Traded (exec gates env prog) slots arriving i where
  matched := (exec_frame fun line hl => hprog line hl _ (by simp)).trans h.matched
  tradeQuantity := (exec_frame fun line hl => hprog line hl _ (by simp)).trans h.tradeQuantity
  tradePrice := (exec_frame fun line hl => hprog line hl _ (by simp)).trans h.tradePrice
  restingRemaining :=
    (exec_frame fun line hl => hprog line hl _ (by simp)).trans h.restingRemaining

omit hg hr in
/-- The lines of a slot write wires of that slot, none of them an input or a priority, and the
running remainders. -/
theorem target_slotLines (h : line ∈ slotLines i) :
    line.target.isInput = false ∧ (∀ j, line.target ≠ .slot j .available) ∧
      ∀ j, i ≠ j → ∀ w, line.target ≠ .slot j w := by
  revert line
  simp [slotLines, tradeLines, reserveLines, Wire.isInput, SlotWire.isInput, OrderWire.isInput]

/-- One slot: its trade is on its wires and off the running remainder. -/
theorem exec_slotLines (h : Ready env slots arriving) (i : Fin n) :
    Ready (exec gates env (slotLines i)) slots arriving ∧
    Traded (exec gates env (slotLines i)) slots arriving i ∧
    exec gates env (slotLines i) (.order .remaining) =
      env (.order .remaining) - (tradeOf slots arriving i : F) := by
  refine ⟨⟨h.loaded.exec fun line hl => (target_slotLines hl).1, fun j =>
    (exec_frame fun line hl => (target_slotLines hl).2.1 j).trans (h.available j)⟩, ?_⟩
  obtain ⟨htraded, hrem⟩ := exec_tradeLines hg hr h i
  unfold slotLines
  rw [exec_append]
  refine ⟨htraded.exec (by simp [reserveLines]), ?_⟩
  rw [exec_frame (by simp [reserveLines]), hrem]

/-- **The circuit after the lines of the first `k` slots.** -/
theorem exec_matchingProgramUpTo (h : Loaded env slots arriving) (k : Nat) :
    (∀ i ∈ (List.finRange n).take k,
      Traded (exec gates env (matchingProgramUpTo n k)) slots arriving i) ∧
    exec gates env (matchingProgramUpTo n k) (.order .remaining) = (arriving.quantity : F) -
      ((((List.finRange n).take k).map (tradeOf slots arriving)).sum : Nat) := by
  obtain ⟨hready, hremaining⟩ := ready_priorityProgram hg hr h
  have hall := exec_flatMap gates slotLines ((List.finRange n).take k)
    (fun done e => Ready e slots arriving ∧ (∀ i ∈ done, Traded e slots arriving i) ∧
      e (.order .remaining) = (arriving.quantity : F) -
        ((done.map (tradeOf slots arriving)).sum : Nat))
    ⟨hready, by simp, by simpa using hremaining⟩ ?_
  · rw [← exec_append] at hall
    exact hall.2
  · rintro done i rest e - ⟨he, hdone, hrem⟩
    obtain ⟨hready', htraded, hrem'⟩ := exec_slotLines hg hr he i
    refine ⟨hready', fun j hj => ?_, ?_⟩
    · by_cases hij : i = j
      · exact hij ▸ htraded
      · have hmem : j ∈ done := (List.mem_append.mp hj).resolve_right (by simpa using Ne.symm hij)
        exact (hdone j hmem).exec fun line hl w _ => (target_slotLines hl).2.2 j hij w
    · rw [hrem', hrem, List.map_append, List.sum_append, Nat.cast_add, sub_sub]
      simp

/-- Every trade is on its wires at the end. -/
theorem traded_matchingProgram (h : Loaded env slots arriving) (i : Fin n) :
    Traded (exec gates env (matchingProgram n)) slots arriving i := by
  have htraded := (exec_matchingProgramUpTo hg hr h n).1 i
    (by rw [List.take_of_length_le (by simp)]; exact List.mem_finRange i)
  unfold matchingProgram
  rw [exec_append]
  exact htraded.exec (by simp [closingLines])

end Wires

/-- **The circuit is price-time priority.** For every eight slots, in any order, and every
arriving order, the wires of a slot hold what greedy allocation over the stably sorted joining
slots gives it, at its own price; the running remainder holds the arriving quantity less the
trades so far, which never exceed it. -/
theorem matching_is_price_time {F : Type} [CommRing F] {gates : Gates F}
    (hg : gates.ExactBelow (2 ^ 63)) {slots : Fin maxMatchSlots → RestingSlot}
    {arriving : ArrivingOrder} (hr : InRange slots arriving) {env : Wire maxMatchSlots → F}
    (h : Loaded env slots arriving) :
    (∀ i, exec gates env (matchingProgram maxMatchSlots) (.slot i .matched) =
        bit (decide (0 < allocated slots arriving i)) ∧
      exec gates env (matchingProgram maxMatchSlots) (.slot i .tradePrice) =
        ((if 0 < allocated slots arriving i then (slots i).price else 0 : Nat) : F) ∧
      exec gates env (matchingProgram maxMatchSlots) (.slot i .tradeQuantity) =
        (allocated slots arriving i : F) ∧
      exec gates env (matchingProgram maxMatchSlots) (.slot i .restingRemaining) =
        (((slots i).quantity - allocated slots arriving i : Nat) : F) ∧
      allocated slots arriving i ≤ (slots i).quantity) ∧
    (∀ k, exec gates env (matchingProgramUpTo maxMatchSlots k) (.order .remaining) =
        ((arriving.quantity - (((List.finRange maxMatchSlots).take k).map
          (allocated slots arriving)).sum : Nat) : F) ∧
      (((List.finRange maxMatchSlots).take k).map (allocated slots arriving)).sum ≤
        arriving.quantity) ∧
    exec gates env (matchingProgram maxMatchSlots) (.order .remaining) =
      ((arriving.quantity - ((List.finRange maxMatchSlots).map
        (allocated slots arriving)).sum : Nat) : F) := by
  have hc := hr.comparable (by decide : maxMatchSlots ≤ 2 ^ 30)
  have hsame : allocated slots arriving = tradeOf slots arriving := funext allocated_eq_tradeOf
  have hupTo : ∀ k, exec gates env (matchingProgramUpTo maxMatchSlots k) (.order .remaining) =
      ((arriving.quantity - (((List.finRange maxMatchSlots).take k).map
        (allocated slots arriving)).sum : Nat) : F) := by
    intro k
    rw [(exec_matchingProgramUpTo hg hc h k).2, Nat.cast_sub (sum_allocated_take_le k), hsame]
  have hall : (List.finRange maxMatchSlots).take maxMatchSlots = List.finRange maxMatchSlots :=
    List.take_of_length_le (by simp)
  refine ⟨fun i => ?_, fun k => ⟨hupTo k, sum_allocated_take_le k⟩, ?_⟩
  · have hfinal := traded_matchingProgram hg hc h i
    rw [hsame]
    exact ⟨hfinal.matched, hfinal.tradePrice, hfinal.tradeQuantity, hfinal.restingRemaining,
      tradeOf_le i⟩
  · have hlast := hupTo maxMatchSlots
    rw [hall] at hlast
    unfold matchingProgram
    rw [exec_append, exec_frame (by simp [closingLines])]
    exact hlast

section Witness

/-- Comparison of the least representatives. -/
def sampleGates : Gates (ZMod scalarOrder) := ⟨fun op a b => bit (op.holds a.val b.val)⟩

theorem sampleGates_exact : sampleGates.ExactBelow (2 ^ 63) := by
  intro op a b ha hb
  have hval : ∀ m : Nat, m < 2 ^ 63 → (m : ZMod scalarOrder).val = m := fun m hm =>
    ZMod.val_natCast_of_lt (hm.trans (by decide))
  unfold sampleGates
  simp only [hval a ha, hval b hb]

/-- Four sells and bids out of order; the other slots are empty. -/
def sampleSlots (i : Fin maxMatchSlots) : RestingSlot :=
  match i.val with
  | 0 => ⟨true, .sell, 103, 5⟩
  | 1 => ⟨true, .sell, 100, 2⟩
  | 2 => ⟨true, .buy, 99, 9⟩
  | 3 => ⟨true, .sell, 100, 4⟩
  | _ => ⟨false, .buy, 0, 0⟩

def sampleArriving : ArrivingOrder := ⟨.buy, 103, 7⟩

/-- The inputs on their wires. -/
def sampleEnv : Wire maxMatchSlots → ZMod scalarOrder
  | .slot i .active => bit (sampleSlots i).active
  | .slot i .restingSide => (sampleSlots i).side.wire
  | .slot i .restingPrice => (sampleSlots i).price
  | .slot i .restingQuantity => (sampleSlots i).quantity
  | .order .arrivingSide => sampleArriving.side.wire
  | .order .arrivingPrice => sampleArriving.price
  | .order .arrivingQuantity => sampleArriving.quantity
  | _ => 0

theorem matching_is_price_time_sample :
    (List.finRange maxMatchSlots).map (allocated sampleSlots sampleArriving) =
      [1, 2, 0, 4, 0, 0, 0, 0] ∧
    ∀ i, exec sampleGates sampleEnv (matchingProgram maxMatchSlots) (.slot i .tradeQuantity) =
      (allocated sampleSlots sampleArriving i : ZMod scalarOrder) := by
  have hr : InRange sampleSlots sampleArriving :=
    ⟨by decide, by decide, by decide, by decide⟩
  have hloaded : Loaded sampleEnv sampleSlots sampleArriving :=
    ⟨fun _ => rfl, fun _ => rfl, fun _ => rfl, fun _ => rfl, rfl, rfl, rfl⟩
  refine ⟨?_, fun i => ((matching_is_price_time sampleGates_exact hr hloaded).1 i).2.2.1⟩
  rw [show allocated sampleSlots sampleArriving = _ from funext allocated_eq_tradeOf]
  decide +kernel

end Witness

end Oclob.Mpc
