import Oclob.Core.Book
import Oclob.Lib.Greedy

/-!
# The slots of a batch

The loop of `expected_batch` is a greedy allocation: a slot on the other side whose price crosses
offers its quantity, any other slot offers nothing, and the arriving quantity is served from the
offers in turn (`tradeQuantity_matchSlots`). What the loop leaves of the arriving order is what
exceeds the sum of the offers (`matchSlots_snd`).
-/

namespace Oclob.Core

open Oclob.Lib

/-- What a resting input offers to an arriving order. -/
def offer (side : Side) (price : Nat) (resting : PrivateRestingInput) : Nat :=
  if resting.side ≠ side ∧ side.crosses price resting.price = true then resting.quantity else 0

variable {side : Side} {price Q : Nat} {resting : PrivateRestingInput}
  {inputs : List PrivateRestingInput}

theorem offer_le : offer side price resting ≤ resting.quantity := by
  unfold offer
  split <;> omega

/-- One slot of `expected_batch`, with `Q` left of the arriving order. -/
def matchSlot (side : Side) (price Q : Nat) (resting : PrivateRestingInput) : MpcSlotResult :=
  let quantity := min Q (offer side price resting)
  ⟨decide (0 < quantity), if 0 < quantity then resting.price else 0, quantity⟩

/-- The slot written by one turn of the loop. -/
theorem matchSlots_cons : matchSlots side price Q (resting :: inputs) =
    (matchSlot side price Q resting ::
      (matchSlots side price (Q - min Q (offer side price resting)) inputs).1,
     (matchSlots side price (Q - min Q (offer side price resting)) inputs).2) := by
  have hcrossed : (decide (resting.side ≠ side) && side.crosses price resting.price &&
      decide (0 < Q) && decide (0 < resting.quantity)) =
      decide (0 < min Q (offer side price resting)) := by
    unfold offer
    by_cases hs : resting.side ≠ side <;> by_cases hc : side.crosses price resting.price = true <;>
      simp [hs, hc]
  have hquantity : (if 0 < min Q (offer side price resting) then min Q resting.quantity else 0) =
      min Q (offer side price resting) := by
    by_cases hor : resting.side ≠ side ∧ side.crosses price resting.price = true
    · have hoffer : offer side price resting = resting.quantity := if_pos hor
      rw [hoffer]
      split <;> omega
    · have hoffer : offer side price resting = 0 := if_neg hor
      rw [hoffer]
      split <;> omega
  simp only [matchSlots, hcrossed, decide_eq_true_eq, hquantity, matchSlot]

theorem length_matchSlots : (matchSlots side price Q inputs).1.length = inputs.length := by
  induction inputs generalizing Q with
  | nil => rfl
  | cons resting inputs ih => rw [matchSlots_cons, List.length_cons, List.length_cons, ih]

/-- **The loop is a greedy allocation** of the arriving quantity over the offers. -/
theorem tradeQuantity_matchSlots :
    (matchSlots side price Q inputs).1.map MpcSlotResult.tradeQuantity =
      allocate Q (inputs.map (offer side price)) := by
  induction inputs generalizing Q with
  | nil => rfl
  | cons resting inputs ih =>
    rw [matchSlots_cons, List.map_cons, List.map_cons, allocate, ih]
    rfl

/-- What is left of the arriving order. -/
theorem matchSlots_snd :
    (matchSlots side price Q inputs).2 = Q - (inputs.map (offer side price)).sum := by
  induction inputs generalizing Q with
  | nil => rfl
  | cons resting inputs ih =>
    rw [matchSlots_cons, List.map_cons, List.sum_cons]
    simp only [ih]
    omega

/-- Every slot is `matchSlot` at some part of the arriving quantity. -/
theorem mem_zip_matchSlots {pair : PrivateRestingInput × MpcSlotResult}
    (h : pair ∈ inputs.zip (matchSlots side price Q inputs).1) :
    pair.1 ∈ inputs ∧ ∃ left ≤ Q, pair.2 = matchSlot side price left pair.1 := by
  induction inputs generalizing Q with
  | nil => exact absurd h (by simp)
  | cons resting inputs ih =>
    rw [matchSlots_cons, List.zip_cons_cons] at h
    rcases List.mem_cons.mp h with rfl | h
    · exact ⟨List.mem_cons_self, Q, le_rfl, rfl⟩
    · obtain ⟨hmem, left, hle, heq⟩ := ih h
      exact ⟨List.mem_cons_of_mem _ hmem, left, hle.trans (Nat.sub_le _ _), heq⟩

theorem map_fst_zip_matchSlots :
    (inputs.zip (matchSlots side price Q inputs).1).map Prod.fst = inputs :=
  List.map_fst_zip length_matchSlots.ge

theorem map_snd_zip_matchSlots :
    (inputs.zip (matchSlots side price Q inputs).1).map Prod.snd =
      (matchSlots side price Q inputs).1 :=
  List.map_snd_zip length_matchSlots.le

theorem matchSlot_tradeQuantity_le :
    (matchSlot side price Q resting).tradeQuantity ≤ resting.quantity :=
  (min_le_right _ _).trans offer_le

/-- A matched slot trades something, at the resting price, against a crossing order of the other
side. -/
theorem matchSlot_matched (h : (matchSlot side price Q resting).matched = true) :
    0 < (matchSlot side price Q resting).tradeQuantity ∧
    (matchSlot side price Q resting).tradePrice = resting.price ∧
    resting.side = side.opposite ∧ side.crosses price resting.price = true := by
  have hpos : 0 < min Q (offer side price resting) := by simpa [matchSlot] using h
  refine ⟨hpos, if_pos hpos, ?_⟩
  have hoffer : 0 < offer side price resting := lt_of_lt_of_le hpos (min_le_right _ _)
  unfold offer at hoffer
  split at hoffer
  · rename_i hcross
    exact ⟨Side.ne_iff_eq_opposite.mp hcross.1, hcross.2⟩
  · exact absurd hoffer (lt_irrefl 0)

theorem matchSlot_unmatched (h : (matchSlot side price Q resting).matched = false) :
    (matchSlot side price Q resting).tradeQuantity = 0 := by
  have hz : ¬ 0 < min Q (offer side price resting) := by simpa [matchSlot] using h
  exact Nat.eq_zero_of_not_pos hz

end Oclob.Core
