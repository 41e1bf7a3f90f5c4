import Oclob.Core.Order
import Oclob.Lib.Circuit

/-!
# The generated matching circuit

Model of the program text that `matching_program_parts` in `oclob-mpc/src/lib.rs` emits: the same
loops unroll over the slots, and each emitted line is one assignment. Every value `secret_input()`
reads and every `sint.get_random()` is an input wire.

The slots stay in place. For each slot the circuit adds up the eligible quantity of better
priority (`higher_quantity`), and what that leaves of the arriving order (`available`) is what the
slot may trade. `Mpc/Matching.lean` proves that this is price-time priority.

Not modelled: the depth rows that follow, the bit decompositions and the proof wires, which are read
by no line below.
-/

namespace Oclob.Mpc

open Oclob.Core Oclob.Lib Expr

/-- The wires a slot has, under the names of the program text. -/
inductive SlotWire where
  -- inputs
  | active | restingSide | restingPrice | restingQuantity | restingPriceBlinding
  | restingReserve | restingReserveBlinding | restingHandle
  | fillQuantityBlinding | cashBlinding
  -- priority
  | eligible | higherQuantity | available
  -- the trade
  | opposite | priceCross | positive | matched | minimum | tradeQuantity | tradePrice
  | tradePriceBlinding | restingRemaining
  -- the reserves it moves
  | cash | productCross | limitDifference | limitDifferenceBlinding
  | securitiesReserve | securitiesReserveBlinding | cashReserve | cashReserveBlinding
  | securitiesRemainder | securitiesRemainderBlinding | cashRemainder | cashRemainderBlinding
  | makerDelivery | makerDeliveryBlinding | makerPoolRemainder | makerPoolRemainderBlinding
  | arrivingDelivery | arrivingDeliveryBlinding | restingActiveNext
  deriving DecidableEq

/-- The wires of the arriving order. -/
inductive OrderWire where
  -- inputs
  | arrivingSide | arrivingPrice | arrivingQuantity | arrivingCanRest | arrivingPriceBlinding
  | arrivingReserve | arrivingReserveBlinding | arrivingHandle
  -- running remainders
  | remaining | arrivingReserveRemaining | arrivingReserveBlindingRemaining
  -- what is published and kept
  | publishedRemaining | arrivingActiveNext
  deriving DecidableEq

/-- The wires of a circuit with `n` slots. -/
inductive Wire (n : Nat) where
  | slot (slot : Fin n) (name : SlotWire)
  | better (slot other : Fin n)
  | order (name : OrderWire)
  deriving DecidableEq

/-- The values `secret_input()` reads and the random ones. -/
def SlotWire.isInput : SlotWire → Bool
  | .active | .restingSide | .restingPrice | .restingQuantity | .restingPriceBlinding
  | .restingReserve | .restingReserveBlinding | .restingHandle
  | .fillQuantityBlinding | .cashBlinding => true
  | _ => false

def OrderWire.isInput : OrderWire → Bool
  | .arrivingSide | .arrivingPrice | .arrivingQuantity | .arrivingCanRest
  | .arrivingPriceBlinding | .arrivingReserve | .arrivingReserveBlinding | .arrivingHandle => true
  | _ => false

def Wire.isInput {n : Nat} : Wire n → Bool
  | .slot _ name => name.isInput
  | .better _ _ => false
  | .order name => name.isInput

variable {n : Nat}

def slotVar (slot : Fin n) (name : SlotWire) : Expr (Wire n) := var (.slot slot name)

def orderVar (name : OrderWire) : Expr (Wire n) := var (.order name)

/-- `remaining = arriving_quantity` and the two reserve remainders. -/
def startLines : List (Assign (Wire n)) :=
  [⟨.order .remaining, orderVar .arrivingQuantity⟩,
    ⟨.order .arrivingReserveRemaining, orderVar .arrivingReserve⟩,
    ⟨.order .arrivingReserveBlindingRemaining, orderVar .arrivingReserveBlinding⟩]

/-- Whether the price of a slot crosses the arriving price; the text repeats the expression. -/
def crossesExpr (slot : Fin n) : Expr (Wire n) :=
  ifElse (orderVar .arrivingSide)
    (ge (slotVar slot .restingPrice) (orderVar .arrivingPrice))
    (ge (orderVar .arrivingPrice) (slotVar slot .restingPrice))

/-- The `eligible_{slot}` line. -/
def eligibleLine (slot : Fin n) : List (Assign (Wire n)) :=
  [⟨.slot slot .eligible,
    slotVar slot .active * ne (slotVar slot .restingSide) (orderVar .arrivingSide) *
      crossesExpr slot * gt (slotVar slot .restingQuantity) (const 0)⟩]

/-- The two lines of `slot` for each `other`; `earlier` is a constant of the text. -/
def betterLines (slot other : Fin n) : List (Assign (Wire n)) :=
  let earlier : Nat := if other < slot then 1 else 0
  [⟨.better slot other,
      ifElse (orderVar .arrivingSide)
        (gt (slotVar other .restingPrice) (slotVar slot .restingPrice))
        (lt (slotVar other .restingPrice) (slotVar slot .restingPrice)) +
      eq (slotVar other .restingPrice) (slotVar slot .restingPrice) * const earlier⟩,
    ⟨.slot slot .higherQuantity, slotVar slot .higherQuantity +
      slotVar other .eligible * var (.better slot other) * slotVar other .restingQuantity⟩]

/-- The lines that compute `higher_quantity_{slot}` and `available_{slot}`. -/
def priorityLines (slot : Fin n) : List (Assign (Wire n)) :=
  ⟨.slot slot .higherQuantity, const 0⟩ ::
    ((List.finRange n).filter fun other => other ≠ slot).flatMap (betterLines slot) ++
  [⟨.slot slot .available,
    ifElse (gt (orderVar .arrivingQuantity) (slotVar slot .higherQuantity))
      (orderVar .arrivingQuantity - slotVar slot .higherQuantity) (const 0)⟩]

/-- The lines of a slot up to `remaining`: its trade. -/
def tradeLines (slot : Fin n) : List (Assign (Wire n)) :=
  [⟨.slot slot .opposite, ne (slotVar slot .restingSide) (orderVar .arrivingSide)⟩,
    ⟨.slot slot .priceCross, crossesExpr slot⟩,
    ⟨.slot slot .positive, gt (slotVar slot .restingQuantity) (const 0) *
      gt (slotVar slot .available) (const 0)⟩,
    ⟨.slot slot .matched, slotVar slot .active * slotVar slot .opposite *
      slotVar slot .priceCross * slotVar slot .positive⟩,
    ⟨.slot slot .minimum, ifElse (le (slotVar slot .restingQuantity) (slotVar slot .available))
      (slotVar slot .restingQuantity) (slotVar slot .available)⟩,
    ⟨.slot slot .tradeQuantity, slotVar slot .matched * slotVar slot .minimum⟩,
    ⟨.slot slot .tradePrice, slotVar slot .matched * slotVar slot .restingPrice⟩,
    ⟨.slot slot .tradePriceBlinding, slotVar slot .matched * slotVar slot .restingPriceBlinding⟩,
    ⟨.slot slot .restingRemaining, slotVar slot .restingQuantity - slotVar slot .tradeQuantity⟩,
    ⟨.order .remaining, orderVar .remaining - slotVar slot .tradeQuantity⟩]

/-- The further lines of a slot: the amounts its trade moves out of the two reserves. -/
def reserveLines (slot : Fin n) : List (Assign (Wire n)) :=
  [⟨.slot slot .cash, slotVar slot .tradeQuantity * slotVar slot .tradePrice⟩,
    ⟨.slot slot .productCross, slotVar slot .cashBlinding -
      slotVar slot .fillQuantityBlinding * slotVar slot .tradePrice⟩,
    ⟨.slot slot .limitDifference, slotVar slot .matched * ifElse (orderVar .arrivingSide)
      (slotVar slot .tradePrice - orderVar .arrivingPrice)
      (orderVar .arrivingPrice - slotVar slot .tradePrice)⟩,
    ⟨.slot slot .limitDifferenceBlinding, slotVar slot .matched * ifElse (orderVar .arrivingSide)
      (slotVar slot .tradePriceBlinding - orderVar .arrivingPriceBlinding)
      (orderVar .arrivingPriceBlinding - slotVar slot .tradePriceBlinding)⟩,
    ⟨.slot slot .securitiesReserve, ifElse (orderVar .arrivingSide)
      (orderVar .arrivingReserveRemaining) (slotVar slot .restingReserve)⟩,
    ⟨.slot slot .securitiesReserveBlinding, ifElse (orderVar .arrivingSide)
      (orderVar .arrivingReserveBlindingRemaining) (slotVar slot .restingReserveBlinding)⟩,
    ⟨.slot slot .cashReserve, ifElse (orderVar .arrivingSide)
      (slotVar slot .restingReserve) (orderVar .arrivingReserveRemaining)⟩,
    ⟨.slot slot .cashReserveBlinding, ifElse (orderVar .arrivingSide)
      (slotVar slot .restingReserveBlinding) (orderVar .arrivingReserveBlindingRemaining)⟩,
    ⟨.slot slot .securitiesRemainder,
      slotVar slot .securitiesReserve - slotVar slot .tradeQuantity⟩,
    ⟨.slot slot .securitiesRemainderBlinding,
      slotVar slot .securitiesReserveBlinding - slotVar slot .fillQuantityBlinding⟩,
    ⟨.slot slot .cashRemainder, slotVar slot .cashReserve - slotVar slot .cash⟩,
    ⟨.slot slot .cashRemainderBlinding,
      slotVar slot .cashReserveBlinding - slotVar slot .cashBlinding⟩,
    ⟨.slot slot .makerDelivery, ifElse (slotVar slot .restingSide)
      (slotVar slot .tradeQuantity) (slotVar slot .cash)⟩,
    ⟨.slot slot .makerDeliveryBlinding, slotVar slot .matched * ifElse (slotVar slot .restingSide)
      (slotVar slot .fillQuantityBlinding) (slotVar slot .cashBlinding)⟩,
    ⟨.slot slot .makerPoolRemainder, slotVar slot .restingReserve - slotVar slot .makerDelivery⟩,
    ⟨.slot slot .makerPoolRemainderBlinding,
      slotVar slot .restingReserveBlinding - slotVar slot .makerDeliveryBlinding⟩,
    ⟨.slot slot .arrivingDelivery, ifElse (orderVar .arrivingSide)
      (slotVar slot .tradeQuantity) (slotVar slot .cash)⟩,
    ⟨.slot slot .arrivingDeliveryBlinding, slotVar slot .matched * ifElse (orderVar .arrivingSide)
      (slotVar slot .fillQuantityBlinding) (slotVar slot .cashBlinding)⟩,
    ⟨.order .arrivingReserveRemaining,
      orderVar .arrivingReserveRemaining - slotVar slot .arrivingDelivery⟩,
    ⟨.order .arrivingReserveBlindingRemaining,
      orderVar .arrivingReserveBlindingRemaining - slotVar slot .arrivingDeliveryBlinding⟩,
    ⟨.slot slot .restingActiveNext,
      slotVar slot .active * gt (slotVar slot .restingRemaining) (const 0)⟩]

/-- All lines of a slot. -/
def slotLines (slot : Fin n) : List (Assign (Wire n)) := tradeLines slot ++ reserveLines slot

/-- What is published and kept of the arriving order. -/
def closingLines : List (Assign (Wire n)) :=
  [⟨.order .publishedRemaining, orderVar .remaining * orderVar .arrivingCanRest⟩,
    ⟨.order .arrivingActiveNext,
      orderVar .arrivingCanRest * gt (orderVar .publishedRemaining) (const 0)⟩]

/-- The lines before the slots: running remainders, eligibility and priority. -/
def priorityProgram (n : Nat) : List (Assign (Wire n)) :=
  startLines ++ (List.finRange n).flatMap eligibleLine ++ (List.finRange n).flatMap priorityLines

/-- `matching_program_parts`, up to the lines of the first `k` slots. -/
def matchingProgramUpTo (n k : Nat) : List (Assign (Wire n)) :=
  priorityProgram n ++ ((List.finRange n).take k).flatMap slotLines

/-- `matching_program_parts`, up to the published remainder. -/
def matchingProgram (n : Nat) : List (Assign (Wire n)) :=
  matchingProgramUpTo n n ++ closingLines

end Oclob.Mpc
