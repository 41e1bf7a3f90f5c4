import Oclob.Core.Order
import Oclob.Lib.QueueMap
import Mathlib.Data.Finset.Insert
import Mathlib.Data.Prod.Lex

/-!
# The private book

Model of `PrivateBook` in `oclob-core/src/lib.rs`: price levels of first-in first-out queues on
both sides, the fixed eight-slot batch (`private_match_batch`, `expected_batch`), the capacity
test and the five mutators. A mutator returning `Result` is an `EStateM` over the book, because
the code edits `self` in place and an error after the first edit would leave it edited.

The release profile sets no overflow checks, so the unchecked `u64` sums of `level` and of the
published depth wrap.
-/

namespace Oclob.Core

open Oclob.Lib

/-- `RestingOrder`. -/
structure RestingOrder where
  secret : SecretOrder
  authority : OrderAuthority
  remaining : Nat
  sequence : Nat
deriving DecidableEq

/-- The commitment a resting order is found by. -/
def RestingOrder.commitment (self : RestingOrder) : Digest32 := self.authority.commitment

/-- `BTreeMap<u64, VecDeque<RestingOrder>>`. -/
abbrev Levels := OrdMap Nat (List RestingOrder)

/-- `PrivateBook`. -/
structure PrivateBook where
  marketId : String
  sequence : Nat
  bids : Levels
  asks : Levels
  admitted : Finset Digest32
deriving DecidableEq

/-- `PrivateRestingInput`. -/
structure PrivateRestingInput where
  commitment : Digest32
  side : Side
  price : Nat
  quantity : Nat
deriving DecidableEq

/-- `PrivateMatchBatch`. -/
structure PrivateMatchBatch where
  resting : List PrivateRestingInput
  arrivingSide : Side
  arrivingPrice : Nat
  arrivingQuantity : Nat
  arrivingCanRest : Bool
deriving DecidableEq

/-- `MpcSlotResult`. -/
structure MpcSlotResult where
  matched : Bool
  tradePrice : Nat
  tradeQuantity : Nat
deriving DecidableEq, Repr

/-- `MpcPriceLevel` and `PublicLevel`. -/
structure PriceLevel where
  side : Side
  price : Nat
  quantity : Nat
deriving DecidableEq, Repr

/-- `MpcBatchResult`. -/
structure MpcBatchResult where
  slots : List MpcSlotResult
  arrivingRemaining : Nat
  publicLevels : Option (List PriceLevel)
deriving DecidableEq, Repr

/-- `MpcMatchResult`. -/
structure MpcMatchResult where
  matched : Bool
  tradePrice : Nat
  tradeQuantity : Nat
  restingRemaining : Nat
  arrivingRemaining : Nat
deriving DecidableEq, Repr

/-- `PublicFill`. -/
structure PublicFill where
  makerOrder : Digest32
  takerOrder : Digest32
  price : Nat
  quantity : Nat
deriving DecidableEq, Repr

/-- `PublicBookSnapshot`. -/
structure PublicBookSnapshot where
  marketId : String
  sequence : Nat
  levels : List PriceLevel
  stateRoot : Digest32
deriving DecidableEq, Repr

/-- `BookTransition`. -/
structure BookTransition where
  sequence : Nat
  privateBeforeRoot : Digest32
  privateAfterRoot : Digest32
  publicBeforeRoot : Digest32
  publicAfter : PublicBookSnapshot
  fill : Option PublicFill
  fills : List PublicFill
  arrivingRemaining : Nat
deriving DecidableEq, Repr

/-- `CancellationTransition`. -/
structure CancellationTransition where
  sequence : Nat
  cancellationCommitment : Digest32
  targetCommitment : Digest32
  releasedQuantity : Nat
  privateBeforeRoot : Digest32
  privateAfterRoot : Digest32
  publicBeforeRoot : Digest32
  publicAfter : PublicBookSnapshot
deriving DecidableEq, Repr

/-- `ExpiryTransition`. -/
structure ExpiryTransition where
  sequence : Nat
  expiryCommitment : Digest32
  cutoff : Nat
  expiredOrders : List Digest32
  releasedQuantity : Nat
  privateBeforeRoot : Digest32
  privateAfterRoot : Digest32
  publicBeforeRoot : Digest32
  publicAfter : PublicBookSnapshot
deriving DecidableEq, Repr

/-! ## Levels -/

/-- `find_record`. -/
def findRecord (bids asks : Levels) (commitment : Digest32) : Option RestingOrder :=
  (bids.items ++ asks.items).find? fun order => decide (order.commitment = commitment)

/-- What `update_remainder` does to the order it finds. -/
def setRemaining (remaining : Nat) (order : RestingOrder) : Option RestingOrder :=
  if remaining = 0 then none else some { order with remaining }

/-- `update_remainder`. -/
def updateRemainder (bids asks : Levels) (commitment : Digest32) (remaining : Nat) :
    Except OrderError (Levels × Levels) :=
  match bids.editFirst (fun order => decide (order.commitment = commitment))
      (setRemaining remaining) with
  | some bids => .ok (bids, asks)
  | none =>
    match asks.editFirst (fun order => decide (order.commitment = commitment))
        (setRemaining remaining) with
    | some asks => .ok (bids, asks)
    | none => .error .invalidMpcResult

/-- `remove_by_commitment`. -/
def removeByCommitment (bids asks : Levels) (commitment : Digest32) :
    Except OrderError (Levels × Levels) :=
  match updateRemainder bids asks commitment 0 with
  | .ok levels => .ok levels
  | .error _ => .error .unknownOrder

/-- `level`. -/
def level (side : Side) (price : Nat) (queue : List RestingOrder) : PriceLevel :=
  ⟨side, price, (queue.map RestingOrder.remaining).sum % u64Bound⟩

/-! ## The batch -/

/-- The loop of `expected_batch`: one slot after the other, with what is left of the arriving
order. -/
def matchSlots (side : Side) (price : Nat) : Nat → List PrivateRestingInput →
    List MpcSlotResult × Nat
  | arrivingRemaining, [] => ([], arrivingRemaining)
  | arrivingRemaining, resting :: rest =>
    let crossed := decide (resting.side ≠ side) && side.crosses price resting.price &&
      decide (0 < arrivingRemaining) && decide (0 < resting.quantity)
    let tradeQuantity := if crossed then min arrivingRemaining resting.quantity else 0
    let slot := ⟨crossed, if crossed then resting.price else 0, tradeQuantity⟩
    let tail := matchSlots side price (arrivingRemaining - tradeQuantity) rest
    (slot :: tail.1, tail.2)

/-- One addition of `expected_batch` to the depth it publishes. -/
def addLevel (levels : OrdMap (Nat ×ₗ Nat) Nat) (side : Side) (price quantity : Nat) :
    OrdMap (Nat ×ₗ Nat) Nat :=
  if 0 < quantity then
    levels.alter (toLex (side.wire, price)) fun old => some ((old.getD 0 + quantity) % u64Bound)
  else levels

/-- The order of the levels in a public book: the bids from the highest price down, then the asks
from the lowest price up. -/
def PriceLevel.sortKey (level : PriceLevel) : Nat ×ₗ Nat :=
  toLex (level.side.wire,
    if level.side = .buy then u64Bound - 1 - level.price else level.price)

/-- The depth `expected_batch` publishes: bids descending, then asks ascending. -/
def batchLevels (batch : PrivateMatchBatch) (slots : List MpcSlotResult) (remaining : Nat) :
    List PriceLevel :=
  let resting := (batch.resting.zip slots).foldl
    (fun levels pair => addLevel levels pair.1.side pair.1.price
      (pair.1.quantity - pair.2.tradeQuantity)) OrdMap.empty
  let levels := addLevel resting batch.arrivingSide batch.arrivingPrice remaining
  (levels.entries.map fun entry =>
    ⟨if (ofLex entry.1).1 = 0 then .buy else .sell, (ofLex entry.1).2, entry.2⟩).insertionSort
      fun a b => a.sortKey ≤ b.sortKey

/-- `expected_batch`. -/
def expectedBatch (batch : PrivateMatchBatch) : MpcBatchResult :=
  let (slots, arrivingRemaining) := matchSlots batch.arrivingSide batch.arrivingPrice
    batch.arrivingQuantity batch.resting
  let remaining := if batch.arrivingCanRest then arrivingRemaining else 0
  ⟨slots, remaining, some (batchLevels batch slots remaining)⟩

namespace PrivateBook

/-- `PrivateBook::new`. -/
def new (marketId : String) : Except OrderError PrivateBook :=
  if 0 < marketId.utf8ByteSize ∧ marketId.utf8ByteSize ≤ 64 then
    .ok ⟨marketId, 0, .empty, .empty, ∅⟩
  else .error (.invalid "market id must contain 1-64 bytes")

/-- The levels of one side. -/
def levels (self : PrivateBook) : Side → Levels
  | .buy => self.bids
  | .sell => self.asks

/-- Every resting order: bids, then asks, prices increasing. -/
def orders (self : PrivateBook) : List RestingOrder := self.bids.items ++ self.asks.items

/-- The orders an arriving order may trade with, best price first and first in first out: the
scan `private_match_batch` and `exceeds_fixed_match_capacity` both start from. -/
def ordered (self : PrivateBook) : Side → List RestingOrder
  | .buy => self.asks.items
  | .sell => self.bids.itemsDesc

/-- The part of that scan still alive at `now`. -/
def live (self : PrivateBook) (side : Side) (now : Nat) : List RestingOrder :=
  (self.ordered side).filter fun order => decide (now ≤ order.secret.expiresAt)

/-- What the circuit is given about one resting order. -/
def restingInput (order : RestingOrder) : PrivateRestingInput :=
  ⟨order.commitment, order.secret.side, order.secret.limitPrice, order.remaining⟩

/-- `PrivateBook::private_match_batch`. -/
def privateMatchBatch (self : PrivateBook) (arriving : SecretOrder) (now : Nat) :
    Except OrderError PrivateMatchBatch :=
  if arriving.marketId ≠ self.marketId then .error .wrongMarket
  else .ok {
    resting := ((self.live arriving.side now).take maxMatchSlots).map restingInput
    arrivingSide := arriving.side
    arrivingPrice := arriving.limitPrice
    arrivingQuantity := arriving.quantity
    arrivingCanRest := decide (arriving.timeInForce = .goodTilCancelled) }

/-- The loop of `exceeds_fixed_match_capacity`. -/
def exceedsLoop (side : Side) (price : Nat) : Nat → Nat → List RestingOrder → Bool
  | _, _, [] => false
  | remaining, matched, resting :: rest =>
    if side.crosses price resting.secret.limitPrice = false ∨ remaining = 0 then false
    else if maxMatchSlots < matched + 1 then true
    else exceedsLoop side price (remaining - min remaining resting.remaining) (matched + 1) rest

/-- `PrivateBook::exceeds_fixed_match_capacity`. -/
def exceedsFixedMatchCapacity (self : PrivateBook) (arriving : SecretOrder) (now : Nat) : Bool :=
  exceedsLoop arriving.side arriving.limitPrice arriving.quantity 0
    (self.live arriving.side now)

/-- `PrivateBook::check_admission`. -/
def checkAdmission (self : PrivateBook) (order : SecretOrder) (commitment : Digest32)
    (certificateSequence : Nat) : Except OrderError Unit :=
  if order.marketId ≠ self.marketId then .error .wrongMarket
  else if commitment ∈ self.admitted then .error .replay
  else if certificateSequence ≠ self.sequence + 1 then
    .error (.invalid "certificate sequence is not next")
  else .ok ()

/-- `PrivateBook::insert_record`. -/
def insertRecord (self : PrivateBook) (record : RestingOrder) : PrivateBook :=
  match record.secret.side with
  | .buy => { self with bids := self.bids.pushBack record.secret.limitPrice record }
  | .sell => { self with asks := self.asks.pushBack record.secret.limitPrice record }

/-- The last two assignments of every mutator. -/
def advance (self : PrivateBook) (commitment : Digest32) (certificateSequence : Nat) :
    PrivateBook :=
  { self with admitted := insert commitment self.admitted, sequence := certificateSequence }

/-- The price `best_opposite` and `remove_best` look at. -/
def bestPrice (self : PrivateBook) (side : Side) : Option Nat :=
  match side with
  | .buy => self.asks.keys.head?
  | .sell => self.bids.keys.getLast?

/-- `PrivateBook::best_opposite`. -/
def bestOpposite (self : PrivateBook) (side : Side) : Option RestingOrder :=
  (self.bestPrice side).bind fun price =>
    ((self.levels side.opposite).get? price).bind List.head?

/-- Rewrite the queue at the best opposite price. -/
def alterBest (self : PrivateBook) (side : Side)
    (f : List RestingOrder → Option (List RestingOrder)) : PrivateBook :=
  match self.bestPrice side with
  | none => self
  | some price =>
    match side with
    | .buy => { self with asks := self.asks.alter price fun queue => queue.bind f }
    | .sell => { self with bids := self.bids.alter price fun queue => queue.bind f }

/-- `PrivateBook::remove_best`. -/
def removeBest (self : PrivateBook) (side : Side) : PrivateBook :=
  self.alterBest side fun queue => if queue.tail.isEmpty then none else some queue.tail

/-- The assignment `best_opposite_mut(..).remaining = remaining`. -/
def setBest (self : PrivateBook) (side : Side) (remaining : Nat) : PrivateBook :=
  self.alterBest side fun queue => some (queue.modifyHead fun order => { order with remaining })

/-- `PrivateBook::expected_result`. -/
def expectedResult (self : PrivateBook) (arriving : SecretOrder) : MpcMatchResult :=
  match self.bestOpposite arriving.side with
  | none => ⟨false, 0, 0, 0, arriving.quantity⟩
  | some resting =>
    let crossed := arriving.side.crosses arriving.limitPrice resting.secret.limitPrice
    let quantity := if crossed then min arriving.quantity resting.remaining else 0
    ⟨crossed, if crossed then resting.secret.limitPrice else 0, quantity,
      resting.remaining - quantity, arriving.quantity - quantity⟩

/-- `PrivateBook::expired_commitments`. -/
def expiredCommitments (self : PrivateBook) (cutoff : Nat) : List Digest32 :=
  ((self.orders.filter fun order => decide (order.secret.expiresAt < cutoff)).map
    RestingOrder.commitment).insertionSort (· ≤ ·)

section

variable [Crypto]

/-- `PrivateBook::private_root`. -/
def privateRoot (self : PrivateBook) : Digest32 :=
  sha256 (asBytes "OCLOB:PRIVATE-BOOK:v2" ++ putBytes (asBytes self.marketId) ++
    toBeBytes 8 self.sequence ++
    (self.bids.entries ++ self.asks.entries).flatMap fun entry =>
      toBeBytes 8 entry.1 ++ entry.2.flatMap fun order =>
        order.commitment.bytes ++ toBeBytes 8 order.remaining ++ toBeBytes 8 order.sequence)

/-- `public_root`. -/
def publicRoot (marketId : String) (sequence : Nat) (levels : List PriceLevel) : Digest32 :=
  sha256 (asBytes "OCLOB:PUBLIC-BOOK:v2" ++ putBytes (asBytes marketId) ++
    toBeBytes 8 sequence ++
    levels.flatMap fun level =>
      toBeBytes 1 level.side.wire ++ toBeBytes 8 level.price ++ toBeBytes 8 level.quantity)

/-- `PrivateBook::public_snapshot`. -/
def publicSnapshot (self : PrivateBook) : PublicBookSnapshot :=
  let levels := (self.bids.entries.reverse.map fun entry => level .buy entry.1 entry.2) ++
    self.asks.entries.map fun entry => level .sell entry.1 entry.2
  ⟨self.marketId, self.sequence, levels, publicRoot self.marketId self.sequence levels⟩

/-! ## Mutators -/

/-- `PrivateBook::insert_resting`. -/
def insertResting (order : SecretOrder) (authority : OrderAuthority)
    (certificateSequence now : Nat) : EStateM OrderError PrivateBook Unit := do
  attempt (authority.verify order now)
  let self ← get
  attempt (self.checkAdmission order authority.commitment certificateSequence)
  ensure (order.timeInForce = .goodTilCancelled) (.invalid "only GTC orders can rest")
  set ((self.insertRecord ⟨order, authority, order.quantity, certificateSequence⟩).advance
    authority.commitment certificateSequence)

/-- The fill branch of `apply_mpc_result`. -/
def applyResult (arriving : SecretOrder) (taker : Digest32) (result : MpcMatchResult) :
    EStateM OrderError PrivateBook (Option PublicFill) :=
  if result.matched then do
    let self ← get
    let resting ← attempt (okOr (self.bestOpposite arriving.side) .invalidMpcResult)
    set (if result.restingRemaining = 0 then self.removeBest arriving.side
      else self.setBest arriving.side result.restingRemaining)
    pure (some ⟨resting.commitment, taker, result.tradePrice, result.tradeQuantity⟩)
  else pure none

/-- The end of `apply_mpc_result` and `apply_mpc_batch_result`: rest the remainder of a
good-til-cancelled order and record the command. -/
def restRemainder (self : PrivateBook) (arriving : SecretOrder) (authority : OrderAuthority)
    (certificateSequence arrivingRemaining : Nat) : PrivateBook :=
  (if 0 < arrivingRemaining ∧ arriving.timeInForce = .goodTilCancelled then
    self.insertRecord ⟨arriving, authority, arrivingRemaining, certificateSequence⟩
  else self).advance authority.commitment certificateSequence

/-- The `BookTransition` both matching mutators return. -/
def transition (before book : PrivateBook) (certificateSequence : Nat)
    (fills : List PublicFill) (arrivingRemaining : Nat) : BookTransition where
  sequence := certificateSequence
  privateBeforeRoot := before.privateRoot
  privateAfterRoot := book.privateRoot
  publicBeforeRoot := before.publicSnapshot.stateRoot
  publicAfter := book.publicSnapshot
  fill := fills.head?
  fills
  arrivingRemaining

/-- `PrivateBook::apply_mpc_result`. -/
def applyMpcResult (arriving : SecretOrder) (authority : OrderAuthority)
    (certificateSequence now : Nat) (result : MpcMatchResult) :
    EStateM OrderError PrivateBook BookTransition := do
  attempt (authority.verify arriving now)
  let before ← get
  attempt (before.checkAdmission arriving authority.commitment certificateSequence)
  ensure (result = before.expectedResult arriving) .invalidMpcResult
  let fill ← applyResult arriving authority.commitment result
  modify fun self => self.restRemainder arriving authority certificateSequence
    result.arrivingRemaining
  let self ← get
  pure (transition before self certificateSequence fill.toList result.arrivingRemaining)

/-- The loop of `apply_mpc_batch_result` over the slots. -/
def applySlots (taker : Digest32) : List (PrivateRestingInput × MpcSlotResult) →
    EStateM OrderError PrivateBook (List PublicFill)
  | [] => pure []
  | (resting, slot) :: rest =>
    if slot.matched then do
      let restingRemaining ←
        attempt (okOr (checkedSub resting.quantity slot.tradeQuantity) .invalidMpcResult)
      let self ← get
      let (bids, asks) ←
        attempt (updateRemainder self.bids self.asks resting.commitment restingRemaining)
      set { self with bids, asks }
      let fills ← applySlots taker rest
      pure (⟨resting.commitment, taker, slot.tradePrice, slot.tradeQuantity⟩ :: fills)
    else applySlots taker rest

/-- `PrivateBook::apply_mpc_batch_result`. -/
def applyMpcBatchResult (arriving : SecretOrder) (authority : OrderAuthority)
    (certificateSequence now : Nat) (result : MpcBatchResult) :
    EStateM OrderError PrivateBook BookTransition := do
  attempt (authority.verify arriving now)
  let before ← get
  attempt (before.checkAdmission arriving authority.commitment certificateSequence)
  let batch ← attempt (before.privateMatchBatch arriving now)
  ensure (result = expectedBatch batch) .invalidMpcResult
  let fills ← applySlots authority.commitment (batch.resting.zip result.slots)
  modify fun self => self.restRemainder arriving authority certificateSequence
    result.arrivingRemaining
  let self ← get
  pure (transition before self certificateSequence fills result.arrivingRemaining)

/-- `PrivateBook::apply_cancellation`. -/
def applyCancellation (cancellation : SecretCancellation) (certificateSequence : Nat) :
    EStateM OrderError PrivateBook CancellationTransition := do
  let before ← get
  ensure (certificateSequence = before.sequence + 1)
    (.invalid "certificate sequence is not next")
  let command := cancellation.commitment
  ensure (command ∉ before.admitted) .replay
  let record ← attempt
    (okOr (findRecord before.bids before.asks cancellation.target) .unknownOrder)
  ensure (record.secret.cancellationSecretDigest = cancellationDigest cancellation.secret)
    .invalidCancellation
  let (bids, asks) ← attempt
    (removeByCommitment before.bids before.asks cancellation.target)
  let self := { before with bids, asks }.advance command certificateSequence
  set self
  pure {
    sequence := certificateSequence
    cancellationCommitment := command
    targetCommitment := cancellation.target
    releasedQuantity := record.remaining
    privateBeforeRoot := before.privateRoot
    privateAfterRoot := self.privateRoot
    publicBeforeRoot := before.publicSnapshot.stateRoot
    publicAfter := self.publicSnapshot }

/-- The loop of `apply_expiry`: the book is edited order by order, and the released quantity is
checked before each removal. -/
def expireOrders : Nat → List Digest32 → EStateM OrderError PrivateBook Nat
  | releasedQuantity, [] => pure releasedQuantity
  | releasedQuantity, commitment :: rest => do
    let self ← get
    let record ← attempt (okOr (findRecord self.bids self.asks commitment) .unknownOrder)
    let releasedQuantity ← attempt (okOr (checkedAdd releasedQuantity record.remaining)
      (.invalid "expired quantity overflowed"))
    let (bids, asks) ← attempt (removeByCommitment self.bids self.asks commitment)
    set { self with bids, asks }
    expireOrders releasedQuantity rest

/-- `PrivateBook::apply_expiry`. -/
def applyExpiry (cutoff : Nat) (command : Digest32) (certificateSequence : Nat) :
    EStateM OrderError PrivateBook ExpiryTransition := do
  let before ← get
  ensure (certificateSequence = before.sequence + 1)
    (.invalid "certificate sequence is not next")
  ensure (command ∉ before.admitted) .replay
  let expiredOrders := before.expiredCommitments cutoff
  ensure (expiredOrders ≠ [] ∧ command = expiryCommitment before.marketId cutoff expiredOrders)
    (.invalid "expiry command is empty or non-canonical")
  let releasedQuantity ← expireOrders 0 expiredOrders
  modify fun self => self.advance command certificateSequence
  let self ← get
  pure {
    sequence := certificateSequence
    expiryCommitment := command
    cutoff
    expiredOrders
    releasedQuantity
    privateBeforeRoot := before.privateRoot
    privateAfterRoot := self.privateRoot
    publicBeforeRoot := before.publicSnapshot.stateRoot
    publicAfter := self.publicSnapshot }

end

end PrivateBook

end Oclob.Core
