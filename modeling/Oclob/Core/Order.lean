import Oclob.Lib.Checked
import Oclob.Lib.Encoding
import Mathlib.Data.List.Sort
import Mathlib.Order.Fin.Basic

/-!
# Secret orders and their authority

Model of the order half of `oclob-core/src/lib.rs`: `Side`, `TimeInForce`, `SecretOrder` with the
checks of `new_with_controls`, `MarketRules`, `OrderAuthority::verify`, `SecretCancellation` and
the byte strings behind the commitments.

* `Digest32` (`[u8; 32]`) is the big-endian number of its bytes: the derived order on arrays is
  the order of these numbers and `[0; 32]` is `0`.
* A `u64` argument is a `U64`; inside the model a field of an order is a natural number and the
  order carries the proof that it fits.
* `SecretOrder` carries what its only constructor checks, so an order that would be refused
  cannot be built (`newWithControls_ok`: the checks are complete as well).
* SHA-256 and the verification of a hybrid signature come from other crates: `Crypto` names them.
-/

namespace Oclob.Core

open Oclob.Lib

/-- `Digest32`: 32 bytes, as the big-endian number they write. -/
abbrev Digest32 := Fin (2 ^ 256)

instance digest32_neZero : NeZero (2 ^ 256) := ⟨by decide⟩

instance digest32_lawfulBEq : LawfulBEq Digest32 := inferInstance

/-- A `u64` argument. -/
abbrev U64 := Fin u64Bound

abbrev Bytes := List UInt8

/-- `ED25519_ORDER`, the order of the scalar field that shares and the circuit compute in. -/
def scalarOrder : Nat := 2 ^ 252 + 27742317777372353535851937790883648493

/-- The cryptography the crates import: `sha2::Sha256`, and `application_crypto`'s check of a
signature (closed envelope, key fingerprint, both hybrid components) on a message. -/
class Crypto where
  sha256 : Bytes → Digest32
  verifyStrict : Digest32 → Bytes → Bytes → Bool

export Crypto (sha256 verifyStrict)

/-! ## Byte strings -/

/-- `to_be_bytes` at a width in bytes. -/
def toBeBytes : Nat → Nat → Bytes
  | 0, _ => []
  | width + 1, n => toBeBytes width (n / 256) ++ [UInt8.ofNat n]

/-- `from_be_bytes`. -/
def fromBeBytes (bytes : Bytes) : Nat := bytes.foldl (fun n byte => n * 256 + byte.toNat) 0

@[simp] theorem length_toBeBytes (width n : Nat) : (toBeBytes width n).length = width := by
  induction width generalizing n with
  | zero => rfl
  | succ width ih => rw [toBeBytes, List.length_append, ih, List.length_singleton]

theorem fromBeBytes_toBeBytes (width n : Nat) :
    fromBeBytes (toBeBytes width n) = n % 256 ^ width := by
  induction width generalizing n with
  | zero => exact (Nat.mod_one n).symm
  | succ width ih =>
    have hlast : fromBeBytes (toBeBytes (width + 1) n) =
        fromBeBytes (toBeBytes width (n / 256)) * 256 + n % 256 := by
      simp [fromBeBytes, toBeBytes]
    rw [hlast, ih, Nat.pow_succ', Nat.mod_mul, Nat.mul_comm, Nat.add_comm]

def Digest32.bytes (d : Digest32) : Bytes := toBeBytes 32 d

/-- `str::as_bytes`. -/
def asBytes (s : String) : Bytes := s.toUTF8.data.toList

theorem length_asBytes (s : String) : (asBytes s).length = s.utf8ByteSize := rfl

theorem asBytes_injective : Function.Injective asBytes := by
  intro a b h
  exact String.toByteArray_inj.mp (ByteArray.ext (Array.toList_inj.mp h))

/-- `put_bytes` and `put_hash_bytes`: a length prefix, then the bytes. -/
def putBytes (bytes : Bytes) : Bytes := toBeBytes 8 bytes.length ++ bytes

/-! Their codes can be read back. -/

theorem selfDelimiting_toBeBytes (width : Nat) :
    SelfDelimiting (toBeBytes width) (· < 256 ^ width) := by
  refine .of_length width (length_toBeBytes width) fun a b ha hb h => ?_
  have hvalue := congrArg fromBeBytes h
  rwa [fromBeBytes_toBeBytes, fromBeBytes_toBeBytes, Nat.mod_eq_of_lt ha,
    Nat.mod_eq_of_lt hb] at hvalue

theorem selfDelimiting_digest : SelfDelimiting Digest32.bytes fun _ => True := by
  intro a b _ _ x y h
  obtain ⟨hval, hrest⟩ := selfDelimiting_toBeBytes 32 a b a.isLt b.isLt x y h
  exact ⟨Fin.ext hval, hrest⟩

theorem selfDelimiting_putBytes :
    SelfDelimiting putBytes fun bytes => bytes.length < 256 ^ 8 := by
  intro a b ha hb x y h
  rw [putBytes, putBytes, List.append_assoc, List.append_assoc] at h
  obtain ⟨hlength, hrest⟩ := selfDelimiting_toBeBytes 8 _ _ ha hb _ _ h
  exact List.append_inj hrest hlength

/-! ## Sides and validity -/

inductive Side where
  | buy
  | sell
deriving DecidableEq, Repr

namespace Side

/-- `Side::wire`. -/
def wire : Side → Nat
  | buy => 0
  | sell => 1

/-- `Side::opposite`. -/
def opposite : Side → Side
  | buy => sell
  | sell => buy

/-- The price test between an arriving order on this side and a resting price. -/
def crosses (side : Side) (arrivingPrice restingPrice : Nat) : Bool :=
  match side with
  | buy => decide (restingPrice ≤ arrivingPrice)
  | sell => decide (arrivingPrice ≤ restingPrice)

@[simp] theorem opposite_opposite (side : Side) : side.opposite.opposite = side := by
  cases side <;> rfl

theorem ne_iff_eq_opposite {a b : Side} : a ≠ b ↔ a = b.opposite := by
  cases a <;> cases b <;> simp [opposite]

end Side

inductive TimeInForce where
  | goodTilCancelled
  | immediateOrCancel
deriving DecidableEq, Repr

/-- `TimeInForce::wire`. -/
def TimeInForce.wire : TimeInForce → Nat
  | goodTilCancelled => 1
  | immediateOrCancel => 2

/-- `OrderError`. -/
inductive OrderError where
  | invalid (reason : String)
  | authority
  | replay
  | invalidMpcResult
  | wrongMarket
  | unknownOrder
  | invalidCancellation
deriving DecidableEq, Repr

/-! ## Secret orders -/

/-- The reserve the worst permitted fill needs, `none` on overflow. -/
def requiredReserve (side : Side) (limitPrice quantity maxFee : Nat) : Option Nat :=
  match side with
  | .buy => (checkedMul limitPrice quantity).bind fun value => checkedAdd value maxFee
  | .sell => some quantity

/-- `OrderControls`. -/
structure OrderControls where
  orderId : Digest32
  ephemeralPublicKey : Digest32
  dekyxNullifier : Digest32
  reservationId : Digest32
  reservationLimit : U64
  minimumLot : U64
  maxFee : U64
  cancellationSecretDigest : Digest32
deriving DecidableEq

/-- `SecretOrder`, with what `new_with_controls` has checked. -/
structure SecretOrder where
  orderId : Digest32
  ephemeralPublicKey : Digest32
  marketId : String
  side : Side
  limitPrice : Nat
  quantity : Nat
  timeInForce : TimeInForce
  expiresAt : Nat
  participantHandle : Digest32
  dekyxNullifier : Digest32
  reservationId : Digest32
  reservationLimit : Nat
  minimumLot : Nat
  maxFee : Nat
  cancellationSecretDigest : Digest32
  clientNonce : Digest32
  salt : Digest32
  words : limitPrice < u64Bound ∧ quantity < u64Bound ∧ expiresAt < u64Bound ∧
    reservationLimit < u64Bound ∧ minimumLot < u64Bound ∧ maxFee < u64Bound
  market_len : 0 < marketId.utf8ByteSize ∧ marketId.utf8ByteSize ≤ 64
  positive : 0 < limitPrice ∧ 0 < quantity ∧ 0 < expiresAt
  controls : (participantHandle ≠ 0 ∧ clientNonce ≠ 0 ∧ salt ≠ 0 ∧ orderId ≠ 0 ∧
    ephemeralPublicKey ≠ 0 ∧ dekyxNullifier ≠ 0 ∧ reservationId ≠ 0 ∧
    cancellationSecretDigest ≠ 0) ∧ minimumLot ≠ 0 ∧ minimumLot ∣ quantity
  covered : ∃ required, requiredReserve side limitPrice quantity maxFee = some required ∧
    required ≤ reservationLimit
deriving DecidableEq

namespace SecretOrder

/-- `SecretOrder::new_with_controls`. -/
def newWithControls (marketId : String) (side : Side) (limitPrice quantity : U64)
    (timeInForce : TimeInForce) (expiresAt : U64)
    (participantHandle clientNonce salt : Digest32) (controls : OrderControls) :
    Except OrderError SecretOrder :=
  if hm : 0 < marketId.utf8ByteSize ∧ marketId.utf8ByteSize ≤ 64 then
    if hp : 0 < limitPrice.val ∧ 0 < quantity.val ∧ 0 < expiresAt.val then
      if hc : (participantHandle ≠ 0 ∧ clientNonce ≠ 0 ∧ salt ≠ 0 ∧ controls.orderId ≠ 0 ∧
          controls.ephemeralPublicKey ≠ 0 ∧ controls.dekyxNullifier ≠ 0 ∧
          controls.reservationId ≠ 0 ∧ controls.cancellationSecretDigest ≠ 0) ∧
          controls.minimumLot.val ≠ 0 ∧ controls.minimumLot.val ∣ quantity.val then
        match hr : requiredReserve side limitPrice quantity controls.maxFee with
        | none => .error (.invalid "reservation limit overflows")
        | some required =>
          if hl : required ≤ controls.reservationLimit.val then
            .ok {
              orderId := controls.orderId
              ephemeralPublicKey := controls.ephemeralPublicKey
              marketId, side
              limitPrice := limitPrice
              quantity := quantity
              timeInForce
              expiresAt := expiresAt
              participantHandle
              dekyxNullifier := controls.dekyxNullifier
              reservationId := controls.reservationId
              reservationLimit := controls.reservationLimit
              minimumLot := controls.minimumLot
              maxFee := controls.maxFee
              cancellationSecretDigest := controls.cancellationSecretDigest
              clientNonce, salt
              words := ⟨limitPrice.isLt, quantity.isLt, expiresAt.isLt,
                controls.reservationLimit.isLt, controls.minimumLot.isLt, controls.maxFee.isLt⟩
              market_len := hm
              positive := hp
              controls := hc
              covered := ⟨required, hr, hl⟩ }
          else .error (.invalid "reservation does not cover the worst permitted fill")
      else .error (.invalid
        "order controls, participant handle, nonce and commitment salt are required")
    else .error (.invalid "price, quantity and expiry must all be positive")
  else .error (.invalid "market id must contain 1-64 bytes")

theorem reservationLimit_lt (order : SecretOrder) : order.reservationLimit < u64Bound :=
  order.words.2.2.2.1

theorem minimumLot_lt (order : SecretOrder) : order.minimumLot < u64Bound :=
  order.words.2.2.2.2.1

theorem maxFee_lt (order : SecretOrder) : order.maxFee < u64Bound := order.words.2.2.2.2.2

/-- The controls an order was built with. -/
def orderControls (order : SecretOrder) : OrderControls where
  orderId := order.orderId
  ephemeralPublicKey := order.ephemeralPublicKey
  dekyxNullifier := order.dekyxNullifier
  reservationId := order.reservationId
  reservationLimit := ⟨order.reservationLimit, order.reservationLimit_lt⟩
  minimumLot := ⟨order.minimumLot, order.minimumLot_lt⟩
  maxFee := ⟨order.maxFee, order.maxFee_lt⟩
  cancellationSecretDigest := order.cancellationSecretDigest

/-- **The invariant is exactly the constructor's.** Every order is the result of
`new_with_controls` on its own fields. -/
theorem newWithControls_ok (order : SecretOrder) :
    newWithControls order.marketId order.side ⟨order.limitPrice, order.words.1⟩
      ⟨order.quantity, order.words.2.1⟩ order.timeInForce ⟨order.expiresAt, order.words.2.2.1⟩
      order.participantHandle order.clientNonce order.salt order.orderControls = .ok order := by
  obtain ⟨required, hr, hl⟩ := order.covered
  unfold newWithControls
  rw [dif_pos order.market_len, dif_pos order.positive]
  refine (dif_pos order.controls).trans ?_
  split
  · rename_i hnone
    exact absurd (hr.symm.trans hnone) (by simp)
  · rename_i required' hsome
    obtain rfl := Option.some.inj (hr.symm.trans hsome)
    exact dif_pos hl

theorem quantity_pos (order : SecretOrder) : 0 < order.quantity := order.positive.2.1

theorem limitPrice_pos (order : SecretOrder) : 0 < order.limitPrice := order.positive.1

/-- `SecretOrder::canonical_payload`; the version of every order is 2. -/
def canonicalPayload (order : SecretOrder) : Bytes :=
  toBeBytes 2 2 ++ order.orderId.bytes ++ order.ephemeralPublicKey.bytes ++
  putBytes (asBytes order.marketId) ++ toBeBytes 1 order.side.wire ++
  toBeBytes 8 order.limitPrice ++ toBeBytes 8 order.quantity ++
  toBeBytes 1 order.timeInForce.wire ++ toBeBytes 8 order.expiresAt ++
  order.participantHandle.bytes ++ order.dekyxNullifier.bytes ++ order.reservationId.bytes ++
  toBeBytes 8 order.reservationLimit ++ toBeBytes 8 order.minimumLot ++
  toBeBytes 8 order.maxFee ++ order.cancellationSecretDigest.bytes ++ order.clientNonce.bytes

/-- `SecretOrder::commitment`. -/
def commitment [Crypto] (order : SecretOrder) : Digest32 :=
  sha256 (asBytes "OCLOB:ORDER-COMMITMENT:v2" ++ order.salt.bytes ++ order.canonicalPayload)

end SecretOrder

/-! ## Market rules -/

/-- `MAX_MATCH_SLOTS`. -/
def maxMatchSlots : Nat := 8

/-- `MarketRules`. -/
structure MarketRules where
  tickSize : Nat
  lotSize : Nat
  maximumFee : Nat
  maxMatchSlots : Nat
deriving DecidableEq

/-- `MarketRules::p1`. -/
def MarketRules.p1 : MarketRules := ⟨1, 1, 0, Core.maxMatchSlots⟩

/-- `MarketRules::validate`. -/
def MarketRules.validate (rules : MarketRules) : Except OrderError Unit :=
  if rules.tickSize = 0 ∨ rules.lotSize = 0 ∨ rules.maxMatchSlots ≠ Core.maxMatchSlots then
    .error (.invalid "tick, lot, and fixed matching capacity must be valid")
  else .ok ()

/-- `SecretOrder::validate_market_rules`. -/
def SecretOrder.validateMarketRules (order : SecretOrder) (rules : MarketRules) :
    Except OrderError Unit := do
  rules.validate
  if ¬ rules.tickSize ∣ order.limitPrice ∨ ¬ rules.lotSize ∣ order.quantity ∨
      order.minimumLot ≠ rules.lotSize ∨ rules.maximumFee < order.maxFee then
    .error (.invalid "order violates tick, lot, or fee rules")
  else .ok ()

/-! ## Authority and cancellation -/

/-- `OrderAuthority`. -/
structure OrderAuthority where
  commitment : Digest32
  authorizationDeadline : Nat
  verifyingKey : Digest32
  signature : Bytes
deriving DecidableEq

section

variable [Crypto]

/-- `authority_body`. -/
def authorityBody (commitment : Digest32) (deadline : Nat) : Bytes :=
  (sha256 (asBytes "OCLOB:ORDER-AUTHORITY:v2" ++ commitment.bytes ++
    toBeBytes 8 deadline)).bytes

/-- `OrderAuthority::verify`. -/
def OrderAuthority.verify (self : OrderAuthority) (order : SecretOrder) (now : Nat) :
    Except OrderError Unit :=
  if self.authorizationDeadline < now ∨ order.expiresAt < now ∨
      self.commitment ≠ order.commitment then .error .authority
  else if self.verifyingKey = 0 then .error .authority
  else if verifyStrict self.verifyingKey
      (authorityBody self.commitment self.authorizationDeadline) self.signature then .ok ()
  else .error .authority

theorem OrderAuthority.verify_ok {self : OrderAuthority} {order : SecretOrder} {now : Nat}
    (h : self.verify order now = .ok ()) :
    now ≤ order.expiresAt ∧ self.commitment = order.commitment := by
  unfold verify at h
  split at h
  · exact absurd h (by simp)
  · rename_i hok
    simp only [not_or, not_lt, not_not] at hok
    exact hok.2

/-- `SecretCancellation`, with what its constructor has checked. -/
structure SecretCancellation where
  target : Digest32
  secret : Digest32
  nonce : Digest32
  salt : Digest32
  required : target ≠ 0 ∧ secret ≠ 0 ∧ nonce ≠ 0 ∧ salt ≠ 0

/-- `SecretCancellation::commitment`. -/
def SecretCancellation.commitment (self : SecretCancellation) : Digest32 :=
  sha256 (asBytes "OCLOB:CANCELLATION-COMMITMENT:v2" ++ self.salt.bytes ++ self.target.bytes ++
    self.secret.bytes ++ self.nonce.bytes)

/-- `cancellation_digest`. -/
def cancellationDigest (secret : Digest32) : Digest32 :=
  sha256 (asBytes "OCLOB:CANCELLATION:v2" ++ secret.bytes)

/-- `expiry_commitment`. -/
def expiryCommitment (marketId : String) (cutoff : Nat) (expiredOrders : List Digest32) :
    Digest32 :=
  sha256 (asBytes "OCLOB:EXPIRY-COMMITMENT:v2" ++ putBytes (asBytes marketId) ++
    toBeBytes 8 cutoff ++ toBeBytes 8 expiredOrders.length ++
    (expiredOrders.insertionSort (· ≤ ·)).flatMap Digest32.bytes)

end

/-! ## A transparent instance

A `Crypto` whose digests and signatures can be evaluated: a polynomial of the bytes, and a
signature that repeats the key and the message. With it and `sampleOrder`, which mirrors the
`order` helper of the crate's tests, a run of the model can be computed. -/

section Sample

/-- The evaluable instance. -/
@[reducible] def transparentCrypto : Crypto where
  sha256 bytes := Fin.ofNat (2 ^ 256)
    (bytes.foldl (fun acc byte => (acc * 257 + byte.toNat + 1) % (2 ^ 255 - 19)) 7)
  verifyStrict key message signature := signature == key.bytes ++ message

/-- An order of the market `JGB10Y-JPY` that expires at 2000, with its controls derived from a
nonce. -/
def sampleOrder (side : Side) (price quantity : Nat) (tif : TimeInForce) (nonce : Nat)
    (h : (0 < price ∧ 0 < quantity ∧ price * quantity < 2 ^ 64) ∧ nonce < 100) :
    SecretOrder where
  orderId := Fin.ofNat _ (nonce + 1)
  ephemeralPublicKey := Fin.ofNat _ (nonce + 1)
  marketId := "JGB10Y-JPY"
  side
  limitPrice := price
  quantity
  timeInForce := tif
  expiresAt := 2000
  participantHandle := Fin.ofNat _ (nonce + 11)
  dekyxNullifier := Fin.ofNat _ (nonce + 21)
  reservationId := Fin.ofNat _ (nonce + 1)
  reservationLimit := match side with
    | .buy => price * quantity
    | .sell => quantity
  minimumLot := 1
  maxFee := 0
  cancellationSecretDigest := Fin.ofNat _ (nonce + 1)
  clientNonce := Fin.ofNat _ (nonce + 1)
  salt := Fin.ofNat _ (nonce + 31)
  words := by
    have hp : price ≤ price * quantity := Nat.le_mul_of_pos_right _ h.1.2.1
    have hq : quantity ≤ price * quantity := Nat.le_mul_of_pos_left _ h.1.1
    have hbound : u64Bound = 2 ^ 64 := rfl
    rw [hbound]
    refine ⟨by omega, by omega, by omega, ?_, by omega, by omega⟩
    cases side <;> simp only <;> omega
  market_len := by decide
  positive := ⟨h.1.1, h.1.2.1, by omega⟩
  controls := by
    have hne : ∀ k, 0 < k → k < 200 → Fin.ofNat (2 ^ 256) k ≠ 0 := fun k hk hlt heq => by
      have hval : k % 2 ^ 256 = 0 := congrArg Fin.val heq
      omega
    refine ⟨⟨?_, ?_, ?_, ?_, ?_, ?_, ?_, ?_⟩, by omega, Nat.one_dvd _⟩ <;>
      exact hne _ (by omega) (by omega)
  covered := by
    have hlt : price * quantity < u64Bound := h.1.2.2
    cases side
    · exact ⟨price * quantity, by simp [requiredReserve, checkedMul, checkedAdd, hlt], le_rfl⟩
    · exact ⟨quantity, rfl, le_rfl⟩

-- The bounds of the orders that the samples of several modules share.
theorem fits_100_3 : (0 < 100 ∧ 0 < 3 ∧ 100 * 3 < 2 ^ 64) ∧ 1 < 100 := by decide
theorem fits_100_5 : (0 < 100 ∧ 0 < 5 ∧ 100 * 5 < 2 ^ 64) ∧ 1 < 100 := by decide
theorem fits_101_2 : (0 < 101 ∧ 0 < 2 ∧ 101 * 2 < 2 ^ 64) ∧ 3 < 100 := by decide
theorem fits_101_3 : (0 < 101 ∧ 0 < 3 ∧ 101 * 3 < 2 ^ 64) ∧ 2 < 100 := by decide
theorem fits_101_5 : (0 < 101 ∧ 0 < 5 ∧ 101 * 5 < 2 ^ 64) ∧ 2 < 100 := by decide
theorem fits_101_6 : (0 < 101 ∧ 0 < 6 ∧ 101 * 6 < 2 ^ 64) ∧ 2 < 100 := by decide
theorem fits_101_8 : (0 < 101 ∧ 0 < 8 ∧ 101 * 8 < 2 ^ 64) ∧ 2 < 100 := by decide
theorem fits_half_a : (0 < 1 ∧ 0 < 2 ^ 63 ∧ 1 * 2 ^ 63 < 2 ^ 64) ∧ 1 < 100 := by decide
theorem fits_half_b : (0 < 1 ∧ 0 < 2 ^ 63 ∧ 1 * 2 ^ 63 < 2 ^ 64) ∧ 2 < 100 := by decide

/-- The authority its owner signs for an order. -/
def sampleAuthority [Crypto] (order : SecretOrder) : OrderAuthority :=
  ⟨order.commitment, 2100, 5, Digest32.bytes 5 ++ authorityBody order.commitment 2100⟩

end Sample

end Oclob.Core
