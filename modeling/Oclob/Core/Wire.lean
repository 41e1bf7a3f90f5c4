import Mathlib.Data.List.Induction
import Oclob.Core.Order
import Oclob.Lib.Codec

/-!
# The secret order wire

Model of `SecretOrder::to_secret_wire`, `SecretOrder::from_secret_wire` and `SecretWireCursor` in
`oclob-core/src/lib.rs`. A cursor is the bytes it has not read; the source's offset only ever moves
to the end of what was read.

Each reader is matched with the code it accepts (`Reads`), down to the payload as a whole
(`reads_payload`). With the checks of the constructor, which every order passes on its own fields,
the wire is a bijection between orders and the byte strings that decode
(`secret_wire_canonical`).
-/

namespace Oclob.Core

open Oclob.Lib

theorem fromBeBytes_concat (bytes : Bytes) (byte : UInt8) :
    fromBeBytes (bytes ++ [byte]) = fromBeBytes bytes * 256 + byte.toNat := by
  simp [fromBeBytes]

theorem fromBeBytes_lt (bytes : Bytes) : fromBeBytes bytes < 256 ^ bytes.length := by
  induction bytes using List.reverseRecOn with
  | nil => exact Nat.one_pos
  | append_singleton bytes byte ih =>
    have hbyte : byte.toNat < 256 := byte.toNat_lt
    rw [fromBeBytes_concat, List.length_append, List.length_singleton, Nat.pow_succ]
    omega

theorem toBeBytes_fromBeBytes (bytes : Bytes) :
    toBeBytes bytes.length (fromBeBytes bytes) = bytes := by
  induction bytes using List.reverseRecOn with
  | nil => rfl
  | append_singleton bytes byte ih =>
    have hbyte : byte.toNat < 256 := byte.toNat_lt
    have hdiv : (fromBeBytes bytes * 256 + byte.toNat) / 256 = fromBeBytes bytes := by omega
    rw [fromBeBytes_concat, List.length_append, List.length_singleton, toBeBytes, hdiv, ih]
    congr 2
    apply UInt8.toNat_inj.mp
    rw [UInt8.toNat_ofNat']
    omega

/-! ## The cursor -/

namespace Cursor

/-- The text of most of the cursor's errors. -/
def malformed : OrderError := .invalid "secret order wire is malformed"

/-- `SecretWireCursor::bytes`. -/
def bytes (length : Nat) : EStateM OrderError Bytes Bytes := do
  let rest ← get
  ensure (length ≤ rest.length) malformed
  set (rest.drop length)
  return rest.take length

/-- The number that so many bytes write. -/
def number (width : Nat) : EStateM OrderError Bytes Nat := do
  let read ← bytes width
  return fromBeBytes read

/-- `SecretWireCursor::u8`. -/
def u8 : EStateM OrderError Bytes Nat := number 1

/-- `SecretWireCursor::u16`. -/
def u16 : EStateM OrderError Bytes Nat := number 2

/-- `SecretWireCursor::u64`. -/
def u64 : EStateM OrderError Bytes U64 := do
  let value ← number 8
  return Fin.ofNat _ value

/-- `SecretWireCursor::digest`. -/
def digest : EStateM OrderError Bytes Digest32 := do
  let value ← number 32
  return Fin.ofNat _ value

/-- `SecretWireCursor::finish`. -/
def finish : EStateM OrderError Bytes Unit := do
  let rest ← get
  ensure (rest = []) (.invalid "secret order wire contains trailing bytes")

/-- A length, then as many bytes. -/
def lengthPrefixed : EStateM OrderError Bytes Bytes := do
  let length ← u64
  bytes length

/-- The market: its length, then bytes that are UTF-8. -/
def market : EStateM OrderError Bytes String := do
  let read ← lengthPrefixed
  attempt (okOr (String.fromUTF8? ⟨read.toArray⟩) (.invalid "secret order market is not UTF-8"))

/-- The version, which has to be 2. -/
def version : EStateM OrderError Bytes Unit := do
  let version ← u16
  attempt (require (version = 2) (.invalid "secret order wire version is unsupported"))

/-- The side. -/
def side : EStateM OrderError Bytes Side := do
  let tag ← u8
  attempt (match tag with
    | 0 => .ok .buy
    | 1 => .ok .sell
    | _ => .error (.invalid "secret order side is invalid"))

/-- The time in force. -/
def timeInForce : EStateM OrderError Bytes TimeInForce := do
  let tag ← u8
  attempt (match tag with
    | 1 => .ok .goodTilCancelled
    | 2 => .ok .immediateOrCancel
    | _ => .error (.invalid "secret order time-in-force is invalid"))

theorem reads_bytes (length : Nat) :
    Reads (bytes length) (fun read => read) fun read => read.length = length where
  sound {text a rest} h := by
    simp only [bytes, run_rules] at h
    obtain ⟨_, _, ⟨rfl, rfl⟩, _, _, ⟨hle, rfl⟩, _, _, rfl, rfl, rfl⟩ := h
    exact ⟨by rw [List.length_take, Nat.min_eq_left hle], (List.take_append_drop _ _).symm⟩
  complete {a} rest ha := by
    subst ha
    have hle : a.length ≤ (a ++ rest).length := by
      rw [List.length_append]
      exact Nat.le_add_right _ _
    rw [bytes, run_get_bind, run_ensure_bind, if_pos hle, run_set_bind, List.drop_left,
      List.take_left]
    rfl

theorem reads_number (width : Nat) :
    Reads (number width) (toBeBytes width) (· < 256 ^ width) := by
  change Reads (bytes width >>= fun read => attempt (.ok (fromBeBytes read))) _ _
  refine Reads.decode (reads_bytes width) ?_ ?_
  · rintro read value rfl
    rw [Except.ok.injEq]
    constructor
    · rintro rfl
      exact ⟨fromBeBytes_lt read, toBeBytes_fromBeBytes read⟩
    · rintro ⟨hlt, hread⟩
      rw [← hread, fromBeBytes_toBeBytes, Nat.mod_eq_of_lt hlt]
  · exact fun value _ => length_toBeBytes width value

/-- A number as a value of a fixed width. -/
theorem reads_fin {width bound : Nat} [NeZero bound] (hbound : bound = 256 ^ width) :
    Reads (number width >>= fun value => attempt (.ok (Fin.ofNat bound value)))
      (fun value : Fin bound => toBeBytes width value.val) fun _ => True := by
  refine Reads.decode (reads_number width) (fun value fin hvalue => ?_) fun fin _ => ?_
  · rw [Except.ok.injEq, true_and, Fin.ext_iff, Fin.val_ofNat,
      Nat.mod_eq_of_lt (hbound ▸ hvalue)]
    exact eq_comm
  · exact hbound ▸ fin.isLt

theorem reads_u64 : Reads u64 (fun value => toBeBytes 8 value.val) fun _ => True :=
  reads_fin (by decide)

theorem reads_digest : Reads digest Digest32.bytes fun _ => True := reads_fin (by decide)

/-- The length prefix of a string. -/
def lengthWord (read : Bytes) : U64 := Fin.ofNat _ read.length

theorem lengthWord_val {read : Bytes} (h : read.length < u64Bound) :
    (lengthWord read).val = read.length := by
  rw [lengthWord, Fin.val_ofNat, Nat.mod_eq_of_lt h]

theorem reads_lengthPrefixed :
    Reads lengthPrefixed putBytes fun read => read.length < u64Bound := by
  have hread : Reads lengthPrefixed (fun read => toBeBytes 8 (lengthWord read).val ++ read)
      fun read => read.length < u64Bound := by
    refine Reads.bind lengthWord reads_u64 (fun length _ => ?_) fun _ _ => trivial
    refine (reads_bytes length).congr (fun _ _ => rfl) fun read => ?_
    constructor
    · intro hlength
      have hlt : read.length < u64Bound := hlength ▸ length.isLt
      exact ⟨hlt, Fin.ext ((lengthWord_val hlt).trans hlength)⟩
    · rintro ⟨hlt, rfl⟩
      exact (lengthWord_val hlt).symm
  refine hread.congr (fun read hlt => ?_) fun _ => Iff.rfl
  rw [putBytes, lengthWord_val hlt]

/-- Decoding UTF-8 undoes `as_bytes`. -/
theorem fromUTF8?_eq_some {bytes : Bytes} {text : String} :
    String.fromUTF8? ⟨bytes.toArray⟩ = some text ↔ asBytes text = bytes := by
  unfold String.fromUTF8?
  constructor
  · intro h
    split at h
    · obtain rfl := Option.some.inj h
      rfl
    · exact absurd h (by simp)
  · rintro rfl
    have harray : (⟨(asBytes text).toArray⟩ : ByteArray) = text.toByteArray := rfl
    rw [harray, dif_pos text.isValidUTF8]
    rfl

theorem reads_market : Reads market (fun text => putBytes (asBytes text))
    fun text => text.utf8ByteSize < u64Bound := by
  refine Reads.decode reads_lengthPrefixed (fun read text hread => ?_) fun text htext => ?_
  · rw [okOr_eq_ok, fromUTF8?_eq_some]
    constructor
    · rintro rfl
      exact ⟨hread, rfl⟩
    · exact And.right
  · exact htext

theorem reads_version : Reads version (fun _ => toBeBytes 2 2) fun _ => True := by
  refine Reads.decode (reads_number 2) (fun value u _ => ?_) fun _ _ => by decide
  rw [require_eq_ok, true_and]
  exact eq_comm

theorem reads_side : Reads side (fun side => toBeBytes 1 side.wire) fun _ => True := by
  refine Reads.decode (reads_number 1) (fun tag side _ => ?_) fun side _ => ?_
  · rw [true_and]
    constructor
    · intro h
      split at h
      · obtain rfl := Except.ok.inj h
        rfl
      · obtain rfl := Except.ok.inj h
        rfl
      · exact absurd h (by simp)
    · rintro rfl
      cases side <;> rfl
  · cases side <;> decide

theorem reads_timeInForce :
    Reads timeInForce (fun tif => toBeBytes 1 tif.wire) fun _ => True := by
  refine Reads.decode (reads_number 1) (fun tag tif _ => ?_) fun tif _ => ?_
  · rw [true_and]
    constructor
    · intro h
      split at h
      · obtain rfl := Except.ok.inj h
        rfl
      · obtain rfl := Except.ok.inj h
        rfl
      · exact absurd h (by simp)
    · rintro rfl
      cases tif <;> rfl
  · cases tif <;> decide

end Cursor

/-! ## The payload -/

/-- What `from_secret_wire` reads off the payload, before the order is built. -/
structure WireFields where
  orderId : Digest32
  ephemeralPublicKey : Digest32
  marketId : String
  side : Side
  limitPrice : U64
  quantity : U64
  timeInForce : TimeInForce
  expiresAt : U64
  participantHandle : Digest32
  dekyxNullifier : Digest32
  reservationId : Digest32
  reservationLimit : U64
  minimumLot : U64
  maxFee : U64
  cancellationSecretDigest : Digest32
  clientNonce : Digest32
deriving DecidableEq

/-- The reads of `from_secret_wire` on the payload. -/
def Cursor.payload : EStateM OrderError Bytes WireFields := do
  version
  let orderId ← digest
  let ephemeralPublicKey ← digest
  let marketId ← market
  let side ← side
  let limitPrice ← u64
  let quantity ← u64
  let timeInForce ← timeInForce
  let expiresAt ← u64
  let participantHandle ← digest
  let dekyxNullifier ← digest
  let reservationId ← digest
  let reservationLimit ← u64
  let minimumLot ← u64
  let maxFee ← u64
  let cancellationSecretDigest ← digest
  let clientNonce ← digest
  return {
    orderId, ephemeralPublicKey, marketId, side, limitPrice, quantity, timeInForce, expiresAt,
    participantHandle, dekyxNullifier, reservationId, reservationLimit, minimumLot, maxFee,
    cancellationSecretDigest, clientNonce }

namespace WireFields

/-- The payload that writes these fields. -/
def payload (fields : WireFields) : Bytes :=
  toBeBytes 2 2 ++ (fields.orderId.bytes ++ (fields.ephemeralPublicKey.bytes ++
  (putBytes (asBytes fields.marketId) ++ (toBeBytes 1 fields.side.wire ++
  (toBeBytes 8 fields.limitPrice ++ (toBeBytes 8 fields.quantity ++
  (toBeBytes 1 fields.timeInForce.wire ++ (toBeBytes 8 fields.expiresAt ++
  (fields.participantHandle.bytes ++ (fields.dekyxNullifier.bytes ++
  (fields.reservationId.bytes ++ (toBeBytes 8 fields.reservationLimit ++
  (toBeBytes 8 fields.minimumLot ++ (toBeBytes 8 fields.maxFee ++
  (fields.cancellationSecretDigest.bytes ++ (fields.clientNonce.bytes ++ []))))))))))))))))

open Cursor in
/-- **The payload reader accepts the payloads**, of fields whose market has a `u64` length. -/
theorem reads_payload :
    Reads Cursor.payload payload fun fields => fields.marketId.utf8ByteSize < u64Bound := by
  unfold Cursor.payload payload
  refine Reads.bind (fun _ => ()) reads_version (fun _ _ => ?_) fun _ _ => trivial
  refine Reads.bind orderId reads_digest (fun _ _ => ?_) fun _ _ => trivial
  refine Reads.bind ephemeralPublicKey reads_digest (fun _ _ => ?_) fun _ _ => trivial
  refine Reads.bind marketId reads_market (fun _ hmarket => ?_) fun _ h => h.1.1.1
  refine Reads.bind side reads_side (fun _ _ => ?_) fun _ _ => trivial
  refine Reads.bind limitPrice reads_u64 (fun _ _ => ?_) fun _ _ => trivial
  refine Reads.bind quantity reads_u64 (fun _ _ => ?_) fun _ _ => trivial
  refine Reads.bind timeInForce reads_timeInForce (fun _ _ => ?_) fun _ _ => trivial
  refine Reads.bind expiresAt reads_u64 (fun _ _ => ?_) fun _ _ => trivial
  refine Reads.bind participantHandle reads_digest (fun _ _ => ?_) fun _ _ => trivial
  refine Reads.bind dekyxNullifier reads_digest (fun _ _ => ?_) fun _ _ => trivial
  refine Reads.bind reservationId reads_digest (fun _ _ => ?_) fun _ _ => trivial
  refine Reads.bind reservationLimit reads_u64 (fun _ _ => ?_) fun _ _ => trivial
  refine Reads.bind minimumLot reads_u64 (fun _ _ => ?_) fun _ _ => trivial
  refine Reads.bind maxFee reads_u64 (fun _ _ => ?_) fun _ _ => trivial
  refine Reads.bind cancellationSecretDigest reads_digest (fun _ _ => ?_) fun _ _ => trivial
  refine Reads.bind clientNonce reads_digest (fun _ _ => ?_) fun _ _ => trivial
  -- the fields read are those of the value returned
  refine (Reads.pure _).congr (fun _ _ => rfl) fun fields => ?_
  constructor
  · rintro rfl
    simp [hmarket]
  · intro h
    cases fields
    simp_all

end WireFields

/-! ## The wire -/

namespace Cursor

/-- The payload and the salt after the magic. -/
def envelope : EStateM OrderError Bytes (Bytes × Digest32) := do
  let payload ← lengthPrefixed
  let salt ← digest
  return (payload, salt)

/-- A reader that has to take its text whole. -/
def whole {α : Type} (reader : EStateM OrderError Bytes α) : EStateM OrderError Bytes α := do
  let value ← reader
  finish
  return value

theorem reads_envelope : Reads envelope (fun read => putBytes read.1 ++ (read.2.bytes ++ []))
    fun read => read.1.length < u64Bound := by
  refine Reads.bind Prod.fst reads_lengthPrefixed (fun payload hpayload => ?_) fun _ h => h
  refine Reads.bind Prod.snd reads_digest (fun salt _ => ?_) fun _ _ => trivial
  refine (Reads.pure _).congr (fun _ _ => rfl) fun read => ?_
  constructor
  · rintro rfl
    exact ⟨⟨hpayload, rfl⟩, rfl⟩
  · rintro ⟨⟨-, rfl⟩, rfl⟩
    rfl

theorem whole_ok {α : Type} {reader : EStateM OrderError Bytes α} {code : α → Bytes}
    {P : α → Prop} (h : Reads reader code P) {text : Bytes} {a : α} :
    (∃ rest, stage (whole reader) text = .ok (a, rest)) ↔ P a ∧ text = code a := by
  rw [← h.run_eq_nil]
  simp only [stage_eq_ok, whole, finish, run_rules]
  constructor
  · rintro ⟨_, _, _, hrun, _, _, ⟨_, _, ⟨rfl, rfl⟩, hnil, rfl⟩, rfl, rfl⟩
    rwa [hnil] at hrun
  · intro hrun
    exact ⟨[], a, [], hrun, (), [], ⟨[], [], ⟨rfl, rfl⟩, rfl, rfl⟩, rfl, rfl⟩

end Cursor

/-- `SECRET_ORDER_WIRE_MAGIC`. -/
def secretOrderWireMagic : Bytes := asBytes "OCLOBOR2"

/-- `MAX_SECRET_ORDER_WIRE_BYTES`. -/
def maxSecretOrderWireBytes : Nat := 512

namespace SecretOrder

/-- `SecretOrder::to_secret_wire`. -/
def toSecretWire (order : SecretOrder) : Bytes :=
  secretOrderWireMagic ++ putBytes order.canonicalPayload ++ order.salt.bytes

/-- `SecretOrder::from_secret_wire`. -/
def fromSecretWire (bytes : Bytes) : Except OrderError SecretOrder := do
  require (bytes.length ≤ maxSecretOrderWireBytes ∧
    secretOrderWireMagic.length + 8 + 32 ≤ bytes.length ∧
    bytes.take secretOrderWireMagic.length = secretOrderWireMagic) Cursor.malformed
  let ((payload, salt), _) ← stage (Cursor.whole Cursor.envelope)
    (bytes.drop secretOrderWireMagic.length)
  let (fields, _) ← stage (Cursor.whole Cursor.payload) payload
  newWithControls fields.marketId fields.side fields.limitPrice fields.quantity
    fields.timeInForce fields.expiresAt fields.participantHandle fields.clientNonce salt {
      orderId := fields.orderId
      ephemeralPublicKey := fields.ephemeralPublicKey
      dekyxNullifier := fields.dekyxNullifier
      reservationId := fields.reservationId
      reservationLimit := fields.reservationLimit
      minimumLot := fields.minimumLot
      maxFee := fields.maxFee
      cancellationSecretDigest := fields.cancellationSecretDigest }

/-- The fields an order writes into its payload. -/
def wireFields (order : SecretOrder) : WireFields where
  orderId := order.orderId
  ephemeralPublicKey := order.ephemeralPublicKey
  marketId := order.marketId
  side := order.side
  limitPrice := ⟨order.limitPrice, order.words.1⟩
  quantity := ⟨order.quantity, order.words.2.1⟩
  timeInForce := order.timeInForce
  expiresAt := ⟨order.expiresAt, order.words.2.2.1⟩
  participantHandle := order.participantHandle
  dekyxNullifier := order.dekyxNullifier
  reservationId := order.reservationId
  reservationLimit := ⟨order.reservationLimit, order.reservationLimit_lt⟩
  minimumLot := ⟨order.minimumLot, order.minimumLot_lt⟩
  maxFee := ⟨order.maxFee, order.maxFee_lt⟩
  cancellationSecretDigest := order.cancellationSecretDigest
  clientNonce := order.clientNonce

theorem canonicalPayload_eq (order : SecretOrder) :
    order.canonicalPayload = order.wireFields.payload := by
  simp only [canonicalPayload, WireFields.payload, wireFields, List.append_assoc, List.append_nil]

/-- The constructor keeps the fields it is given. -/
theorem newWithControls_eq_ok {fields : WireFields} {salt : Digest32} {order : SecretOrder} :
    newWithControls fields.marketId fields.side fields.limitPrice fields.quantity
      fields.timeInForce fields.expiresAt fields.participantHandle fields.clientNonce salt
      ⟨fields.orderId, fields.ephemeralPublicKey, fields.dekyxNullifier, fields.reservationId,
        fields.reservationLimit, fields.minimumLot, fields.maxFee,
        fields.cancellationSecretDigest⟩ = .ok order ↔
      order.wireFields = fields ∧ order.salt = salt := by
  constructor
  · intro h
    unfold newWithControls at h
    split at h
    · split at h
      · split at h
        · split at h
          · exact absurd h (by simp)
          · split at h
            · obtain rfl := Except.ok.inj h
              exact ⟨rfl, rfl⟩
            · exact absurd h (by simp)
        · exact absurd h (by simp)
      · exact absurd h (by simp)
    · exact absurd h (by simp)
  · rintro ⟨rfl, rfl⟩
    exact order.newWithControls_ok

theorem length_toSecretWire (order : SecretOrder) :
    order.toSecretWire.length = 332 + order.marketId.utf8ByteSize := by
  have hmagic : secretOrderWireMagic.length = 8 := by decide
  have hdigest : ∀ d : Digest32, d.bytes.length = 32 := fun d => length_toBeBytes 32 d
  simp only [toSecretWire, canonicalPayload, putBytes, List.length_append, length_toBeBytes,
    hmagic, hdigest, length_asBytes]
  omega

/-- What decodes is the wire of the order it decodes to, and every wire decodes. -/
theorem fromSecretWire_eq_ok {bytes : Bytes} {order : SecretOrder} :
    fromSecretWire bytes = .ok order ↔ bytes = order.toSecretWire := by
  have hmagic : secretOrderWireMagic.length = 8 := by decide
  have hmarket : ∀ order : SecretOrder, order.wireFields.marketId.utf8ByteSize < u64Bound :=
    fun order => lt_of_le_of_lt order.market_len.2 (by decide)
  constructor
  · intro h
    simp only [fromSecretWire, ok_rules] at h
    obtain ⟨-, ⟨-, -, hprefix⟩, ⟨⟨payload, salt⟩, rest⟩, henvelope, ⟨fields, rest'⟩, hpayload,
      hnew⟩ := h
    obtain ⟨-, htail⟩ := (Cursor.whole_ok Cursor.reads_envelope).mp ⟨rest, henvelope⟩
    obtain ⟨-, rfl⟩ := (Cursor.whole_ok WireFields.reads_payload).mp ⟨rest', hpayload⟩
    obtain ⟨rfl, rfl⟩ := newWithControls_eq_ok.mp hnew
    rw [toSecretWire, canonicalPayload_eq,
      ← List.take_append_drop secretOrderWireMagic.length bytes, hprefix, htail,
      List.append_nil, List.append_assoc]
  · rintro rfl
    have hlength := order.length_toSecretWire
    have hmarketLength := order.market_len.2
    have hpayload : order.wireFields.payload.length < u64Bound := by
      have hle : order.wireFields.payload.length ≤ order.toSecretWire.length := by
        simp only [toSecretWire, canonicalPayload_eq, putBytes, List.length_append]
        omega
      have hbound : 332 + 64 < u64Bound := by decide
      omega
    have htext : order.toSecretWire = secretOrderWireMagic ++
        (putBytes order.wireFields.payload ++ (order.salt.bytes ++ [])) := by
      rw [toSecretWire, canonicalPayload_eq, List.append_nil, List.append_assoc]
    obtain ⟨rest, henvelope⟩ := (Cursor.whole_ok Cursor.reads_envelope).mpr
      ⟨show (order.wireFields.payload, order.salt).1.length < u64Bound from hpayload, rfl⟩
    obtain ⟨rest', hfields⟩ := (Cursor.whole_ok WireFields.reads_payload).mpr
      ⟨hmarket order, rfl⟩
    simp only [fromSecretWire, ok_rules]
    refine ⟨(), ⟨?_, ?_, ?_⟩, ((order.wireFields.payload, order.salt), rest), ?_,
      (order.wireFields, rest'), hfields, newWithControls_eq_ok.mpr ⟨rfl, rfl⟩⟩
    · rw [hlength, maxSecretOrderWireBytes]
      omega
    · rw [hlength, hmagic]
      omega
    · rw [htext, List.take_left]
    · rw [htext, List.drop_left]
      exact henvelope

/-- **The secret wire is a canonical bijection.** Every order is read back from its wire, which
fits the size limit, and a byte string that decodes is the wire of what it decodes to; so no two
byte strings decode to one order, and decoding preserves the commitment. -/
theorem secret_wire_canonical [Crypto] :
    (∀ order : SecretOrder, fromSecretWire order.toSecretWire = .ok order ∧
      order.toSecretWire.length ≤ maxSecretOrderWireBytes) ∧
    (∀ bytes order, fromSecretWire bytes = .ok order → order.toSecretWire = bytes) ∧
    (∀ bytes bytes' order, fromSecretWire bytes = .ok order →
      fromSecretWire bytes' = .ok order → bytes = bytes') ∧
    ∀ order decoded : SecretOrder, fromSecretWire order.toSecretWire = .ok decoded →
      decoded.commitment = order.commitment := by
  refine ⟨fun order => ⟨fromSecretWire_eq_ok.mpr rfl, ?_⟩,
    fun bytes order h => (fromSecretWire_eq_ok.mp h).symm,
    fun bytes bytes' order h h' => ?_, fun order decoded h => ?_⟩
  · rw [length_toSecretWire, maxSecretOrderWireBytes]
    have hmarket := order.market_len.2
    omega
  · exact (fromSecretWire_eq_ok.mp h).trans (fromSecretWire_eq_ok.mp h').symm
  · rw [fromSecretWire_eq_ok.mpr rfl] at h
    rw [Except.ok.inj h]

end SecretOrder

end Oclob.Core
