import Oclob.Node.State

/-!
# The fixed-size transport records

`encode_record` and `decode_record` of `oclob-node/src/network.rs`. Every request travels in a
record of one length and every response in another: a magic, the version, the payload's length,
its digest, the payload, and random bytes up to the end. `serde_json` is a parameter, the random
bytes are any stream. A slice out of range is a panic of the program, `none` here.

`record_codec`: a payload that fits is read back exactly, every record has its kind's length, and
on any bytes `decode_record` ends without a panic with an error or with a payload inside them.
-/

namespace Oclob.Node

open Oclob.Core
open Oclob.Lib

variable {T : Type}

/-- `RECORD_HEADER_BYTES`. -/
def recordHeaderBytes : Nat := 8 + 2 + 4 + 32

/-- `NetworkError`, as far as the framing returns it. -/
inductive RecordError where
  | protocol
  | recordSize
deriving DecidableEq, Repr

/-- The two instances of the framing. -/
inductive RecordKind where
  | request
  | response
deriving DecidableEq, Repr

namespace RecordKind

/-- `REQUEST_RECORD_BYTES` and `RESPONSE_RECORD_BYTES`. -/
def bytes : RecordKind → Nat
  | request => 512 * 1024
  | response => 256 * 1024

/-- `REQUEST_MAGIC` and `RESPONSE_MAGIC`. -/
def magic : RecordKind → Bytes
  | request => asBytes "OCLOBRQ2"
  | response => asBytes "OCLOBRS2"

theorem length_magic (kind : RecordKind) : kind.magic.length = 8 := by
  cases kind <;> decide

theorem bytes_bounds (kind : RecordKind) :
    recordHeaderBytes < kind.bytes ∧ kind.bytes < 256 ^ 4 := by
  cases kind <;> decide

end RecordKind

/-- `record[start..stop]`. -/
def slice (record : Bytes) (start stop : Nat) : Option Bytes :=
  if start ≤ stop ∧ stop ≤ record.length then some ((record.take stop).drop start) else none

section Framing

variable [Crypto]

/-- `encode_record::<T, N>`: the ranges it fills are consecutive and end at `N`. -/
def encodeRecord (toVec : T → Option Bytes) (magic : Bytes) (size : Nat) (padding : Nat → UInt8)
    (message : T) : Except RecordError Bytes := do
  let payload ← okOr (toVec message) .protocol
  if size ≤ recordHeaderBytes ∨ size - recordHeaderBytes < payload.length then
    throw .recordSize
  return magic ++ (toBeBytes 2 recordVersion ++ (toBeBytes 4 payload.length ++
    ((sha256 payload).bytes ++ (payload ++
      (List.range (size - recordHeaderBytes - payload.length)).map padding))))

/-- `decode_record::<T>`; the outer `Option` is `none` where a slice panics. -/
def decodeRecord (fromSlice : Bytes → Option T) (magic record : Bytes) :
    Option (Except RecordError T) := do
  if record.length < recordHeaderBytes then return .error .protocol
  if (← slice record 0 8) ≠ magic then return .error .protocol
  if fromBeBytes (← slice record 8 10) ≠ recordVersion then return .error .protocol
  let length := fromBeBytes (← slice record 10 14)
  match (checkedAdd recordHeaderBytes length).filter (· ≤ record.length) with
  | none => return .error .recordSize
  | some stop =>
    let payload ← slice record recordHeaderBytes stop
    if (← slice record 14 46) ≠ (sha256 payload).bytes then return .error .protocol
    return okOr (fromSlice payload) .protocol

end Framing

/-! ## Slices -/

/-- The part of a concatenation between two offsets. -/
theorem slice_append {record before part behind : Bytes} {start stop : Nat}
    (h : record = before ++ (part ++ behind)) (hstart : before.length = start)
    (hstop : start + part.length = stop) : slice record start stop = some part := by
  subst h hstart hstop
  rw [slice, if_pos ⟨Nat.le_add_right .., by simp⟩, ← List.append_assoc, List.take_left' (by simp),
    List.drop_left]

/-- A slice in range is a part of the record. -/
theorem slice_of_le {record : Bytes} {start stop : Nat} (hstart : start ≤ stop)
    (hstop : stop ≤ record.length) :
    ∃ before part behind, slice record start stop = some part ∧
      record = before ++ (part ++ behind) ∧ before.length = start := by
  have htake : record.take start = (record.take stop).take start := by
    rw [List.take_take, Nat.min_eq_left hstart]
  refine ⟨record.take start, (record.take stop).drop start, record.drop stop,
    if_pos ⟨hstart, hstop⟩, ?_, ?_⟩
  · rw [← List.append_assoc, htake, List.take_append_drop, List.take_append_drop]
  · rw [List.length_take, Nat.min_eq_left (hstart.trans hstop)]

/-! ## The framing is a codec -/

section Framing

variable [Crypto] {fromSlice : Bytes → Option T} {magic record : Bytes}

/-- On a record of the layout, `decode_record` hands over exactly the payload. -/
theorem decodeRecord_layout {payload padding : Bytes} (hmagic : magic.length = 8)
    (hpayload : payload.length < 256 ^ 4)
    (hrecord : record = magic ++ (toBeBytes 2 recordVersion ++ (toBeBytes 4 payload.length ++
      ((sha256 payload).bytes ++ (payload ++ padding))))) :
    decodeRecord fromSlice magic record = some (okOr (fromSlice payload) .protocol) := by
  have hdigest : (sha256 payload).bytes.length = 32 := length_toBeBytes 32 _
  have hlength : record.length = recordHeaderBytes + payload.length + padding.length := by
    simp only [hrecord, List.length_append, hmagic, length_toBeBytes, hdigest, recordHeaderBytes]
    omega
  have hsize : ¬record.length < recordHeaderBytes := by omega
  have hstop : (checkedAdd recordHeaderBytes payload.length).filter (· ≤ record.length) =
      some (recordHeaderBytes + payload.length) := by
    have hno : recordHeaderBytes + payload.length < u64Bound := by
      unfold recordHeaderBytes u64Bound
      omega
    simp [checkedAdd, hno, hlength]
  have h₁ : slice record 0 8 = some magic :=
    slice_append (hrecord.trans (List.nil_append _).symm) rfl (by omega)
  have h₂ : slice record 8 10 = some (toBeBytes 2 recordVersion) :=
    slice_append hrecord hmagic (by simp)
  rw [← List.append_assoc] at hrecord
  have h₃ : slice record 10 14 = some (toBeBytes 4 payload.length) :=
    slice_append hrecord (by simp [hmagic]) (by simp)
  rw [← List.append_assoc] at hrecord
  have h₄ : slice record 14 46 = some (sha256 payload).bytes :=
    slice_append hrecord (by simp [hmagic]) (by rw [hdigest])
  rw [← List.append_assoc] at hrecord
  have h₅ : slice record recordHeaderBytes (recordHeaderBytes + payload.length) = some payload :=
    slice_append hrecord (by simp [hmagic, hdigest, recordHeaderBytes]) rfl
  have hread : fromBeBytes (toBeBytes 4 payload.length) = payload.length := by
    rw [fromBeBytes_toBeBytes, Nat.mod_eq_of_lt hpayload]
  have hversion : fromBeBytes (toBeBytes 2 recordVersion) = recordVersion := by decide
  simp [decodeRecord, hsize, h₁, h₂, h₃, h₄, h₅, hread, hversion, hstop]

/-- Whatever the bytes, no slice is out of range, and a message comes from a part of them. -/
theorem decodeRecord_total (fromSlice : Bytes → Option T) (magic record : Bytes) :
    ∃ result, decodeRecord fromSlice magic record = some result ∧
      ∀ message, result = .ok message → ∃ before payload behind,
        record = before ++ (payload ++ behind) ∧ before.length = recordHeaderBytes ∧
          fromSlice payload = some message := by
  by_cases hsize : record.length < recordHeaderBytes
  · exact ⟨.error .protocol, by simp [decodeRecord, hsize], nofun⟩
  have hheader : 46 ≤ record.length := not_lt.mp hsize
  obtain ⟨_, found, _, h₁, _⟩ := slice_of_le (show 0 ≤ 8 by decide) (le_trans (by decide) hheader)
  by_cases hmagic : found = magic
  case neg => exact ⟨.error .protocol, by simp [decodeRecord, hsize, h₁, hmagic], nofun⟩
  obtain ⟨_, version, _, h₂, _⟩ :=
    slice_of_le (show 8 ≤ 10 by decide) (le_trans (by decide) hheader)
  by_cases hversion : fromBeBytes version = recordVersion
  case neg =>
    exact ⟨.error .protocol, by simp [decodeRecord, hsize, h₁, hmagic, h₂, hversion], nofun⟩
  obtain ⟨_, length, _, h₃, _⟩ :=
    slice_of_le (show 10 ≤ 14 by decide) (le_trans (by decide) hheader)
  cases hstop : (checkedAdd recordHeaderBytes (fromBeBytes length)).filter (· ≤ record.length) with
  | none =>
    exact ⟨.error .recordSize,
      by simp [decodeRecord, hsize, h₁, hmagic, h₂, hversion, h₃, hstop], nofun⟩
  | some stop =>
    -- The only offset read from the record is the payload's end, and the filter bounds it.
    obtain ⟨hadd, hle⟩ := Option.filter_eq_some_iff.mp hstop
    obtain ⟨-, hsum⟩ := checkedAdd_eq_some.mp hadd
    obtain ⟨before, payload, behind, h₄, hparts, hbefore⟩ :=
      slice_of_le (show recordHeaderBytes ≤ stop by omega) (of_decide_eq_true hle)
    obtain ⟨_, digest, _, h₅, _⟩ := slice_of_le (show 14 ≤ 46 by decide) hheader
    by_cases hdigest : digest = (sha256 payload).bytes
    case neg =>
      exact ⟨.error .protocol,
        by simp [decodeRecord, hsize, h₁, hmagic, h₂, h₃, hstop, h₄, h₅, hdigest], nofun⟩
    refine ⟨okOr (fromSlice payload) .protocol,
      by simp [decodeRecord, hsize, h₁, hmagic, h₂, hversion, h₃, hstop, h₄, h₅, hdigest], ?_⟩
    intro message hmessage
    exact ⟨before, payload, behind, hparts, hbefore, okOr_eq_ok.mp hmessage⟩

/-- What `encode_record` builds. -/
theorem encodeRecord_eq_ok {toVec : T → Option Bytes} {size : Nat} {padding : Nat → UInt8}
    {message : T} :
    encodeRecord toVec magic size padding message = .ok record ↔
      ∃ payload, toVec message = some payload ∧ recordHeaderBytes < size ∧
        payload.length ≤ size - recordHeaderBytes ∧
        record = magic ++ (toBeBytes 2 recordVersion ++ (toBeBytes 4 payload.length ++
          ((sha256 payload).bytes ++ (payload ++
            (List.range (size - recordHeaderBytes - payload.length)).map padding)))) := by
  unfold encodeRecord
  rw [except_bind_eq_ok]
  refine exists_congr fun payload => ?_
  rw [okOr_eq_ok]
  refine and_congr_right fun _ => ?_
  by_cases hfits : size ≤ recordHeaderBytes ∨ size - recordHeaderBytes < payload.length
  · have hno : ¬(recordHeaderBytes < size ∧ payload.length ≤ size - recordHeaderBytes) := by omega
    rw [if_pos hfits, ← and_assoc]
    exact ⟨nofun, fun h => absurd h.1 hno⟩
  · obtain ⟨hsize, hlength⟩ := not_or.mp hfits
    rw [if_neg hfits]
    constructor
    · intro h
      exact ⟨not_le.mp hsize, not_lt.mp hlength, (Except.ok.inj h).symm⟩
    · rintro ⟨-, -, rfl⟩
      rfl

/-- **The record framing is a faithful codec.** For every kind of record, serializer and message:
a payload that fits is handed back exactly, whatever the random bytes; every record has the kind's
length; and any byte string is refused or read as a payload wholly inside it, without a slice out
of range. -/
theorem record_codec (toVec : T → Option Bytes) (fromSlice : Bytes → Option T)
    (kind : RecordKind) :
    (∀ padding message payload, toVec message = some payload →
      payload.length ≤ kind.bytes - recordHeaderBytes →
        ∃ record, encodeRecord toVec kind.magic kind.bytes padding message = .ok record ∧
          decodeRecord fromSlice kind.magic record =
            some (okOr (fromSlice payload) .protocol)) ∧
    (∀ padding message record,
      encodeRecord toVec kind.magic kind.bytes padding message = .ok record →
        record.length = kind.bytes) ∧
    ∀ record, ∃ result, decodeRecord fromSlice kind.magic record = some result ∧
      ∀ message, result = .ok message → ∃ before payload behind,
        record = before ++ (payload ++ behind) ∧ before.length = recordHeaderBytes ∧
          fromSlice payload = some message := by
  obtain ⟨hheader, hbound⟩ := kind.bytes_bounds
  refine ⟨?_, ?_, decodeRecord_total fromSlice kind.magic⟩
  · intro padding message payload hpayload hfits
    exact ⟨_, encodeRecord_eq_ok.mpr ⟨payload, hpayload, hheader, hfits, rfl⟩,
      decodeRecord_layout kind.length_magic (by omega) rfl⟩
  · intro padding message record h
    obtain ⟨payload, -, -, hfits, rfl⟩ := encodeRecord_eq_ok.mp h
    have hdigest : (sha256 payload).bytes.length = 32 := length_toBeBytes 32 _
    simp only [List.length_append, length_toBeBytes, kind.length_magic, hdigest, List.length_map,
      List.length_range]
    unfold recordHeaderBytes at *
    omega

end Framing

end Oclob.Node
