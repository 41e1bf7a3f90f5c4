import Oclob.Core.Order

/-!
# Order manifests and sealed shares

Model of what a node reads of `oclob-edge/src/lib.rs`: `EdgeOrderManifest::verify`, the sealed
order share and capability-key share with their `open` functions, and the redacted reservation
admission inside an order share.

Group elements are their 32-byte encodings, of which the identity is zero. Key encapsulation and
authenticated decryption belong to one node's `NodeDecryptionKey`; the verifiable-secret-sharing
equations, the encoding and the signature of an admission come from other crates. `NodeCrypto`
names them.
-/

namespace Oclob.Edge

open Oclob.Core Oclob.Lib

/-- `EdgeError`, as far as the splitter and a node meet it. -/
inductive EdgeError where
  | input
  | manifest
  | signature
  | share
  | vss
  | envelope
  | capabilityKeyShare
  | capabilityKeyThreshold
  | reservationPermit
  | wire (reason : String)
  | crypto (reason : String)
deriving DecidableEq, Repr

/-- The texts of `EdgeError`. -/
def EdgeError.text : EdgeError → String
  | .input => "edge-order input is invalid"
  | .manifest => "edge-order public manifest is invalid"
  | .signature => "edge-order signature is invalid"
  | .share => "party share is invalid"
  | .vss => "party share fails Pedersen VSS verification"
  | .envelope => "sealed party-share envelope is invalid"
  | .capabilityKeyShare => "settlement capability-key share is invalid"
  | .capabilityKeyThreshold =>
    "at least three distinct valid capability-key shares are required"
  | .reservationPermit => "DeFMI reservation permit is invalid or not bound to the MPC shares"
  | .wire reason => "edge-order wire failure: " ++ reason
  | .crypto reason => "edge-order cryptography failure: " ++ reason

/-- `EdgeOrderManifest`. -/
structure EdgeOrderManifest where
  version : Nat
  marketId : String
  commitment : Digest32
  retentionDeadline : Nat
  eligibilityCommitment : Digest32
  sourceOrderCommitment : Digest32
  reservationAdmissionDigest : Digest32
  settlementCapabilityCommitment : Digest32
  settlementKeyCommitments : List Digest32
  fieldCommitments : List (List Digest32)
  settlementProofEnabled : Bool
  settlementFieldCommitments : List (List Digest32)
  signer : Digest32
  signature : Bytes
deriving DecidableEq

/-- `PartyOrderShare`. -/
structure PartyOrderShare where
  version : Nat
  party : Nat
  commitment : Digest32
  valueShares : List Digest32
  blindingShares : List Digest32
  settlementValueShares : List Digest32
  settlementBlindingShares : List Digest32
  reservationAdmission : Bytes
  signer : Digest32
  signature : Bytes
deriving DecidableEq

/-- `SealedPartyShare`. -/
structure SealedPartyShare where
  version : Nat
  party : Nat
  commitment : Digest32
  recipient : Digest32
  suite : Bytes
  kemCiphertext : Bytes
  nonce : Bytes
  ciphertext : Bytes
deriving DecidableEq

/-- `CapabilityKeyShare`. -/
structure CapabilityKeyShare where
  version : Nat
  party : Nat
  orderCommitment : Digest32
  capabilityCommitment : Digest32
  value : Digest32
  signer : Digest32
  signature : Bytes
deriving DecidableEq

/-- `SealedCapabilityKeyShare`. -/
structure SealedCapabilityKeyShare where
  version : Nat
  party : Nat
  orderCommitment : Digest32
  capabilityCommitment : Digest32
  recipient : Digest32
  suite : Bytes
  kemCiphertext : Bytes
  nonce : Bytes
  ciphertext : Bytes
deriving DecidableEq

/-- `ReservationAdmission` of the DeFMI client, the fields read here. -/
structure ReservationAdmission where
  venueId : Digest32
  reservationNullifier : Digest32
  orderCommitment : Digest32
  participantHandle : Digest32
  amountCommitment : Digest32
  sideCommitment : Digest32
  validUntil : Nat
deriving DecidableEq

/-- The cryptography a node imports beside hashing and signature checks. -/
class NodeCrypto extends Crypto where
  /-- `CompressedRistretto::decompress` succeeds. -/
  isPoint : Digest32 → Bool
  /-- The public key of a signing key, and signing with it. -/
  verifyingKey : Bytes → Digest32
  trySign : Bytes → Bytes → Option Bytes
  /-- The encoding of `SuiteId::X25519MlKem768`. -/
  hybridSuite : Bytes
  /-- The Pedersen sharing equations of an order share. -/
  checkVss : EdgeOrderManifest → PartyOrderShare → Except EdgeError Unit
  /-- The Feldman sharing equation of a capability-key share. -/
  checkFeldman : EdgeOrderManifest → CapabilityKeyShare → Except EdgeError Unit
  /-- Decoding, digest and verification of an admission. -/
  decodeAdmission : Bytes → Option ReservationAdmission
  admissionDigest : ReservationAdmission → Digest32
  verifyAdmission : ReservationAdmission → Digest32 → Bytes → Nat → Bool

export NodeCrypto (isPoint verifyingKey trySign hybridSuite)

/-- `NodeDecryptionKey`: its fingerprint, and what it decrypts. -/
structure NodeDecryptionKey where
  fingerprint : Digest32
  unsealShare : SealedPartyShare → Except EdgeError PartyOrderShare
  unsealCapability : SealedCapabilityKeyShare → Except EdgeError CapabilityKeyShare

/-- `VERSION`. -/
def version : Nat := 7

/-- `MPC_PARTIES`. -/
def mpcParties : Nat := 7

/-- `SEALED_SHARE_CLEAR_BYTES` and `SEALED_CAPABILITY_KEY_SHARE_CLEAR_BYTES`. -/
def sealedShareClearBytes : Nat := 64 * 1024

def sealedCapabilityKeyShareClearBytes : Nat := 32 * 1024

section

variable [NodeCrypto]

/-- `preauthorized_settlement_commitment`. -/
def preauthorizedSettlementCommitment (permitDigest : Digest32) : Digest32 :=
  sha256 (asBytes "OCLOB:PREAUTHORIZED-SETTLEMENT:v2" ++ permitDigest.bytes)

namespace EdgeOrderManifest

/-- `EdgeOrderManifest::unsigned_body`. -/
def unsignedBody (manifest : EdgeOrderManifest) : Bytes :=
  asBytes "OCLOB:EDGE-MANIFEST:v2" ++ toBeBytes 2 manifest.version ++
  toBeBytes 2 manifest.marketId.utf8ByteSize ++ asBytes manifest.marketId ++
  toBeBytes 8 manifest.retentionDeadline ++ manifest.eligibilityCommitment.bytes ++
  manifest.sourceOrderCommitment.bytes ++ manifest.reservationAdmissionDigest.bytes ++
  manifest.settlementCapabilityCommitment.bytes ++
  manifest.settlementKeyCommitments.flatMap Digest32.bytes ++
  manifest.fieldCommitments.flatten.flatMap Digest32.bytes ++
  toBeBytes 1 (if manifest.settlementProofEnabled then 1 else 0) ++
  manifest.settlementFieldCommitments.flatten.flatMap Digest32.bytes ++ manifest.signer.bytes

/-- `EdgeOrderManifest::derived_commitment`. -/
def derivedCommitment (manifest : EdgeOrderManifest) : Digest32 := sha256 manifest.unsignedBody

/-- `EdgeOrderManifest::uses_pretrade_reservation`. -/
def usesPretradeReservation (manifest : EdgeOrderManifest) : Bool :=
  decide (manifest.reservationAdmissionDigest ≠ 0)

/-- The first two tests of `verify`. -/
def Bound (manifest : EdgeOrderManifest) (now : Nat) : Prop :=
  manifest.version = Edge.version ∧ 0 < manifest.marketId.utf8ByteSize ∧
  manifest.marketId.utf8ByteSize ≤ 64 ∧ now ≤ manifest.retentionDeadline ∧
  manifest.eligibilityCommitment ≠ 0 ∧ manifest.sourceOrderCommitment ≠ 0 ∧
  manifest.settlementCapabilityCommitment ≠ 0 ∧
  manifest.commitment = manifest.derivedCommitment ∧
  (manifest.reservationAdmissionDigest ≠ 0 → manifest.settlementProofEnabled = true ∧
    manifest.settlementCapabilityCommitment =
      preauthorizedSettlementCommitment manifest.reservationAdmissionDigest)

instance (manifest : EdgeOrderManifest) (now : Nat) : Decidable (manifest.Bound now) :=
  inferInstanceAs (Decidable (_ ∧ _))

/-- The tests of `verify` on the commitments. -/
def pointsValid (manifest : EdgeOrderManifest) : Bool :=
  manifest.fieldCommitments.flatten.all isPoint &&
  (if manifest.settlementProofEnabled then
    manifest.settlementFieldCommitments.flatten.all isPoint &&
      manifest.settlementFieldCommitments.flatten.head? != some 0
  else manifest.settlementFieldCommitments.flatten.all (· = 0)) &&
  manifest.settlementKeyCommitments.all isPoint &&
  manifest.settlementKeyCommitments.head? != some 0

/-- `EdgeOrderManifest::verify`. -/
def verify (manifest : EdgeOrderManifest) (now : Nat) : Except EdgeError Unit := do
  require (manifest.Bound now) .manifest
  require (manifest.pointsValid = true) .manifest
  require (manifest.signer ≠ 0 ∧ verifyStrict manifest.signer
    (asBytes "OCLOB:EDGE-MANIFEST-SIGNATURE:v2" ++ manifest.commitment.bytes)
    manifest.signature = true) .signature

theorem verify_ok {manifest : EdgeOrderManifest} {now : Nat} {u : Unit}
    (h : manifest.verify now = .ok u) : manifest.Bound now := by
  simp only [verify, ok_rules] at h
  exact h.choose_spec.1

end EdgeOrderManifest

/-! ## Shares -/

namespace PartyOrderShare

/-- `PartyOrderShare::signature_body`. -/
def signatureBody (share : PartyOrderShare) : Bytes :=
  asBytes "OCLOB:EDGE-SHARE-SIGNATURE:v2" ++ toBeBytes 2 share.version ++
  toBeBytes 2 share.party ++ share.commitment.bytes ++
  share.valueShares.flatMap Digest32.bytes ++ share.blindingShares.flatMap Digest32.bytes ++
  share.settlementValueShares.flatMap Digest32.bytes ++
  share.settlementBlindingShares.flatMap Digest32.bytes ++
  toBeBytes 4 share.reservationAdmission.length ++ share.reservationAdmission ++
  share.signer.bytes

/-- `PartyOrderShare::verify`. -/
def verify (share : PartyOrderShare) (manifest : EdgeOrderManifest) (expectedParty now : Nat) :
    Except EdgeError Unit := do
  manifest.verify now
  require (share.version = Edge.version ∧ share.party = expectedParty ∧
    share.party < mpcParties ∧ share.commitment = manifest.commitment ∧
    share.signer = manifest.signer) .share
  require (verifyStrict share.signer share.signatureBody share.signature = true) .signature
  NodeCrypto.checkVss manifest share
  require (manifest.settlementProofEnabled = true ∨
    (share.settlementValueShares ++ share.settlementBlindingShares).all (· = 0) = true) .share

/-- `verify_admission_binding`. -/
def AdmissionBound (admission : ReservationAdmission) (manifest : EdgeOrderManifest) : Prop :=
  NodeCrypto.admissionDigest admission = manifest.reservationAdmissionDigest ∧
  admission.orderCommitment = manifest.sourceOrderCommitment ∧
  manifest.settlementFieldCommitments.map (·.head?) =
    [some admission.participantHandle, some admission.amountCommitment] ∧
  manifest.fieldCommitments.flatten.head? = some admission.sideCommitment ∧
  manifest.retentionDeadline ≤ admission.validUntil

instance (admission : ReservationAdmission) (manifest : EdgeOrderManifest) :
    Decidable (AdmissionBound admission manifest) :=
  inferInstanceAs (Decidable (_ ∧ _))

/-- `PartyOrderShare::verified_reservation_admission`. -/
def verifiedReservationAdmission (share : PartyOrderShare) (manifest : EdgeOrderManifest)
    (expectedVenue expectedDefmi : Digest32) (trustedSigner : Bytes) (now : Nat) :
    Except EdgeError ReservationAdmission := do
  require (manifest.usesPretradeReservation = true ∧ share.reservationAdmission ≠ [])
    .reservationPermit
  let admission ← okOr (NodeCrypto.decodeAdmission share.reservationAdmission) .reservationPermit
  require (NodeCrypto.verifyAdmission admission expectedDefmi trustedSigner now = true)
    .reservationPermit
  require (admission.venueId = expectedVenue) .reservationPermit
  require (AdmissionBound admission manifest) .reservationPermit
  return admission

end PartyOrderShare

namespace CapabilityKeyShare

/-- `CapabilityKeyShare::signature_body`. -/
def signatureBody (share : CapabilityKeyShare) : Bytes :=
  asBytes "OCLOB:CAPABILITY-KEY-SHARE-SIGNATURE:v2" ++ toBeBytes 2 share.version ++
  toBeBytes 2 share.party ++ share.orderCommitment.bytes ++ share.capabilityCommitment.bytes ++
  share.value.bytes ++ share.signer.bytes

/-- `CapabilityKeyShare::verify`. -/
def verify (share : CapabilityKeyShare) (manifest : EdgeOrderManifest)
    (expectedParty now : Nat) : Except EdgeError Unit := do
  manifest.verify now
  require (share.version = Edge.version ∧ share.party = expectedParty ∧
    share.party < mpcParties ∧ share.orderCommitment = manifest.commitment ∧
    share.capabilityCommitment = manifest.settlementCapabilityCommitment ∧
    share.signer = manifest.signer) .capabilityKeyShare
  NodeCrypto.checkFeldman manifest share
  require (verifyStrict share.signer share.signatureBody share.signature = true) .signature

end CapabilityKeyShare

namespace SealedPartyShare

/-- `SealedPartyShare::wire_digest`. -/
def wireDigest (sealedShare : SealedPartyShare) : Digest32 :=
  sha256 (asBytes "OCLOB:EDGE-SHARE-ENVELOPE:v2" ++ toBeBytes 2 sealedShare.version ++
    toBeBytes 2 sealedShare.party ++ sealedShare.commitment.bytes ++
    sealedShare.recipient.bytes ++ sealedShare.suite ++ sealedShare.kemCiphertext ++
    sealedShare.nonce ++ putBytes sealedShare.ciphertext)

/-- `SealedPartyShare::open`. -/
def «open» (sealedShare : SealedPartyShare) (key : NodeDecryptionKey)
    (manifest : EdgeOrderManifest) (expectedParty now : Nat) :
    Except EdgeError PartyOrderShare := do
  require (sealedShare.version = Edge.version ∧ sealedShare.party = expectedParty ∧
    sealedShare.commitment = manifest.commitment ∧
    sealedShare.ciphertext.length = sealedShareClearBytes + 16 ∧
    sealedShare.suite = hybridSuite ∧ key.fingerprint = sealedShare.recipient) .envelope
  let share ← key.unsealShare sealedShare
  share.verify manifest expectedParty now
  return share

/-- What is left to do for an envelope of the right form. -/
theorem open_eq {sealedShare : SealedPartyShare} {key : NodeDecryptionKey}
    {manifest : EdgeOrderManifest} {party now : Nat}
    (h : sealedShare.version = Edge.version ∧ sealedShare.party = party ∧
      sealedShare.commitment = manifest.commitment ∧
      sealedShare.ciphertext.length = sealedShareClearBytes + 16 ∧
      sealedShare.suite = hybridSuite ∧ key.fingerprint = sealedShare.recipient) :
    sealedShare.open key manifest party now = (do
      let share ← key.unsealShare sealedShare
      share.verify manifest party now
      return share) := by
  rw [SealedPartyShare.open, require, if_pos h]
  rfl

/-- An opened share is addressed to this party and order, and its manifest is valid now. -/
theorem open_ok {sealedShare : SealedPartyShare} {key : NodeDecryptionKey}
    {manifest : EdgeOrderManifest} {party now : Nat} {share : PartyOrderShare}
    (h : sealedShare.open key manifest party now = .ok share) :
    sealedShare.party = party ∧ sealedShare.commitment = manifest.commitment ∧
      manifest.Bound now := by
  simp only [SealedPartyShare.open, PartyOrderShare.verify, ok_rules] at h
  obtain ⟨-, ⟨-, hparty, hcommit, -⟩, opened, -, -, ⟨⟨⟩, hmanifest, -⟩, -⟩ := h
  exact ⟨hparty, hcommit, EdgeOrderManifest.verify_ok hmanifest⟩

end SealedPartyShare

namespace SealedCapabilityKeyShare

/-- `SealedCapabilityKeyShare::wire_digest`. -/
def wireDigest (sealedShare : SealedCapabilityKeyShare) : Digest32 :=
  sha256 (asBytes "OCLOB:CAPABILITY-KEY-SHARE-ENVELOPE:v2" ++ toBeBytes 2 sealedShare.version ++
    toBeBytes 2 sealedShare.party ++ sealedShare.orderCommitment.bytes ++
    sealedShare.capabilityCommitment.bytes ++ sealedShare.recipient.bytes ++
    sealedShare.suite ++ sealedShare.kemCiphertext ++ sealedShare.nonce ++
    putBytes sealedShare.ciphertext)

/-- `SealedCapabilityKeyShare::open`. -/
def «open» (sealedShare : SealedCapabilityKeyShare) (key : NodeDecryptionKey)
    (manifest : EdgeOrderManifest) (expectedParty now : Nat) :
    Except EdgeError CapabilityKeyShare := do
  require (sealedShare.version = Edge.version ∧ sealedShare.party = expectedParty ∧
    sealedShare.orderCommitment = manifest.commitment ∧
    sealedShare.capabilityCommitment = manifest.settlementCapabilityCommitment ∧
    sealedShare.ciphertext.length = sealedCapabilityKeyShareClearBytes + 16 ∧
    sealedShare.suite = hybridSuite ∧ key.fingerprint = sealedShare.recipient) .envelope
  let share ← key.unsealCapability sealedShare
  share.verify manifest expectedParty now
  return share

theorem open_eq {sealedShare : SealedCapabilityKeyShare} {key : NodeDecryptionKey}
    {manifest : EdgeOrderManifest} {party now : Nat}
    (h : sealedShare.version = Edge.version ∧ sealedShare.party = party ∧
      sealedShare.orderCommitment = manifest.commitment ∧
      sealedShare.capabilityCommitment = manifest.settlementCapabilityCommitment ∧
      sealedShare.ciphertext.length = sealedCapabilityKeyShareClearBytes + 16 ∧
      sealedShare.suite = hybridSuite ∧ key.fingerprint = sealedShare.recipient) :
    sealedShare.open key manifest party now = (do
      let share ← key.unsealCapability sealedShare
      share.verify manifest party now
      return share) := by
  rw [SealedCapabilityKeyShare.open, require, if_pos h]
  rfl

theorem open_ok {sealedShare : SealedCapabilityKeyShare} {key : NodeDecryptionKey}
    {manifest : EdgeOrderManifest} {party now : Nat} {share : CapabilityKeyShare}
    (h : sealedShare.open key manifest party now = .ok share) :
    sealedShare.party = party ∧ sealedShare.orderCommitment = manifest.commitment ∧
      sealedShare.capabilityCommitment = manifest.settlementCapabilityCommitment := by
  simp only [SealedCapabilityKeyShare.open, ok_rules] at h
  obtain ⟨-, ⟨-, hparty, hcommit, hcapability, -⟩, -⟩ := h
  exact ⟨hparty, hcommit, hcapability⟩

end SealedCapabilityKeyShare

end

/-! ## A transparent instance

An evaluable `NodeCrypto`, an order without a reservation under a source commitment, and a node key
that opens its envelopes. -/

section Sample

/-- The evaluable instance: a public key is never zero, a signature repeats key and message. -/
@[reducible] def transparentNodeCrypto : NodeCrypto where
  toCrypto := transparentCrypto
  isPoint _ := true
  verifyingKey key := Fin.ofNat (2 ^ 256) (fromBeBytes key % 2 ^ 255 + 1)
  trySign key body :=
    some (Digest32.bytes (Fin.ofNat (2 ^ 256) (fromBeBytes key % 2 ^ 255 + 1)) ++ body)
  hybridSuite := [1]
  checkVss _ _ := .ok ()
  checkFeldman _ _ := .ok ()
  decodeAdmission _ := none
  admissionDigest admission := admission.orderCommitment
  verifyAdmission _ _ _ _ := true

attribute [local instance] transparentNodeCrypto

/-- An order of the market `JGB10Y-JPY` with deadline 2000, before it is committed and signed. -/
def sampleDraft (source : Digest32) : EdgeOrderManifest where
  version := Edge.version
  marketId := "JGB10Y-JPY"
  commitment := 0
  retentionDeadline := 2000
  eligibilityCommitment := 11
  sourceOrderCommitment := source
  reservationAdmissionDigest := 0
  settlementCapabilityCommitment := 12
  settlementKeyCommitments := [13, 13, 13]
  fieldCommitments := List.replicate 6 [14, 14, 14]
  settlementProofEnabled := false
  settlementFieldCommitments := List.replicate 2 [0, 0, 0]
  signer := 15
  signature := []

/-- The order itself. -/
def sampleManifest (source : Digest32) : EdgeOrderManifest :=
  let commitment := (sampleDraft source).derivedCommitment
  { sampleDraft source with
    commitment
    signature := (15 : Digest32).bytes ++
      (asBytes "OCLOB:EDGE-MANIFEST-SIGNATURE:v2" ++ commitment.bytes) }

/-- Its share for a party, before it is signed. -/
def sampleUnsignedShare (source : Digest32) (party : Nat) : PartyOrderShare where
  version := Edge.version
  party
  commitment := (sampleManifest source).commitment
  valueShares := List.replicate 6 1
  blindingShares := List.replicate 6 1
  settlementValueShares := [0, 0]
  settlementBlindingShares := [0, 0]
  reservationAdmission := []
  signer := 15
  signature := []

def sampleShare (source : Digest32) (party : Nat) : PartyOrderShare :=
  { sampleUnsignedShare source party with
    signature := (15 : Digest32).bytes ++ (sampleUnsignedShare source party).signatureBody }

/-- Its capability-key share for a party, before it is signed. -/
def sampleUnsignedCapability (source : Digest32) (party : Nat) : CapabilityKeyShare where
  version := Edge.version
  party
  orderCommitment := (sampleManifest source).commitment
  capabilityCommitment := 12
  value := 1
  signer := 15
  signature := []

def sampleCapability (source : Digest32) (party : Nat) : CapabilityKeyShare :=
  { sampleUnsignedCapability source party with
    signature := (15 : Digest32).bytes ++
      (sampleUnsignedCapability source party).signatureBody }

/-- The envelopes of both shares. -/
def sampleSealedShare (source : Digest32) (party : Nat) : SealedPartyShare where
  version := Edge.version
  party
  commitment := (sampleManifest source).commitment
  recipient := 16
  suite := [1]
  kemCiphertext := source.bytes
  nonce := []
  ciphertext := List.replicate (sealedShareClearBytes + 16) 0

def sampleSealedCapability (source : Digest32) (party : Nat) : SealedCapabilityKeyShare where
  version := Edge.version
  party
  orderCommitment := (sampleManifest source).commitment
  capabilityCommitment := 12
  recipient := 16
  suite := [1]
  kemCiphertext := source.bytes
  nonce := []
  ciphertext := List.replicate (sealedCapabilityKeyShareClearBytes + 16) 0

/-- A key that opens them. -/
def sampleDecryptionKey : NodeDecryptionKey where
  fingerprint := 16
  unsealShare envelope := .ok (sampleShare
    (Fin.ofNat (2 ^ 256) (fromBeBytes envelope.kemCiphertext)) envelope.party)
  unsealCapability envelope := .ok (sampleCapability
    (Fin.ofNat (2 ^ 256) (fromBeBytes envelope.kemCiphertext)) envelope.party)

variable {source : Digest32} {party now : Nat}

theorem sampleManifest_verify (hsource : source ≠ 0) (hnow : now ≤ 2000) :
    (sampleManifest source).verify now = .ok () := by
  have hbody : (sampleManifest source).unsignedBody = (sampleDraft source).unsignedBody := by
    simp only [EdgeOrderManifest.unsignedBody, sampleManifest]
    rfl
  have hname : 0 < "JGB10Y-JPY".utf8ByteSize ∧ "JGB10Y-JPY".utf8ByteSize ≤ 64 := by decide
  have hfields : (11 : Digest32) ≠ 0 ∧ (12 : Digest32) ≠ 0 ∧ (15 : Digest32) ≠ 0 := by decide
  have hbound : (sampleManifest source).Bound now :=
    ⟨rfl, hname.1, hname.2, hnow, hfields.1, hsource, hfields.2.1, congrArg sha256 hbody.symm,
      fun h => absurd rfl h⟩
  have hsigned : (sampleManifest source).signer ≠ 0 ∧ verifyStrict (sampleManifest source).signer
      (asBytes "OCLOB:EDGE-MANIFEST-SIGNATURE:v2" ++ (sampleManifest source).commitment.bytes)
      (sampleManifest source).signature = true := ⟨hfields.2.2, beq_self_eq_true _⟩
  simp only [EdgeOrderManifest.verify, ok_rules]
  exact ⟨(), hbound, (), rfl, hsigned⟩

theorem fromBeBytes_digest (digest : Digest32) :
    (Fin.ofNat (2 ^ 256) (fromBeBytes digest.bytes) : Digest32) = digest := by
  rw [Digest32.bytes, fromBeBytes_toBeBytes]
  refine Fin.ext ?_
  rw [Fin.val_ofNat]
  have hlt : digest.val < 256 ^ 32 := digest.isLt
  have hlt' : digest.val < 2 ^ 256 := digest.isLt
  rw [Nat.mod_eq_of_lt hlt, Nat.mod_eq_of_lt hlt']

theorem sampleSealedShare_open (hsource : source ≠ 0) (hparty : party < mpcParties)
    (hnow : now ≤ 2000) :
    (sampleSealedShare source party).open sampleDecryptionKey (sampleManifest source) party now =
      .ok (sampleShare source party) := by
  have hunseal : sampleDecryptionKey.unsealShare (sampleSealedShare source party) =
      .ok (sampleShare source party) := by
    change Except.ok (sampleShare (Fin.ofNat (2 ^ 256) (fromBeBytes source.bytes)) party) = _
    rw [fromBeBytes_digest]
  have hsigned : verifyStrict (sampleShare source party).signer
      (sampleShare source party).signatureBody (sampleShare source party).signature = true :=
    beq_self_eq_true _
  simp only [SealedPartyShare.open, PartyOrderShare.verify, ok_rules, hunseal]
  exact ⟨(), ⟨rfl, rfl, rfl, List.length_replicate, rfl, rfl⟩, _, rfl, (),
    ⟨(), sampleManifest_verify hsource hnow, (), ⟨rfl, rfl, hparty, rfl, rfl⟩, (), hsigned, (),
      rfl, Or.inr rfl⟩, rfl⟩

theorem sampleSealedCapability_open (hsource : source ≠ 0) (hparty : party < mpcParties)
    (hnow : now ≤ 2000) :
    (sampleSealedCapability source party).open sampleDecryptionKey (sampleManifest source) party
      now = .ok (sampleCapability source party) := by
  have hunseal : sampleDecryptionKey.unsealCapability (sampleSealedCapability source party) =
      .ok (sampleCapability source party) := by
    change Except.ok (sampleCapability (Fin.ofNat (2 ^ 256) (fromBeBytes source.bytes)) party) = _
    rw [fromBeBytes_digest]
  have hsigned : verifyStrict (sampleCapability source party).signer
      (sampleCapability source party).signatureBody (sampleCapability source party).signature =
      true := beq_self_eq_true _
  simp only [SealedCapabilityKeyShare.open, CapabilityKeyShare.verify, ok_rules, hunseal]
  exact ⟨(), ⟨rfl, rfl, rfl, rfl, List.length_replicate, rfl, rfl⟩, _, rfl, (),
    ⟨(), sampleManifest_verify hsource hnow, (), ⟨rfl, rfl, hparty, rfl, rfl, rfl⟩, (), rfl,
      hsigned⟩, rfl⟩

end Sample

end Oclob.Edge
