import Oclob.Corporate.Journal
import Oclob.Settlement.Native

/-!
# The one-time claim keys of a participant

Model of `NativeCorporateJournal::issue_claim_authorizations`
(`oclob-node/src/corporate_journal.rs`) with `StoredClaimAuthorizations`, and of the requests and
responses in `oclob-settlement/src/native.rs`.

* Issuing is a program over the shared outbox (`Oclob.Lib.Outbox`): any number of issuers race and
  may crash. Seeds and signatures come from outside. A signature is any answer (ML-DSA is
  randomized); of a seed, `outside` says that no key drawn before has its fingerprint.
* `respond` marks that a response leaves its process, and does nothing. The version and context of a
  `BoundRecord`, the same in every record of one journal, are left out.
* A signer and its commitment belong to DeFMI. A signer is its recipient, its times and its seed;
  the fingerprint in its commitment is that of its seed.

Racing issuers adopt the first record, so that one slot has one response
(`claim_keys_issued_once`). A seed is drawn for one leg of one slot (`OneUse`), so that no two
records share a key (`retained_keys_distinct`).
-/

namespace Oclob.Settlement

open Oclob.Core Oclob.Lib

/-- `NoteClaimKind`. -/
inductive NoteClaimKind where
  | delivery | refund
deriving DecidableEq

/-- `NativeParticipantClaimIssueView`. -/
structure NativeParticipantClaimIssueView where
  version : Nat
  instructionNullifier : Digest32
  payerReservationId : Digest32
  payerAssetId : Digest32
  payerSequence : Nat
  payeeReservationId : Digest32
  payeeAssetId : Digest32
  payeeSequence : Nat
  participantHandle : Digest32

/-- `NoteClaimAuthorization`: a signer and what it may sign for. -/
structure NoteClaimAuthorization where
  recipientCommitment : Digest32
  notBefore : Nat
  notAfter : Nat
  signer : Bytes
deriving DecidableEq

/-- What other packages compute. -/
class ClaimCrypto extends Crypto where
  viewJson : NativeParticipantClaimIssueView → Bytes
  responseJson : NativeParticipantClaimAuthorizations → Bytes
  parseResponse : Bytes → Option NativeParticipantClaimAuthorizations
  /-- The tuple a response signs: the view, the version, the slot and the claims. -/
  claimsJson : Digest32 → Nat → Digest32 → Nat →
    NativeClaimAuthorizationCommitment × NativeClaimAuthorizationCommitment → Bytes
  /-- `note_claim_recipient_commitment`. -/
  recipientCommitment : Digest32 → Digest32 → Digest32 → Digest32 → NoteClaimKind →
    Except String Digest32
  /-- The fingerprint of the key of a seed. -/
  fingerprint : Bytes → Digest32
  /-- `NoteClaimAuthorization::from_signer` and `commitment`, but for the fingerprint. -/
  commitmentRest : NoteClaimAuthorization → Except String Bytes
  /-- `ClaimAuthorizationCommitment::validate`. -/
  validateCommitment : ClaimAuthorizationCommitment → Except String Unit

section

variable [ClaimCrypto]

open ClaimCrypto

/-- `NoteClaimAuthorization::commitment`. -/
def NoteClaimAuthorization.commitment (value : NoteClaimAuthorization) :
    Except String ClaimAuthorizationCommitment := do
  return ⟨fingerprint value.signer, ← commitmentRest value⟩

/-! ## The request -/

section

variable (issue : NativeClaimAuthorizationIssue) (reservationId : Digest32)

/-- `NativeClaimAuthorizationIssue::expected_for`. -/
def expectedFor : Except String ((NativeClaimLeg × Digest32) × NativeClaimLeg × Digest32) := do
  issue.validate
  let payer := issue.payer
  let payee := issue.payee
  if reservationId = payer.reservationId then
    let delivery ← recipientCommitment payer.participantHandle issue.instructionNullifier
      payee.assetId payee.reservationId .delivery
    let refund ← recipientCommitment payer.participantHandle issue.instructionNullifier
      payer.assetId payer.reservationId .refund
    return ((.securitiesDelivery, delivery), (.cashRefund, refund))
  else if reservationId = payee.reservationId then
    let refund ← recipientCommitment payee.participantHandle issue.instructionNullifier
      payee.assetId payee.reservationId .refund
    let delivery ← recipientCommitment payee.participantHandle issue.instructionNullifier
      payer.assetId payer.reservationId .delivery
    return ((.securitiesRefund, refund), (.cashDelivery, delivery))
  else .error "claim authorization requested from a non-participant"

/-- `NativeClaimAuthorizationIssue::sequence_for`. -/
def sequenceFor : Except String Nat :=
  if reservationId = issue.payer.reservationId then .ok issue.payer.sequence
  else if reservationId = issue.payee.reservationId then .ok issue.payee.sequence
  else .error "claim authorization sequence belongs to another reservation"

/-- `NativeClaimAuthorizationIssue::participant_view`. -/
def participantView : Except String NativeParticipantClaimIssueView := do
  issue.validate
  let handle ←
    if reservationId = issue.payer.reservationId then .ok issue.payer.participantHandle
    else if reservationId = issue.payee.reservationId then .ok issue.payee.participantHandle
    else .error "claim authorization participant view names another reservation"
  return ⟨issue.version, issue.instructionNullifier, issue.payer.reservationId, issue.payer.assetId,
    issue.payer.sequence, issue.payee.reservationId, issue.payee.assetId, issue.payee.sequence,
    handle⟩

/-- `NativeClaimAuthorizationIssue::participant_view_digest`. -/
def participantViewDigest : Except String Digest32 := do
  let view ← participantView issue reservationId
  return sha256 (asBytes "OCLOB:NATIVE-CLAIM-AUTHORIZATION-ISSUE-VIEW:v1" ++ viewJson view)

end

/-! ## The response -/

namespace NativeParticipantClaimAuthorizations

variable (self : NativeParticipantClaimAuthorizations) (issue : NativeClaimAuthorizationIssue)
  (issueView expectedSigner : Digest32)

/-- `NativeParticipantClaimAuthorizations::validate_shape`. -/
def validateShape : Except String Unit := do
  let (first, second) := self.claims
  require (self.version = claimAuthorizationIssueVersion ∧ self.reservationId ≠ 0 ∧
    self.sequence ≠ u64Bound - 1 ∧ first.recipientCommitment ≠ 0 ∧
    second.recipientCommitment ≠ 0 ∧ first.recipientCommitment ≠ second.recipientCommitment ∧
    ((first.leg, second.leg) = (.securitiesDelivery, .cashRefund) ∨
      (first.leg, second.leg) = (.securitiesRefund, .cashDelivery)) ∧
    first.authorization.keyFingerprint ≠ second.authorization.keyFingerprint)
    "participant claim authorization shape is invalid"
  validateCommitment first.authorization
  validateCommitment second.authorization

/-- `NativeParticipantClaimAuthorizations::validate`. -/
def validate : Except String Unit := do
  self.validateShape
  let expected ← expectedFor issue self.reservationId
  let sequence ← sequenceFor issue self.reservationId
  require (self.sequence = sequence ∧
    (self.claims.1.leg, self.claims.1.recipientCommitment) = expected.1 ∧
    (self.claims.2.leg, self.claims.2.recipientCommitment) = expected.2)
    "participant claim authorizations differ from the requested claims"

/-- `NativeParticipantClaimAuthorizations::signing_message_for_view`. -/
def signingMessageForView : Except String Digest32 := do
  self.validateShape
  require (issueView ≠ 0) "claim authorization participant view is empty"
  return sha256 (asBytes "OCLOB:NATIVE-CLAIM-AUTHORIZATIONS:v1" ++
    claimsJson issueView self.version self.reservationId self.sequence self.claims)

/-- `NativeParticipantClaimAuthorizations::signing_message`. -/
def signingMessage : Except String Digest32 := do
  self.validate issue
  self.signingMessageForView (← participantViewDigest issue self.reservationId)

/-- `NativeParticipantClaimAuthorizations::verify_participant_view`. -/
def verifyParticipantView : Except String Unit := do
  let message ← self.signingMessageForView issueView
  require (verifyStrict expectedSigner message.bytes self.signature = true) "signature error"

/-- `NativeParticipantClaimAuthorizations::verify`. -/
def verify : Except String Unit := do
  self.validate issue
  self.verifyParticipantView (← participantViewDigest issue self.reservationId) expectedSigner

end NativeParticipantClaimAuthorizations

end

end Oclob.Settlement

namespace Oclob.ClaimKeys

open Oclob.Core Oclob.Lib Oclob.Settlement

/-- `StoredClaimAuthorizationKey`. -/
structure StoredClaimAuthorizationKey where
  leg : NativeClaimLeg
  recipientCommitment : Digest32
  signingKey : Bytes
  authorization : ClaimAuthorizationCommitment
deriving DecidableEq

/-- `StoredClaimAuthorizations`. -/
structure StoredClaimAuthorizations where
  version : Nat
  issueView : Digest32
  reservationId : Digest32
  sequence : Nat
  notBefore : Nat
  notAfter : Nat
  orderSigner : Digest32
  responseWire : Bytes
  keys : StoredClaimAuthorizationKey × StoredClaimAuthorizationKey
deriving DecidableEq

/-- The calls outside the journal. -/
inductive External where
  /-- `SigningKey::generate` for a leg of a slot; only the seed is handed out. -/
  | draw (reservationId : Digest32) (sequence : Nat) (leg : NativeClaimLeg)
  | sign (signer message : Digest32)
  | respond (issue : NativeClaimAuthorizationIssue) (reservationId : Digest32)
      (response : NativeParticipantClaimAuthorizations)
deriving DecidableEq

/-- What a call answers, if it does not fail. -/
def External.Answer : External → Type
  | respond .. => Unit
  | _ => Bytes

abbrev Logged := Outbox.Logged External.Answer

/-- A seed was drawn. -/
def drew (reservationId : Digest32) (sequence : Nat) (leg : NativeClaimLeg) (seed : Bytes) :
    Logged := ⟨.draw reservationId sequence leg, .ok seed⟩

section

variable [ClaimCrypto]

open ClaimCrypto

/-! ## The record -/

/-- `StoredClaimAuthorizationKey::restore`. -/
def StoredClaimAuthorizationKey.restore (self : StoredClaimAuthorizationKey)
    (notBefore notAfter : Nat) : Except String NoteClaimAuthorization := do
  let authorization : NoteClaimAuthorization :=
    ⟨self.recipientCommitment, notBefore, notAfter, self.signingKey⟩
  let commitment ← authorization.commitment
  require (commitment = self.authorization)
    "stored claim authorization key differs from its public commitment"
  return authorization

/-- What a response says of a stored key. -/
def StoredClaimAuthorizationKey.claim (self : StoredClaimAuthorizationKey) :
    NativeClaimAuthorizationCommitment := ⟨self.leg, self.recipientCommitment, self.authorization⟩

namespace StoredClaimAuthorizations

section

variable (self : StoredClaimAuthorizations) (issue : NativeClaimAuthorizationIssue)

/-- `StoredClaimAuthorizations::retained_unsigned`. -/
def retainedUnsigned : Except String NativeParticipantClaimAuthorizations := do
  let (first, second) := self.keys
  require (self.version = claimAuthorizationIssueVersion ∧ self.issueView ≠ 0 ∧
    self.reservationId ≠ 0 ∧ self.sequence ≠ u64Bound - 1 ∧ self.notBefore < self.notAfter ∧
    self.orderSigner ≠ 0 ∧ first.leg ≠ second.leg)
    "stored claim authorization context is inconsistent"
  let _ ← first.restore self.notBefore self.notAfter
  let _ ← second.restore self.notBefore self.notAfter
  let response : NativeParticipantClaimAuthorizations :=
    ⟨self.version, self.reservationId, self.sequence, (first.claim, second.claim), []⟩
  response.validateShape
  return response

/-- `StoredClaimAuthorizations::public_unsigned`. -/
def publicUnsigned : Except String NativeParticipantClaimAuthorizations := do
  let view ← participantViewDigest issue self.reservationId
  let sequence ← sequenceFor issue self.reservationId
  require (self.issueView = view ∧ self.sequence = sequence)
    "stored claim authorization participant view is inconsistent"
  let response ← self.retainedUnsigned
  response.validate issue
  return response

/-- `StoredClaimAuthorizations::retained_public`. -/
def retainedPublic : Except String NativeParticipantClaimAuthorizations := do
  require (self.responseWire ≠ [] ∧ self.responseWire.length ≤ 64 * 1024)
    "stored claim authorization response wire is invalid"
  let response ← okOr (parseResponse self.responseWire) "response wire is not JSON"
  require (responseJson response = self.responseWire)
    "stored claim authorization response wire is not canonical"
  let unsigned ← self.retainedUnsigned
  require ({ response with signature := [] } = unsigned)
    "stored claim authorization response differs from its retained keys"
  response.verifyParticipantView self.issueView self.orderSigner
  return response

/-- `StoredClaimAuthorizations::public`. -/
def publicFor (expectedSigner : Digest32) :
    Except String NativeParticipantClaimAuthorizations := do
  let inconsistent := "stored claim authorization signer is inconsistent"
  require (self.orderSigner = expectedSigner) inconsistent
  let view ← participantViewDigest issue self.reservationId
  let sequence ← sequenceFor issue self.reservationId
  require (self.issueView = view ∧ self.sequence = sequence) inconsistent
  let response ← self.retainedPublic
  let unsigned ← self.publicUnsigned issue
  require (unsigned = { response with signature := [] })
    "stored claim authorization response differs from the requested claims"
  response.verify issue expectedSigner
  return response

end

variable {self : StoredClaimAuthorizations} {issue : NativeClaimAuthorizationIssue}
  {signer : Digest32} {response : NativeParticipantClaimAuthorizations}

theorem publicFor_ok (h : self.publicFor issue signer = .ok response) :
    self.retainedPublic = .ok response ∧
      participantViewDigest issue self.reservationId = .ok self.issueView := by
  simp only [publicFor, ok_rules] at h
  obtain ⟨-, -, view, hview, _, _, -, ⟨rfl, -⟩, _, hretained, _, _, -, -, -, -, rfl⟩ := h
  exact ⟨hretained, hview⟩

/-- What is retained: two keys of different legs that can be restored, and the response of the
slot. -/
theorem retainedPublic_ok (h : self.retainedPublic = .ok response) :
    self.keys.1.leg ≠ self.keys.2.leg ∧ response.reservationId = self.reservationId ∧
      ∀ key ∈ [self.keys.1, self.keys.2],
        ∃ authorization, key.restore self.notBefore self.notAfter = .ok authorization := by
  simp only [retainedPublic, retainedUnsigned, ok_rules] at h
  obtain ⟨-, -, _, -, -, -, _, ⟨-, ⟨-, -, -, -, -, -, hlegs⟩, first, hfirst, second, hsecond, -, -,
    rfl⟩, -, heq, -, -, rfl⟩ := h
  refine ⟨hlegs, congrArg NativeParticipantClaimAuthorizations.reservationId heq, ?_⟩
  intro key hkey
  rcases List.mem_pair.mp hkey with rfl | rfl
  · exact ⟨first, hfirst⟩
  · exact ⟨second, hsecond⟩

end StoredClaimAuthorizations

/-- A restored key has the fingerprint of its seed. -/
theorem StoredClaimAuthorizationKey.restore_ok {key : StoredClaimAuthorizationKey}
    {notBefore notAfter : Nat} {authorization : NoteClaimAuthorization}
    (h : key.restore notBefore notAfter = .ok authorization) :
    key.authorization.keyFingerprint = fingerprint key.signingKey := by
  simp only [restore, NoteClaimAuthorization.commitment, ok_rules] at h
  obtain ⟨commitment, ⟨rest, -, rfl⟩, -, heq, -⟩ := h
  rw [← heq]

/-! ## Issuing -/

/-- A new seed has a fingerprint that no seed before has; every other answer is possible. -/
def outside (log : List Logged) (c : Logged) : Prop :=
  ∀ r q l seed, c = drew r q l seed → ∀ r' q' l' seed', drew r' q' l' seed' ∈ log →
    fingerprint seed' ≠ fingerprint seed

abbrev Process := Outbox.Process Digest32 StoredClaimAuthorizations External.Answer

abbrev State := Outbox.State Digest32 StoredClaimAuthorizations External.Answer

abbrev Op := Outbox.Op Digest32 StoredClaimAuthorizations External

/-- The journal and the processes on it. -/
abbrev Worlds := World Op (Outbox.Op.Answer External.Answer) State

/-- The digest in `claim_authorization_record_id`. -/
def recordDigest (reservationId : Digest32) (sequence : Nat) : Digest32 :=
  sha256 (asBytes "OCLOB:CLAIM-AUTHORIZATION-RECORD:v1" ++ reservationId.bytes ++
    toBeBytes 8 sequence)

section

variable (issue : NativeClaimAuthorizationIssue) (reservationId : Digest32) (now : Nat)
  (orderSigner : Digest32)

/-- The closure `build` of `generate`. -/
def build (sequence : Nat) (leg : NativeClaimLeg) (recipientCommitment : Digest32) :
    Process StoredClaimAuthorizationKey := do
  let signingKey ← Outbox.ask (.draw reservationId sequence leg)
  let authorization ← check (NoteClaimAuthorization.commitment
    ⟨recipientCommitment, now, u64Bound - 1, signingKey⟩)
  return ⟨leg, recipientCommitment, signingKey, authorization⟩

/-- `StoredClaimAuthorizations::generate`. -/
def generate : Process StoredClaimAuthorizations := do
  demand (now ≠ u64Bound - 1) "claim authorization cannot start at the maximum timestamp"
  let expected ← check (expectedFor issue reservationId)
  let issueView ← check (participantViewDigest issue reservationId)
  let sequence ← check (sequenceFor issue reservationId)
  let first ← build reservationId now sequence expected.1.1 expected.1.2
  let second ← build reservationId now sequence expected.2.1 expected.2.2
  let result : StoredClaimAuthorizations := ⟨claimAuthorizationIssueVersion, issueView,
    reservationId, sequence, now, u64Bound - 1, orderSigner, [], (first, second)⟩
  let unsigned ← check (result.publicUnsigned issue)
  let message ← check (unsigned.signingMessage issue)
  let signature ← Outbox.ask (.sign orderSigner message)
  let signed := { result with responseWire := responseJson { unsigned with signature } }
  let _ ← check (signed.publicFor issue orderSigner)
  return signed

/-- `NativeCorporateJournal::saved_claim_authorizations`. -/
def savedClaimAuthorizations : Process (Option NativeParticipantClaimAuthorizations) := do
  let sequence ← check (sequenceFor issue reservationId)
  match ← Outbox.read .any Corporate.malformed (recordDigest reservationId sequence) with
  | none => return none
  | some stored => return some (← check (stored.publicFor issue orderSigner))

/-- `NativeCorporateJournal::issue_claim_authorizations`. -/
def issueClaimAuthorizations : Process NativeParticipantClaimAuthorizations := do
  match ← savedClaimAuthorizations issue reservationId orderSigner with
  | some saved => return saved
  | none =>
    let proposed ← generate issue reservationId now orderSigner
    let sequence ← check (sequenceFor issue reservationId)
    let stored ← Outbox.putFirst .any Corporate.malformed Corporate.lost
      (recordDigest reservationId sequence) proposed
    check (stored.publicFor issue orderSigner)

/-- A process that issues and hands the response out. -/
def issuer : Process Unit := do
  let response ← issueClaimAuthorizations issue reservationId now orderSigner
  Outbox.ask (External.respond issue reservationId response)

end

/-! ## What is kept -/

/-- The keys of a record were drawn for its slot and can be restored. -/
structure Kept (stored : StoredClaimAuthorizations) (s : State) : Prop where
  retained : ∃ response, stored.retainedPublic = .ok response
  drawn : ∀ key ∈ [stored.keys.1, stored.keys.2],
    drew stored.reservationId stored.sequence key.leg key.signingKey ∈ s.log

/-- The reason of a record. -/
def Allowed (digest : Digest32) (stored : StoredClaimAuthorizations) (s : State) : Prop :=
  digest = recordDigest stored.reservationId stored.sequence ∧ Kept stored s

/-- `response` is the answer to `issue` that the journal keeps. -/
structure Answered (issue : NativeClaimAuthorizationIssue) (reservationId : Digest32)
    (response : NativeParticipantClaimAuthorizations) (sequence : Nat)
    (stored : StoredClaimAuthorizations) (s : State) : Prop where
  slot : sequenceFor issue reservationId = .ok sequence
  record : s.journal.get? (recordDigest reservationId sequence) = some stored
  response : stored.retainedPublic = .ok response
  view : participantViewDigest issue stored.reservationId = .ok stored.issueView

/-- The reason of a response. -/
def Called (c : Logged) (s : State) : Prop :=
  ∀ issue reservationId response, c.1 = .respond issue reservationId response →
    ∃ sequence stored, Answered issue reservationId response sequence stored s

/-- A key is drawn for one leg of one slot. -/
def OneUse (log : List Logged) : Prop :=
  ∀ r q l seed r' q' l' seed', drew r q l seed ∈ log → drew r' q' l' seed' ∈ log →
    fingerprint seed = fingerprint seed' → r = r' ∧ q = q' ∧ l = l'

abbrev Sound : State → Prop := Outbox.Sound Allowed Called fun s => OneUse s.log

theorem allowed_lasting (digest : Digest32) : Outbox.Lasting (Allowed digest) :=
  fun _ _ _ hle h => ⟨h.1, h.2.retained, fun key hkey => hle.2.subset (h.2.drawn key hkey)⟩

theorem called_lasting : Outbox.Lasting Called := by
  intro c s t hle h issue reservationId response hc
  obtain ⟨sequence, stored, ha⟩ := h issue reservationId response hc
  exact ⟨sequence, stored, ha.slot, WriteOnce.get?_mono hle.1 ha.record, ha.response, ha.view⟩

theorem oneUse_append (log : List Logged) (c : Logged) (hc : outside log c) (h : OneUse log) :
    OneUse (log ++ [c]) := by
  intro r q l seed r' q' l' seed' hmem hmem' hfp
  rcases List.mem_append.mp hmem with hold | hnew <;>
    rcases List.mem_append.mp hmem' with hold' | hnew'
  · exact h r q l seed r' q' l' seed' hold hold' hfp
  · exact absurd hfp (hc r' q' l' seed' (List.mem_singleton.mp hnew').symm _ _ _ _ hold)
  · exact absurd hfp.symm (hc r q l seed (List.mem_singleton.mp hnew).symm _ _ _ _ hold')
  · have heq : drew r q l seed = drew r' q' l' seed' :=
      (List.mem_singleton.mp hnew).trans (List.mem_singleton.mp hnew').symm
    injection heq with hcall
    injection hcall with hr hq hl
    exact ⟨hr, hq, hl⟩

theorem steady : Outbox.Steady outside Allowed Called fun s => OneUse s.log where
  allowed_lasting := allowed_lasting
  called_lasting := called_lasting
  law_enqueue _ _ _ h _ _ := h.law
  law_ask s c := oneUse_append s.log c

section Programs

variable {s : State} {issue : NativeClaimAuthorizationIssue} {reservationId signer : Digest32}
  {now : Nat}

/-- The processes of this journal keep what `Sound` says. -/
abbrev Keeps {α : Type} (x : Process α) (post : α → State → Prop) (s : State) : Prop :=
  EnsuresOk (Outbox.exec outside) Sound x post s

/-- A call that hands nothing out. -/
theorem keeps_ask {call : External} (hcall : ∀ i r a, call ≠ .respond i r a) :
    Keeps (Outbox.ask call)
      (fun a t => (⟨call, .ok a⟩ : Logged) ∈ t.log) s :=
  Outbox.ensures_ask steady fun _ _ _ i r a heq => absurd heq (hcall i r a)

theorem keeps_build {sequence : Nat} {leg : NativeClaimLeg} {recipient : Digest32} :
    Keeps (build reservationId now sequence leg recipient)
      (fun key t => key.leg = leg ∧ drew reservationId sequence key.leg key.signingKey ∈ t.log)
      s := by
  refine .andThen (keeps_ask (by rintro i r a ⟨⟩)) fun seed t _ hdrawn => ?_
  refine .andThen (.check _) fun authorization u hle _ => ?_
  exact .pure ⟨rfl, hle.2.subset hdrawn⟩

/-- A generated record can be written. -/
theorem keeps_generate : Keeps (generate issue reservationId now signer)
    (fun stored t => stored.reservationId = reservationId ∧
      sequenceFor issue reservationId = .ok stored.sequence ∧ Kept stored t) s := by
  unfold generate
  have htime : Keeps (demand (now ≠ u64Bound - 1)
      "claim authorization cannot start at the maximum timestamp") (fun _ _ => True) s :=
    .of_demand fun _ => trivial
  refine .andThen htime fun _ _ _ _ => ?_
  refine .andThen (.check _) fun expected _ _ _ => ?_
  refine .andThen (.check _) fun issueView _ _ _ => ?_
  refine .andThen (.check _) fun sequence _ _ hsequence => ?_
  refine .andThen keeps_build fun first t _ hfirst => ?_
  refine .andThen keeps_build fun second u htu hsecond => ?_
  refine .andThen (.check _) fun unsigned _ huv _ => ?_
  refine .andThen (.check _) fun message _ hvw _ => ?_
  refine .andThen (keeps_ask (by rintro i r a ⟨⟩)) fun signature w hww _ => ?_
  refine .andThen (.check _) fun response x hwx hpublic => ?_
  have hux : u ≤ x := ((huv.trans hvw).trans hww).trans hwx
  refine .pure ⟨rfl, hsequence, ⟨response,
    (StoredClaimAuthorizations.publicFor_ok hpublic).1⟩, ?_⟩
  intro key hkey
  rcases List.mem_pair.mp hkey with rfl | rfl
  · exact (htu.trans hux).2.subset hfirst.2
  · exact hux.2.subset hsecond.2

/-- **An issuer returns what the journal keeps.** -/
theorem keeps_issueClaimAuthorizations :
    Keeps (issueClaimAuthorizations issue reservationId now signer)
      (fun response t => ∃ sequence stored,
        Answered issue reservationId response sequence stored t) s := by
  have hanswer {sequence : Nat} {stored : StoredClaimAuthorizations} {t u : State} {response}
      (hslot : sequenceFor issue reservationId = .ok sequence) (hle : t ≤ u)
      (hrecord : t.journal.get? (recordDigest reservationId sequence) =
        some stored) (hpublic : stored.publicFor issue signer = .ok response) :
      Answered issue reservationId response sequence stored u :=
    ⟨hslot, WriteOnce.get?_mono hle.1 hrecord, (StoredClaimAuthorizations.publicFor_ok hpublic).1,
      (StoredClaimAuthorizations.publicFor_ok hpublic).2⟩
  have hsaved : Keeps (savedClaimAuthorizations issue reservationId signer)
      (fun saved t => ∀ response, saved = some response → ∃ sequence stored,
        Answered issue reservationId response sequence stored t) s := by
    refine .andThen (EnsuresOk.check _) fun sequence t _ hslot => ?_
    refine .andThen Outbox.ensures_read fun found u _ hfound => ?_
    cases found with
    | none => exact EnsuresOk.pure (by rintro _ ⟨⟩)
    | some stored =>
      refine .andThen (EnsuresOk.check _) fun response v hle hpublic => EnsuresOk.pure ?_
      rintro _ ⟨⟩
      exact ⟨sequence, stored, hanswer hslot hle (hfound.2.2 stored rfl) hpublic⟩
  refine .andThen hsaved fun saved t _ hfound => ?_
  cases saved with
  | some response => exact EnsuresOk.pure (hfound response rfl)
  | none =>
    refine .andThen keeps_generate fun proposed u _ hproposed => ?_
    obtain ⟨hreservation, hsequence, hkept⟩ := hproposed
    refine .andThen (EnsuresOk.check _) fun sequence v huv hslot => ?_
    obtain rfl : proposed.sequence = sequence := Except.ok.inj (hsequence.symm.trans hslot)
    have hreason (w : State) (hle : v ≤ w) :
        Allowed (recordDigest reservationId proposed.sequence) proposed w :=
      ⟨congrArg (recordDigest · proposed.sequence) hreservation.symm, hkept.retained,
        fun key hkey => (huv.trans hle).2.subset (hkept.drawn key hkey)⟩
    refine .andThen (Outbox.ensures_putFirst steady hreason)
      fun stored w _ hstored => ?_
    refine EnsuresOk.weaken ((EnsuresOk.check _).le (Outbox.exec_grows outside)) ?_
    exact fun response x h => ⟨_, stored, hanswer hslot h.1 hstored.2 h.2⟩

end Programs

/-- The processes are issuers, for any request. -/
def Entry (p : Prog Op (Outbox.Op.Answer External.Answer) Unit) : Prop :=
  ∃ issue reservationId now signer,
    p = launch (issuer issue reservationId now signer)

/-- The worlds in which a fresh journal can end up. -/
abbrev Reached (w : Worlds) : Prop := Reaches (Outbox.exec outside) Entry ⟨.fresh, []⟩ w

theorem sound_of_reached {w : Worlds} (h : Reached w) : Sound w.state := by
  refine (Outbox.sound_of_reaches (fun p hp s _ => ?_) (by rintro r q l seed r' q' l' seed' ⟨⟩) h
    .refl).1
  obtain ⟨issue, reservationId, now, signer, rfl⟩ := hp
  have hissuer : Keeps (issuer issue reservationId now signer) (fun _ _ => True) s := by
    refine .andThen keeps_issueClaimAuthorizations fun response t _ hresponse => ?_
    refine (Outbox.ensures_ask steady ?_).weaken fun _ _ _ => trivial
    rintro answer u hle issue' reservationId' response' ⟨⟩
    exact called_lasting ⟨.respond issue reservationId response, answer⟩ t u hle
      (by rintro _ _ _ ⟨⟩; exact hresponse) _ _ _ rfl
  exact hissuer.launch

/-! ## Over all interleavings -/

/-- The keys a journal retains. -/
def retained (journal : WriteOnce Digest32 StoredClaimAuthorizations) :
    List StoredClaimAuthorizationKey :=
  journal.entries.flatMap fun entry => [entry.2.keys.1, entry.2.keys.2]

section Results

variable {w : Worlds}

/-- A retained key was drawn for its leg of the slot that names its record. -/
theorem drawn_of_mem (h : Sound w.state) {entry : Digest32 × StoredClaimAuthorizations}
    (hmem : entry ∈ w.state.journal.entries) {key : StoredClaimAuthorizationKey}
    (hkey : key ∈ [entry.2.keys.1, entry.2.keys.2]) :
    entry.1 = recordDigest entry.2.reservationId entry.2.sequence ∧
      entry.2.keys.1.leg ≠ entry.2.keys.2.leg ∧
      key.authorization.keyFingerprint = fingerprint key.signingKey ∧
      drew entry.2.reservationId entry.2.sequence key.leg key.signingKey ∈ w.state.log := by
  obtain ⟨hdigest, hstored⟩ := h.records _ _ (WriteOnce.get?_eq_some.mpr hmem)
  obtain ⟨response, hretained⟩ := hstored.retained
  obtain ⟨hlegs, -, hrestore⟩ := StoredClaimAuthorizations.retainedPublic_ok hretained
  obtain ⟨authorization, hok⟩ := hrestore key hkey
  exact ⟨hdigest, hlegs, StoredClaimAuthorizationKey.restore_ok hok, hstored.drawn key hkey⟩

/-- **No two retained keys share a fingerprint**, within a record or across records: the scan of
`claim_authorization`, which refuses a reused key, meets none. -/
theorem retained_keys_distinct (hw : Reached w) :
    ((retained w.state.journal).map fun key => key.authorization.keyFingerprint).Nodup := by
  have h := sound_of_reached hw
  rw [retained, List.map_flatMap, List.nodup_flatMap]
  constructor
  · intro entry hmem
    obtain ⟨-, hlegs, hfirst, hd1⟩ := drawn_of_mem h hmem List.mem_cons_self
    obtain ⟨-, -, hsecond, hd2⟩ := drawn_of_mem h hmem (List.mem_cons_of_mem _ List.mem_cons_self)
    refine List.nodup_cons.mpr ⟨fun heq => hlegs ?_, List.nodup_singleton _⟩
    exact (h.law _ _ _ _ _ _ _ _ hd1 hd2
      (hfirst.symm.trans ((List.mem_singleton.mp heq).trans hsecond))).2.2
  · have hkeys : w.state.journal.entries.Pairwise fun a b => a.1 ≠ b.1 :=
      List.pairwise_map.mp w.state.journal.distinct
    refine hkeys.imp_of_mem fun {a b} ha hb hne => List.disjoint_left.mpr ?_
    intro digest hda hdb
    obtain ⟨x, hx, rfl⟩ := List.mem_map.mp hda
    obtain ⟨y, hy, heq⟩ := List.mem_map.mp hdb
    obtain ⟨hax, -, hfx, hdx⟩ := drawn_of_mem h ha hx
    obtain ⟨hby, -, hfy, hdy⟩ := drawn_of_mem h hb hy
    -- one key is drawn for one slot, and a slot has one place in the journal
    obtain ⟨hr, hq, -⟩ := h.law _ _ _ _ _ _ _ _ hdx hdy (hfx.symm.trans (heq.symm.trans hfy))
    exact hne (by rw [hax, hby, hr, hq])

/-- `response` has left a process that was asked for `issue`. -/
abbrev Responded (w : Worlds) (issue : NativeClaimAuthorizationIssue) (reservationId : Digest32)
    (response : NativeParticipantClaimAuthorizations) : Prop :=
  External.respond issue reservationId response ∈ w.state.log.map Sigma.fst

/-- **One slot, one response.** Whatever issuers race and crash, all responses for a reservation and
sequence are one, and it is the one whose two seeds the journal keeps; requests that got it agree in
everything the participant sees. -/
theorem claim_keys_issued_once (hw : Reached w) {issue issue' : NativeClaimAuthorizationIssue}
    {reservationId : Digest32} {response response' : NativeParticipantClaimAuthorizations}
    (h : Responded w issue reservationId response) (h' : Responded w issue' reservationId response')
    (hslot : sequenceFor issue reservationId = sequenceFor issue' reservationId) :
    response = response' ∧
      participantViewDigest issue response.reservationId =
        participantViewDigest issue' response.reservationId ∧
      ∃ sequence stored, sequenceFor issue reservationId = .ok sequence ∧
        w.state.journal.get? (recordDigest reservationId sequence) =
          some stored ∧ stored.retainedPublic = .ok response := by
  obtain ⟨c, hmem, hc⟩ := List.mem_map.mp h
  obtain ⟨c', hmem', hc'⟩ := List.mem_map.mp h'
  have hsound := sound_of_reached hw
  obtain ⟨sequence, stored, ha⟩ := hsound.calls c hmem _ _ _ hc
  obtain ⟨sequence', stored', ha'⟩ := hsound.calls c' hmem' _ _ _ hc'
  obtain rfl : sequence = sequence' :=
    Except.ok.inj (ha.slot.symm.trans (hslot.trans ha'.slot))
  obtain rfl : stored = stored' :=
    Option.some.inj (ha.record.symm.trans ha'.record)
  have hres := (StoredClaimAuthorizations.retainedPublic_ok ha.response).2.1
  refine ⟨Except.ok.inj (ha.response.symm.trans ha'.response), ?_, sequence, stored, ha.slot,
    ha.record, ha.response⟩
  rw [hres, ha.view, ha'.view]

end Results

end

section Witness

/-- The request of a payer 11 and a payee 12. -/
def sampleIssue : NativeClaimAuthorizationIssue := ⟨1, 9, ⟨11, 21, 31, 0⟩, ⟨12, 22, 32, 4⟩⟩

/-- The response of the payer with the keys `n` and `n + 1`. -/
def sampleResponse (n : Nat) (signature : Bytes) : NativeParticipantClaimAuthorizations :=
  ⟨1, 11, 0, (⟨.securitiesDelivery, 32, ⟨Fin.ofNat _ n, []⟩⟩,
    ⟨.cashRefund, 31, ⟨Fin.ofNat _ (n + 1), []⟩⟩), signature⟩

/-- An evaluable instance: one signature is valid, a response is written as its first key and its
signature, and a seed is fingerprinted by its length. -/
@[reducible] def sampleClaims : ClaimCrypto where
  sha256 := transparentCrypto.sha256
  verifyStrict _ _ signature := signature == [7]
  viewJson view := view.participantHandle.bytes
  responseJson response :=
    List.replicate response.claims.1.authorization.keyFingerprint.val 0 ++ response.signature
  parseResponse wire := some (sampleResponse (wire.count 0) (wire.drop (wire.count 0)))
  claimsJson _ _ _ _ _ := []
  recipientCommitment _ _ asset _ _ := .ok asset
  fingerprint seed := Fin.ofNat _ seed.length
  commitmentRest _ := .ok []
  validateCommitment _ := .ok ()

attribute [local instance] sampleClaims

/-- Seeds get longer; a signature is the valid one. -/
def sampleAnswers : (call : External) → List Logged → Except String call.Answer
  | .draw .., log =>
    let seed := List.replicate log.length 0
    if log.all fun c => match c with
        | ⟨.draw .., .ok old⟩ => ClaimCrypto.fingerprint old != ClaimCrypto.fingerprint seed
        | _ => true
    then .ok seed else .error "no randomness"
  | .sign .., _ => .ok [7]
  | .respond .., _ => .ok ()

theorem outside_sampleAnswers (call : External) (log : List Logged) :
    outside log ⟨call, sampleAnswers call log⟩ := by
  intro r q l seed hc r' q' l' seed' hmem
  obtain ⟨rfl, hanswer⟩ := Sigma.mk.inj hc
  have hok := eq_of_heq hanswer
  simp only [sampleAnswers] at hok
  split at hok
  · rename_i hall
    obtain rfl := Except.ok.inj hok
    simpa [drew] using List.all_eq_true.mp hall _ hmem
  · cases hok

/-- One issuer. -/
def sampleIssuer : Prog Op (Outbox.Op.Answer External.Answer) Unit :=
  launch (issuer sampleIssue 11 1000 5)

/-- Two issuers of one slot. The second one issues while the first one, which found no record, is
about to write its own. -/
def sampleWorld : Worlds :=
  (List.replicate 5 0 ++ List.replicate 8 1 ++ List.replicate 3 0).foldl
    (World.turn (Outbox.alone sampleAnswers)) ⟨.fresh, [sampleIssuer, sampleIssuer]⟩

theorem reached_sampleWorld : Reached sampleWorld := by
  have hissuer : Entry sampleIssuer := ⟨_, _, _, _, rfl⟩
  exact reaches_turns (Outbox.exec_alone outside_sampleAnswers) _
    ((Relation.ReflTransGen.single (.start _ hissuer)).tail (.start _ hissuer))

/-- Both issuers have drawn keys, and both have answered with those of the second one. -/
theorem claim_keys_issued_once_sample :
    let keys := [External.draw 11 0 .securitiesDelivery, .draw 11 0 .cashRefund,
      .sign 5 (sha256 (asBytes "OCLOB:NATIVE-CLAIM-AUTHORIZATIONS:v1"))]
    let response := External.respond sampleIssue 11 (sampleResponse 3 [7])
    sampleWorld.state.log.map Sigma.fst = keys ++ keys ++ [response, response] ∧
    ∃ stored, sampleWorld.state.journal.get? (recordDigest 11 0) =
      some stored ∧ stored.retainedPublic = .ok (sampleResponse 3 [7]) := by
  intro keys response
  have hlog : Responded sampleWorld sampleIssue 11 (sampleResponse 3 [7]) := by decide +kernel
  obtain ⟨-, -, sequence, stored, hslot, hstored⟩ :=
    claim_keys_issued_once reached_sampleWorld hlog hlog rfl
  obtain rfl : 0 = sequence := Except.ok.inj hslot
  exact ⟨by decide +kernel, stored, hstored⟩

theorem retained_keys_distinct_sample :
    (retained sampleWorld.state.journal).map (fun key => key.authorization.keyFingerprint) =
      [3, 4] ∧ ((retained sampleWorld.state.journal).map
        fun key => key.authorization.keyFingerprint).Nodup :=
  ⟨by decide +kernel, retained_keys_distinct reached_sampleWorld⟩

end Witness

end Oclob.ClaimKeys
