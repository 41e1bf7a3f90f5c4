import Oclob.Lib.Outbox
import Oclob.Node.Facility

/-!
# The corporate journal

Model of `NativeCorporateJournal` in `oclob-node/src/corporate_journal.rs`. Each method is a program
over a shared outbox (`Oclob.Lib.Outbox`), so that any number of processes can be interleaved
between any two operations.

* `enqueue_first_seen` keeps the first record of a key, and the place of a key is its sequence.
* The keys are `stage:id` and the three other forms the methods use. A record is kept as the value
  that was serialized; reading it back as another type is the `malformed` error of the source.
* `Call.external` stands for everything outside the two outboxes (clocks, RPC, chain reads, random
  bytes, the dispatch queue's own schedule): any answer.
* Three calls are kept apart for the theorems: a call of `finalize_reservation`, a
  `record_pre_reserve_abort` of the dispatch queue, and that `complete_native_submission` has
  reached `mark_reserve_send_started`. The last one is a mark and does nothing.

Left out: enrolment of credentials, cancellations, claim keys and market input, which use other
stages (`Key.other` stands for their keys), and the context digest, which is the same in every
record of one journal.
-/

namespace Oclob.Corporate

open Oclob.Core Oclob.Lib Oclob.Node

/-! ## Records -/

/-- `ApplicationReserveMandate`; `rest` are the signed fields no method reads. -/
structure ApplicationReserveMandate where
  holdId : Digest32
  scope : Digest32
  amountCommitment : Digest32
  validFrom : Nat
  validUntil : Nat
  rest : Bytes
deriving DecidableEq

/-- `PrivateReserveRequest`. -/
structure PrivateReserveRequest where
  mandate : ApplicationReserveMandate
  orderAuthorizationSalt : Digest32
  reserveReblinding : Digest32
  beforeSequence : Nat
  before : Balances Digest32
  rest : Bytes
deriving DecidableEq

/-- `PreparedCorporateReserve`. -/
structure PreparedCorporateReserve where
  request : PrivateReserveRequest
  orderWire : Bytes
  signingKey : Bytes
  eligibilityCommitment : Digest32
  facilityAfter : FacilityWitness
deriving DecidableEq

/-- `CorporateReserveAuthorization`. -/
structure CorporateReserveAuthorization where
  mandate : ApplicationReserveMandate
  orderWire : Bytes
  signingKey : Bytes
  eligibilityCommitment : Digest32
  orderAuthorizationSalt : Digest32
  reserveReblinding : Digest32
  rest : Bytes
deriving DecidableEq

/-- `StoredCorporateIntent`. -/
structure StoredCorporateIntent where
  inputDigest : Digest32
  orderWire : Bytes
  signingKey : Bytes
  eligibilityCommitment : Digest32
  acceptedAt : Nat
  expiresAt : Nat
  reserveSendTracking : Bool
deriving DecidableEq

/-- `ReserveSendDecision`. -/
structure ReserveSendDecision where
  intentDigest : Digest32
  reserveDigest : Digest32
  maySend : Bool
deriving DecidableEq

/-- `FinalizedReservation`, a text no modelled method looks into. -/
abbrev FinalizedReservation := Bytes

/-- `EdgeAdmissionReceipt`, a text no modelled method looks into. -/
abbrev EdgeAdmissionReceipt := Bytes

/-- `StoredCorporateDelivery`. -/
structure StoredCorporateDelivery where
  reserveDigest : Digest32
  delivery : Bytes
  authority : Bytes
deriving DecidableEq

/-- `AuthorizationEndReason`. -/
inductive AuthorizationEndReason where
  | expired
  | insufficientFunding
deriving DecidableEq

/-- `EndedCorporateAuthorization`. -/
structure EndedCorporateAuthorization where
  requestId : String
  authorizationDigest : Digest32
  endedAt : Nat
  reason : AuthorizationEndReason
deriving DecidableEq

/-- `ApplicationReleaseReason`. -/
inductive ReleaseReason where
  | cancelled
  | expired
deriving DecidableEq

/-- `ApplicationNoteRelease`; an expiry leaves the committee's fields empty. -/
structure ApplicationNoteRelease where
  scope : Digest32
  beforeRoot : Digest32
  operationId : Digest32
  holdId : Digest32
  sequence : Nat
  previousReceipt : Digest32
  reason : ReleaseReason
deriving DecidableEq

/-- `ExpiryOutcome`. -/
inductive ExpiryOutcome where
  | neverReserved (stateRoot : Digest32)
  | released (release : ApplicationNoteRelease) (transactionId blockId : String) (height : Nat)
      (afterRoot : Digest32)
deriving DecidableEq

/-- `matches!(outcome, ExpiryOutcome::NeverReserved { .. })`. -/
def ExpiryOutcome.isNeverReserved : ExpiryOutcome → Bool
  | neverReserved _ => true
  | released .. => false

/-- `NativeExpiryResolution`. -/
structure NativeExpiryResolution where
  requestId : String
  reserveDigest : Digest32
  checkedAt : Nat
  outcome : ExpiryOutcome
deriving DecidableEq

/-- The stages `record_id` knows. -/
inductive Stage where
  | intent | reserve | admission | delivery | receipt | cancel | expiry | resolved | reserveSend
  | authorization | authorizationEnd | marketInput | market
deriving DecidableEq

/-- The keys of the journal: `stage:id`, `expiry-result:hold`, `funding:facility:sequence`, and the
keys of methods that are not modelled. -/
inductive Key where
  | stage (stage : Stage) (id : String)
  | expiryResult (hold : Digest32)
  | funding (facility : Digest32) (sequence : Nat)
  | other (name : String)
deriving DecidableEq

/-- The body of a `BoundRecord`. -/
inductive Record where
  | intent (intent : StoredCorporateIntent)
  | reserve (prepared : PreparedCorporateReserve)
  | admission (finalized : FinalizedReservation)
  | delivery (delivery : StoredCorporateDelivery)
  | receipt (receipt : EdgeAdmissionReceipt)
  | expiry (release : ApplicationNoteRelease)
  | resolution (resolution : NativeExpiryResolution)
  | reserveSend (decision : ReserveSendDecision)
  | authorization (authorization : CorporateReserveAuthorization)
  | authorizationEnd (ended : EndedCorporateAuthorization)
  | funding (witness : FacilityWitness)
  | other (text : Bytes)
deriving DecidableEq

/-- A type of record of this journal. -/
abbrev Kind := Lib.Kind Record

namespace Kind

def intent : Kind StoredCorporateIntent where
  inject := .intent
  project | .intent value => some value | _ => none

def reserve : Kind PreparedCorporateReserve where
  inject := .reserve
  project | .reserve value => some value | _ => none

def admission : Kind FinalizedReservation where
  inject := .admission
  project | .admission value => some value | _ => none

def delivery : Kind StoredCorporateDelivery where
  inject := .delivery
  project | .delivery value => some value | _ => none

def receipt : Kind EdgeAdmissionReceipt where
  inject := .receipt
  project | .receipt value => some value | _ => none

def expiry : Kind ApplicationNoteRelease where
  inject := .expiry
  project | .expiry value => some value | _ => none

def resolution : Kind NativeExpiryResolution where
  inject := .resolution
  project | .resolution value => some value | _ => none

def reserveSend : Kind ReserveSendDecision where
  inject := .reserveSend
  project | .reserveSend value => some value | _ => none

def authorization : Kind CorporateReserveAuthorization where
  inject := .authorization
  project | .authorization value => some value | _ => none

def authorizationEnd : Kind EndedCorporateAuthorization where
  inject := .authorizationEnd
  project | .authorizationEnd value => some value | _ => none

def funding : Kind FacilityWitness where
  inject := .funding
  project | .funding value => some value | _ => none

end Kind

/-- What other crates compute: encodings and the checks of signed material, at the configuration of
the journal. -/
class CorporateChecks extends Crypto where
  /-- `serde_json::to_vec` of a `PrivateReserveRequest`. -/
  requestJson : PrivateReserveRequest → Bytes
  /-- `serde_json::to_vec` of a `CorporateReserveAuthorization`. -/
  authorizationJson : CorporateReserveAuthorization → Bytes
  /-- `PreparedCorporateReserve::validate`. -/
  validatePrepared : PreparedCorporateReserve → Except String Unit
  /-- `CorporateReserveAuthorization::validate`. -/
  validateAuthorization : CorporateReserveAuthorization → Except String Unit
  /-- `NativeCorporateJournal::verify_receipt`. -/
  verifyReceipt : EdgeAdmissionReceipt → StoredCorporateDelivery → Nat → Except String Unit
  /-- `ApplicationNoteRelease::verify`. -/
  verifyRelease : ApplicationNoteRelease → Digest32 → Nat → Nat → Except String Unit
  /-- `ApplicationReserveMandate::binding`. -/
  binding : ApplicationReserveMandate → Except String Digest32
  /-- `FacilityWitness::commitments`. -/
  witnessCommitments : FacilityWitness → Except String (Balances Digest32)
  /-- `CorporateNativeConfig::facility_id`. -/
  facilityId : Digest32
  /-- `NativeCorporateJournal::context_digest`. -/
  context : Digest32

/-! ## Calls outside the journal -/

/-- `PreparationError`. -/
inductive PreparationError where
  | retry (message : String)
  | insufficientFunding

/-- `DispatchRequest`. -/
structure DispatchRequest where
  version : Nat
  journalContext : Digest32
  requestId : String
  intentDigest : Digest32
  reserveDigest : Digest32
  authorizationDigest : Option Digest32
  sourceNote : Option Digest32

/-- `OutboxEntrySummary` of the dispatch queue, with the two states the worker asks for. -/
structure QueueEntry where
  requestId : String
  requestDigest : Digest32
  abortedBeforeReserve : Bool
  manualReview : Bool

/-- `QueueAction`. -/
inductive QueueAction where
  | expire (requestId : String) (requestDigest : Digest32)
  | dispatch (requestId : String) (requestDigest : Digest32) (attempt : Nat)

/-- The canonical facility, as read. -/
structure FacilitySnapshot where
  stateRoot : Digest32
  facilityId : Digest32
  sequence : Nat
  commitments : Balances Digest32

/-- The canonical reservation, as read. -/
structure ReservationSnapshot where
  stateRoot : Digest32
  binding : Digest32
  holdId : Digest32
  sequence : Nat
  status : String
  headReceipt : Digest32
  remainingCommitment : Digest32

/-- An accepted release. -/
structure AcceptedRelease where
  statement : Digest32
  txId : String
  blockId : String
  height : Nat
  afterRoot : Digest32

/-- The calls of a process outside the journal. -/
inductive External where
  | now | observe | chain | stateRoot | facilitySnapshot | reservationSnapshot (hold : Digest32)
  | releaseApplication (release : ApplicationNoteRelease) | verifyFinalized | buildReservedDelivery
  | submitPrepared | verifySelectedFundingSpent | recoverWallet | recoverFacility | latestFunding
  | prepareAuthorizedReservation | prepareReservationFromNote | health | queueSummaries | claimNext
  | signedRequest (id : String) (digest : Digest32) | markReleasePending | recordRelease
  | recordMpcAdmission

/-- What an external call answers, if it does not fail. -/
def External.Answer : External → Type
  | now => Nat
  | stateRoot => Digest32
  | facilitySnapshot => FacilitySnapshot
  | reservationSnapshot _ => ReservationSnapshot
  | releaseApplication _ => AcceptedRelease
  | buildReservedDelivery => Bytes × Bytes
  | submitPrepared => EdgeAdmissionReceipt
  | recoverFacility => FacilityWitness
  | prepareAuthorizedReservation => Except PreparationError PreparedCorporateReserve
  | prepareReservationFromNote => PreparedCorporateReserve
  | health => Bool
  | queueSummaries => List QueueEntry
  | claimNext => Option QueueAction
  | signedRequest _ _ => DispatchRequest
  | _ => Unit

/-- The calls of a process: those the theorems watch, and the others. -/
inductive Call where
  | finalizeReservation (id : String) (prepared : PreparedCorporateReserve) (now : Nat)
  | recordPreReserveAbort (id : String) (digest : Digest32) (endedAt : Nat)
  | reachedSend (id : String)
  | external (call : External)

def Call.Answer : Call → Type
  | finalizeReservation _ _ _ => FinalizedReservation
  | external call => call.Answer
  | _ => Unit

def Call.sends : Call → Option (String × PreparedCorporateReserve)
  | finalizeReservation id prepared _ => some (id, prepared)
  | _ => none

def Call.aborts : Call → Option String
  | recordPreReserveAbort id _ _ => some id
  | _ => none

def Call.reaches : Call → Option String
  | reachedSend id => some id
  | _ => none

/-! ## The shared state -/

/-- The outbox of the journal, and the calls made so far. -/
abbrev State := Outbox.State Key Record Call.Answer

abbrev Op := Outbox.Op Key Record Call

abbrev Op.Answer : Op → Type := Outbox.Op.Answer Call.Answer

abbrev Process := Outbox.Process Key Record Call.Answer

/-- Every answer from outside is possible. -/
abbrev exec : Exec Op Op.Answer State := Outbox.exec fun _ _ => True

/-- Ask something outside the journal. -/
def ask (call : External) : Process call.Answer := Outbox.ask (Call.external call)

namespace State

/-- The requests `finalize_reservation` was called for. -/
def sent (s : State) : List (String × PreparedCorporateReserve) :=
  s.log.filterMap fun c => c.1.sends

/-- The requests the dispatch queue was told to abort before reserve. -/
def aborted (s : State) : List String := s.log.filterMap fun c => c.1.aborts

/-- The requests whose `complete_native_submission` has reached `mark_reserve_send_started`. -/
def reached (s : State) : List String := s.log.filterMap fun c => c.1.reaches

end State

/-! ## Reading and writing -/

/-- The request ids `record_id` accepts. -/
def validId (id : String) : Bool :=
  decide (asBytes id ≠ []) && decide ((asBytes id).length ≤ 64) &&
    (asBytes id).all fun c =>
      (Char.ofUInt8 c).isAlphanum || Char.ofUInt8 c == '-' || Char.ofUInt8 c == '_'

/-- `record_id`. -/
def recordId (stage : Stage) (id : String) : Process Key := do
  demand (validId id = true) "corporate request ID or stage is invalid"
  return .stage stage id

/-- The error of a record that cannot be read back. -/
def malformed : String :=
  "corporate stage record is malformed or uses legacy signing custody; " ++
    "explicit PQC migration is required"

/-- The error of a record that is not there after its insertion. -/
def lost : String := "corporate stage was not durable after insertion"

/-- `NativeCorporateJournal::get`. -/
def read {α : Type} (kind : Kind α) (key : Key) : Process (Option α) :=
  Outbox.read kind malformed key

/-- `NativeCorporateJournal::put_first`. The times the outbox keeps with a record are left out. -/
def putFirst {α : Type} (kind : Kind α) (key : Key) (body : α) : Process α :=
  Outbox.putFirst kind malformed lost key body

/-- `NativeCorporateJournal::stage`. -/
def stage {α : Type} (kind : Kind α) (stage : Stage) (id : String) : Process (Option α) := do
  read kind (← recordId stage id)

/-- `NativeCorporateJournal::intent`. -/
def intent (id : String) : Process (Option StoredCorporateIntent) := stage .intent .intent id

/-- `NativeCorporateJournal::authorization`. -/
def authorization (id : String) : Process (Option CorporateReserveAuthorization) :=
  stage .authorization .authorization id

/-- `NativeCorporateJournal::save_intent`. -/
def saveIntent (id : String) (value : StoredCorporateIntent) : Process StoredCorporateIntent := do
  let stored ← putFirst .intent (← recordId .intent id) value
  demand (stored.inputDigest = value.inputDigest)
    "corporate request ID was reused for another order instruction"
  return stored

/-- `NativeCorporateJournal::save_stage` at the stages of a submission. -/
def saveStage {α : Type} (kind : Kind α) (stage : Stage) (id : String) (body : α) :
    Process α := do
  putFirst kind (← recordId stage id) body

section

variable [CorporateChecks]

open CorporateChecks

/-- `reserve_digest`. -/
def reserveDigest (prepared : PreparedCorporateReserve) : Digest32 :=
  sha256 (requestJson prepared.request)

/-- `CorporateReserveAuthorization::digest`. -/
def CorporateReserveAuthorization.digest (value : CorporateReserveAuthorization) : Digest32 :=
  sha256 (asBytes "OCLOB:CORPORATE-AUTHORIZATION:v1" ++ authorizationJson value)

/-- The terms `save_authorization` compares with the intent. -/
def CorporateReserveAuthorization.Fits (value : CorporateReserveAuthorization)
    (intent : StoredCorporateIntent) : Prop :=
  value.orderWire = intent.orderWire ∧ value.signingKey = intent.signingKey ∧
  value.eligibilityCommitment = intent.eligibilityCommitment ∧
  intent.acceptedAt ≤ value.mandate.validFrom ∧ value.mandate.validUntil = intent.expiresAt

instance (value : CorporateReserveAuthorization) (intent : StoredCorporateIntent) :
    Decidable (value.Fits intent) := inferInstanceAs (Decidable (_ ∧ _))

/-- `NativeCorporateJournal::save_authorization`. -/
def saveAuthorization (id : String) (value : CorporateReserveAuthorization) :
    Process CorporateReserveAuthorization := do
  let intent ← demandSome (← intent id) "authorization has no durable corporate intent"
  check (validateAuthorization value)
  demand (value.Fits intent) "authorization differs from corporate intake"
  let saved ← putFirst .authorization (← recordId .authorization id) value
  check (validateAuthorization saved)
  demand (saved.Fits intent) "saved authorization differs from corporate intake"
  return saved

/-! ## Turns -/

/-- The request of a key that ends a request: `receipt:`, `resolved:` or `authorization-end:`. -/
def Key.completes : Key → Option String
  | .stage .receipt id | .stage .resolved id | .stage .authorizationEnd id => some id
  | _ => none

/-- An `intent:` key of a request that is not in `completed`. -/
def Key.unfinished (completed : List String) : Key → Bool
  | .stage .intent id => decide (id ∉ completed)
  | _ => false

/-- `NativeCorporateJournal::require_turn`. The keys of the summaries are in the order of their
sequences, so the oldest unfinished intent is the first. -/
def requireTurn (id : String) : Process Unit := do
  let target ← recordId .intent id
  let keys ← Outbox.summaries
  demand (¬ (.stage .resolved id ∈ keys ∨ .stage .authorizationEnd id ∈ keys))
    "corporate request already ended without admission"
  let completed := keys.filterMap Key.completes
  if id ∈ completed then return ()
  else
    match keys.find? (Key.unfinished completed) with
    | none => return ()
    | some oldest =>
      demand (oldest = target) "an earlier corporate request must be admitted or reconciled first"

/-! ## The send fence -/

/-- `NativeCorporateJournal::send_binding`. -/
def sendBinding (id : String) (digest : Digest32) : Process Digest32 := do
  match ← authorization id with
  | none => return digest
  | some authorization =>
    let binding := authorization.digest
    if digest = binding then return binding
    else
      let prepared ← demandSome (← stage .reserve .reserve id)
        "authorized send lost its prepared funding"
      demand (digest = reserveDigest prepared ∧
          prepared.request.mandate = authorization.mandate ∧
          prepared.orderWire = authorization.orderWire ∧
          prepared.request.orderAuthorizationSalt = authorization.orderAuthorizationSalt ∧
          prepared.request.reserveReblinding = authorization.reserveReblinding)
        "prepared send differs from the original signed authorization"
      return binding

/-- `NativeCorporateJournal::choose_reserve_send`. -/
def chooseReserveSend (id : String) (digest : Digest32) (maySend : Bool) : Process Bool := do
  let intent ← demandSome (← intent id) "reserve send has no durable intent"
  let binding ← sendBinding id digest
  let decision ← putFirst .reserveSend (← recordId .reserveSend id)
    ⟨intent.inputDigest, binding, maySend⟩
  demand (decision.intentDigest = intent.inputDigest ∧ decision.reserveDigest = binding)
    "reserve send decision differs from the original request"
  return decision.maySend

/-- `NativeCorporateJournal::mark_reserve_send_started`. -/
def markReserveSendStarted (id : String) (digest : Digest32) : Process Unit := do
  let maySend ← chooseReserveSend id digest true
  demand (maySend = true) "unsent expiry fence prevents this reserve send"

/-- Is one of the stages there? The loops over stages of the two methods below. -/
def anyStage (id : String) : List Stage → Process Bool
  | [] => return false
  | first :: rest => do
    match ← stage .any first id with
    | some _ => return true
    | none => anyStage id rest

/-- `NativeCorporateJournal::seal_never_dispatched`. -/
def sealNeverDispatched (id : String) (digest : Digest32) (now : Nat) : Process Bool := do
  let intent ← demandSome (← intent id) "unsent expiry has no intent"
  if intent.reserveSendTracking = false ∨ now ≤ intent.expiresAt then return false
  else if ← anyStage id [.admission, .delivery, .receipt] then return false
  else
    let maySend ← chooseReserveSend id digest false
    return !maySend

/-- `NativeCorporateJournal::ended_authorization`. -/
def endedAuthorization (id : String) : Process (Option EndedCorporateAuthorization) := do
  match ← stage .authorizationEnd .authorizationEnd id with
  | none => return none
  | some value =>
    let authorization ← demandSome (← authorization id) "ended authorization lost its terms"
    let intent ← demandSome (← intent id) "ended authorization lost its intent"
    let decision ← demandSome (← stage .reserveSend .reserveSend id)
      "ended authorization has no send fence"
    demand (value.requestId = id ∧ value.authorizationDigest = authorization.digest ∧
        intent.reserveSendTracking = true ∧ decision.maySend = false ∧
        decision.intentDigest = intent.inputDigest ∧
        decision.reserveDigest = value.authorizationDigest ∧ intent.acceptedAt ≤ value.endedAt ∧
        (value.reason = .expired → intent.expiresAt < value.endedAt))
      "ended authorization is inconsistent or could have been sent"
    return some value

/-- `NativeCorporateJournal::end_unprepared_authorization`. -/
def endUnpreparedAuthorization (id : String) (now : Nat) (reason : AuthorizationEndReason) :
    Process EndedCorporateAuthorization := do
  match ← endedAuthorization id with
  | some saved => return saved
  | none =>
    let intent ← demandSome (← intent id) "ending authorization has no intent"
    demand (intent.reserveSendTracking = true ∧ intent.acceptedAt ≤ now ∧
        (reason = .expired → intent.expiresAt < now))
      "authorization cannot end before its permitted boundary"
    let prepared ← anyStage id [.reserve, .admission, .delivery, .receipt]
    demand (prepared = false)
      "prepared or delivered authorization requires canonical reconciliation"
    let authorization ← demandSome (← authorization id) "ending authorization has no signed terms"
    let maySend ← chooseReserveSend id authorization.digest false
    demand (maySend = false) "authorization has an ambiguous send"
    let _ ← putFirst .authorizationEnd (← recordId .authorizationEnd id)
      ⟨id, authorization.digest, now, reason⟩
    let ended ← endedAuthorization id
    demandSome ended "authorization end was not durable"

/-! ## Expiry -/

/-- `validate_expiry_release`. -/
def validateExpiryRelease (release : ApplicationNoteRelease) (prepared : PreparedCorporateReserve)
    (now : Nat) : Except String Unit := do
  require (release.reason = .expired ∧ release.holdId = prepared.request.mandate.holdId ∧
    release.sequence = 0) "unadmitted expiry cannot release another or already used reserve"
  verifyRelease release prepared.request.mandate.scope prepared.request.mandate.validUntil now

/-- `NativeExpiryResolution::validate`. -/
def NativeExpiryResolution.validate (value : NativeExpiryResolution)
    (prepared : PreparedCorporateReserve) : Except String Unit := do
  require (value.reserveDigest = Corporate.reserveDigest prepared ∧
    prepared.request.mandate.validUntil < value.checkedAt ∧ 0 < value.requestId.utf8ByteSize ∧
    value.requestId.utf8ByteSize ≤ 64) "expiry resolution differs from its original reserve"
  match value.outcome with
  | .neverReserved stateRoot =>
    require (stateRoot ≠ 0) "expiry resolution has no canonical evidence"
  | .released release transactionId blockId height afterRoot => do
    validateExpiryRelease release prepared value.checkedAt
    require (0 < transactionId.utf8ByteSize ∧ transactionId.utf8ByteSize ≤ 128 ∧
      0 < blockId.utf8ByteSize ∧ blockId.utf8ByteSize ≤ 128 ∧ height ≠ 0 ∧ afterRoot ≠ 0 ∧
      afterRoot ≠ release.beforeRoot) "expiry receipt is incomplete"

/-- `NativeCorporateJournal::save_expiry_release`. -/
def saveExpiryRelease (id : String) (release : ApplicationNoteRelease)
    (prepared : PreparedCorporateReserve) (now : Nat) : Process ApplicationNoteRelease := do
  check (validateExpiryRelease release prepared now)
  let saved ← putFirst .expiry (← recordId .expiry id) release
  check (validateExpiryRelease saved prepared now)
  return saved

/-- `NativeCorporateJournal::verify_unsent_resolution`. -/
def verifyUnsentResolution (value : NativeExpiryResolution) : Process Unit :=
  if value.outcome.isNeverReserved then do
    let intent ← demandSome (← intent value.requestId) "absence record lost its intent"
    let decision ← demandSome (← stage .reserveSend .reserveSend value.requestId)
      "absence record has no atomic unsent fence"
    let ambiguous := "absence record cannot exclude an ambiguous or legacy send"
    demand (intent.reserveSendTracking = true ∧ decision.maySend = false ∧
      decision.intentDigest = intent.inputDigest) ambiguous
    let binding ← sendBinding value.requestId value.reserveDigest
    demand (decision.reserveDigest = binding) ambiguous
  else return ()

/-- `NativeCorporateJournal::expiry_resolution`. -/
def expiryResolution (prepared : PreparedCorporateReserve) :
    Process (Option NativeExpiryResolution) := do
  match ← read .resolution (.expiryResult prepared.request.mandate.holdId) with
  | none => return none
  | some value =>
    check (value.validate prepared)
    verifyUnsentResolution value
    return some value

/-- `NativeCorporateJournal::save_expiry_resolution`. -/
def saveExpiryResolution (value : NativeExpiryResolution) (prepared : PreparedCorporateReserve) :
    Process NativeExpiryResolution := do
  check (value.validate prepared)
  verifyUnsentResolution value
  let stored ← putFirst .resolution (.expiryResult prepared.request.mandate.holdId) value
  check (stored.validate prepared)
  demand (stored = value) "expiry result conflicts with earlier canonical evidence"
  return stored

/-- `NativeCorporateJournal::complete_expiry`. -/
def completeExpiry (value : NativeExpiryResolution) (prepared : PreparedCorporateReserve) :
    Process Unit := do
  check (value.validate prepared)
  let evidence ← expiryResolution prepared
  demand (evidence = some value) "expiry completion has no durable canonical evidence"
  let stored ← putFirst .resolution (← recordId .resolved value.requestId) value
  demand (stored = value) "expiry completion conflicts with saved outcome"

/-! ## Deliveries and funding -/

/-- `NativeCorporateJournal::save_receipt`. -/
def saveReceipt (id : String) (receipt : EdgeAdmissionReceipt) (delivery : StoredCorporateDelivery)
    (intent : StoredCorporateIntent) : Process EdgeAdmissionReceipt := do
  check (verifyReceipt receipt delivery intent.acceptedAt)
  let stored ← putFirst .receipt (← recordId .receipt id) receipt
  check (verifyReceipt stored delivery intent.acceptedAt)
  return stored

/-- `NativeCorporateJournal::save_funding_witness`. -/
def saveFundingWitness (witness : FacilityWitness) : Process Unit := do
  let commitments ← check (witnessCommitments witness)
  let stored ← putFirst .funding (.funding witness.facilityId witness.sequence) witness
  let found ← check (witnessCommitments stored)
  demand (stored.facilityId = witness.facilityId ∧ stored.sequence = witness.sequence ∧
      found = commitments)
    "two different corporate funding witnesses name the same canonical generation"

end

end Oclob.Corporate
