import Oclob.Corporate.Journal

/-!
# Submission, expiry and dispatch

Model of `complete_native_submission` (`oclob-node/src/corporate_submission.rs`),
`reconcile_expired_submission` (`corporate_expiry.rs`), `NativeCorporateDispatch::pump`
(`corporate_dispatch.rs`) and the direct path of the `oclob-edge-submit` command, as programs over
the journal. The dispatch queue keeps its own outbox; it is outside the model but for
`record_pre_reserve_abort`, and every other answer of it is arbitrary.

`Entry` lists the programs a process may run.
-/

namespace Oclob.Corporate

open Oclob.Core Oclob.Lib Oclob.Node

section

variable [CorporateChecks]

open CorporateChecks

/-! ## Submission -/

/-- The reservation of `complete_native_submission`: the saved one, or a call of
`finalize_reservation` behind the send fence. -/
def finalizedReservation (id : String) (prepared : PreparedCorporateReserve) :
    Process FinalizedReservation := do
  match ← stage .admission .admission id with
  | some saved =>
    let _ ← ask .now
    ask .verifyFinalized
    return saved
  | none =>
    let _ ← ask .now
    Outbox.ask (Call.reachedSend id)
    markReserveSendStarted id (reserveDigest prepared)
    let now ← ask .now
    let finalized ← Outbox.ask (Call.finalizeReservation id prepared now)
    ask .observe
    saveStage .admission .admission id finalized

/-- The delivery of `complete_native_submission`. -/
def reservedDelivery (id : String) (prepared : PreparedCorporateReserve) :
    Process StoredCorporateDelivery := do
  match ← stage .delivery .delivery id with
  | some saved => return saved
  | none =>
    let _ ← finalizedReservation id prepared
    saveFundingWitness prepared.facilityAfter
    let _ ← ask .now
    let (bundle, authority) ← ask .buildReservedDelivery
    saveStage .delivery .delivery id ⟨reserveDigest prepared, bundle, authority⟩

/-- `complete_native_submission`. -/
def completeNativeSubmission (id : String) (sourceNote : Option Digest32) :
    Process EdgeAdmissionReceipt := do
  requireTurn id
  let intent ← demandSome (← intent id) "submission has no durable intent"
  let prepared ← demandSome (← stage .reserve .reserve id)
    "submission has no durable signed reserve"
  check (validatePrepared prepared)
  demand (prepared.orderWire = intent.orderWire ∧ prepared.signingKey = intent.signingKey ∧
      prepared.eligibilityCommitment = intent.eligibilityCommitment)
    "saved reserve belongs to another durable corporate intent"
  let completed ← stage .receipt .receipt id
  let delivery ← reservedDelivery id prepared
  demand (delivery.reserveDigest = reserveDigest prepared)
    "saved ciphertexts name another reserve request"
  let receipt ← match completed with
    | some receipt => pure receipt
    | none => do
      let receipt ← ask .submitPrepared
      ask .observe
      saveReceipt id receipt delivery intent
  check (verifyReceipt receipt delivery intent.acceptedAt)
  if sourceNote.isSome then ask .verifySelectedFundingSpent
  return receipt

/-! ## Expiry -/

/-- The branch of `reconcile_expired_submission` that releases the canonical reserve. -/
def releasedOutcome (id : String) (prepared : PreparedCorporateReserve) (root : Digest32)
    (now : Nat) : Process ExpiryOutcome := do
  let mandate := prepared.request.mandate
  let head ← ask (.reservationSnapshot mandate.holdId)
  demand (head.stateRoot = root) "expiry read does not identify the original unfilled reserve"
  let expected ← check (binding mandate)
  demand (head.binding = expected ∧ head.sequence ≤ 1)
    "expiry read does not identify the original unfilled reserve"
  let release ← match ← stage .expiry .expiry id with
    | some saved => pure saved
    | none => do
      demand (head.status = "active" ∧ head.sequence = 0)
        "external release needs its canonical transaction receipt"
      let operationId :=
        sha256 (asBytes "OCLOB:CORPORATE-EXPIRY:v1" ++ (reserveDigest prepared).bytes)
      saveExpiryRelease id ⟨mandate.scope, root, operationId, head.holdId, head.sequence,
        head.headReceipt, .expired⟩ prepared now
  check (validateExpiryRelease release prepared now)
  let accepted ← ask (.releaseApplication release)
  let after ← ask (.reservationSnapshot release.holdId)
  demand (after.status = "released" ∧ after.sequence = 1 ∧ after.binding = expected ∧
      after.headReceipt = accepted.statement ∧
      after.remainingCommitment = mandate.amountCommitment)
    "expiry did not terminate the exact original reserve"
  return .released release accepted.txId accepted.blockId accepted.height accepted.afterRoot

/-- The outcome of `reconcile_expired_submission` when none is saved. -/
def expiryOutcome (id : String) (prepared : PreparedCorporateReserve) (now : Nat) :
    Process ExpiryOutcome := do
  let root : Digest32 ← ask .stateRoot
  let facility ← ask .facilitySnapshot
  demand (facility.stateRoot = root ∧ facility.facilityId = facilityId)
    "expiry facility read crossed canonical context"
  let unsent ←
    if facility.sequence = prepared.request.beforeSequence ∧
        facility.commitments = prepared.request.before then
      sealNeverDispatched id (reserveDigest prepared) now
    else pure false
  if unsent then
    let again : Digest32 ← ask .stateRoot
    demand (again = root) "absence observation crossed canonical generations"
    return .neverReserved root
  else releasedOutcome id prepared root now

/-- `reconcile_expired_submission`. -/
def reconcileExpiredSubmission (id : String) (now : Nat) : Process NativeExpiryResolution := do
  let prepared ← demandSome (← stage .reserve .reserve id)
    "expired request has no saved signed reserve"
  check (validatePrepared prepared)
  demand (prepared.request.mandate.validUntil < now) "canonical reserve deadline has not elapsed"
  ask .chain
  let resolution ← match ← expiryResolution prepared with
    | some saved => do
      check (saved.validate prepared)
      demand (saved.requestId = id) "expiry record belongs to another corporate request"
      pure saved
    | none => do
      let outcome ← expiryOutcome id prepared now
      let resolution : NativeExpiryResolution := ⟨id, reserveDigest prepared, now, outcome⟩
      check (resolution.validate prepared)
      ask .observe
      saveExpiryResolution resolution prepared
  ask .recoverWallet
  completeExpiry resolution prepared
  return resolution

/-! ## Dispatch -/

/-- `DispatchProgress`. -/
inductive DispatchProgress where
  | idle
  | waitingForNodes
  | retryScheduled (requestId : String) (attempt : Nat)
  | admitted (requestId : String)
  | releaseReconciliationRequired (requestId : String)
  | manualReviewRequired (requestId : String)
  | reservationReleased (requestId transactionId : String)
  | neverReserved (requestId : String)
  | fundingRejected (requestId : String)

/-- `NativeCorporateDispatch::record_authorization_end`. -/
def recordAuthorizationEnd (digest : Digest32) (ended : EndedCorporateAuthorization) :
    Process DispatchProgress := do
  Outbox.ask (Call.recordPreReserveAbort ended.requestId digest ended.endedAt)
  match ended.reason with
  | .expired => return .neverReserved ended.requestId
  | .insufficientFunding => return .fundingRejected ended.requestId

/-- `NativeCorporateDispatch::verified_request`. -/
def verifiedRequest (id : String) (digest : Digest32) : Process DispatchRequest := do
  let request ← ask (.signedRequest id digest)
  let intent ← demandSome (← intent id) "dispatch intent disappeared"
  let sourceMatches ← match request.version, request.authorizationDigest with
    | 1, none => do
      match ← stage .reserve .reserve id with
      | some prepared => pure (decide (reserveDigest prepared = request.reserveDigest))
      | none => pure false
    | 2, some expected => do
      if request.reserveDigest = 0 then
        match ← authorization id with
        | some authorization => pure (decide (authorization.digest = expected))
        | none => pure false
      else pure false
    | _, _ => pure false
  demand (sourceMatches = true ∧ request.journalContext = context ∧ request.requestId = id ∧
      request.intentDigest = intent.inputDigest)
    "dispatch payload does not match its corporate journal"
  return request

/-- A request of version 2 whose reserve is not prepared. -/
def unprepared (request : DispatchRequest) (id : String) : Process Bool :=
  if request.version = 2 then do
    let reserve ← stage .reserve .reserve id
    return reserve.isNone
  else return false

/-- `NativeCorporateDispatch::reconcile_expiry`. -/
def reconcileExpiry (id : String) (digest : Digest32) (now : Nat) : Process DispatchProgress := do
  let request ← verifiedRequest id digest
  ask .markReleasePending
  if ← unprepared request id then
    match ← tried (endUnpreparedAuthorization id now .expired) with
    | .ok ended => recordAuthorizationEnd digest ended
    | .error _ => return .releaseReconciliationRequired id
  else
    match ← tried (reconcileExpiredSubmission id now) with
    | .error _ => return .releaseReconciliationRequired id
    | .ok result =>
      match result.outcome with
      | .neverReserved _ =>
        Outbox.ask (Call.recordPreReserveAbort id digest result.checkedAt)
        return .neverReserved id
      | .released _ transactionId _ _ _ =>
        ask .recordRelease
        return .reservationReleased id transactionId

/-- The preparation of `pump`, with its `PreparationError`. -/
def prepare (id : String) : Process (Except PreparationError Unit) := do
  requireTurn id
  let _ ← demandSome (← authorization id) "queued authorization disappeared"
  let _ ← demandSome (← intent id) "queued intent disappeared"
  ask .latestFunding
  let answer : Except PreparationError PreparedCorporateReserve ← ask .prepareAuthorizedReservation
  match answer with
  | .error failure => return .error failure
  | .ok prepared =>
    let _ ← saveStage .reserve .reserve id prepared
    return .ok ()

/-- The end of `pump`: the submission and the answer of the queue. -/
def submitClaimed (id : String) (sourceNote : Option Digest32) (attempt : Nat) :
    Process DispatchProgress := do
  match ← tried (completeNativeSubmission id sourceNote) with
  | .error _ => return .retryScheduled id attempt
  | .ok _ =>
    ask .recordMpcAdmission
    return .admitted id

/-- A failed preparation is tried again after the funding is read anew. -/
def retryPreparation (id : String) (attempt : Nat) : Process DispatchProgress := do
  ask .chain
  match ← tried (ask .recoverFacility) with
  | .ok witness => saveFundingWitness witness
  | .error _ => pure ()
  return .retryScheduled id attempt

/-- `pump` on a claimed request. -/
def dispatchClaimed (id : String) (digest : Digest32) (attempt now : Nat) :
    Process DispatchProgress := do
  let request ← verifiedRequest id digest
  if ← unprepared request id then
    match ← tried (prepare id) with
    | .ok (.ok _) => submitClaimed id request.sourceNote attempt
    | .ok (.error .insufficientFunding) =>
      let ended ← endUnpreparedAuthorization id now .insufficientFunding
      recordAuthorizationEnd digest ended
    | .ok (.error (.retry _)) | .error _ => retryPreparation id attempt
  else submitClaimed id request.sourceNote attempt

/-- The first queue entry whose authorization has ended, in the first loop of `pump`. -/
def firstEnded : List QueueEntry →
    Process (Option (QueueEntry × EndedCorporateAuthorization))
  | [] => return none
  | entry :: rest =>
    if entry.abortedBeforeReserve then firstEnded rest
    else do
      match ← endedAuthorization entry.requestId with
      | some ended => return some (entry, ended)
      | none => firstEnded rest

/-- `NativeCorporateDispatch::no_claim_progress`. -/
def noClaimProgress (healthy : Bool) : Process DispatchProgress := do
  let entries : List QueueEntry ← ask .queueSummaries
  match entries.find? (·.manualReview) with
  | some entry => return .manualReviewRequired entry.requestId
  | none => return if healthy then .idle else .waitingForNodes

/-- `NativeCorporateDispatch::pump`. -/
def pump (now retryAfterSeconds : Nat) : Process DispatchProgress := do
  demand (1 ≤ retryAfterSeconds ∧ retryAfterSeconds ≤ 300)
    "dispatch retry interval outside1..300 seconds"
  let entries : List QueueEntry ← ask .queueSummaries
  match ← firstEnded entries with
  | some (entry, ended) =>
    let _ ← verifiedRequest entry.requestId entry.requestDigest
    recordAuthorizationEnd entry.requestDigest ended
  | none =>
    let first : Option QueueAction ← ask .claimNext
    match first with
    | some (.expire id digest) => reconcileExpiry id digest now
    | _ =>
      let healthy : Bool ← ask .health
      let action : Option QueueAction ← ask .claimNext
      match action with
      | none => noClaimProgress healthy
      | some (.expire id digest) => reconcileExpiry id digest now
      | some (.dispatch id digest attempt) => dispatchClaimed id digest attempt now

/-- The direct path of `oclob-edge-submit`: intent, turn, reserve and submission. -/
def submitDirect (id : String) (value : StoredCorporateIntent) (sourceNote : Option Digest32) :
    Process EdgeAdmissionReceipt := do
  let saved ← match ← intent id with
    | some saved => pure saved
    | none => saveIntent id value
  demand (saved.inputDigest = value.inputDigest)
    "corporate request ID names a different order instruction"
  requireTurn id
  let prepared ← match ← stage .reserve .reserve id with
    | some saved => pure saved
    | none => do
      ask .latestFunding
      let pending : PreparedCorporateReserve ← ask .prepareReservationFromNote
      saveStage .reserve .reserve id pending
  check (validatePrepared prepared)
  completeNativeSubmission id sourceNote

/-! ## The processes -/

/-- What processes on one journal run. -/
inductive Entry : Prog Op Op.Answer Unit → Prop
  | saveIntent (id : String) (value : StoredCorporateIntent) : Entry (launch (saveIntent id value))
  | saveAuthorization (id : String) (value : CorporateReserveAuthorization) :
      Entry (launch (saveAuthorization id value))
  | submitDirect (id : String) (value : StoredCorporateIntent) (sourceNote : Option Digest32) :
      Entry (launch (submitDirect id value sourceNote))
  | complete (id : String) (sourceNote : Option Digest32) :
      Entry (launch (completeNativeSubmission id sourceNote))
  | endUnprepared (id : String) (now : Nat) (reason : AuthorizationEndReason) :
      Entry (launch (endUnpreparedAuthorization id now reason))
  | sealNeverDispatched (id : String) (digest : Digest32) (now : Nat) :
      Entry (launch (sealNeverDispatched id digest now))
  | reconcileExpired (id : String) (now : Nat) :
      Entry (launch (reconcileExpiredSubmission id now))
  | pump (now retryAfterSeconds : Nat) : Entry (launch (pump now retryAfterSeconds))
  | saveFundingWitness (witness : FacilityWitness) : Entry (launch (saveFundingWitness witness))
  | other (name : String) (record : Record) :
      Entry (launch (putFirst .any (.other name) record))

end

end Oclob.Corporate
