import Oclob.Service.Agreement
import Oclob.Core.Wire

/-!
# The durable queue in front of the service

Model of `DurableOclobQueue` of `oclob-service/src/lib.rs` (`enqueue`, `pump`, `pump_cover_slot`,
`dispatch_with`) over one `OclobService`, and of the one-use eligibility check it submits through,
`OclobEligibilityVerifier::verify_order` of `oclob-dekyx/src/lib.rs`.

The outbox belongs to another package. What it may do is `Gives`: it hands out entries without a
terminal record only, for dispatch again after the retry interval and for expiry after their
deadline. Every write to it may fail, and a failed write may or may not have been kept
(`WriteAnswer`). A request is named by the commitment whose hex text is its id.

`submit` has committed the order in memory before `record_settlement` is called. If that write is
lost, the entry comes back: a second dispatch fails on the used presentation, which is not a
retryable error, and an expiry does not ask at all. Both end in `record_pre_reserve_abort`.

* `QueueState.Turned`: what one call does to the log and to the outbox.
* `executed_never_aborted`: where no settlement record is lost, an executed request is never
  aborted, rejected or expired afterwards.
* `executed_then_aborted`: a run that loses one.
-/

namespace Oclob.Service

open Oclob.Core Oclob.Lib Oclob.Settlement

/-! ## Eligibility, one use for each presentation -/

/-- `PresentationContext`, as far as it is compared. -/
structure PresentationContext where
  scopeDigest : Digest32
  audienceDigest : Digest32
  actionDigest : Digest32
  requestDigest : Digest32
  validUntil : Nat
deriving DecidableEq

/-- `AnonymousPresentation`. -/
structure AnonymousPresentation where
  context : PresentationContext
  nullifier : Digest32
  proof : Bytes
deriving DecidableEq

/-- `OclobEligibilityVerifier`: its requirement and its `PresentationLedger`. -/
structure OclobEligibilityVerifier (Ledger : Type) where
  scopeDigest : Digest32
  audienceDigest : Digest32
  actionDigest : Digest32
  consumed : Ledger

/-- The two functions of DeKYX that `verify_order` calls. -/
structure DeKyx (Ledger : Type) where
  /-- `verify_eligibility` by the pinned issuer: the subject's nullifier. -/
  verifyEligibility : AnonymousPresentation → Nat → Except String Digest32
  /-- `PresentationLedger::consume`. -/
  consume : Ledger → Digest32 → PresentationContext → Except String Ledger

/-- `OclobEligibilityVerifier::verify_order`; the errors are the texts of `EligibilityError`. -/
def OclobEligibilityVerifier.verifyOrder {Ledger : Type} (dekyx : DeKyx Ledger)
    (evidence : AnonymousPresentation) (self : OclobEligibilityVerifier Ledger)
    (orderCommitment orderNullifier : Digest32) (orderExpiresAt now : Nat) :
    Except String (Digest32 × OclobEligibilityVerifier Ledger) := do
  require (evidence.context.scopeDigest = self.scopeDigest ∧
    evidence.context.audienceDigest = self.audienceDigest ∧
    evidence.context.actionDigest = self.actionDigest ∧
    evidence.context.requestDigest = orderCommitment ∧
    orderExpiresAt ≤ evidence.context.validUntil ∧ evidence.nullifier = orderNullifier)
    "anonymous qualification is not bound to this exact order"
  let subjectNullifier ← (dekyx.verifyEligibility evidence now).mapError
    ("DeKYX rejected the anonymous qualification: " ++ ·)
  let consumed ← (dekyx.consume self.consumed subjectNullifier evidence.context).mapError
    ("DeKYX rejected the anonymous qualification: " ++ ·)
  return (subjectNullifier, { self with consumed })

/-! ## The queue -/

/-- `QueuedSubmissionEnvelope`. -/
structure QueuedSubmissionEnvelope where
  version : Nat
  orderWire : Bytes
  authority : OrderAuthority
  eligibility : AnonymousPresentation
deriving DecidableEq

def queuedSubmissionVersion : Nat := 1

/-- `QueuedSubmissionEnvelope::decode`, after `serde_json` has read the envelope. -/
def QueuedSubmissionEnvelope.decode [Crypto] (parse : Bytes → Option QueuedSubmissionEnvelope)
    (bytes : Bytes) : Except String (SecretOrder × OrderAuthority × AnonymousPresentation) := do
  let envelope ← okOr (parse bytes) "queued submission envelope is malformed"
  require (envelope.version = queuedSubmissionVersion) "queued submission version is unsupported"
  let order ← (SecretOrder.fromSecretWire envelope.orderWire).mapError orderText
  require (envelope.authority.commitment = order.commitment)
    "queued authority belongs to another order"
  return (order, envelope.authority, envelope.eligibility)

namespace ServiceError

/-- The texts of `ServiceError`. -/
def text : ServiceError → String
  | .order reason => "order admission failed: " ++ reason
  | .eligibility reason => "DeKYX eligibility failed: " ++ reason
  | .ordering reason => "order sequencing failed: " ++ reason
  | .mpc reason => "private matching failed closed: " ++ reason
  | .proof reason => "book-transition proof failed: " ++ reason
  | .settlement reason => "zkPI/DeFMI settlement failed: " ++ reason

/-- `ServiceError::retryable`. -/
def retryable : ServiceError → Bool
  | .ordering _ | .mpc _ | .proof _ | .settlement _ => true
  | .order _ | .eligibility _ => false

end ServiceError

/-- The terminal records of an outbox entry that the queue writes. -/
inductive TerminalRecord where
  | settlement
  | preReserveAbort
  | manualReview
deriving DecidableEq

/-- An entry of the outbox. -/
structure OutboxEntry where
  signedRequest : Bytes
  expiresAt : Nat
  claimedAt : Option Nat
  terminal : Option TerminalRecord
deriving DecidableEq

abbrev Outbox := Digest32 → Option OutboxEntry

/-- What a write to the outbox answers; a failed one may have been kept all the same. -/
inductive WriteAnswer where
  | ok
  | failed (reason : String) (kept : Bool)
deriving DecidableEq

def WriteAnswer.kept : WriteAnswer → Bool
  | .ok => true
  | .failed _ kept => kept

/-- `QueueWorkerResult`. -/
inductive QueueWorkerResult where
  | idle
  | waitingForMpc
  | dummyCover (slot dueAt : Nat)
  | expired (requestId : Digest32)
  | executed (requestId : Digest32)
  | retryableFailure (requestId : Digest32) (reason : String)
  | rejected (requestId : Digest32) (reason : String)
deriving DecidableEq

/-- What a call returns that ends with this write. -/
def WriteAnswer.result (answer : WriteAnswer) (result : QueueWorkerResult) :
    Except String QueueWorkerResult :=
  match answer with
  | .ok => .ok result
  | .failed reason _ => .error reason

/-- What an observer of the queue sees. -/
inductive QueueEvent where
  /-- `service.submit` returned for the request. -/
  | submitted (requestId : Digest32) (succeeded : Bool)
  /-- `record_pre_reserve_abort` was called for the request. -/
  | preReserveAbort (requestId : Digest32)
  /-- A call of the queue returned. -/
  | reported (result : Except String QueueWorkerResult)
deriving DecidableEq

/-- `QueueAction`; `CoverAction` has a dummy besides. -/
inductive QueueAction where
  | dispatch (requestId : Digest32) (signedRequest : Bytes)
  | expire (requestId : Digest32)
deriving DecidableEq

/-- The request an action is about. -/
def QueueAction.requestId : QueueAction → Digest32
  | .dispatch requestId _ | .expire requestId => requestId

structure QueueState (Ordering Ledger : Type) where
  outbox : Outbox
  service : OclobService Ordering (OclobEligibilityVerifier Ledger)
  log : List QueueEvent

/-- What the packages around the queue answer during one call of it. -/
structure Turn (Ordering Ledger : Type) where
  now : Nat
  mpcQuorumHealthy : Bool
  parse : Bytes → Option QueuedSubmissionEnvelope
  dekyx : DeKyx Ledger
  /-- `verifyOrder` of these is replaced by the presentation of the request. -/
  externals : Externals Ordering (OclobEligibilityVerifier Ledger)
  settlementWrite : WriteAnswer
  abortWrite : WriteAnswer
  reviewWrite : WriteAnswer

namespace Outbox

/-- The entries the outbox may hand out: without a terminal record, for dispatch at the first
claim or after the retry interval, for expiry after the deadline. -/
def Gives (outbox : Outbox) (retryAfterSeconds now : Nat) (mpcQuorumHealthy : Bool) :
    QueueAction → Prop
  | .dispatch requestId signedRequest => mpcQuorumHealthy = true ∧ ∃ entry,
      outbox requestId = some entry ∧ entry.signedRequest = signedRequest ∧
      entry.terminal = none ∧ ∀ claimed ∈ entry.claimedAt, claimed + retryAfterSeconds ≤ now
  | .expire requestId => ∃ entry,
      outbox requestId = some entry ∧ entry.terminal = none ∧ entry.expiresAt < now

/-- The outbox after an edit of one entry. -/
def edit (outbox : Outbox) (requestId : Digest32) (f : OutboxEntry → OutboxEntry) : Outbox :=
  fun id => if id = requestId then (outbox id).map f else outbox id

/-- Whether a request has a terminal record. -/
def ended (outbox : Outbox) (requestId : Digest32) : Bool :=
  (outbox requestId).any fun entry => entry.terminal.isSome

/-- The outbox hands out entries it has, and none that has ended. -/
theorem open_of_gives {outbox : Outbox} {retryAfterSeconds now : Nat} {healthy : Bool}
    {action : QueueAction} (h : outbox.Gives retryAfterSeconds now healthy action) :
    (outbox action.requestId).isSome = true ∧ outbox.ended action.requestId = false := by
  have hopen : ∃ entry, outbox action.requestId = some entry ∧ entry.terminal = none := by
    cases action with
    | dispatch requestId signedRequest =>
      obtain ⟨-, entry, hentry, -, hterminal, -⟩ := h
      exact ⟨entry, hentry, hterminal⟩
    | expire requestId =>
      obtain ⟨entry, hentry, hterminal, -⟩ := h
      exact ⟨entry, hentry, hterminal⟩
  obtain ⟨entry, hentry, hterminal⟩ := hopen
  refine ⟨Option.isSome_of_eq_some hentry, ?_⟩
  rw [ended, hentry, Option.any_some, hterminal]
  rfl

end Outbox

namespace QueueState

variable {Ordering Ledger : Type}

def record (state : QueueState Ordering Ledger) (event : QueueEvent) :
    QueueState Ordering Ledger :=
  { state with log := state.log ++ [event] }

def editEntry (state : QueueState Ordering Ledger) (requestId : Digest32)
    (f : OutboxEntry → OutboxEntry) : QueueState Ordering Ledger :=
  { state with outbox := state.outbox.edit requestId f }

/-- A write of a terminal record. -/
def writeTerminal (answer : WriteAnswer) (requestId : Digest32) (terminal : TerminalRecord) :
    EStateM String (QueueState Ordering Ledger) Unit := do
  if answer.kept then
    modify fun state => state.editEntry requestId fun entry =>
      { entry with terminal := some terminal }
  match answer with
  | .ok => return ()
  | .failed reason _ => throw reason

/-- `record_pre_reserve_abort`. -/
def recordPreReserveAbort (turn : Turn Ordering Ledger) (requestId : Digest32) :
    EStateM String (QueueState Ordering Ledger) Unit := do
  modify fun state => state.record (.preReserveAbort requestId)
  writeTerminal turn.abortWrite requestId .preReserveAbort

/-- The last match of `dispatch_with`, on what `service.submit` returned. `submit` never answers
`CanonicalUncertain`. -/
def conclude (turn : Turn Ordering Ledger) (requestId : Digest32) :
    EStateM.Result ServiceError (OclobService Ordering (OclobEligibilityVerifier Ledger)) Unit →
      EStateM String (QueueState Ordering Ledger) QueueWorkerResult
  | .ok _ service => do
    modify fun state => { state with service }.record (.submitted requestId true)
    writeTerminal turn.settlementWrite requestId .settlement
    return .executed requestId
  | .error error service => do
    modify fun state => { state with service }.record (.submitted requestId false)
    if error.retryable then return .retryableFailure requestId error.text
    else
      recordPreReserveAbort turn requestId
      return .rejected requestId error.text

variable [Crypto]

/-- `DurableOclobQueue::dispatch_with`, executing with `service.submit`. -/
def dispatchWith (turn : Turn Ordering Ledger) (requestId : Digest32) (signedRequest : Bytes) :
    EStateM String (QueueState Ordering Ledger) QueueWorkerResult := do
  match QueuedSubmissionEnvelope.decode turn.parse signedRequest with
  | .error reason =>
    writeTerminal turn.reviewWrite requestId .manualReview
    return .rejected requestId reason
  | .ok (order, authority, eligibility) =>
    let state ← get
    let externals := { turn.externals with
      verifyOrder := OclobEligibilityVerifier.verifyOrder turn.dekyx eligibility }
    conclude turn requestId
      ((OclobService.submit externals order authority turn.now).run state.service)

/-- The part `pump` and `pump_cover_slot` share: follow the claimed action. -/
def follow (turn : Turn Ordering Ledger) :
    QueueAction → EStateM String (QueueState Ordering Ledger) QueueWorkerResult
  | .expire requestId => do
    recordPreReserveAbort turn requestId
    return .expired requestId
  | .dispatch requestId signedRequest => do
    -- the claim itself is durable
    modify fun state => state.editEntry requestId fun entry =>
      { entry with claimedAt := some turn.now }
    dispatchWith turn requestId signedRequest

/-- `DurableOclobQueue::pump`, with what `claim_next` answers. -/
def pump (turn : Turn Ordering Ledger) (claim : Except String (Option QueueAction)) :
    EStateM String (QueueState Ordering Ledger) QueueWorkerResult := do
  match ← attempt claim with
  | none => return if turn.mpcQuorumHealthy then .idle else .waitingForMpc
  | some action => follow turn action

/-- `DurableOclobQueue::pump_cover_slot`, with what `claim_cover_slot` answers: a slot, the time it
is due, and the action in it, `none` for a dummy. -/
def pumpCoverSlot (turn : Turn Ordering Ledger)
    (claim : Except String (Option (Nat × Nat × Option QueueAction))) :
    EStateM String (QueueState Ordering Ledger) QueueWorkerResult := do
  match ← attempt claim with
  | none => return if turn.mpcQuorumHealthy then .idle else .waitingForMpc
  | some (slot, dueAt, none) => return .dummyCover slot dueAt
  | some (_, _, some action) => follow turn action

/-- The outbox part of `DurableOclobQueue::enqueue`: the first submission of an order is kept. -/
def enqueueFirstSeen (state : QueueState Ordering Ledger) (order : SecretOrder)
    (signedRequest : Bytes) : QueueState Ordering Ledger :=
  match state.outbox order.commitment with
  | some _ => state
  | none => { state with
      outbox := Function.update state.outbox order.commitment
        (some ⟨signedRequest, order.expiresAt, none, none⟩) }

end QueueState

/-- A call of the queue. -/
inductive QueueCall (Ordering Ledger : Type) where
  | enqueue (order : SecretOrder) (signedRequest : Bytes)
  | pump (turn : Turn Ordering Ledger) (claim : Except String (Option QueueAction))
  | pumpCoverSlot (turn : Turn Ordering Ledger)
      (claim : Except String (Option (Nat × Nat × Option QueueAction)))

namespace QueueCall

variable {Ordering Ledger : Type}

/-- The action an outbox has handed out to a call. -/
def action : QueueCall Ordering Ledger → Option (Turn Ordering Ledger × QueueAction)
  | .pump turn (.ok (some action)) => some (turn, action)
  | .pumpCoverSlot turn (.ok (some (_, _, some action))) => some (turn, action)
  | _ => none

/-- The outbox hands out only what it may. -/
def Allowed (call : QueueCall Ordering Ledger) (retryAfterSeconds : Nat)
    (state : QueueState Ordering Ledger) : Prop :=
  ∀ turn action, call.action = some (turn, action) →
    state.outbox.Gives retryAfterSeconds turn.now turn.mpcQuorumHealthy action

/-- The outbox keeps the settlement record of this call. -/
def KeepsSettlement : QueueCall Ordering Ledger → Prop
  | .enqueue _ _ => True
  | .pump turn _ | .pumpCoverSlot turn _ => turn.settlementWrite.kept = true

end QueueCall

namespace QueueState

variable {Ordering Ledger : Type} [Crypto]

/-- A worker call and its report. -/
def report (state : QueueState Ordering Ledger)
    (call : EStateM String (QueueState Ordering Ledger) QueueWorkerResult) :
    QueueState Ordering Ledger :=
  match call.run state with
  | .ok result state => state.record (.reported (.ok result))
  | .error reason state => state.record (.reported (.error reason))

/-- The state after a call. -/
def step (state : QueueState Ordering Ledger) : QueueCall Ordering Ledger →
    QueueState Ordering Ledger
  | .enqueue order signedRequest => state.enqueueFirstSeen order signedRequest
  | .pump turn claim => state.report (QueueState.pump turn claim)
  | .pumpCoverSlot turn claim => state.report (QueueState.pumpCoverSlot turn claim)

/-- The runs in which the outbox hands out only what it may. -/
inductive Runs (retryAfterSeconds : Nat) : QueueState Ordering Ledger →
    List (QueueCall Ordering Ledger) → QueueState Ordering Ledger → Prop where
  | nil (state : QueueState Ordering Ledger) : Runs retryAfterSeconds state [] state
  | cons {state last : QueueState Ordering Ledger} {call : QueueCall Ordering Ledger}
      {calls : List (QueueCall Ordering Ledger)} : call.Allowed retryAfterSeconds state →
      Runs retryAfterSeconds (state.step call) calls last →
      Runs retryAfterSeconds state (call :: calls) last

theorem Runs.concat {retryAfterSeconds : Nat} {state last : QueueState Ordering Ledger}
    {calls : List (QueueCall Ordering Ledger)} {call : QueueCall Ordering Ledger}
    (h : Runs retryAfterSeconds state calls last) (hallowed : call.Allowed retryAfterSeconds last) :
    Runs retryAfterSeconds state (calls ++ [call]) (last.step call) := by
  induction h with
  | nil state => exact .cons hallowed (.nil _)
  | cons hfirst _ ih => exact .cons hfirst (ih hallowed)

end QueueState

/-! ## What one call does -/

namespace QueueEvent

/-- The event says that the request was given up before it was executed. -/
def Aborts (requestId : Digest32) : QueueEvent → Prop
  | .preReserveAbort id | .reported (.ok (.expired id)) | .reported (.ok (.rejected id _)) =>
    id = requestId
  | _ => False

/-- `later` does not take back what `earlier` has executed. -/
def Upholds (earlier later : QueueEvent) : Prop :=
  ∀ id, earlier = .submitted id true → ¬ later.Aborts id

end QueueEvent

/-- What the events of one call say: they concern one request, and one that was executed is not
given up in the same call. -/
structure TurnEvents (requestId : Digest32) (events : List QueueEvent) : Prop where
  executes : ∀ id, .submitted id true ∈ events → id = requestId
  aborts : ∀ id, ∀ event ∈ events, event.Aborts id → id = requestId
  upholds : .submitted requestId true ∈ events → ∀ event ∈ events, ¬ event.Aborts requestId

theorem TurnEvents.pairwise {requestId : Digest32} {events : List QueueEvent}
    (h : TurnEvents requestId events) : events.Pairwise QueueEvent.Upholds := by
  refine List.pairwise_of_forall_mem_list fun earlier hearlier later hlater id heq haborts => ?_
  subst heq
  obtain rfl := h.executes id hearlier
  exact h.upholds hearlier later hlater haborts

theorem TurnEvents.of_not_executed {requestId : Digest32} {events : List QueueEvent}
    (hexecutes : ∀ id, QueueEvent.submitted id true ∉ events)
    (haborts : ∀ id, ∀ event ∈ events, event.Aborts id → id = requestId) :
    TurnEvents requestId events :=
  ⟨fun id h => absurd h (hexecutes id), haborts, fun h => absurd h (hexecutes requestId)⟩

/-- A call that fails at its last write gives nothing up. -/
theorem aborts_result {answer : WriteAnswer} {result : QueueWorkerResult} {id : Digest32}
    (h : (QueueEvent.reported (answer.result result)).Aborts id) :
    (QueueEvent.reported (.ok result)).Aborts id := by
  cases answer with
  | ok => exact h
  | failed reason kept => exact h.elim

namespace QueueState

variable {Ordering Ledger : Type} {state : QueueState Ordering Ledger}
  {turn : Turn Ordering Ledger} {requestId : Digest32}

variable {id : Digest32} {call : QueueCall Ordering Ledger}

theorem ended_editEntry {f : OutboxEntry → OutboxEntry}
    (hf : ∀ entry, entry.terminal.isSome = true → (f entry).terminal.isSome = true)
    (h : state.outbox.ended id = true) :
    (state.editEntry requestId f).outbox.ended id = true := by
  unfold Outbox.ended at h ⊢
  unfold editEntry Outbox.edit
  dsimp only
  split
  · cases hentry : state.outbox id with
    | none => rw [hentry] at h; exact h
    | some entry => rw [hentry] at h; exact hf entry h
  · exact h

/-- The state after a write of a terminal record. -/
def written (state : QueueState Ordering Ledger) (answer : WriteAnswer) (requestId : Digest32)
    (terminal : TerminalRecord) : QueueState Ordering Ledger :=
  if answer.kept then state.editEntry requestId fun entry =>
    { entry with terminal := some terminal }
  else state

theorem log_written (answer : WriteAnswer) (terminal : TerminalRecord) :
    (state.written answer requestId terminal).log = state.log := by
  unfold written
  split <;> rfl

theorem ended_written {answer : WriteAnswer} {terminal : TerminalRecord}
    (h : state.outbox.ended id = true) :
    (state.written answer requestId terminal).outbox.ended id = true := by
  unfold written
  split
  · exact ended_editEntry (fun _ _ => rfl) h
  · exact h

/-- A kept record ends its request. -/
theorem ended_of_kept {answer : WriteAnswer} {terminal : TerminalRecord}
    (hkept : answer.kept = true) (hentry : (state.outbox requestId).isSome = true) :
    (state.written answer requestId terminal).outbox.ended requestId = true := by
  obtain ⟨entry, hentry⟩ := Option.isSome_iff_exists.mp hentry
  unfold written
  rw [if_pos hkept]
  unfold Outbox.ended editEntry Outbox.edit
  dsimp only
  rw [if_pos rfl, hentry]
  rfl

/-- A write of a terminal record, as the last thing of a call. -/
theorem report_written (state : QueueState Ordering Ledger) (requestId : Digest32)
    (answer : WriteAnswer) (terminal : TerminalRecord) (result : QueueWorkerResult) :
    state.report (do writeTerminal answer requestId terminal; return result) =
      (state.written answer requestId terminal).record (.reported (answer.result result)) := by
  cases answer with
  | ok => rfl
  | failed reason kept => cases kept <;> rfl

variable [Crypto]

theorem report_expire : state.report (follow turn (.expire requestId)) =
    ((state.record (.preReserveAbort requestId)).written turn.abortWrite requestId
      .preReserveAbort).record (.reported (turn.abortWrite.result (.expired requestId))) :=
  report_written (state.record (.preReserveAbort requestId)) requestId turn.abortWrite
    .preReserveAbort (.expired requestId)

/-- **The four ends of a dispatch.** -/
theorem report_dispatch (state : QueueState Ordering Ledger) (turn : Turn Ordering Ledger)
    (requestId : Digest32) (signedRequest : Bytes) :
    let claimed := state.editEntry requestId fun entry => { entry with claimedAt := some turn.now }
    let after := state.report (follow turn (.dispatch requestId signedRequest))
    (∃ reason, after = (claimed.written turn.reviewWrite requestId .manualReview).record
      (.reported (turn.reviewWrite.result (.rejected requestId reason)))) ∨
    (∃ service, after = (({ claimed with service }.record (.submitted requestId true)).written
      turn.settlementWrite requestId .settlement).record
      (.reported (turn.settlementWrite.result (.executed requestId)))) ∨
    (∃ service reason, after = ({ claimed with service }.record
      (.submitted requestId false)).record
      (.reported (.ok (.retryableFailure requestId reason)))) ∨
    ∃ service reason, after = ((({ claimed with service }.record
      (.submitted requestId false)).record (.preReserveAbort requestId)).written turn.abortWrite
      requestId .preReserveAbort).record
      (.reported (turn.abortWrite.result (.rejected requestId reason))) := by
  intro claimed after
  have hafter : after = claimed.report (dispatchWith turn requestId signedRequest) := rfl
  unfold dispatchWith at hafter
  cases hdecode : QueuedSubmissionEnvelope.decode turn.parse signedRequest with
  | error reason =>
    rw [hdecode] at hafter
    exact Or.inl ⟨reason, hafter.trans (report_written _ _ _ _ _)⟩
  | ok decoded =>
    obtain ⟨order, authority, eligibility⟩ := decoded
    rw [hdecode] at hafter
    have hconclude : ∃ answer, after = claimed.report (conclude turn requestId answer) :=
      ⟨_, hafter⟩
    obtain ⟨answer, hanswer⟩ := hconclude
    cases answer with
    | ok _ service =>
      have hwritten := report_written ({ claimed with service }.record (.submitted requestId true))
        requestId turn.settlementWrite .settlement (.executed requestId)
      exact Or.inr (Or.inl ⟨service, hanswer.trans hwritten⟩)
    | error error service =>
      refine Or.inr (Or.inr ?_)
      cases hretry : error.retryable with
      | true =>
        refine Or.inl ⟨service, error.text, hanswer.trans ?_⟩
        simp only [conclude, hretry]
        rfl
      | false =>
        refine Or.inr ⟨service, error.text, hanswer.trans ?_⟩
        have hwritten := report_written (({ claimed with service }.record
          (.submitted requestId false)).record (.preReserveAbort requestId)) requestId
          turn.abortWrite .preReserveAbort (.rejected requestId error.text)
        simp only [conclude, hretry]
        exact hwritten

/-- What a claimed action does. -/
structure Followed (turn : Turn Ordering Ledger) (requestId : Digest32)
    (before after : QueueState Ordering Ledger) (events : List QueueEvent) : Prop where
  log_eq : after.log = before.log ++ events
  concerns : TurnEvents requestId events
  ended : ∀ id, before.outbox.ended id = true → after.outbox.ended id = true
  settled : turn.settlementWrite.kept = true → QueueEvent.submitted requestId true ∈ events →
    after.outbox.ended requestId = true

theorem followed_expire : ∃ events,
    Followed turn requestId state (state.report (follow turn (.expire requestId))) events := by
  refine ⟨[.preReserveAbort requestId,
    .reported (turn.abortWrite.result (.expired requestId))], ?_⟩
  rw [report_expire]
  refine ⟨?_, .of_not_executed (by simp) ?_, ?_, fun _ h => absurd h (by simp)⟩
  · simp [record, log_written]
  · intro id event hevent haborts
    simp only [List.mem_cons, List.not_mem_nil, or_false] at hevent
    obtain rfl | rfl := hevent
    · exact haborts.symm
    · exact (aborts_result haborts).symm
  · intro id hended
    exact ended_written hended

theorem followed_dispatch {signedRequest : Bytes}
    (hentry : (state.outbox requestId).isSome = true) : ∃ events,
    Followed turn requestId state
      (state.report (follow turn (.dispatch requestId signedRequest))) events := by
  have hclaimed : ∀ id, state.outbox.ended id = true →
      (state.editEntry requestId fun entry =>
        { entry with claimedAt := some turn.now }).outbox.ended id = true := by
    intro id hended
    apply ended_editEntry _ hended
    exact fun entry hterminal => hterminal
  obtain ⟨reason, hafter⟩ | ⟨service, hafter⟩ | ⟨service, reason, hafter⟩ |
    ⟨service, reason, hafter⟩ := report_dispatch state turn requestId signedRequest
  · refine ⟨[.reported (turn.reviewWrite.result (.rejected requestId reason))], ?_⟩
    rw [hafter]
    refine ⟨?_, .of_not_executed (by simp) ?_, ?_, fun _ h => absurd h (by simp)⟩
    · simp [record, log_written, editEntry]
    · intro id event hevent haborts
      obtain rfl := List.mem_singleton.mp hevent
      exact (aborts_result haborts).symm
    · intro id hended
      exact ended_written (hclaimed id hended)
  · refine ⟨[.submitted requestId true,
      .reported (turn.settlementWrite.result (.executed requestId))], ?_⟩
    rw [hafter]
    have hquiet : ∀ id, ∀ event ∈ [QueueEvent.submitted requestId true,
        .reported (turn.settlementWrite.result (.executed requestId))], ¬ event.Aborts id := by
      intro id event hevent haborts
      simp only [List.mem_cons, List.not_mem_nil, or_false] at hevent
      obtain rfl | rfl := hevent
      · exact haborts
      · exact aborts_result haborts
    refine ⟨?_, ⟨?_, fun id event hevent h => absurd h (hquiet id event hevent),
      fun _ => hquiet requestId⟩, ?_, fun hkept _ => ?_⟩
    · simp [record, log_written, editEntry]
    · intro id hid
      simpa using hid
    · intro id hended
      exact ended_written (hclaimed id hended)
    · refine ended_of_kept hkept ?_
      unfold record editEntry Outbox.edit
      simpa using hentry
  · refine ⟨[.submitted requestId false,
      .reported (.ok (.retryableFailure requestId reason))], ?_⟩
    rw [hafter]
    refine ⟨?_, .of_not_executed (by simp) ?_, hclaimed, fun _ h => absurd h (by simp)⟩
    · simp [record, editEntry]
    · intro id event hevent haborts
      simp only [List.mem_cons, List.not_mem_nil, or_false] at hevent
      obtain rfl | rfl := hevent
      · exact haborts.elim
      · exact haborts.elim
  · refine ⟨[.submitted requestId false, .preReserveAbort requestId,
      .reported (turn.abortWrite.result (.rejected requestId reason))], ?_⟩
    rw [hafter]
    refine ⟨?_, .of_not_executed (by simp) ?_, ?_, fun _ h => absurd h (by simp)⟩
    · simp [record, log_written, editEntry]
    · intro id event hevent haborts
      simp only [List.mem_cons, List.not_mem_nil, or_false] at hevent
      obtain rfl | rfl | rfl := hevent
      · exact haborts.elim
      · exact haborts.symm
      · exact (aborts_result haborts).symm
    · intro id hended
      exact ended_written (hclaimed id hended)

theorem followed_action (turn : Turn Ordering Ledger) {action : QueueAction}
    (hentry : (state.outbox action.requestId).isSome = true) :
    ∃ events, Followed turn action.requestId state (state.report (follow turn action)) events := by
  cases action with
  | dispatch requestId signedRequest => exact followed_dispatch hentry
  | expire requestId => exact followed_expire

/-- A call that claims no entry is an `enqueue` or reports that there was nothing to do. -/
theorem step_of_no_action (state : QueueState Ordering Ledger) (h : call.action = none) :
    (∃ order signedRequest, state.step call = state.enqueueFirstSeen order signedRequest) ∨
    ∃ result, state.step call = state.record (.reported result) ∧
      ∀ id, ¬ (QueueEvent.reported result).Aborts id := by
  cases call with
  | enqueue order signedRequest => exact Or.inl ⟨order, signedRequest, rfl⟩
  | pump turn claim =>
    refine Or.inr ?_
    cases claim with
    | error reason => exact ⟨.error reason, rfl, fun _ => id⟩
    | ok claimed =>
      cases claimed with
      | none =>
        refine ⟨.ok (if turn.mpcQuorumHealthy then .idle else .waitingForMpc), rfl, fun id => ?_⟩
        split <;> exact not_false
      | some action => exact nomatch h
  | pumpCoverSlot turn claim =>
    refine Or.inr ?_
    cases claim with
    | error reason => exact ⟨.error reason, rfl, fun _ => id⟩
    | ok claimed =>
      cases claimed with
      | none =>
        refine ⟨.ok (if turn.mpcQuorumHealthy then .idle else .waitingForMpc), rfl, fun id => ?_⟩
        split <;> exact not_false
      | some slot =>
        obtain ⟨slot, dueAt, covered⟩ := slot
        cases covered with
        | none => exact ⟨.ok (.dummyCover slot dueAt), rfl, fun _ => id⟩
        | some action => exact nomatch h

theorem step_of_action (state : QueueState Ordering Ledger) {action : QueueAction}
    (h : call.action = some (turn, action)) :
    state.step call = state.report (follow turn action) ∧
      (call.KeepsSettlement → turn.settlementWrite.kept = true) := by
  unfold QueueCall.action at h
  split at h
  · obtain ⟨rfl, rfl⟩ := Prod.mk.inj (Option.some.inj h)
    exact ⟨rfl, id⟩
  · obtain ⟨rfl, rfl⟩ := Prod.mk.inj (Option.some.inj h)
    exact ⟨rfl, id⟩
  · exact nomatch h

/-! ## Runs -/

/-- What was executed has a terminal record, and nothing after it takes it back. -/
structure Sound (state : QueueState Ordering Ledger) : Prop where
  upheld : state.log.Pairwise QueueEvent.Upholds
  recorded : ∀ id, .submitted id true ∈ state.log → state.outbox.ended id = true

theorem ended_enqueueFirstSeen {order : SecretOrder} {signedRequest : Bytes}
    (h : state.outbox.ended id = true) :
    (state.enqueueFirstSeen order signedRequest).outbox.ended id = true := by
  unfold enqueueFirstSeen
  split
  · exact h
  · rename_i habsent
    have hne : id ≠ order.commitment := by
      rintro rfl
      rw [Outbox.ended, habsent] at h
      exact nomatch h
    unfold Outbox.ended at h ⊢
    dsimp only
    rwa [Function.update_of_ne hne]

/-- **One call.** Its events concern a request that has not ended, hence none that was executed. -/
theorem Sound.step (h : Sound state) {retryAfterSeconds : Nat}
    (hallowed : call.Allowed retryAfterSeconds state) (hkeeps : call.KeepsSettlement) :
    Sound (state.step call) := by
  cases haction : call.action with
  | none =>
    obtain ⟨order, signedRequest, hstep⟩ | ⟨result, hstep, hquiet⟩ :=
      step_of_no_action state haction
    · rw [hstep]
      have hlog : (state.enqueueFirstSeen order signedRequest).log = state.log := by
        unfold enqueueFirstSeen
        split <;> rfl
      exact ⟨by rw [hlog]; exact h.upheld,
        fun id hid => ended_enqueueFirstSeen (h.recorded id (by rwa [hlog] at hid))⟩
    · rw [hstep]
      refine ⟨List.pairwise_append.mpr ⟨h.upheld, List.pairwise_singleton _ _, ?_⟩, ?_⟩
      · intro earlier _ later hlater id _ haborts
        obtain rfl := List.mem_singleton.mp hlater
        exact hquiet id haborts
      · intro id hid
        exact h.recorded id (by simpa [record] using hid)
  | some claimed =>
    obtain ⟨turn, action⟩ := claimed
    obtain ⟨hstep, hkept⟩ := step_of_action state haction
    obtain ⟨hentry, hopen⟩ := Outbox.open_of_gives (hallowed turn action haction)
    obtain ⟨events, hfollowed⟩ := followed_action turn hentry
    rw [hstep]
    refine ⟨?_, fun id hid => ?_⟩
    · rw [hfollowed.log_eq]
      refine List.pairwise_append.mpr ⟨h.upheld, hfollowed.concerns.pairwise, ?_⟩
      intro earlier hearlier later hlater id heq haborts
      subst heq
      obtain rfl := hfollowed.concerns.aborts id later hlater haborts
      rw [h.recorded _ hearlier] at hopen
      exact nomatch hopen
    · rw [hfollowed.log_eq] at hid
      obtain hold | hnew := List.mem_append.mp hid
      · exact hfollowed.ended id (h.recorded id hold)
      · obtain rfl := hfollowed.concerns.executes id hnew
        exact hfollowed.settled (hkept hkeeps) hnew

theorem Sound.run {last : QueueState Ordering Ledger} {calls : List (QueueCall Ordering Ledger)}
    {retryAfterSeconds : Nat} (hruns : Runs retryAfterSeconds state calls last)
    (h : Sound state) (hkeeps : ∀ call ∈ calls, call.KeepsSettlement) : Sound last := by
  induction hruns with
  | nil state => exact h
  | cons hallowed _ ih =>
    obtain ⟨hhead, htail⟩ := List.forall_mem_cons.mp hkeeps
    exact ih (h.step hallowed hhead) htail

/-- **An executed request is never reported as aborted**, in every run of the queue whose outbox
keeps each settlement record it is given. -/
theorem executed_never_aborted {last : QueueState Ordering Ledger}
    {calls : List (QueueCall Ordering Ledger)} {retryAfterSeconds : Nat}
    (hfresh : state.log = []) (hruns : Runs retryAfterSeconds state calls last)
    (hkeeps : ∀ call ∈ calls, call.KeepsSettlement) :
    ∀ before after id, last.log = before ++ .submitted id true :: after →
      ∀ event ∈ after, ¬ event.Aborts id := by
  have hsound : Sound state := ⟨by rw [hfresh]; exact List.Pairwise.nil, by rw [hfresh]; simp⟩
  intro before after id hlog event hevent
  have hupheld := (hsound.run hruns hkeeps).upheld
  rw [hlog] at hupheld
  obtain ⟨-, htail, -⟩ := List.pairwise_append.mp hupheld
  exact (List.pairwise_cons.mp htail).1 event hevent id rfl

end QueueState

section Sample

attribute [local instance] transparentCrypto

namespace QueueState

/-- A resting sale and the presentation of its owner. -/
def queuedSell : SecretOrder := sampleOrder .sell 100 5 .goodTilCancelled 1 fits_100_5

def queuedEnvelope : QueuedSubmissionEnvelope where
  version := 1
  orderWire := queuedSell.toSecretWire
  authority := sampleAuthority queuedSell
  eligibility := ⟨⟨1, 2, 3, queuedSell.commitment, 2000⟩, queuedSell.dekyxNullifier, []⟩

/-- A ledger of the presentations used so far, each usable once. -/
def onceOnly : DeKyx (List (Digest32 × PresentationContext)) where
  verifyEligibility evidence _ := .ok evidence.nullifier
  consume used nullifier context :=
    if (nullifier, context) ∈ used then .error "presentation was already consumed"
    else .ok ((nullifier, context) :: used)

def queuedService :
    OclobService Nat (OclobEligibilityVerifier (List (Digest32 × PresentationContext))) where
  marketId := "JGB10Y-JPY"
  book := PrivateBook.sampleBook
  ordering := 0
  settlement := .new 12 13
  eligibility := ⟨1, 2, 3, []⟩

/-- A call at `now` whose settlement record is answered with `settlementWrite`. -/
def queuedTurn (now : Nat) (settlementWrite : WriteAnswer) :
    Turn Nat (List (Digest32 × PresentationContext)) where
  now
  mpcQuorumHealthy := true
  parse := fun _ => some queuedEnvelope
  dekyx := onceOnly
  externals := { OclobService.sampleExternals with
    verifyOrder := fun _ _ _ _ _ => .error "unused" }
  settlementWrite
  abortWrite := .ok
  reviewWrite := .ok

def emptyQueue : QueueState Nat (List (Digest32 × PresentationContext)) :=
  ⟨fun _ => none, queuedService, []⟩

/-- The outbox hands out the sale. -/
def dispatchSell (turn : Turn Nat (List (Digest32 × PresentationContext))) :
    QueueCall Nat (List (Digest32 × PresentationContext)) :=
  .pump turn (.ok (some (.dispatch queuedSell.commitment [7])))

theorem dispatchSell_allowed {turn : Turn Nat (List (Digest32 × PresentationContext))}
    {state : QueueState Nat (List (Digest32 × PresentationContext))} {retryAfterSeconds : Nat}
    (h : state.outbox.Gives retryAfterSeconds turn.now turn.mpcQuorumHealthy
      (.dispatch queuedSell.commitment [7])) :
    (dispatchSell turn).Allowed retryAfterSeconds state := by
  intro t action haction
  obtain ⟨rfl, rfl⟩ := Prod.mk.inj (Option.some.inj haction)
  exact h

/-- The sale is queued and handed out once. -/
def queuedCalls (settlementWrite : WriteAnswer) :
    List (QueueCall Nat (List (Digest32 × PresentationContext))) :=
  [.enqueue queuedSell [7], dispatchSell (queuedTurn 1000 settlementWrite)]

/-- The queue after the sale was handed out once. -/
def servedQueue (settlementWrite : WriteAnswer) :
    QueueState Nat (List (Digest32 × PresentationContext)) :=
  (emptyQueue.step (.enqueue queuedSell [7])).step (dispatchSell (queuedTurn 1000 settlementWrite))

theorem runs_queuedCalls (settlementWrite : WriteAnswer) :
    Runs 30 emptyQueue (queuedCalls settlementWrite) (servedQueue settlementWrite) := by
  unfold servedQueue queuedCalls
  refine .cons (fun _ _ h => nomatch h) (.cons (dispatchSell_allowed ?_) (.nil _))
  exact ⟨rfl, ⟨[7], 2000, none, none⟩, by decide +kernel, rfl, rfl, fun _ h => nomatch h⟩

/-- The sale is executed, queued once more, and the worker turns again. -/
theorem executed_never_aborted_sample :
    let calls := queuedCalls .ok ++ [.enqueue queuedSell [8]] ++
      [.pump (queuedTurn 1030 .ok) (.ok none)]
    let later := [QueueEvent.reported (.ok (.executed queuedSell.commitment)),
      .reported (.ok .idle)]
    ∃ last, Runs 30 emptyQueue calls last ∧
      last.log = .submitted queuedSell.commitment true :: later ∧
      ∀ event ∈ later, ¬ event.Aborts queuedSell.commitment := by
  intro calls later
  have hagain : Runs 30 emptyQueue (queuedCalls .ok ++ [.enqueue queuedSell [8]]) _ :=
    (runs_queuedCalls .ok).concat fun _ _ h => nomatch h
  have hruns : Runs 30 emptyQueue calls _ := hagain.concat fun _ _ h => nomatch h
  refine ⟨_, hruns, by decide +kernel, executed_never_aborted rfl hruns ?_ [] _ _
    (by decide +kernel)⟩
  simp [calls, queuedCalls, dispatchSell, QueueCall.KeepsSettlement, queuedTurn, WriteAnswer.kept]

/-- **A lost settlement record.** The sale rests in the book, the write of its settlement record
fails, and the entry is handed out again at 1030. Its presentation is used, so the request is
aborted and reported as rejected while the sale is still resting. -/
theorem executed_then_aborted :
    let lost := servedQueue (.failed "disk full" false)
    let last := lost.step (dispatchSell (queuedTurn 1030 .ok))
    Runs 30 emptyQueue (queuedCalls (.failed "disk full" false) ++
      [dispatchSell (queuedTurn 1030 .ok)]) last ∧
    last.log = [.submitted queuedSell.commitment true, .reported (.error "disk full"),
      .submitted queuedSell.commitment false, .preReserveAbort queuedSell.commitment,
      .reported (.ok (.rejected queuedSell.commitment ("DeKYX eligibility failed: " ++
        "DeKYX rejected the anonymous qualification: presentation was already consumed")))] ∧
    last.service.book.orders.map RestingOrder.commitment = [queuedSell.commitment] := by
  refine ⟨(runs_queuedCalls _).concat (dispatchSell_allowed ?_), by decide +kernel,
    by decide +kernel⟩
  refine ⟨rfl, ⟨[7], 2000, some 1000, none⟩, by decide +kernel, rfl, rfl, fun claimed h => ?_⟩
  obtain rfl := Option.some.inj h
  decide

end QueueState

end Sample

end Oclob.Service
