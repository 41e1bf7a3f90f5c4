import Oclob.Settlement.Engine

/-!
# The service

Model of `OclobService` in `oclob-service/src/lib.rs`: `submit`, `cancel` and `expire_due`.

Each call works on staged copies and writes them back together at its end, so the staged part is a
function of the service state (`stageSubmission`, `finishSubmission`, `stageCancellation`,
`stageExpiry`). `submit` runs `expire_due` first, and that has taken effect even when the
submission then fails. `calls_fail_cleanly` says what a failing call leaves behind.

The ordering committee and the eligibility ledger are carried along as values of arbitrary types.
What they, the matching circuit, the proofs and the settlement back end answer during a call is an
`Externals`, on which nothing is assumed.
-/

namespace Oclob.Service

open Oclob.Core Oclob.Lib Oclob.Settlement

/-- The texts of `OrderError`. -/
def orderText : OrderError → String
  | .invalid reason => "invalid order: " ++ reason
  | .authority => "order authority is expired, malformed, or bound to another order"
  | .replay => "order commitment was already admitted"
  | .invalidMpcResult => "MPC result does not describe the canonical price-time transition"
  | .wrongMarket => "the order belongs to a different market"
  | .unknownOrder => "the target order is unknown or already terminal"
  | .invalidCancellation => "cancellation secret does not authorize the target order"

/-- The texts of `SettlementError`. -/
def settlementText : SettlementError → String
  | .invalidFill => "fill is empty"
  | .cryptography reason => "cryptographic construction failed: " ++ reason
  | .proof reason => "distributed proof construction failed: " ++ reason
  | .replayAccepted => "DeFMI accepted a replayed instruction"
  | .insolvent => "DeFMI conservation failed"
  | .canonicalDivergence =>
    "the independently built and committed DeFMI batch states diverged"
  | .finality reason => "canonical readback failed: " ++ reason
  | .reservation reason => "canonical reservation failed: " ++ reason

/-- `ServiceError`, as far as the three calls return it. -/
inductive ServiceError where
  | order (reason : String)
  | eligibility (reason : String)
  | ordering (reason : String)
  | mpc (reason : String)
  | proof (reason : String)
  | settlement (reason : String)
deriving DecidableEq, Repr

/-- `OclobService`: `Ordering` is the committee, `Eligibility` the ledger of used presentations. -/
structure OclobService (Ordering Eligibility : Type) where
  marketId : String
  book : PrivateBook
  ordering : Ordering
  settlement : SettlementEngine
  eligibility : Eligibility

/-- What the components around the book answer during one call. -/
structure Externals (Ordering Eligibility : Type) extends Backend where
  /-- `OrderingCommittee::certify`: the sequence it certifies a command at. -/
  certify : Ordering → String → Digest32 → Nat → Nat → Except String (Nat × Ordering)
  /-- `verify_order` on the presentation of this call: the legal entity behind the order. -/
  verifyOrder : Eligibility → Digest32 → Digest32 → Nat → Nat →
    Except String (Digest32 × Eligibility)
  /-- `MpcRunner::execute_batch`. -/
  executeBatch : PrivateMatchBatch → Except String MpcBatchResult
  /-- The statement of a transition and its quorum proof. -/
  proveBatch : Nat → BookTransition → Except String Unit
  proveCancellation : Nat → CancellationTransition → Except String Unit
  proveExpiry : Nat → ExpiryTransition → Except String Unit

/-- The staged copies of a submission. -/
structure StagedSubmission (Ordering Eligibility : Type) where
  book : PrivateBook
  ordering : Ordering
  settlement : SettlementEngine
  eligibility : Eligibility
  transition : BookTransition

namespace OclobService

variable {Ordering Eligibility : Type}

/-- `OclobService::new`, given what setting up the committee and compiling the circuit return. -/
def new (marketId : String) (first second : Digest32) (ordering : Except String Ordering)
    (mpc : Except String Unit) (eligibility : Eligibility) :
    Except ServiceError (OclobService Ordering Eligibility) := do
  let book ← (PrivateBook.new marketId).mapError (.order ∘ orderText)
  let ordering ← ordering.mapError .ordering
  mpc.mapError .mpc
  return { marketId, book, ordering, settlement := .new first second, eligibility }

variable [Crypto]

/-- `OclobService::stage_with_assurance`. -/
def stageSubmission (self : OclobService Ordering Eligibility)
    (ext : Externals Ordering Eligibility) (order : SecretOrder) (authority : OrderAuthority)
    (now : Nat) : Except ServiceError (StagedSubmission Ordering Eligibility) := do
  require (order.marketId = self.marketId) (.order "order is for another market")
  (authority.verify order now).mapError (.order ∘ orderText)
  (order.validateMarketRules .p1).mapError (.order ∘ orderText)
  require (self.book.exceedsFixedMatchCapacity order now = false)
    (.order "one order may match at most 8 resting orders in the fixed circuit")
  let (subjectNullifier, eligibility) ← (ext.verifyOrder self.eligibility order.commitment
    order.dekyxNullifier order.expiresAt now).mapError .eligibility
  let (_, bound) ← (stage (SettlementEngine.bindEligibleParticipant order.participantHandle
    subjectNullifier) self.settlement).mapError (.settlement ∘ settlementText)
  let (_, settlement) ← (stage (SettlementEngine.reserveOrder ext.toBackend
    (settlementView order)) bound).mapError (.settlement ∘ settlementText)
  let (sequence, ordering) ← (ext.certify self.ordering self.marketId authority.commitment
    order.expiresAt now).mapError .ordering
  let input ← (self.book.privateMatchBatch order now).mapError (.order ∘ orderText)
  let result ← (ext.executeBatch input).mapError .mpc
  let (transition, book) ← (stage (PrivateBook.applyMpcBatchResult order authority sequence now
    result) self.book).mapError (.order ∘ orderText)
  (ext.proveBatch sequence transition).mapError .proof
  return { book, ordering, settlement, eligibility, transition }

/-- The rest of `submit`: release an unfilled immediate-or-cancel order, or settle the fills. -/
def finishSubmission (ext : Externals Ordering Eligibility) (order : SecretOrder) (now : Nat)
    (staged : StagedSubmission Ordering Eligibility) : Except ServiceError SettlementEngine :=
  if staged.transition.fills = [] then
    if order.timeInForce = .immediateOrCancel then do
      let (_, settlement) ← (stage (SettlementEngine.releaseOrder order.commitment)
        staged.settlement).mapError (.settlement ∘ settlementText)
      return settlement
    else .ok staged.settlement
  else do
    let (_, settlement) ← (stage (SettlementEngine.settleBatch ext.toBackend
      staged.transition.fills (settlementView order) staged.transition.arrivingRemaining now)
      staged.settlement).mapError (.settlement ∘ settlementText)
    return settlement

/-- The staged part of `expire_due`. -/
def stageExpiry (self : OclobService Ordering Eligibility)
    (ext : Externals Ordering Eligibility) (now : Nat) :
    Except ServiceError (OclobService Ordering Eligibility) := do
  let expired := self.book.expiredCommitments now
  let command := expiryCommitment self.marketId now expired
  let (sequence, ordering) ← (ext.certify self.ordering self.marketId command
    (saturatingAdd now 60) now).mapError .ordering
  let (transition, book) ← (stage (PrivateBook.applyExpiry now command sequence)
    self.book).mapError (.order ∘ orderText)
  (ext.proveExpiry sequence transition).mapError .proof
  let (_, settlement) ← (stage (SettlementEngine.releaseOrdersAtomic expired)
    self.settlement).mapError (.settlement ∘ settlementText)
  return { self with book, ordering, settlement }

/-- `OclobService::expire_due`. -/
def expireDue (ext : Externals Ordering Eligibility) (now : Nat) :
    EStateM ServiceError (OclobService Ordering Eligibility) Unit := do
  let self ← get
  if self.book.expiredCommitments now = [] then return ()
  else set (← attempt (self.stageExpiry ext now))

/-- The staged part of `cancel`. -/
def stageCancellation (self : OclobService Ordering Eligibility)
    (ext : Externals Ordering Eligibility) (cancellation : SecretCancellation) (now : Nat) :
    Except ServiceError (OclobService Ordering Eligibility) := do
  let (sequence, ordering) ← (ext.certify self.ordering self.marketId cancellation.commitment
    (saturatingAdd now 60) now).mapError .ordering
  let (transition, book) ← (stage (PrivateBook.applyCancellation cancellation sequence)
    self.book).mapError (.order ∘ orderText)
  (ext.proveCancellation sequence transition).mapError .proof
  let (_, settlement) ← (stage (SettlementEngine.releaseOrder cancellation.target)
    self.settlement).mapError (.settlement ∘ settlementText)
  return { self with book, ordering, settlement }

/-- `OclobService::cancel`. -/
def cancel (ext : Externals Ordering Eligibility) (cancellation : SecretCancellation)
    (now : Nat) : EStateM ServiceError (OclobService Ordering Eligibility) Unit := do
  let self ← get
  set (← attempt (self.stageCancellation ext cancellation now))

/-- `OclobService::submit`. -/
def submit (ext : Externals Ordering Eligibility) (order : SecretOrder)
    (authority : OrderAuthority) (now : Nat) :
    EStateM ServiceError (OclobService Ordering Eligibility) Unit := do
  expireDue ext now
  let self ← get
  let staged ← attempt (self.stageSubmission ext order authority now)
  let settlement ← attempt (finishSubmission ext order now staged)
  set { self with
    book := staged.book
    ordering := staged.ordering
    settlement
    eligibility := staged.eligibility }

/-! ## What a call leaves behind -/

section

variable {self next : OclobService Ordering Eligibility} {ext : Externals Ordering Eligibility}
  {now : Nat} {u : Unit} {e : ServiceError}

theorem expireDue_ok (h : (expireDue ext now).run self = .ok u next) :
    next = self ∨ self.stageExpiry ext now = .ok next := by
  unfold expireDue at h
  rw [run_get_bind] at h
  split at h
  · exact Or.inl (run_pure_eq_ok.mp h).2
  · simp only [run_rules] at h
    obtain ⟨staged, s₁, ⟨hstage, rfl⟩, rfl⟩ := h
    exact Or.inr hstage

theorem expireDue_error (h : (expireDue ext now).run self = .error e next) : next = self := by
  unfold expireDue at h
  rw [run_get_bind] at h
  split at h
  · exact absurd h run_pure_ne_error
  · exact (keeps_attempt_bind fun _ => keeps_set : KeepsOnError (fun s => s) _) self e next h

theorem cancel_ok {cancellation : SecretCancellation}
    (h : (cancel ext cancellation now).run self = .ok u next) :
    self.stageCancellation ext cancellation now = .ok next := by
  unfold cancel at h
  simp only [run_rules] at h
  obtain ⟨s₁, s₂, ⟨rfl, rfl⟩, staged, s₃, ⟨hstage, rfl⟩, rfl⟩ := h
  exact hstage

theorem cancel_error {cancellation : SecretCancellation}
    (h : (cancel ext cancellation now).run self = .error e next) : next = self :=
  (keeps_get_bind fun _ => keeps_attempt_bind fun _ => keeps_set :
    KeepsOnError (fun s => s) (cancel ext cancellation now)) self e next h

variable {order : SecretOrder} {authority : OrderAuthority}

/-- A submission that succeeds wrote back what it staged on the service its expiry pass left. -/
theorem submit_ok (h : (submit ext order authority now).run self = .ok u next) :
    ∃ expired staged settlement, (expireDue ext now).run self = .ok () expired ∧
      expired.stageSubmission ext order authority now = .ok staged ∧
      finishSubmission ext order now staged = .ok settlement ∧
      next = { expired with
        book := staged.book
        ordering := staged.ordering
        settlement
        eligibility := staged.eligibility } := by
  unfold submit at h
  simp only [run_rules] at h
  obtain ⟨⟨⟩, expired, hexpire, s₁, s₂, ⟨rfl, rfl⟩, staged, s₃, ⟨hstage, rfl⟩, settlement, s₄,
    ⟨hfinish, rfl⟩, rfl⟩ := h
  exact ⟨_, staged, settlement, hexpire, hstage, hfinish, rfl⟩

/-- One that fails left what its expiry pass did. -/
theorem submit_error (h : (submit ext order authority now).run self = .error e next) :
    next = after ((expireDue ext now).run self) := by
  unfold submit at h
  simp only [run_bind_eq_error, run_rules, run_get_ne_error, run_attempt_eq_error, run_set_ne_error,
    and_false, exists_false, or_false, false_or] at h
  rcases h with hexpire | ⟨⟨⟩, expired, hexpire, s₁, s₂, ⟨rfl, rfl⟩, hrest⟩
  · rw [hexpire]
    rfl
  · rw [hexpire]
    rcases hrest with ⟨-, rfl⟩ | ⟨staged, s₃, ⟨-, rfl⟩, -, rfl⟩ <;> rfl

/-- The expiry pass does not touch the eligibility ledger. -/
theorem stageExpiry_eligibility (h : self.stageExpiry ext now = .ok next) :
    next.eligibility = self.eligibility := by
  simp only [stageExpiry, ok_rules] at h
  obtain ⟨⟨sequence, ordering⟩, -, ⟨transition, book⟩, -, -, -, ⟨⟨⟩, settlement⟩, -, rfl⟩ := h
  rfl

end

/-- **The calls fail cleanly.** A cancellation or an expiry pass that returns an error leaves the
service as it was. After a submission that returns an error the service is as before the call, or
as the expiry pass alone leaves it when it succeeds; nothing of the refused order is in it, as any
other order refused in its place leaves the same state, with the same eligibility ledger. -/
theorem calls_fail_cleanly (self : OclobService Ordering Eligibility)
    (ext : Externals Ordering Eligibility) (now : Nat) :
    (∀ cancellation e next, (cancel ext cancellation now).run self = .error e next →
      next = self) ∧
    (∀ e next, (expireDue ext now).run self = .error e next → next = self) ∧
    ∀ order authority e next, (submit ext order authority now).run self = .error e next →
      (next = self ∨ (expireDue ext now).run self = .ok () next) ∧
      next.eligibility = self.eligibility ∧
      ∀ order' authority' e' next',
        (submit ext order' authority' now).run self = .error e' next' → next' = next := by
  refine ⟨fun _ _ _ => cancel_error, fun _ _ => expireDue_error, ?_⟩
  intro order authority e next h
  have hnext := submit_error h
  refine ⟨?_, ?_, fun order' authority' e' next' h' => (submit_error h').trans hnext.symm⟩
  · cases hexpire : (expireDue ext now).run self with
    | error e' expired =>
      rw [hexpire] at hnext
      exact Or.inl (hnext.trans (expireDue_error hexpire))
    | ok u expired =>
      rw [hexpire] at hnext
      exact Or.inr (hnext ▸ rfl)
  · cases hexpire : (expireDue ext now).run self with
    | error e' expired =>
      rw [hnext, hexpire]
      exact congrArg OclobService.eligibility (expireDue_error hexpire)
    | ok u expired =>
      rw [hnext, hexpire]
      rcases expireDue_ok hexpire with heq | hstage
      · exact congrArg OclobService.eligibility heq
      · exact stageExpiry_eligibility hstage

/-- A call of the service. -/
inductive Call (Ordering Eligibility : Type) where
  | submit (ext : Externals Ordering Eligibility) (order : SecretOrder)
      (authority : OrderAuthority) (now : Nat)
  | cancel (ext : Externals Ordering Eligibility) (cancellation : SecretCancellation) (now : Nat)
  | expireDue (ext : Externals Ordering Eligibility) (now : Nat)

/-- The service after a call, successful or not. -/
def apply (self : OclobService Ordering Eligibility) :
    Call Ordering Eligibility → OclobService Ordering Eligibility
  | .submit ext order authority now => after ((submit ext order authority now).run self)
  | .cancel ext cancellation now => after ((cancel ext cancellation now).run self)
  | .expireDue ext now => after ((expireDue ext now).run self)

/-- What the components around the book answer during the call. -/
def Call.externals : Call Ordering Eligibility → Externals Ordering Eligibility
  | .submit ext _ _ _ | .cancel ext _ _ | .expireDue ext _ => ext

/-- **What the staged parts keep, every call keeps**, whether it succeeds or not: a submission that
fails after its expiry pass keeps what that pass did. -/
theorem apply_keeps {P : OclobService Ordering Eligibility → Prop}
    (call : Call Ordering Eligibility)
    (hexpiry : ∀ {self next now}, P self → self.stageExpiry call.externals now = .ok next → P next)
    (hcancel : ∀ {self next cancellation now}, P self →
      self.stageCancellation call.externals cancellation now = .ok next → P next)
    (hsubmit : ∀ {self order authority now staged settlement}, P self →
      self.stageSubmission call.externals order authority now = .ok staged →
      finishSubmission call.externals order now staged = .ok settlement →
      P { self with
        book := staged.book
        ordering := staged.ordering
        settlement
        eligibility := staged.eligibility })
    {self : OclobService Ordering Eligibility} (h : P self) : P (self.apply call) := by
  have hpass : ∀ now, P (after ((expireDue call.externals now).run self)) := by
    intro now
    cases hrun : (expireDue call.externals now).run self with
    | error e next => exact expireDue_error hrun ▸ h
    | ok u next =>
      rcases expireDue_ok hrun with rfl | hstage
      · exact h
      · exact hexpiry h hstage
  cases call with
  | expireDue ext now => exact hpass now
  | cancel ext cancellation now =>
    change P (after ((OclobService.cancel ext cancellation now).run self))
    cases hrun : (OclobService.cancel ext cancellation now).run self with
    | error e next => exact cancel_error hrun ▸ h
    | ok u next => exact hcancel h (cancel_ok hrun)
  | submit ext order authority now =>
    have hexpired : P (after ((OclobService.expireDue ext now).run self)) := hpass now
    change P (after ((OclobService.submit ext order authority now).run self))
    cases hrun : (OclobService.submit ext order authority now).run self with
    | error e next => exact submit_error hrun ▸ hexpired
    | ok u next =>
      obtain ⟨expired, staged, settlement, hexpire, hstage, hfinish, rfl⟩ := submit_ok hrun
      rw [hexpire] at hexpired
      exact hsubmit hexpired hstage hfinish

/-- The service after a run of calls. -/
def run (calls : List (Call Ordering Eligibility)) (self : OclobService Ordering Eligibility) :
    OclobService Ordering Eligibility :=
  calls.foldl apply self

end OclobService

end Oclob.Service
