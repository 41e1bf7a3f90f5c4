import Mathlib.Data.Set.Basic
import Mathlib.Logic.Relation
import Oclob.Core.Commands
import Oclob.Service.Agreement
import Oclob.Settlement.Canonical

/-!
# Two-phase admission

Model of the prepare/accept half of `oclob-service`: `prepare_canonical_submit`, `prepare_staged`
and `PreparedOclobSubmission::accept` in `lib.rs`, `prepare_optimistic_submit` and
`PendingOclobSubmission::finalize` in `optimistic.rs`.

* A staged submission is a value its caller holds until it accepts or drops it; `accept` and
  `finalize` consume it. A `Desk` is a service together with the submissions held for it, each with
  the service it was staged from and every state the service has been in since.
* The assurance is the last step of `stage_with_assurance`, so the optimistic path is the staging
  with a proof step that does nothing, followed by its own assurance.

Staleness is detected from the public root of the book and from the settlement snapshot. Neither
covers the ordering log, the private orders or the eligibility ledger; what carries the argument is
that every change of the service is at least one command of the book, and the public root covers
its number (`Moves`). The main result is `accept_loses_no_update`.
-/

namespace Oclob.Service

open Oclob.Core Oclob.Lib Oclob.Settlement Relation OclobService

variable {Ordering Eligibility : Type}

/-- `PreparedOclobSubmission`. -/
structure PreparedOclobSubmission (Ordering Eligibility : Type) where
  baseBookRoot : Digest32
  baseSettlement : SettlementStateSnapshot
  stagedBook : PrivateBook
  stagedOrdering : Ordering
  stagedSettlement : SettlementEngine
  stagedEligibility : Eligibility
  canonical : PreparedCanonicalTransition

/-- `PendingOclobSubmission`; its proposal is the encoding of the signed one. -/
structure PendingOclobSubmission (Ordering Eligibility : Type) where
  baseBookRoot : Digest32
  baseSettlement : SettlementStateSnapshot
  order : SecretOrder
  staged : StagedSubmission Ordering Eligibility
  proposal : Bytes

/-- What the optimistic client answers during one call. -/
structure Optimistic where
  /-- `TransitionChallengeVerifier::new`. -/
  verifier : Except String Unit
  /-- The admission of the host, its comparison with the executed input, the signature of the
  proposer and the proposal to the client. -/
  assure : Nat → BookTransition → Except ServiceError Bytes

section

variable [Crypto]

namespace OclobService

/-- `OclobService::prepare_staged`. -/
def prepareStaged (self : OclobService Ordering Eligibility) (backend : Backend)
    (canonical : Canonical) (order : SecretOrder)
    (staged : StagedSubmission Ordering Eligibility) (now : Nat) :
    Except ServiceError (PreparedOclobSubmission Ordering Eligibility) := do
  require (¬ (staged.transition.fills = [] ∧ order.timeInForce = .immediateOrCancel))
    (.settlement
      "a no-fill immediate-or-cancel order needs one atomic reserve-release transition")
  let view := settlementView order
  let receipt := staged.settlement.reservationReceipt view
  let prepared ← (if staged.transition.fills = [] then
      self.settlement.prepareCanonicalReservation canonical staged.settlement receipt view
    else
      self.settlement.prepareCanonicalAdmissionBatch backend canonical staged.settlement receipt
        staged.transition.fills view staged.transition.arrivingRemaining
        now).mapError (.settlement ∘ settlementText)
  return {
    baseBookRoot := self.book.publicSnapshot.stateRoot
    baseSettlement := self.settlement.stateSnapshot canonical
    stagedBook := staged.book
    stagedOrdering := staged.ordering
    stagedSettlement := self.settlement
    stagedEligibility := staged.eligibility
    canonical := prepared }

/-- `OclobService::prepare_canonical_submit`. -/
def prepareCanonicalSubmit (self : OclobService Ordering Eligibility)
    (ext : Externals Ordering Eligibility) (canonical : Canonical) (order : SecretOrder)
    (authority : OrderAuthority) (now : Nat) :
    Except ServiceError (PreparedOclobSubmission Ordering Eligibility) := do
  require (self.book.expiredCommitments now = [])
    (.settlement "expired reservations must reach canonical finality before a new execution")
  let staged ← self.stageSubmission ext order authority now
  self.prepareStaged ext.toBackend canonical order staged now

/-- `OclobService::prepare_optimistic_submit`. -/
def prepareOptimisticSubmit (self : OclobService Ordering Eligibility)
    (ext : Externals Ordering Eligibility) (canonical : Canonical) (optimistic : Optimistic)
    (order : SecretOrder) (authority : OrderAuthority) (now : Nat) :
    Except ServiceError (PendingOclobSubmission Ordering Eligibility) := do
  require (self.book.expiredCommitments now = [])
    (.settlement "expired reservations must reach canonical finality first")
  optimistic.verifier.mapError .proof
  let staged ← self.stageSubmission { ext with proveBatch := fun _ _ => .ok () } order authority now
  let proposal ← optimistic.assure staged.transition.sequence staged.transition
  return {
    baseBookRoot := self.book.publicSnapshot.stateRoot
    baseSettlement := self.settlement.stateSnapshot canonical
    order
    staged
    proposal }

end OclobService

/-- `PendingOclobSubmission::finalize`, with the proposal the canonical finality names and what
`FinalizedOptimisticTransition::from_canonical` answers. -/
def PendingOclobSubmission.finalize (self : PendingOclobSubmission Ordering Eligibility)
    (service : OclobService Ordering Eligibility) (backend : Backend) (canonical : Canonical)
    (claimed : Bytes) (fromCanonical : Except String Unit) (now : Nat) :
    Except ServiceError (PreparedOclobSubmission Ordering Eligibility) := do
  require (service.book.publicSnapshot.stateRoot = self.baseBookRoot ∧
    service.settlement.stateSnapshot canonical = self.baseSettlement)
    (.settlement "provisional OCLOB execution is stale against the current book")
  require (claimed = self.proposal)
    (.settlement "canonical finality names another provisional execution")
  fromCanonical.mapError .settlement
  service.prepareStaged backend canonical self.order self.staged now

/-- `PreparedOclobSubmission::accept`. -/
def PreparedOclobSubmission.accept (self : PreparedOclobSubmission Ordering Eligibility)
    (canonical : Canonical) (acceptance : CanonicalSettlementAcceptance) :
    EStateM ServiceError (OclobService Ordering Eligibility) Unit := do
  let service ← get
  ensure (service.book.publicSnapshot.stateRoot = self.baseBookRoot ∧
    service.settlement.stateSnapshot canonical = self.baseSettlement)
    (.settlement "prepared OCLOB execution is stale against current service state")
  let (_, settlement) ← attempt ((stage (self.canonical.accept canonical acceptance)
    self.stagedSettlement).mapError (.settlement ∘ settlementText))
  set { service with
    book := self.stagedBook
    ordering := self.stagedOrdering
    settlement
    eligibility := self.stagedEligibility }

/-! ## One command of the service -/

/-- `OrderingCommittee::certify`, as the service sees it. -/
abbrev Certify (Ordering : Type) :=
  Ordering → String → Digest32 → Nat → Nat → Except String (Nat × Ordering)

variable {allowed : Set (Certify Ordering)}

/-- A command is certified on a copy of the committee and applied to a copy of the book. -/
def Commands (allowed : Set (Certify Ordering)) (self : OclobService Ordering Eligibility)
    (book : PrivateBook) (ordering : Ordering) : Prop :=
  ∃ certify ∈ allowed, ∃ command expiresAt now sequence,
    certify self.ordering self.marketId command expiresAt now = .ok (sequence, ordering) ∧
      self.book.Applied command book

/-- The service with a command's copies written back. -/
def Step (allowed : Set (Certify Ordering)) (self next : OclobService Ordering Eligibility) :
    Prop :=
  Commands allowed self next.book next.ordering ∧ next.marketId = self.marketId

section Calls

variable {self next : OclobService Ordering Eligibility} {ext : Externals Ordering Eligibility}
  {order : SecretOrder} {authority : OrderAuthority} {now : Nat}

theorem stageSubmission_commands {staged : StagedSubmission Ordering Eligibility}
    (hext : ext.certify ∈ allowed)
    (h : self.stageSubmission ext order authority now = .ok staged) :
    Commands allowed self staged.book staged.ordering := by
  simp only [stageSubmission, ok_rules] at h
  obtain ⟨_, -, _, -, _, -, _, -, ⟨_, _⟩, -, ⟨_, _⟩, -, ⟨_, _⟩, -, ⟨sequence, ordering⟩, hcertify,
    _, -, _, -, ⟨transition, book⟩, happly, _, -, rfl⟩ := h
  exact ⟨ext.certify, hext, _, _, _, sequence, hcertify, .batch (stage_eq_ok.mp happly)⟩

theorem stageExpiry_step (hext : ext.certify ∈ allowed)
    (h : self.stageExpiry ext now = .ok next) : Step allowed self next := by
  simp only [stageExpiry, ok_rules] at h
  obtain ⟨⟨sequence, ordering⟩, hcertify, ⟨transition, book⟩, happly, _, -, ⟨_, _⟩, -, rfl⟩ := h
  exact ⟨⟨ext.certify, hext, _, _, _, sequence, hcertify, .expiry (stage_eq_ok.mp happly)⟩, rfl⟩

theorem stageCancellation_step {cancellation : SecretCancellation} (hext : ext.certify ∈ allowed)
    (h : self.stageCancellation ext cancellation now = .ok next) : Step allowed self next := by
  simp only [stageCancellation, ok_rules] at h
  obtain ⟨⟨sequence, ordering⟩, hcertify, ⟨transition, book⟩, happly, _, -, ⟨_, _⟩, -, rfl⟩ := h
  exact ⟨⟨ext.certify, hext, _, _, _, sequence, hcertify,
    .cancellation (stage_eq_ok.mp happly)⟩, rfl⟩

/-- The answers of a call. -/
def OclobService.Call.certify (call : OclobService.Call Ordering Eligibility) : Certify Ordering :=
  call.externals.certify

/-- **A call of the service is a sequence of commands**, whatever its outcome. -/
theorem apply_steps (call : OclobService.Call Ordering Eligibility)
    (hcall : call.certify ∈ allowed) : ReflTransGen (Step allowed) self (self.apply call) :=
  apply_keeps call (fun h hstage => h.tail (stageExpiry_step hcall hstage))
    (fun h hstage => h.tail (stageCancellation_step hcall hstage))
    (fun h hstage _ => h.tail ⟨stageSubmission_commands hcall hstage, rfl⟩) .refl

end Calls

/-! ## Submissions held for a service -/

/-- What a held submission will write into the book and the ordering log, and the root it was
staged from. -/
structure Plan (Ordering : Type) where
  baseBookRoot : Digest32
  book : PrivateBook
  ordering : Ordering

def PendingOclobSubmission.plan (self : PendingOclobSubmission Ordering Eligibility) :
    Plan Ordering := ⟨self.baseBookRoot, self.staged.book, self.staged.ordering⟩

def PreparedOclobSubmission.plan (self : PreparedOclobSubmission Ordering Eligibility) :
    Plan Ordering := ⟨self.baseBookRoot, self.stagedBook, self.stagedOrdering⟩

/-- A held submission, the service it was staged from, and the states of the service since. -/
structure Held (Ordering Eligibility α : Type) where
  origin : OclobService Ordering Eligibility
  seen : List (OclobService Ordering Eligibility)
  item : α

/-- The submission has seen one more state. -/
def Held.see {α : Type} (service : OclobService Ordering Eligibility)
    (held : Held Ordering Eligibility α) : Held Ordering Eligibility α :=
  { held with seen := service :: held.seen }

/-- A service, the submissions held for it, and the origins of those it has accepted. -/
structure Desk (Ordering Eligibility : Type) where
  service : OclobService Ordering Eligibility
  pending : List (Held Ordering Eligibility (PendingOclobSubmission Ordering Eligibility))
  prepared : List (Held Ordering Eligibility (PreparedOclobSubmission Ordering Eligibility))
  accepted : List (OclobService Ordering Eligibility)

/-- The operations on one service. -/
inductive Action (Ordering Eligibility : Type) where
  | call (served : OclobService.Call Ordering Eligibility)
  | prepareCanonical (ext : Externals Ordering Eligibility) (canonical : Canonical)
      (order : SecretOrder) (authority : OrderAuthority) (now : Nat)
  | prepareOptimistic (ext : Externals Ordering Eligibility) (canonical : Canonical)
      (optimistic : Optimistic) (order : SecretOrder) (authority : OrderAuthority) (now : Nat)
  | finalize (index : Nat) (backend : Backend) (canonical : Canonical) (claimed : Bytes)
      (fromCanonical : Except String Unit) (now : Nat)
  | accept (index : Nat) (canonical : Canonical) (acceptance : CanonicalSettlementAcceptance)

/-- Whether the action asks only these committees. -/
def Action.Asks (allowed : Set (Certify Ordering)) : Action Ordering Eligibility → Prop
  | .call served => served.certify ∈ allowed
  | .prepareCanonical ext _ _ _ _ => ext.certify ∈ allowed
  | .prepareOptimistic ext _ _ _ _ _ => ext.certify ∈ allowed
  | .finalize _ _ _ _ _ _ => True
  | .accept _ _ _ => True

namespace Desk

/-- No submission is held. -/
def opened (service : OclobService Ordering Eligibility) : Desk Ordering Eligibility :=
  ⟨service, [], [], []⟩

/-- A submission staged now. -/
def hold {α : Type} (desk : Desk Ordering Eligibility) (item : α) : Held Ordering Eligibility α :=
  ⟨desk.service, [], item⟩

/-- One operation. `finalize` and `accept` consume the submission they are called on, whether
they succeed or not. -/
def act (desk : Desk Ordering Eligibility) : Action Ordering Eligibility →
    Desk Ordering Eligibility
  | .call served => { desk with service := desk.service.apply served }
  | .prepareCanonical ext canonical order authority now =>
    match desk.service.prepareCanonicalSubmit ext canonical order authority now with
    | .ok item => { desk with prepared := desk.hold item :: desk.prepared }
    | .error _ => desk
  | .prepareOptimistic ext canonical optimistic order authority now =>
    match desk.service.prepareOptimisticSubmit ext canonical optimistic order authority now with
    | .ok item => { desk with pending := desk.hold item :: desk.pending }
    | .error _ => desk
  | .finalize index backend canonical claimed fromCanonical now =>
    match desk.pending[index]? with
    | none => desk
    | some held =>
      let rest := { desk with pending := desk.pending.eraseIdx index }
      match held.item.finalize desk.service backend canonical claimed fromCanonical now with
      | .ok item => { rest with prepared := ⟨held.origin, held.seen, item⟩ :: desk.prepared }
      | .error _ => rest
  | .accept index canonical acceptance =>
    match desk.prepared[index]? with
    | none => desk
    | some held =>
      let rest := { desk with prepared := desk.prepared.eraseIdx index }
      match (held.item.accept canonical acceptance).run desk.service with
      | .ok _ service => { rest with service, accepted := held.origin :: desk.accepted }
      | .error _ service => { rest with service }

/-- One operation, after which every held submission has seen the service. -/
def step (desk : Desk Ordering Eligibility) (action : Action Ordering Eligibility) :
    Desk Ordering Eligibility :=
  let next := desk.act action
  { next with
    pending := next.pending.map (Held.see next.service)
    prepared := next.prepared.map (Held.see next.service) }

/-- Operations in the order in which they reach the service. -/
def run (desk : Desk Ordering Eligibility) (actions : List (Action Ordering Eligibility)) :
    Desk Ordering Eligibility :=
  actions.foldl step desk

/-- The plans of all held submissions. -/
def plans (desk : Desk Ordering Eligibility) : List (Held Ordering Eligibility (Plan Ordering)) :=
  (desk.pending.map fun held => ⟨held.origin, held.seen, held.item.plan⟩) ++
    desk.prepared.map fun held => ⟨held.origin, held.seen, held.item.plan⟩

variable {desk : Desk Ordering Eligibility} {action : Action Ordering Eligibility}

/-- What an operation does to the service and to the record of acceptances. -/
inductive Effect (allowed : Set (Certify Ordering)) (desk next : Desk Ordering Eligibility) :
    Prop where
  | called (steps : ReflTransGen (Step allowed) desk.service next.service)
      (accepted : next.accepted = desk.accepted)
  | accepted (held : Held Ordering Eligibility (Plan Ordering)) (mem : held ∈ desk.plans)
      (root : desk.service.book.publicSnapshot.stateRoot = held.item.baseBookRoot)
      (book : next.service.book = held.item.book)
      (ordering : next.service.ordering = held.item.ordering)
      (market : next.service.marketId = desk.service.marketId)
      (accepted : next.accepted = held.origin :: desk.accepted)

variable {canonical : Canonical} {item : PreparedOclobSubmission Ordering Eligibility}
  {a b : OclobService Ordering Eligibility}

theorem prepareStaged_plan {self : OclobService Ordering Eligibility} {backend : Backend}
    {order : SecretOrder} {staged : StagedSubmission Ordering Eligibility} {now : Nat}
    (h : self.prepareStaged backend canonical order staged now = .ok item) :
    item.plan = ⟨self.book.publicSnapshot.stateRoot, staged.book, staged.ordering⟩ := by
  simp only [prepareStaged, ok_rules] at h
  obtain ⟨_, -, _, -, rfl⟩ := h
  rfl

/-- A successful `accept` wrote the plan back, over a book with the plan's root. -/
theorem accept_ok
    {acceptance : CanonicalSettlementAcceptance} {u : Unit}
    {service next : OclobService Ordering Eligibility}
    (h : (item.accept canonical acceptance).run service = .ok u next) :
    service.book.publicSnapshot.stateRoot = item.plan.baseBookRoot ∧
      next.book = item.plan.book ∧ next.ordering = item.plan.ordering ∧
      next.marketId = service.marketId := by
  simp only [PreparedOclobSubmission.accept, run_rules] at h
  obtain ⟨_, _, ⟨rfl, rfl⟩, _, _, ⟨⟨hroot, -⟩, rfl⟩, _, _, ⟨-, rfl⟩, rfl⟩ := h
  exact ⟨hroot, rfl, rfl, rfl⟩

/-- A failed `accept` leaves the service as it was. -/
theorem accept_error
    {acceptance : CanonicalSettlementAcceptance} {e : ServiceError}
    {service next : OclobService Ordering Eligibility}
    (h : (item.accept canonical acceptance).run service = .error e next) : next = service := by
  have hkeeps : KeepsOnError (fun self => self) (item.accept canonical acceptance) :=
    keeps_get_bind fun _ => keeps_ensure_bind <| keeps_attempt_bind fun _ => keeps_set
  exact hkeeps service e next h

/-- **The effect of one operation on the service.** -/
theorem act_effect (hasks : action.Asks allowed) : Effect allowed desk (desk.act action) := by
  cases action with
  | call served => exact .called (apply_steps served hasks) rfl
  | prepareCanonical ext canonical order authority now =>
    simp only [act]
    split
    · exact .called .refl rfl
    · exact .called .refl rfl
  | prepareOptimistic ext canonical optimistic order authority now =>
    simp only [act]
    split
    · exact .called .refl rfl
    · exact .called .refl rfl
  | finalize index backend canonical claimed fromCanonical now =>
    simp only [act]
    split
    · exact .called .refl rfl
    · split
      · exact .called .refl rfl
      · exact .called .refl rfl
  | accept index canonical acceptance =>
    simp only [act]
    split
    · exact .called .refl rfl
    · rename_i held hheld
      split
      · rename_i service hrun
        obtain ⟨hroot, hbook, hordering, hmarket⟩ := accept_ok hrun
        refine .accepted ⟨held.origin, held.seen, held.item.plan⟩ ?_
          hroot hbook hordering hmarket rfl
        exact List.mem_append_right _ (List.mem_map.mpr ⟨held, List.mem_of_getElem? hheld, rfl⟩)
      · rename_i service hrun
        rw [accept_error hrun]
        exact .called .refl rfl

/-- A plan staged from this service. -/
def Fresh (allowed : Set (Certify Ordering)) (desk : Desk Ordering Eligibility)
    (held : Held Ordering Eligibility (Plan Ordering)) : Prop :=
  held.origin = desk.service ∧ held.seen = [] ∧
    held.item.baseBookRoot = desk.service.book.publicSnapshot.stateRoot ∧
    Commands allowed desk.service held.item.book held.item.ordering

omit [Crypto] in
theorem mem_plans {held : Held Ordering Eligibility (Plan Ordering)} : held ∈ desk.plans ↔
    (∃ pending ∈ desk.pending, (⟨pending.origin, pending.seen, pending.item.plan⟩ :
        Held Ordering Eligibility (Plan Ordering)) = held) ∨
      ∃ prepared ∈ desk.prepared, (⟨prepared.origin, prepared.seen, prepared.item.plan⟩ :
        Held Ordering Eligibility (Plan Ordering)) = held := by
  simp only [plans, List.mem_append, List.mem_map]

/-- **An operation holds only plans that were held before or are staged from the service.** -/
theorem mem_plans_act (hasks : action.Asks allowed)
    {held : Held Ordering Eligibility (Plan Ordering)} (h : held ∈ (desk.act action).plans) :
    held ∈ desk.plans ∨ Fresh allowed desk held := by
  cases action with
  | call served => exact Or.inl h
  | prepareCanonical ext canonical order authority now =>
    simp only [act] at h
    split at h
    · rename_i item hprepare
      rcases mem_plans.mp h with hpending | ⟨prepared, hprepared, rfl⟩
      · exact Or.inl (mem_plans.mpr (Or.inl hpending))
      · rcases List.mem_cons.mp hprepared with rfl | hold
        · simp only [prepareCanonicalSubmit, except_bind_eq_ok] at hprepare
          obtain ⟨_, -, staged, hstage, hprepare⟩ := hprepare
          have hplan := prepareStaged_plan hprepare
          refine Or.inr ⟨rfl, rfl, congrArg Plan.baseBookRoot hplan, ?_⟩
          simp only [hold, hplan]
          exact stageSubmission_commands hasks hstage
        · exact Or.inl (mem_plans.mpr (Or.inr ⟨prepared, hold, rfl⟩))
    · exact Or.inl h
  | prepareOptimistic ext canonical optimistic order authority now =>
    simp only [act] at h
    split at h
    · rename_i item hprepare
      rcases mem_plans.mp h with ⟨pending, hpending, rfl⟩ | hprepared
      · rcases List.mem_cons.mp hpending with rfl | hold
        · simp only [prepareOptimisticSubmit, ok_rules] at hprepare
          obtain ⟨_, -, _, -, staged, hstage, _, -, rfl⟩ := hprepare
          exact Or.inr ⟨rfl, rfl, rfl, stageSubmission_commands (by exact hasks) hstage⟩
        · exact Or.inl (mem_plans.mpr (Or.inl ⟨pending, hold, rfl⟩))
      · exact Or.inl (mem_plans.mpr (Or.inr hprepared))
    · exact Or.inl h
  | finalize index backend canonical claimed fromCanonical now =>
    simp only [act] at h
    split at h
    · exact Or.inl h
    · rename_i pending hpending
      split at h
      · rename_i item hfinalize
        rcases mem_plans.mp h with ⟨other, hother, rfl⟩ | ⟨prepared, hprepared, rfl⟩
        · exact Or.inl (mem_plans.mpr (Or.inl ⟨other, List.mem_of_mem_eraseIdx hother, rfl⟩))
        · rcases List.mem_cons.mp hprepared with rfl | hold
          · -- the root of the service is the one the submission was staged from
            simp only [PendingOclobSubmission.finalize, ok_rules] at hfinalize
            obtain ⟨_, ⟨hroot, -⟩, _, -, _, -, hprepare⟩ := hfinalize
            have hplan : item.plan = pending.item.plan := by
              rw [prepareStaged_plan hprepare, hroot]
              rfl
            refine Or.inl (mem_plans.mpr (Or.inl ⟨pending, List.mem_of_getElem? hpending, ?_⟩))
            simp only [hplan]
          · exact Or.inl (mem_plans.mpr (Or.inr ⟨prepared, hold, rfl⟩))
      · rcases mem_plans.mp h with ⟨other, hother, rfl⟩ | hprepared
        · exact Or.inl (mem_plans.mpr (Or.inl ⟨other, List.mem_of_mem_eraseIdx hother, rfl⟩))
        · exact Or.inl (mem_plans.mpr (Or.inr hprepared))
  | accept index canonical acceptance =>
    simp only [act] at h
    split at h
    · exact Or.inl h
    · have hrest : ∀ service accepted, held ∈ plans ⟨service, desk.pending,
          desk.prepared.eraseIdx index, accepted⟩ → held ∈ desk.plans := by
        intro service accepted hmem
        rcases mem_plans.mp hmem with hpending | ⟨prepared, hprepared, heq⟩
        · exact mem_plans.mpr (Or.inl hpending)
        · exact mem_plans.mpr (Or.inr ⟨prepared, List.mem_of_mem_eraseIdx hprepared, heq⟩)
      split at h
      · exact Or.inl (hrest _ _ h)
      · exact Or.inl (hrest _ _ h)

theorem plans_step : (desk.step action).plans =
    (desk.act action).plans.map (Held.see (desk.act action).service) := by
  simp only [step, plans, List.map_append, List.map_map]
  rfl

/-! ## No update is lost -/

/-- The service is the same, or its book has applied commands. -/
def Moves (self next : OclobService Ordering Eligibility) : Prop :=
  next.book.marketId = self.book.marketId ∧
    (next = self ∨ self.book.sequence < next.book.sequence)

omit [Crypto] in
theorem Moves.refl (self : OclobService Ordering Eligibility) : Moves self self :=
  ⟨rfl, Or.inl rfl⟩

omit [Crypto] in
theorem Moves.trans {c : OclobService Ordering Eligibility} (h : Moves a b) (h' : Moves b c) :
    Moves a c := by
  refine ⟨h'.1.trans h.1, ?_⟩
  rcases h.2 with rfl | hlt
  · exact h'.2
  · rcases h'.2 with rfl | hlt'
    · exact Or.inr hlt
    · exact Or.inr (hlt.trans hlt')

omit [Crypto] in
/-- Between two states with one number nothing has moved. -/
theorem Moves.eq_of_sequence {c : OclobService Ordering Eligibility} (h : Moves a b)
    (h' : Moves b c) (hsequence : c.book.sequence = a.book.sequence) : b = c := by
  rcases h'.2 with rfl | hlt'
  · rfl
  · rcases h.2 with rfl | hlt
    · omega
    · omega

theorem moves_of_commands {self next : OclobService Ordering Eligibility}
    (h : Commands allowed self next.book next.ordering) : Moves self next := by
  obtain ⟨_, -, command, _, _, _, -, happlied⟩ := h
  have hadvances := happlied.advances
  refine ⟨hadvances.market, Or.inr ?_⟩
  rw [hadvances.sequence]
  exact Nat.lt_succ_self _

theorem moves_of_steps {self next : OclobService Ordering Eligibility}
    (h : ReflTransGen (Step allowed) self next) : Moves self next := by
  induction h with
  | refl => exact .refl _
  | tail _ hlast ih => exact ih.trans (moves_of_commands hlast.1)

/-- The text behind the public root of the service's book. -/
def rootText (self : OclobService Ordering Eligibility) : Bytes :=
  asBytes "OCLOB:PUBLIC-BOOK:v2" ++ putBytes (asBytes self.book.marketId) ++
    toBeBytes 8 self.book.sequence ++
    self.book.publicSnapshot.levels.flatMap fun level =>
      toBeBytes 1 level.side.wire ++ toBeBytes 8 level.price ++ toBeBytes 8 level.quantity

theorem stateRoot_eq (self : OclobService Ordering Eligibility) :
    self.book.publicSnapshot.stateRoot = sha256 (rootText self) := rfl

/-- The text of a market's book determines the number of its commands. -/
theorem sequence_of_rootText
    (hmarket : b.book.marketId = a.book.marketId) (ha : a.book.sequence < u64Bound)
    (hb : b.book.sequence < u64Bound) (h : rootText a = rootText b) :
    a.book.sequence = b.book.sequence := by
  simp only [rootText, hmarket, List.append_assoc] at h
  have hrest := List.append_cancel_left (List.append_cancel_left h)
  exact (selfDelimiting_toBeBytes 8 _ _ ha hb _ _ hrest).1

/-- What holds of every held plan, for services whose roots do not collide: it was staged from its
origin, and the service has only moved since. -/
structure Current (visited : OclobService Ordering Eligibility → Prop)
    (service : OclobService Ordering Eligibility)
    (held : Held Ordering Eligibility (Plan Ordering)) : Prop where
  visited : visited held.origin
  base : held.item.baseBookRoot = held.origin.book.publicSnapshot.stateRoot
  staged : Commands Set.univ held.origin held.item.book held.item.ordering
  since : Moves held.origin service
  between : ∀ state ∈ held.seen, Moves held.origin state ∧ Moves state service

/-- Roots of visited services that are equal have one text. -/
def CollisionFree (visited : OclobService Ordering Eligibility → Prop) : Prop :=
  ∀ a b, visited a → visited b → sha256 (rootText a) = sha256 (rootText b) →
    rootText a = rootText b

variable {visited : OclobService Ordering Eligibility → Prop}
  {held : Held Ordering Eligibility (Plan Ordering)}

/-- A plan whose root is the service's was staged from it. -/
theorem Current.sequence_eq (h : Current visited desk.service held)
    (hcollision : CollisionFree visited)
    (hwords : ∀ state, visited state → state.book.sequence < u64Bound)
    (hnow : visited desk.service)
    (hroot : desk.service.book.publicSnapshot.stateRoot = held.item.baseBookRoot) :
    desk.service.book.sequence = held.origin.book.sequence := by
  rw [h.base, stateRoot_eq, stateRoot_eq] at hroot
  exact sequence_of_rootText h.since.1.symm (hwords _ hnow) (hwords _ h.visited)
    (hcollision _ _ hnow h.visited hroot)

/-- The desk: every held plan is current, and what was accepted lies behind the service. -/
structure Sound (visited : OclobService Ordering Eligibility → Prop)
    (desk : Desk Ordering Eligibility) : Prop where
  current : ∀ held ∈ desk.plans, Current visited desk.service held
  behind : ∀ origin ∈ desk.accepted, origin.book.sequence < desk.service.book.sequence
  distinct : desk.accepted.Nodup

theorem sound_opened (service : OclobService Ordering Eligibility) :
    Sound visited (opened service) where
  current _ hnone := absurd hnone List.not_mem_nil
  behind _ hnone := absurd hnone List.not_mem_nil
  distinct := List.nodup_nil

/-- The plans of the next state, once the service is known to have moved. -/
theorem Sound.current_step (h : Sound visited desk) (hnow : visited desk.service)
    (hmoves : Moves desk.service (desk.act action).service) :
    ∀ held ∈ (desk.step action).plans, Current visited (desk.step action).service held := by
  intro held hheld
  rw [plans_step] at hheld
  obtain ⟨before, hbefore, rfl⟩ := List.mem_map.mp hheld
  have hasks : action.Asks Set.univ := by cases action <;> trivial
  have hcurrent : Current visited (desk.act action).service before := by
    rcases mem_plans_act hasks hbefore with hold | ⟨horigin, hseen, hroot, hstaged⟩
    · have hc := h.current before hold
      exact ⟨hc.visited, hc.base, hc.staged, hc.since.trans hmoves,
        fun state hstate => ⟨(hc.between state hstate).1, (hc.between state hstate).2.trans hmoves⟩⟩
    · rw [← horigin] at hroot hstaged hmoves hnow
      refine ⟨hnow, hroot, hstaged, hmoves, fun state hstate => ?_⟩
      rw [hseen] at hstate
      exact absurd hstate List.not_mem_nil
  refine ⟨hcurrent.visited, hcurrent.base, hcurrent.staged, hcurrent.since, fun state hstate => ?_⟩
  rcases List.mem_cons.mp hstate with rfl | hold
  · exact ⟨hcurrent.since, .refl _⟩
  · exact hcurrent.between state hold

/-- **One operation keeps the desk sound.** -/
theorem Sound.step (h : Sound visited desk) (hcollision : CollisionFree visited)
    (hwords : ∀ state, visited state → state.book.sequence < u64Bound)
    (hnow : visited desk.service) : Sound visited (desk.step action) := by
  have hasks : action.Asks Set.univ := by cases action <;> trivial
  have heffect : Effect Set.univ desk (desk.act action) := act_effect hasks
  rcases heffect with ⟨hsteps, haccepted⟩ | ⟨held, hheld, hroot, hbook, -, -, haccepted⟩
  · have hmoves := moves_of_steps hsteps
    refine ⟨h.current_step hnow hmoves, fun origin horigin => ?_, ?_⟩
    · rw [Desk.step, haccepted] at horigin
      have hlt := h.behind origin horigin
      rcases hmoves.2 with heq | hmore
      · exact heq ▸ hlt
      · exact hlt.trans hmore
    · rw [Desk.step, haccepted]
      exact h.distinct
  · -- the accepted plan is one command ahead of the service
    have hcurrent := h.current held hheld
    have hsequence := hcurrent.sequence_eq hcollision hwords hnow hroot
    obtain ⟨_, -, command, _, _, _, -, happlied⟩ := hcurrent.staged
    have hadvances := happlied.advances
    have hnext : desk.service.book.sequence < (desk.act action).service.book.sequence := by
      rw [hbook, hadvances.sequence, hsequence]
      exact Nat.lt_succ_self _
    have hmoves : Moves desk.service (desk.act action).service :=
      ⟨by rw [hbook, hadvances.market, hcurrent.since.1], Or.inr hnext⟩
    refine ⟨h.current_step hnow hmoves, fun origin horigin => ?_, ?_⟩
    · rw [Desk.step, haccepted] at horigin
      rcases List.mem_cons.mp horigin with rfl | hold
      · exact hsequence ▸ hnext
      · exact (h.behind origin hold).trans hnext
    · rw [Desk.step, haccepted]
      refine List.nodup_cons.mpr ⟨fun hmem => ?_, h.distinct⟩
      have hlt := h.behind _ hmem
      omega

theorem Sound.run (h : Sound visited desk) (hcollision : CollisionFree visited)
    (hwords : ∀ state, visited state → state.book.sequence < u64Bound)
    {actions : List (Action Ordering Eligibility)}
    (hvisited : ∀ n, visited (desk.run (actions.take n)).service) :
    Sound visited (desk.run actions) := by
  induction actions generalizing desk with
  | nil => exact h
  | cons action rest ih =>
    exact ih (h.step hcollision hwords (hvisited 0)) fun n => hvisited (n + 1)

/-- **No lost update.** Over every interleaving of operations on one service, a prepared submission
is accepted only if the service has been in one state since it was staged; of the submissions
staged from one state at most one is accepted; and a failed `accept` changes nothing. -/
theorem accept_loses_no_update (start : OclobService Ordering Eligibility)
    (actions : List (Action Ordering Eligibility))
    (hwords : ∀ n, ((opened start).run (actions.take n)).service.book.sequence < u64Bound)
    (hcollision : CollisionFree fun state =>
      ∃ n, state = ((opened start).run (actions.take n)).service) :
    (∀ held ∈ ((opened start).run actions).prepared, ∀ canonical acceptance u next,
      (held.item.accept canonical acceptance).run ((opened start).run actions).service =
        .ok u next →
      ((opened start).run actions).service = held.origin ∧
        ∀ state ∈ held.seen, state = ((opened start).run actions).service) ∧
    ((opened start).run actions).accepted.Nodup ∧
    ∀ (item : PreparedOclobSubmission Ordering Eligibility) canonical acceptance service e next,
      (item.accept canonical acceptance).run service = .error e next →
      next.book = service.book ∧ next.ordering = service.ordering ∧
        next.settlement = service.settlement ∧ next.eligibility = service.eligibility := by
  have hall : ∀ state, (∃ n, state = ((opened start).run (actions.take n)).service) →
      state.book.sequence < u64Bound := by
    rintro _ ⟨n, rfl⟩
    exact hwords n
  have hsound : Sound (fun state => ∃ n, state = ((opened start).run (actions.take n)).service)
      ((opened start).run actions) :=
    (sound_opened start).run hcollision hall fun n => ⟨n, rfl⟩
  refine ⟨fun held hheld canonical acceptance u next hrun => ?_, hsound.distinct,
    fun item canonical acceptance service e next hrun => ?_⟩
  · have hplan : (⟨held.origin, held.seen, held.item.plan⟩ :
        Held Ordering Eligibility (Plan Ordering)) ∈ ((opened start).run actions).plans :=
      mem_plans.mpr (Or.inr ⟨held, hheld, rfl⟩)
    have hcurrent := hsound.current _ hplan
    have hnow : ∃ n, ((opened start).run actions).service =
        ((opened start).run (actions.take n)).service := ⟨actions.length, by rw [List.take_length]⟩
    have hsequence := hcurrent.sequence_eq hcollision hall hnow (accept_ok hrun).1
    refine ⟨((Moves.refl _).eq_of_sequence hcurrent.since hsequence).symm, fun state hstate => ?_⟩
    obtain ⟨hfrom, hto⟩ := hcurrent.between state hstate
    exact hfrom.eq_of_sequence hto hsequence
  · rw [accept_error hrun]
    exact ⟨rfl, rfl, rfl, rfl⟩

end Desk

end

/-! ## Two submissions staged from one state -/

section Sample

attribute [local instance] transparentCrypto

namespace Desk

open OclobService

/-- Packages that agree to everything. -/
def sampleCanonical : Canonical where
  securitiesRoot _ := 1
  cashRoot _ := 2
  verifyAdmission := .ok ()
  verifyExecution _ _ := .ok ()
  reservationDeltas _ _ := .ok ()
  batchDeltas _ _ := .ok ()
  buildZkpi := .ok ()
  applicationBinding := .ok 3
  bindingDigest _ _ := 4

/-- The canonical finality of either submission. -/
def sampleAcceptance : CanonicalSettlementAcceptance := ⟨"tx", "block", 9, 5, 6, 7, 8, 3, 4⟩

/-- Two sales are staged from the new service. -/
def samplePreparations : List (Action Nat Unit) :=
  let first := sampleOrder .sell 100 5 .goodTilCancelled 1 fits_100_5
  let second := sampleOrder .sell 101 6 .goodTilCancelled 2 fits_101_6
  [.prepareCanonical sampleExternals sampleCanonical first (sampleAuthority first) 1000,
    .prepareCanonical sampleExternals sampleCanonical second (sampleAuthority second) 1000]

/-- Preparing changes no service. -/
theorem service_run_prepare {actions : List (Action Nat Unit)} {desk : Desk Nat Unit}
    (h : ∀ action ∈ actions, ∃ ext canonical order authority now,
      action = .prepareCanonical ext canonical order authority now) :
    (desk.run actions).service = desk.service := by
  induction actions generalizing desk with
  | nil => rfl
  | cons action rest ih =>
    rw [List.forall_mem_cons] at h
    obtain ⟨⟨ext, canonical, order, authority, now, rfl⟩, hrest⟩ := h
    refine (ih hrest).trans ?_
    simp only [step, act]
    split <;> rfl

theorem service_samplePreparations (n : Nat) :
    ((opened sampleService).run (samplePreparations.take n)).service = sampleService := by
  refine service_run_prepare fun action haction => ?_
  rcases List.mem_cons.mp (List.mem_of_mem_take haction) with rfl | hsecond
  · exact ⟨_, _, _, _, _, rfl⟩
  · obtain rfl := List.mem_singleton.mp hsecond
    exact ⟨_, _, _, _, _, rfl⟩

set_option maxRecDepth 100000 in
/-- The one staged last can be accepted, and nothing has changed since it was staged; when it has
been accepted, the other is stale. -/
theorem accept_loses_no_update_sample :
    ∃ held ∈ ((opened sampleService).run samplePreparations).prepared,
      (∃ next, (held.item.accept sampleCanonical sampleAcceptance).run
        ((opened sampleService).run samplePreparations).service = .ok () next) ∧
      ((opened sampleService).run samplePreparations).service = held.origin ∧
      ((opened sampleService).run (samplePreparations ++ [.accept 0 sampleCanonical
        sampleAcceptance, .accept 0 sampleCanonical sampleAcceptance])).accepted.length = 1 := by
  have hservice : ((opened sampleService).run samplePreparations).service = sampleService :=
    service_samplePreparations 2
  have haccepts : (((opened sampleService).run samplePreparations).prepared.head?.map fun held =>
      Lib.succeeds ((held.item.accept sampleCanonical sampleAcceptance).run sampleService)) =
        some true := by decide +kernel
  obtain ⟨held, hheld, hsucceeds⟩ := Option.map_eq_some_iff.mp haccepts
  have hmem : held ∈ ((opened sampleService).run samplePreparations).prepared :=
    List.mem_of_head? hheld
  have hrun := eq_ok_after hsucceeds
  rw [← hservice] at hrun
  refine ⟨held, hmem, ⟨_, hrun⟩, ?_, by decide +kernel⟩
  refine ((accept_loses_no_update sampleService samplePreparations (fun n => ?_) ?_).1 held hmem _ _
    _ _ hrun).1
  · rw [service_samplePreparations]
    decide
  · rintro _ _ ⟨m, rfl⟩ ⟨n, rfl⟩ _
    rw [service_samplePreparations, service_samplePreparations]

end Desk

end Sample

end Oclob.Service
