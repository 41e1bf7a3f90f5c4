import Oclob.Ordering.Committee
import Oclob.Service.TwoPhase

/-!
# The ordering log and the book

`OclobService` keeps the ordering committee and the book as two values, cloned and swapped back by
every operation. Here the committee of `TwoPhase`'s service is the model of `OrderingCommittee`
(`committeeCertify`), and the two are shown to move in step: the commands the book has applied are
the commitments of the log's certificates, in their order (`InStep`).

A held submission carries a copy of both, staged together from one service, so it is in step by
itself; that the service is in step after `accept` does not depend on the staleness check.
-/

namespace Oclob.Service

open Oclob.Core Oclob.Lib Oclob.Settlement Oclob.Ordering Relation

section

variable {Eligibility : Type} [Crypto]

/-- `OrderingCommittee::certify`, with what the service keeps of its answer. -/
def committeeCertify : Certify OrderingCommittee :=
  fun committee marketId command expiresAt now =>
    match (OrderingCommittee.certify marketId command expiresAt now).run committee with
    | .ok certificate committee => .ok (certificate.sequence, committee)
    | .error e _ => .error e.text

/-- The commands a log has certified. -/
def certified (committee : OrderingCommittee) : List Digest32 :=
  committee.log.certificates.map (·.commitment)

/-- The book has applied the commands of the log, in their order. -/
structure InStep (start book : PrivateBook) (committee : OrderingCommittee) : Prop where
  applied : start.AppliedAll (certified committee) book
  commitments : committee.log.commitments = (certified committee).toFinset

theorem committeeCertify_ok {committee committee' : OrderingCommittee} {marketId : String}
    {command : Digest32} {expiresAt now sequence : Nat}
    (h : committeeCertify committee marketId command expiresAt now = .ok (sequence, committee')) :
    sequence = committee.log.certificates.length + 1 ∧ command ∉ committee.log.commitments ∧
      certified committee' = certified committee ++ [command] ∧
      committee'.log.commitments = insert command committee.log.commitments := by
  unfold committeeCertify at h
  split at h
  · rename_i certificate later hrun
    obtain ⟨rfl, rfl⟩ := Prod.mk.inj (Except.ok.inj h)
    obtain ⟨hstatement, -, -, happend⟩ := OrderingCommittee.certify_ok hrun
    obtain ⟨-, hsequence, -, hfresh, hlog⟩ := OrderingLog.append_ok.mp happend
    have hcommand : certificate.commitment = command :=
      congrArg OrderStatement.commitment hstatement
    rw [hcommand] at hfresh hlog
    refine ⟨hsequence, hfresh, ?_, ?_⟩
    · rw [certified, hlog, List.map_append, List.map_singleton, hcommand]
      rfl
    · rw [hlog]
  · exact absurd h (by simp)

variable {start : PrivateBook} {self next : OclobService OrderingCommittee Eligibility}

/-- **One command keeps log and book in step.** -/
theorem InStep.commands (h : InStep start self.book self.ordering) {book : PrivateBook}
    {committee : OrderingCommittee}
    (hcommands : Commands {committeeCertify} self book committee) :
    InStep start book committee := by
  obtain ⟨_, rfl, command, _, _, _, hcertify, happlied⟩ := hcommands
  obtain ⟨-, -, hcertified, hcommitments⟩ := committeeCertify_ok hcertify
  constructor
  · rw [hcertified]
    exact h.applied.snoc happlied
  · rw [hcommitments, hcertified, h.commitments, List.toFinset_append, Finset.union_comm]
    rfl

theorem InStep.steps (h : InStep start self.book self.ordering)
    (hsteps : ReflTransGen (Step {committeeCertify}) self next) :
    InStep start next.book next.ordering := by
  induction hsteps with
  | refl => exact h
  | tail _ hlast ih => exact ih.commands hlast.1

/-- The service and every held submission are in step. -/
structure DeskInStep (start : PrivateBook) (desk : Desk OrderingCommittee Eligibility) : Prop where
  service : InStep start desk.service.book desk.service.ordering
  plans : ∀ held ∈ desk.plans, InStep start held.item.book held.item.ordering

variable {desk : Desk OrderingCommittee Eligibility}

theorem DeskInStep.step (h : DeskInStep start desk) {action : Action OrderingCommittee Eligibility}
    (hasks : action.Asks {committeeCertify}) : DeskInStep start (desk.step action) := by
  constructor
  · have heffect : Desk.Effect {committeeCertify} desk (desk.act action) := Desk.act_effect hasks
    rcases heffect with ⟨hsteps, -⟩ | ⟨held, hheld, -, hbook, hordering, -, -⟩
    · exact h.service.steps hsteps
    · have hplan := h.plans held hheld
      rw [← hbook, ← hordering] at hplan
      exact hplan
  · intro held hheld
    rw [Desk.plans_step] at hheld
    obtain ⟨before, hbefore, rfl⟩ := List.mem_map.mp hheld
    rcases Desk.mem_plans_act hasks hbefore with hold | ⟨-, -, -, hcommands⟩
    · exact h.plans before hold
    · exact h.service.commands hcommands

theorem DeskInStep.run (h : DeskInStep start desk)
    {actions : List (Action OrderingCommittee Eligibility)}
    (hasks : ∀ action ∈ actions, action.Asks {committeeCertify}) :
    DeskInStep start (desk.run actions) := by
  induction actions generalizing desk with
  | nil => exact h
  | cons action rest ih =>
    rw [List.forall_mem_cons] at hasks
    exact ih (h.step hasks.1) hasks.2

variable {marketId : String} {first second : Digest32} {signer : Nat → SigningKey}
  {mpc : Except String Unit} {eligibility : Eligibility}
  {service : OclobService OrderingCommittee Eligibility}
  (hnew : OclobService.new marketId first second
    ((OrderingCommittee.deterministicForDemo signer).mapError OrderingError.text) mpc eligibility =
      .ok service)
include hnew

/-- A new service is in step. -/
theorem inStep_new :
    service.book.sequence = 0 ∧ service.book.admitted = ∅ ∧
      InStep service.book service.book service.ordering := by
  simp only [OclobService.new, ok_rules] at hnew
  obtain ⟨book, hbook, committee, hcommittee, _, -, rfl⟩ := hnew
  have hlog : committee.log = .empty := by
    simp only [OrderingCommittee.deterministicForDemo, ok_rules] at hcommittee
    obtain ⟨_, -, _, -, rfl⟩ := hcommittee
    rfl
  have hcertified : certified committee = [] := by
    rw [certified, hlog]
    rfl
  have hfresh : book.sequence = 0 ∧ book.admitted = ∅ := by
    unfold PrivateBook.new at hbook
    split at hbook
    · obtain rfl := Except.ok.inj hbook
      exact ⟨rfl, rfl⟩
    · exact absurd hbook (by simp)
  refine ⟨hfresh.1, hfresh.2, ?_, ?_⟩
  · rw [hcertified]
    exact .nil
  · rw [hlog, hcertified]
    rfl

/-- **The ordering log and the book stay in step**, over every run of calls, preparations and
acceptances, and a command the committee has certified is never refused for its number or as a
replay. -/
theorem log_and_book_in_step {reached : OclobService OrderingCommittee Eligibility}
    (actions : List (Action OrderingCommittee Eligibility))
    (hasks : ∀ action ∈ actions, action.Asks {committeeCertify})
    (hreached : reached = ((Desk.opened service).run actions).service) :
    reached.book.sequence = reached.ordering.log.certificates.length ∧
    service.book.AppliedAll (reached.ordering.log.certificates.map (·.commitment)) reached.book ∧
    reached.book.admitted = (reached.ordering.log.certificates.map (·.commitment)).toFinset ∧
    ∀ command expiresAt now sequence committee,
      committeeCertify reached.ordering reached.marketId command expiresAt now =
        .ok (sequence, committee) →
      (∀ order e, reached.book.checkAdmission order command sequence = .error e →
        e ≠ .replay ∧ e ≠ .invalid "certificate sequence is not next") ∧
      (∀ cancellation e book, cancellation.commitment = command →
        (PrivateBook.applyCancellation cancellation sequence).run reached.book = .error e book →
        e ≠ .replay ∧ e ≠ .invalid "certificate sequence is not next") ∧
      ∀ cutoff e book,
        (PrivateBook.applyExpiry cutoff command sequence).run reached.book = .error e book →
        e ≠ .replay ∧ e ≠ .invalid "certificate sequence is not next" := by
  obtain ⟨hzero, hempty, hstart⟩ := inStep_new hnew
  have hdesk : DeskInStep service.book ((Desk.opened service).run actions) :=
    DeskInStep.run ⟨hstart, fun _ hnone => absurd hnone List.not_mem_nil⟩ hasks
  have hstep := hdesk.service
  rw [← hreached] at hstep
  obtain ⟨-, hsequence, hadmitted⟩ := hstep.applied.header
  rw [hzero, Nat.zero_add, certified, List.length_map] at hsequence
  rw [hempty, Finset.empty_union] at hadmitted
  refine ⟨hsequence, hstep.applied, hadmitted, ?_⟩
  intro command expiresAt now sequence committee hcertify
  obtain ⟨hnext, hnot, -, -⟩ := committeeCertify_ok hcertify
  rw [← hsequence] at hnext
  have hfresh : command ∉ reached.book.admitted := by
    rw [hadmitted, ← hstep.commitments]
    exact hnot
  refine ⟨fun order e h => ?_, fun cancellation e book hcommand h => ?_, fun cutoff e book h => ?_⟩
  · obtain rfl := PrivateBook.checkAdmission_error hnext hfresh h
    decide
  · subst hcommand
    rcases PrivateBook.applyCancellation_numbered hnext hfresh h with rfl | rfl <;> decide
  · rcases PrivateBook.applyExpiry_numbered hnext hfresh h with rfl | rfl | rfl <;> decide

end

/-! ## A submission and an acceptance -/

section Sample

attribute [local instance] transparentCrypto

/-- The answers of `sampleExternals`, with the committee of seven. -/
def committeeExternals : Externals OrderingCommittee Unit where
  toBackend := OclobService.sampleExternals.toBackend
  certify := committeeCertify
  verifyOrder _ _ nullifier _ _ := .ok (nullifier, ())
  executeBatch batch := .ok (expectedBatch batch)
  proveBatch _ _ := .ok ()
  proveCancellation _ _ := .ok ()
  proveExpiry _ _ := .ok ()

def committeeService : OclobService OrderingCommittee Unit where
  marketId := "JGB10Y-JPY"
  book := PrivateBook.sampleBook
  ordering := sampleCommittee
  settlement := .new 12 13
  eligibility := ()

/-- A sale is submitted, another one is prepared and accepted. -/
def committeeActions : List (Action OrderingCommittee Unit) :=
  let maker := sampleOrder .sell 100 5 .goodTilCancelled 1 fits_100_5
  let other := sampleOrder .sell 101 6 .goodTilCancelled 2 fits_101_6
  [.call (.submit committeeExternals maker (sampleAuthority maker) 1000),
    .prepareCanonical committeeExternals Desk.sampleCanonical other (sampleAuthority other) 1001,
    .accept 0 Desk.sampleCanonical Desk.sampleAcceptance]

set_option maxRecDepth 100000 in
/-- The book has applied two commands, those of the two certificates. -/
theorem log_and_book_in_step_sample :
    ((Desk.opened committeeService).run committeeActions).service.book.sequence = 2 ∧
    ((Desk.opened committeeService).run committeeActions).service.ordering.log.certificates.length =
      2 := by
  have hnew : OclobService.new "JGB10Y-JPY" 12 13
      ((OrderingCommittee.deterministicForDemo sampleSigner).mapError OrderingError.text) (.ok ())
        () = .ok committeeService := rfl
  have hasks : ∀ action ∈ committeeActions, action.Asks {committeeCertify} := by
    intro action haction
    simp only [committeeActions, List.mem_cons, List.not_mem_nil, or_false] at haction
    rcases haction with rfl | rfl | rfl
    · exact Set.mem_singleton _
    · exact Set.mem_singleton _
    · trivial
  have hsequence : ((Desk.opened committeeService).run committeeActions).service.book.sequence =
      2 := by decide +kernel
  exact ⟨hsequence,
    (log_and_book_in_step hnew committeeActions hasks rfl).1.symm.trans hsequence⟩

end Sample

end Oclob.Service
