import Oclob.Node.Finality

/-!
# Finalizing a settled round late

Model of the `FinalizePrivateState` request of `oclob-node/src/network.rs` over
`finalize_private_round`: when a round that has settled canonically can still be finalized on a
node.

The request verifies the plan at the current clock, and a plan lives for at most 300 seconds. A
node that learns of canonical finality later answers `Plan` for good, and the round stays a reason
for `require_lifecycle_barrier` to fail. Two more things may be gone by then: the record of an
order without a reservation, which `prune_expired` drops after its retention deadline, and the
private heads the round was computed from, when a second round of the same orders was finalized
first.

* `Begun`: every plan a node has executed was verified once.
* `settled_round_finalizes_iff`: the request succeeds exactly while the plan is live, the records
  are held and the parents have not moved.
* `expired_plan_never_finalizes`: a settled round, one second too late.
-/

namespace Oclob.Node

open Oclob.Core Oclob.Lib Oclob.Edge Oclob.Ordering NodeShareStore OrdMap

section

variable [NodeCrypto] [Serde]

/-- The `FinalizePrivateState` request of a peer. -/
def NodeShareStore.finalizePrivateState (runtime : NodeRuntime) (role : PeerRole) (disk : Disk)
    (files : PrivateFiles) (plan : RoundPlan) (finality : PrivateStateFinality)
    (signingKey : Bytes) (now : Nat) :
    EStateM NetworkError NodeShareStore NodePrivateStateReceipt := do
  ensure (role = .settlement) .unauthorized
  attempt ((plan.verifyOrdering runtime.orderingPolicy runtime.orderingKeys now).mapError
    fun _ => .plan)
  EStateM.adaptExcept (fun _ => .state)
    (finalizePrivateRound disk files plan finality signingKey)

/-! ## Plans and the clock -/

omit [Serde] in
/-- A plan verified once verifies exactly while it is live. -/
theorem RoundPlan.verifyOrdering_at {plan : RoundPlan} {policy : CommitteePolicy}
    {keys : NodeKeys} {past now : Nat} (h : plan.verifyOrdering policy keys past = .ok ())
    (hissued : plan.issuedAt ≤ now) :
    plan.verifyOrdering policy keys now = .ok () ↔ now ≤ plan.expiresAt := by
  constructor
  · intro hnow
    obtain ⟨-, -, -, -, -, -, -, -, -, -, -, -, -, hlive, -⟩ := (verifyOrdering_ok hnow).1
    exact hlive
  · intro hlive
    simp only [verifyOrdering, verify, ok_rules] at h ⊢
    obtain ⟨⟨⟩, ⟨⟨⟩, hbound, hrest⟩, hcertificate⟩ := h
    obtain ⟨hversion, hname, hlength, hsequence, hmarket, hseq, hcommitment, hexpires,
      hcoordinator, harriving, hslots, hself, -, -, hspan, hround⟩ := hbound
    exact ⟨(), ⟨(), ⟨hversion, hname, hlength, hsequence, hmarket, hseq, hcommitment, hexpires,
      hcoordinator, harriving, hslots, hself, hissued, hlive, hspan, hround⟩, hrest⟩,
      certificate_verify_at hcertificate (hlive.trans hexpires)⟩

/-! ## What a run has verified -/

namespace DrivenNode

/-- The plans a node runs or has executed were verified when they began. -/
structure Begun (runtime : NodeRuntime) (node : DrivenNode) : Prop where
  running : ∀ running, node.running = some running → ∃ past,
    running.request.plan.verifyOrdering runtime.orderingPolicy runtime.orderingKeys past = .ok ()
  executed : ∀ execution ∈ node.executed, ∃ past,
    execution.plan.verifyOrdering runtime.orderingPolicy runtime.orderingKeys past = .ok ()

theorem beginRound_verified {request : ExecuteRequest} {runtime : NodeRuntime} {disk : Disk}
    {store : NodeShareStore}
    (h : succeeds ((request.beginRound runtime disk).run store) = true) :
    request.plan.verifyOrdering runtime.orderingPolicy runtime.orderingKeys request.now =
      .ok () := by
  rw [ExecuteRequest.beginRound, run_ensure_bind] at h
  split at h
  · cases hverify : request.plan.verifyOrdering runtime.orderingPolicy runtime.orderingKeys
      request.now with
    | error e =>
      rw [hverify] at h
      cases h
    | ok u => rfl
  · cases h

theorem Begun.step {runtime : NodeRuntime} {node : DrivenNode} (h : Begun runtime node)
    (event : NodeEvent) : Begun runtime (step runtime node event) := by
  refine ⟨fun running hrunning => ?_, ?_⟩
  · rcases (step_histories runtime node event).2.2 running hrunning with
      ⟨before, hbefore, heq⟩ | ⟨disk, rfl⟩
    · exact heq ▸ h.running before hbefore
    · simp only [DrivenNode.step] at hrunning
      split at hrunning
      · exact h.running running hrunning
      · obtain ⟨hsucceeds, -⟩ := Option.ite_none_right_eq_some.mp hrunning
        exact ⟨_, beginRound_verified hsucceeds⟩
  · rcases (step_histories runtime node event).2.1 with
      hsame | ⟨running, execution, hrunning, hplan, hadded, -⟩
    · rw [hsame]
      exact h.executed
    · rw [hadded]
      refine List.forall_mem_cons.mpr ⟨?_, h.executed⟩
      rw [hplan]
      exact h.running running hrunning

theorem begun_run (runtime : NodeRuntime) (store : NodeShareStore) (events : List NodeEvent) :
    Begun runtime (run runtime events (start store)) := by
  have hrun : ∀ node, Begun runtime node → Begun runtime (run runtime events node) := by
    induction events with
    | nil => exact fun node h => h
    | cons event rest ih => exact fun node h => ih _ (h.step event)
  exact hrun _ ⟨fun _ h => (nomatch h), fun _ h => absurd h List.not_mem_nil⟩

/-- Every completed round is stored under its own id, with a receipt of this party. -/
def Recorded (state : StoreState) : Prop :=
  ∀ id receipt, state.completedRounds.get? id = some receipt →
    receipt.roundId = id ∧ receipt.Complete state.party

theorem recorded_apply (op : StoreOp) {store : NodeShareStore} (h : Recorded store.state) :
    Recorded (op.apply store).state := by
  refine (op.effect store).preserves (fun heads => h) fun g next hedit => ?_
  cases hedit with
  | recordCompletedRound g hcomplete hnew =>
    intro id receipt hget
    obtain ⟨rfl, rfl⟩ | ⟨-, hget⟩ := get?_insert_eq_some hget
    · exact ⟨rfl, hcomplete⟩
    · exact h id receipt hget
  | finalizePrivateRound g hcheck hnew hsigned =>
    rw [signedFinalization_ok hsigned]
    exact h
  | _ => exact h

theorem recorded_run (runtime : NodeRuntime) (events : List NodeEvent) {node : DrivenNode}
    (h : Recorded node.store.state) : Recorded (run runtime events node).store.state := by
  induction events generalizing node with
  | nil => exact h
  | cons event rest ih =>
    rw [run_cons]
    refine ih ?_
    rcases step_store runtime node event with hsame | ⟨op, hcall, -⟩
    · rwa [hsame]
    · rw [hcall]
      exact recorded_apply op h

end DrivenNode

/-! ## The heads of a finalized round -/

omit [NodeCrypto] [Serde] in
/-- The loop over the resting orders leaves a head of the round for each of them. -/
theorem get?_restingHeads_mem {plan : RoundPlan} {receipt : NodeExecutionReceipt}
    {finality : PrivateStateFinality} {commitment : Digest32} (l : List Digest32) :
    ∀ (slot : Nat) (heads : PrivateHeads),
      (commitment ∈ l ∨ ∃ offset, heads.get? commitment =
        some (headAt plan receipt finality offset)) →
      ∃ offset, (restingHeads plan receipt finality slot l heads).get? commitment =
        some (headAt plan receipt finality offset) := by
  induction l with
  | nil => exact fun slot heads h => h.resolve_left List.not_mem_nil
  | cons first rest ih =>
    intro slot heads h
    refine ih (slot + 1) _ ?_
    by_cases hfirst : commitment = first
    · exact Or.inr ⟨_, (get?_insert _ _ _ _).trans (if_pos hfirst)⟩
    · refine h.imp (fun hmem => (List.mem_cons.mp hmem).resolve_left hfirst) ?_
      rintro ⟨offset, hget⟩
      exact ⟨offset, (get?_insert _ _ _ _).trans ((if_neg hfirst).trans hget)⟩

/-! ## Complete observations -/

/-- The node has observed a valid record of its two orders for exactly every matched slot, and
`finality` is the aggregate of the records, with no digest that happens to be zero. -/
structure Observed (state : StoreState) (plan : RoundPlan) (receipt : NodeExecutionReceipt)
    (records : SlotRecords) (finality : PrivateStateFinality) : Prop where
  stored : state.nativeFinalities.get? plan.roundId = some records
  matched : matchedSlots receipt ≠ []
  complete : records.keys = matchedSlots receipt
  valid : ∀ record ∈ records.values, record.Observes receipt
  pairs : ∀ record ∈ records.values, plan.resting[record.slot]? = some record.makerOrder ∧
    plan.arriving = record.takerOrder
  aggregate : aggregateFinality records = .ok finality
  output : finality.publicOutputSha256 ≠ 0
  digest : finality.transitionDigest ≠ 0

omit [NodeCrypto] [Serde] in
theorem le_foldl_max (heights : List Nat) (height : Nat) :
    height ≤ heights.foldl max height := by
  induction heights generalizing height with
  | nil => exact le_rfl
  | cons next rest ih => exact (le_max_left height next).trans (ih (max height next))

/-- What the aggregate takes over from the records. -/
theorem aggregateFinality_fields {records : SlotRecords} {finality : PrivateStateFinality}
    {receipt : NodeExecutionReceipt} (h : aggregateFinality records = .ok finality)
    (hvalid : ∀ record ∈ records.values, record.Observes receipt) :
    finality.roundId = receipt.roundId ∧
      finality.publicOutputSha256 = receipt.publicOutputSha256 ∧
      finality.canonicalReceiptDigest = finality.transitionDigest ∧
      finality.canonicalHeight ≠ 0 := by
  unfold aggregateFinality at h
  split at h
  · exact nomatch h
  · rename_i first rest hvalues
    have hfirst := hvalid first (hvalues ▸ List.mem_cons_self)
    obtain ⟨hround, houtput, -, -, -, -, -, -, -, -, hheight, -⟩ := hfirst
    split at h
    · obtain ⟨-, -, h⟩ := except_bind_eq_ok.mp h
      obtain rfl := Except.ok.inj h
      exact ⟨hround, houtput, rfl, hheight⟩
    · obtain ⟨-, -, h⟩ := except_bind_eq_ok.mp h
      obtain rfl := Except.ok.inj h
      refine ⟨hround, houtput, rfl, ?_⟩
      rw [hvalues]
      have hle := le_foldl_max (rest.map NativeFinalityRecord.height) (max 0 first.height)
      simp only [List.map_cons, List.foldl_cons]
      omega

theorem Observed.checkObserved {state : StoreState} {plan : RoundPlan}
    {receipt : NodeExecutionReceipt} {records : SlotRecords} {finality : PrivateStateFinality}
    (h : Observed state plan receipt records finality) :
    NodeShareStore.checkObserved state plan receipt finality = .ok () := by
  have hvalidate : forEach (fun record => (record.validate receipt).mapError
      NodeError.privateState) records.values = .ok () :=
    forEach_eq_ok.mpr fun record hrecord =>
      mapError_eq_ok.mpr (require_eq_ok.mpr (h.valid record hrecord))
  simp only [NodeShareStore.checkObserved, requireComplete, ok_rules]
  exact ⟨records, h.stored, (), ⟨(), ⟨h.matched, h.complete⟩, (), hvalidate, finality,
    h.aggregate, rfl⟩, h.pairs⟩

/-! ## The request -/

/-- The state a finalization of `plan` writes, with its entry for the round. -/
def finalizing (state : StoreState) (plan : RoundPlan) (receipt : NodeExecutionReceipt)
    (finality : PrivateStateFinality) (entry : PrivateRoundFinalization) : StoreState :=
  { arrivingHead plan receipt finality { state with
      privateHeads := restingHeads plan receipt finality 0 plan.resting state.privateHeads } with
    generation := state.generation + 1
    finalizedPrivateRounds := state.finalizedPrivateRounds.insert plan.roundId entry }

/-- The environment works: the private state file is intact, the key signs, and the disk writes. Of
the entry that the checks give the call, the state whose digest is signed has a digest that is not
zero, and the state with the signed receipt fits the store. -/
structure Healthy (disk : Disk) (files : PrivateFiles) (signingKey : Bytes) (state : StoreState)
    (plan : RoundPlan) (receipt : NodeExecutionReceipt) (finality : PrivateStateFinality) :
    Prop where
  file : ∃ file, verifyPrivateStateFile files plan.roundId
    receipt.privateStateSha256 = .ok file
  signs : ∀ body, ∃ signature, trySign signingKey body = some signature
  written : disk = .written
  digest : ∀ candidate, checkFinality state plan finality =
    .ok (receipt, candidate) → stateDigest (finalizing state plan receipt finality candidate) ≠ 0
  fits : ∀ candidate signed, checkFinality state plan finality =
      .ok (receipt, candidate) →
    NodePrivateStateReceipt.sign state.party receipt finality (state.generation + 1)
      (stateDigest (finalizing state plan receipt finality candidate)) signingKey = some signed →
    (stateJson (finalizing state plan receipt finality
      { candidate with privateStateReceipt := some signed })).length ≤ maxStoreBytes

/-- What must still be there: time, the records, the parents and a generation. -/
structure Finalizable (state : StoreState) (plan : RoundPlan) (receipt : NodeExecutionReceipt)
    (now : Nat) : Prop where
  live : now ≤ plan.expiresAt
  held : ∀ commitment ∈ plan.resting ++ [plan.arriving], ∃ record,
    state.records.get? commitment = some record
  parents : receipt.privateParentDigest =
    privateParentDigest state plan.resting plan.arriving
  generation : state.generation + 1 < u64Bound

section

variable {runtime : NodeRuntime} {disk : Disk} {files : PrivateFiles} {signingKey : Bytes}
  {store out : NodeShareStore} {plan : RoundPlan} {receipt : NodeExecutionReceipt}
  {records : SlotRecords} {finality : PrivateStateFinality} {now : Nat}
  {signed : NodePrivateStateReceipt} {candidate : PrivateRoundFinalization}

/-- A request that succeeds has verified the plan and finalized the round. -/
theorem finalizePrivateState_ok {role : PeerRole}
    (h : (finalizePrivateState runtime role disk files plan finality signingKey
      now).run store = .ok signed out) :
    plan.verifyOrdering runtime.orderingPolicy runtime.orderingKeys now = .ok () ∧
      (finalizePrivateRound disk files plan finality signingKey).run store =
        .ok signed out := by
  unfold finalizePrivateState at h
  obtain ⟨⟨⟩, checked, hrole, hrest⟩ := run_bind_eq_ok.mp h
  obtain ⟨-, rfl⟩ := run_ensure_eq_ok.mp hrole
  obtain ⟨⟨⟩, current, hattempt, hfinalize⟩ := run_bind_eq_ok.mp hrest
  obtain ⟨hverify, rfl⟩ := run_attempt_eq_ok.mp hattempt
  rw [run_adaptExcept] at hfinalize
  refine ⟨mapError_eq_ok.mp hverify, ?_⟩
  cases hrun : (finalizePrivateRound disk files plan finality signingKey).run
      current with
  | ok a final =>
    rw [hrun] at hfinalize
    obtain ⟨rfl, rfl⟩ := EStateM.Result.ok.inj hfinalize
    rfl
  | error e final =>
    rw [hrun] at hfinalize
    exact nomatch hfinalize

/-- What the first finalization of a round has found. -/
theorem finalizePrivateRound_first
    (hnew : store.state.finalizedPrivateRounds.get? plan.roundId = none)
    (hshort : plan.resting.length ≤ maxMatchSlots)
    (h : (finalizePrivateRound disk files plan finality signingKey).run store =
      .ok signed out) :
    ∃ receipt, store.state.completedRounds.get? plan.roundId = some receipt ∧
      (∀ commitment ∈ plan.resting ++ [plan.arriving], ∃ record,
        store.state.records.get? commitment = some record) ∧
      receipt.privateParentDigest =
        privateParentDigest store.state plan.resting plan.arriving ∧
      store.state.generation + 1 < u64Bound := by
  obtain ⟨entry, hentry, -⟩ := finalizePrivateRound_ok h
  rcases finalizePrivateRound_cases disk files plan finality signingKey store with
    hsame | ⟨receipt, candidate, hcheck, -, hparent,
      ⟨e, -, hlong⟩ | ⟨next, receipt', -, hsigned, -⟩⟩
  · rw [h] at hsame
    obtain rfl : out = store := hsame
    exact absurd (hnew.symm.trans hentry) (by simp)
  · rw [privateOrderWires] at hlong
    rw [maxMatchSlots] at hshort
    omega
  · obtain ⟨-, -, hround, -, hheld, -⟩ := checkFinality_ok hcheck hnew
    simp only [signedFinalization, ok_rules] at hsigned
    obtain ⟨generation, hgeneration, -⟩ := hsigned
    exact ⟨receipt, hround, hheld, hparent, (checkedAdd_eq_some.mp hgeneration).1⟩

/-- The checks pass for a round that is observed completely and whose records are held. -/
theorem Observed.checkFinality (h : Observed store.state plan receipt records finality)
    (hround : store.state.completedRounds.get? plan.roundId = some receipt)
    (hid : receipt.roundId = plan.roundId) (hnonzero : receipt.roundId ≠ 0)
    (hnew : store.state.finalizedPrivateRounds.get? plan.roundId = none)
    (hheld : ∀ commitment ∈ plan.resting ++ [plan.arriving], ∃ record,
      store.state.records.get? commitment = some record) :
    ∃ candidate, NodeShareStore.checkFinality store.state plan finality =
      .ok (receipt, candidate) := by
  obtain ⟨hroundId, houtput, hdigest, hheight⟩ := aggregateFinality_fields h.aggregate h.valid
  obtain ⟨lookups, hlookups⟩ := exists_mapM_eq_some hheld
  have hrequired : NodeShareStore.nativeFinalityRequired store.state plan =
      .ok (lookups.any fun record => record.manifest.usesPretradeReservation) := by
    simp only [NodeShareStore.nativeFinalityRequired, hnew, hlookups]
    rfl
  have hfilled : finality.validate = .ok () := require_eq_ok.mpr
    ⟨hroundId ▸ hnonzero, h.output, h.digest, hdigest ▸ h.digest, hheight⟩
  refine ⟨⟨lookups.any fun record => record.manifest.usesPretradeReservation,
    finality.publicOutputSha256, finality.transitionDigest, finality.canonicalReceiptDigest,
    finality.canonicalHeight, none⟩, ?_⟩
  simp only [NodeShareStore.checkFinality, ok_rules]
  refine ⟨(), hfilled, (), hroundId.trans hid, receipt, hround, (), houtput.symm, _, hrequired, ?_⟩
  split
  · exact except_bind_eq_ok.mpr ⟨(), h.checkObserved, rfl⟩
  · rfl

omit [NodeCrypto] [Serde] in
theorem get?_finalizing_of_ne {entry : PrivateRoundFinalization} {state : StoreState}
    {commitment : Digest32} (hother : commitment ≠ plan.arriving) :
    (finalizing state plan receipt finality entry).privateHeads.get? commitment =
      (restingHeads plan receipt finality 0 plan.resting state.privateHeads).get? commitment := by
  unfold finalizing arrivingHead
  dsimp only
  split
  · rw [get?_insert, if_neg hother]
  · rw [get?_erase, if_neg hother]

theorem exists_signedFinalization (hhealthy : Healthy disk files signingKey store.state plan receipt
      finality)
    (hcheck : checkFinality store.state plan finality = .ok (receipt, candidate))
    (hnew : store.state.finalizedPrivateRounds.get? plan.roundId = none)
    (hid : receipt.roundId = plan.roundId) (hcomplete : receipt.Complete store.state.party)
    (hgeneration : store.state.generation + 1 < u64Bound) :
    ∃ signed, signedFinalization (arrivingHead plan receipt finality
        { store.state with
          privateHeads := restingHeads plan receipt finality 0 plan.resting
            store.state.privateHeads }) plan receipt finality candidate signingKey =
      .ok (finalizing store.state plan receipt finality
        { candidate with privateStateReceipt := some signed }, signed) ∧
      (stateJson (finalizing store.state plan receipt finality
        { candidate with privateStateReceipt := some signed })).length ≤ maxStoreBytes := by
  obtain ⟨hfilled, hfinality, -, houtput, -⟩ := checkFinality_ok hcheck hnew
  obtain ⟨hparty, -, -, -, -, -, hstate, -⟩ := hcomplete
  have hbound : receipt.party = store.state.party ∧ receipt.roundId = finality.roundId ∧
      receipt.publicOutputSha256 = finality.publicOutputSha256 ∧
      receipt.privateStateSha256 ≠ 0 ∧ finality.transitionDigest ≠ 0 ∧
      finality.canonicalReceiptDigest ≠ 0 ∧ finality.canonicalHeight ≠ 0 ∧
      store.state.generation + 1 ≠ 0 ∧
      stateDigest (finalizing store.state plan receipt finality candidate) ≠ 0 :=
    ⟨hparty, hid.trans hfinality.symm, houtput, hstate, hfilled.2.2.1, hfilled.2.2.2.1,
      hfilled.2.2.2.2, Nat.succ_ne_zero _, hhealthy.digest candidate hcheck⟩
  obtain ⟨signature, hsignature⟩ := hhealthy.signs (NodePrivateStateReceipt.unsigned
    store.state.party receipt finality (store.state.generation + 1)
    (stateDigest (finalizing store.state plan receipt finality candidate))
    (verifyingKey signingKey)).signatureBody
  obtain ⟨signed, hsign⟩ : ∃ signed, NodePrivateStateReceipt.sign store.state.party receipt finality
      (store.state.generation + 1)
      (stateDigest (finalizing store.state plan receipt finality candidate)) signingKey =
        some signed :=
    ⟨_, (if_pos hbound).trans (congrArg (Option.map _) hsignature)⟩
  have hnext : okOr (checkedAdd store.state.generation 1) NodeError.generation =
      .ok (store.state.generation + 1) := okOr_eq_ok.mpr (checkedAdd_eq_some.mpr ⟨hgeneration, rfl⟩)
  exact ⟨signed, except_bind_eq_ok.mpr ⟨_, hnext, except_bind_eq_ok.mpr
    ⟨signed, okOr_eq_ok.mpr hsign, rfl⟩⟩, hhealthy.fits candidate signed hcheck hsign⟩

namespace DrivenNode

/-- **When a settled round can be finalized.** In every reachable state of a node that holds a
completed round, not yet finalized and observed completely, the request of its plan succeeds, with
the heads of all resting orders on the round and the round out of the lifecycle barrier, exactly
while the plan is live, the records of its orders are held, its parents have not moved and a
generation is left. -/
theorem settled_round_finalizes_iff {fresh : NodeShareStore} {events : List NodeEvent}
    {node : DrivenNode} {execution : Execution} (hfresh : fresh.state.completedRounds = .empty)
    (hrun : run runtime events (start fresh) = node) (hexecuted : execution ∈ node.executed)
    (hround : node.store.state.completedRounds.get? execution.plan.roundId = some execution.receipt)
    (hopen : node.store.state.finalizedPrivateRounds.get? execution.plan.roundId = none)
    (hobserved : Observed node.store.state execution.plan execution.receipt records finality)
    (hhealthy : Healthy disk files signingKey node.store.state execution.plan execution.receipt
      finality)
    (hissued : execution.plan.issuedAt ≤ now) :
    (∃ signed out, (finalizePrivateState runtime .settlement disk files
        execution.plan finality signingKey now).run node.store = .ok signed out ∧
      (∀ commitment ∈ execution.plan.resting, ∃ head,
        out.state.privateHeads.get? commitment = some head ∧
          head.roundId = execution.plan.roundId) ∧
      out.state.finalizedPrivateRounds.contains execution.plan.roundId = true) ↔
    Finalizable node.store.state execution.plan execution.receipt now := by
  have hrecorded : Recorded node.store.state := hrun ▸
    recorded_run runtime events fun id receipt h => by
      rw [start, hfresh, get?_empty] at h
      cases h
  obtain ⟨past, hpast⟩ := (hrun ▸ begun_run runtime fresh events : Begun runtime node).executed
    execution hexecuted
  obtain ⟨⟨-, -, -, -, -, -, -, -, -, -, hshort, hself, -⟩, -⟩ := RoundPlan.verifyOrdering_ok hpast
  obtain ⟨hid, hcomplete⟩ := hrecorded _ _ hround
  obtain ⟨store, running, chain, executed⟩ := node
  constructor
  · rintro ⟨signed, out, hrun, -⟩
    obtain ⟨hverify, hfinalize⟩ := finalizePrivateState_ok hrun
    obtain ⟨receipt, hfound, hheld, hparent, hgeneration⟩ :=
      finalizePrivateRound_first hopen hshort hfinalize
    obtain rfl := Option.some.inj (hfound.symm.trans hround)
    exact ⟨(RoundPlan.verifyOrdering_at hpast hissued).mp hverify, hheld, hparent, hgeneration⟩
  · intro h
    have hnonzero : execution.receipt.roundId ≠ 0 := hcomplete.2.1
    obtain ⟨candidate, hcheck⟩ := hobserved.checkFinality hround hid hnonzero hopen h.held
    obtain ⟨signed, hsigned, hfits⟩ :=
      exists_signedFinalization hhealthy hcheck hopen hid hcomplete h.generation
    obtain ⟨file, hfile⟩ := hhealthy.file
    have hfinalize := finalizePrivateRound_written hcheck hopen h.parents hfile
      hshort hsigned hfits
    have hverify := (RoundPlan.verifyOrdering_at hpast hissued).mpr h.live
    refine ⟨signed, store.saved (finalizing store.state execution.plan execution.receipt finality
      { candidate with privateStateReceipt := some signed }), ?_, ?_, ?_⟩
    · unfold finalizePrivateState
      rw [run_ensure_bind, if_pos rfl, mapError_eq_ok.mpr hverify, run_attempt_ok_bind,
        run_adaptExcept, hhealthy.written, hfinalize]
    · intro commitment hmem
      have hother : commitment ≠ execution.plan.arriving := fun heq => hself (heq ▸ hmem)
      obtain ⟨offset, hhead⟩ : ∃ offset, (restingHeads execution.plan execution.receipt finality 0
          execution.plan.resting store.state.privateHeads).get? commitment =
            some (headAt execution.plan execution.receipt finality offset) :=
        get?_restingHeads_mem _ 0 _ (.inl hmem)
      exact ⟨_, (get?_finalizing_of_ne hother).trans hhead, rfl⟩
    · simp [saved, finalizing, contains]

end DrivenNode

end

end

section Sample

set_option maxRecDepth 100000

attribute [local instance] transparentNodeCrypto clusterSerde

namespace DrivenNode

open Cluster NodeShareStore

theorem pair_observed : Observed pairObserved pairPlan pairReceipt (empty.insert 0 pairFill)
    pairFinality := by
  have hvalues : ∀ record ∈ (empty.insert 0 pairFill).values, record = pairFill := by
    decide +kernel
  refine ⟨rfl, by decide +kernel, by decide +kernel, ?_, ?_, by decide +kernel, by decide +kernel,
    by decide +kernel⟩
  · intro record hrecord
    rw [hvalues record hrecord]
    exact pair_checks.2.2.2.2.1
  · intro record hrecord
    rw [hvalues record hrecord]
    exact ⟨rfl, rfl⟩

theorem pair_healthy :
    Healthy .written pairFiles [7] pairObserved pairPlan pairReceipt pairFinality where
  file := ⟨_, pair_checks.2.2.2.2.2.2.2⟩
  signs _ := ⟨_, rfl⟩
  written := rfl
  digest _ _ := by
    change sha256 (toBeBytes 8 6) ≠ 0
    decide +kernel
  fits _ _ _ _ := sample_size _

theorem settled_round_finalizes_iff_sample :
    run sampleRuntime pairEvents (start (pairStore pairState)) = afterFill ∧
      ∃ signed out, (finalizePrivateState sampleRuntime .settlement .written
          pairFiles pairPlan pairFinality [7] 60).run (pairStore pairObserved) = .ok signed out ∧
        (∀ commitment ∈ pairPlan.resting, ∃ head,
          out.state.privateHeads.get? commitment = some head ∧
            head.roundId = pairPlan.roundId) ∧
        out.state.finalizedPrivateRounds.contains pairPlan.roundId = true := by
  have hstored : (pairPlan.resting ++ [pairPlan.arriving]).all
      (fun commitment => (pairObserved.records.get? commitment).isSome) = true := by
    decide +kernel
  have hlive : Finalizable pairObserved pairPlan pairReceipt 60 := by
    refine ⟨by decide +kernel, fun commitment hmem => ?_, rfl, by decide⟩
    exact Option.isSome_iff_exists.mp (List.all_eq_true.mp hstored commitment hmem)
  have hround : afterFill.store.state.completedRounds.get? pairPlan.roundId = some pairReceipt :=
    get?_insert_self
  exact ⟨run_pairEvents, (settled_round_finalizes_iff rfl run_pairEvents List.mem_cons_self hround
    rfl pair_observed pair_healthy (by decide +kernel)).mpr hlive⟩

/-- One second after the plan of a native round expires, the request fails though every fill is
observed, and the round holds the barrier. -/
theorem expired_plan_never_finalizes :
    run sampleRuntime pairEvents (start (pairStore pairState)) = afterFill ∧
      NativeRound pairObserved pairPlan ∧
      Observed pairObserved pairPlan pairReceipt (empty.insert 0 pairFill) pairFinality ∧
      Healthy .written pairFiles [7] pairObserved pairPlan pairReceipt pairFinality ∧
      pairPlan.issuedAt ≤ pairPlan.expiresAt + 1 ∧ ¬ pairObserved.Settled ∧
      ∀ now, pairPlan.expiresAt < now → ∀ signed out,
        (finalizePrivateState sampleRuntime .settlement .written pairFiles pairPlan
          pairFinality [7] now).run (pairStore pairObserved) ≠ .ok signed out := by
  have hnative : NativeRound pairObserved pairPlan :=
    ⟨nativeManifest.commitment, List.mem_cons_self, nativeRecord, get?_insert_self, rfl⟩
  have hround : pairObserved.completedRounds.get? pairPlan.roundId = some pairReceipt :=
    get?_insert_self
  refine ⟨run_pairEvents, hnative, pair_observed, pair_healthy, by decide +kernel, ?_, ?_⟩
  · intro hsettled
    have hfinal := hsettled.2 _ (mem_entries_iff.mpr hround) rfl
    exact absurd hfinal Bool.false_ne_true
  · intro now hlate signed out hrun
    obtain ⟨⟨-, -, -, -, -, -, -, -, -, -, -, -, -, hlive, -⟩, -⟩ :=
      RoundPlan.verifyOrdering_ok (finalizePrivateState_ok hrun).1
    exact absurd hlive (Nat.not_le.mpr hlate)

end DrivenNode

end Sample

end Oclob.Node
