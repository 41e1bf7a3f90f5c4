import Oclob.Node.Execution
import Oclob.Node.RoundInput

/-!
# Rounds of one node

A node as the coordinator drives it: the store, the `Execute` request that holds `execute_lock`,
and two histories, the chain of accepted certificates and the rounds the node completed. An event
is a call on the store or one section of an `Execute` request; a call that needs the lock, or a
second request, waits while a request is running (it leaves the node as it is), and receipts are
recorded by requests only.

`DrivenNode.Sound` ties the histories to the store and holds in every run (`Sound.runs`):

* the running request and every completed round were presented with a certificate of the chain for
  their arriving order;
* every completed round of the store is one of the history, and stays as it was recorded;
* rounds are completed in the order of their certificates.

A certificate stays acceptable while it is the head, and a plan names its resting orders freely. So
one order can be executed twice (`certified_order_executed_twice`), and a round can meet an order
that was never certified (`uncertified_order_matched`). `executed_at_most_once` and
`rounds_respect_time_priority` say what the requests must keep to.
-/

namespace Oclob.Node

open Oclob.Core Oclob.Lib Oclob.Edge Oclob.Ordering NodeShareStore OrdMap
open NodeShareStore (PreparedPartyInput)

/-- The private heads of a store. -/
abbrev PrivateHeads := OrdMap Digest32 PrivateBookStateRef

/-- A completed round: its plan, the recorded receipt and the private heads its input was prepared
from. -/
structure Execution where
  plan : RoundPlan
  receipt : NodeExecutionReceipt
  heads : PrivateHeads

/-- A request that holds `execute_lock`, with the input it prepared and the heads at that time. -/
structure Running where
  request : ExecuteRequest
  prepared : Option (PreparedPartyInput × PrivateHeads)

/-- A node with its histories, newest first. -/
structure DrivenNode where
  store : NodeShareStore
  running : Option Running
  chain : List OrderCertificate
  executed : List Execution

inductive NodeEvent where
  | call (op : StoreOp)
  | beginRound (disk : Disk) (request : ExecuteRequest)
  | prepareInput (files : PrivateFiles)
  | finishRound (disk : Disk) (outcome : Except PartyExecutionError PartyRun)

/-- The calls whose request takes `execute_lock`. -/
def StoreOp.locks : StoreOp → Bool
  | recordOrderVote .. | registerLifecycle .. | acceptOrderCertificate .. => true
  | _ => false

/-- The calls made inside an `Execute` request only. -/
def StoreOp.records : StoreOp → Bool
  | recordCompletedRound .. => true
  | _ => false

/-- The certificate an event presents. -/
def NodeEvent.certificate : NodeEvent → Option OrderCertificate
  | call (.acceptOrderCertificate _ certificate _ _ _) => some certificate
  | beginRound _ request => some request.plan.orderingCertificate
  | _ => none

namespace DrivenNode

section

variable [NodeCrypto] [Serde]

/-- A node before its first event. -/
def start (store : NodeShareStore) : DrivenNode := ⟨store, none, [], []⟩

/-- The round of `plan`, if it became complete between two states. -/
def completed (plan : RoundPlan) (heads : PrivateHeads) (before after : StoreState) :
    List Execution :=
  match before.completedRounds.get? plan.roundId, after.completedRounds.get? plan.roundId with
  | none, some receipt => [⟨plan, receipt, heads⟩]
  | _, _ => []

/-- The chain after `certificate` was presented: it is added if the head moved. -/
def extended (certificate : OrderCertificate) (before after : StoreState)
    (chain : List OrderCertificate) : List OrderCertificate :=
  if after.orderingSequence = before.orderingSequence then chain else certificate :: chain

/-- One event. -/
def step (runtime : NodeRuntime) (node : DrivenNode) : NodeEvent → DrivenNode
  | .call op =>
    if op.records || op.locks && node.running.isSome then node
    else { node with
      store := op.apply node.store
      chain := (op.extension node.store).toList ++ node.chain }
  | .beginRound disk request =>
    match node.running with
    | some _ => node
    | none =>
      let result := (request.beginRound runtime disk).run node.store
      { node with
        store := after result
        running := if succeeds result then some ⟨request, none⟩ else none
        chain := extended request.plan.orderingCertificate node.store.state (after result).state
          node.chain }
  | .prepareInput files =>
    match node.running with
    | some ⟨request, none⟩ =>
      match request.prepareInput node.store files with
      | .ok (.inr prepared) =>
        { node with running := some ⟨request, some (prepared, node.store.state.privateHeads)⟩ }
      | _ => { node with running := none }
    | _ => node
  | .finishRound disk outcome =>
    match node.running with
    | some ⟨request, some (prepared, heads)⟩ =>
      let store := after ((request.finishRound runtime disk outcome prepared).run node.store)
      { node with
        store
        running := none
        executed := completed request.plan heads node.store.state store.state ++ node.executed }
    | _ => node

/-- A run. -/
def run (runtime : NodeRuntime) (events : List NodeEvent) (node : DrivenNode) : DrivenNode :=
  events.foldl (step runtime) node

@[simp] theorem run_nil (runtime : NodeRuntime) (node : DrivenNode) :
    run runtime [] node = node := rfl

@[simp] theorem run_cons (runtime : NodeRuntime) (event : NodeEvent) (rest : List NodeEvent)
    (node : DrivenNode) :
      run runtime (event :: rest) node = run runtime rest (step runtime node event) :=
  rfl

theorem run_append (runtime : NodeRuntime) (first second : List NodeEvent) (node : DrivenNode) :
    run runtime (first ++ second) node = run runtime second (run runtime first node) :=
  List.foldl_append

/-- A condition on every event of a run, in the node before it. -/
def Along (runtime : NodeRuntime) (P : DrivenNode → NodeEvent → Prop) :
    DrivenNode → List NodeEvent → Prop
  | _, [] => True
  | node, event :: rest => P node event ∧ Along runtime P (step runtime node event) rest

theorem along_append {runtime : NodeRuntime} {P : DrivenNode → NodeEvent → Prop}
    {first second : List NodeEvent} {node : DrivenNode} :
    Along runtime P node (first ++ second) ↔
      Along runtime P node first ∧ Along runtime P (run runtime first node) second := by
  induction first generalizing node with
  | nil => simp [Along]
  | cons event rest ih => rw [List.cons_append, Along, Along, ih, run_cons, and_assoc]

end

end DrivenNode

/-! ## The sections of a request -/

section

variable [NodeCrypto] [Serde]

/-- An accepted certificate is the head. -/
theorem acceptOrderCertificate_head {disk : Disk} {certificate : OrderCertificate}
    {policy : CommitteePolicy} {keys : NodeKeys} {now generation : Nat}
    {store out : NodeShareStore}
    (h : (acceptOrderCertificate disk certificate policy keys now).run store =
      .ok generation out) :
    out.state.orderingSequence = certificate.sequence ∧
      out.state.orderingHead = certificate.digest := by
  unfold acceptOrderCertificate at h
  obtain ⟨⟨⟩, _, hattempt, hget⟩ := run_bind_eq_ok.mp h
  obtain ⟨-, rfl⟩ := run_attempt_eq_ok.mp hattempt
  rw [run_get_bind] at hget
  split at hget
  · rename_i hsame
    obtain ⟨⟨⟩, _, hensure, hreturn⟩ := run_bind_eq_ok.mp hget
    obtain ⟨⟨hhead, -⟩, rfl⟩ := run_ensure_eq_ok.mp hensure
    obtain ⟨-, rfl⟩ := run_pure_eq_ok.mp hreturn
    exact ⟨hsame.symm, hhead⟩
  · obtain ⟨⟨⟩, _, hcheck, hwrite⟩ := run_bind_eq_ok.mp hget
    obtain ⟨-, rfl⟩ := run_attempt_eq_ok.mp hcheck
    obtain ⟨⟨⟩, _, hcommit, hreturn⟩ := run_bind_eq_ok.mp hwrite
    rw [run_get_bind] at hreturn
    obtain ⟨-, rfl⟩ := run_pure_eq_ok.mp hreturn
    rw [(commit_ok hcommit).1]
    exact ⟨rfl, rfl⟩

omit [NodeCrypto] [Serde] in
theorem run_adaptExcept {ε ε' σ α : Type} (f : ε → ε') (x : EStateM ε σ α) (s : σ) :
    (EStateM.adaptExcept f x).run s = match x.run s with
      | .ok a s' => .ok a s'
      | .error e s' => .error (f e) s' := by
  simp only [EStateM.adaptExcept, EStateM.run]
  cases x s <;> rfl

namespace ExecuteRequest

variable {request : ExecuteRequest} {runtime : NodeRuntime} {disk : Disk}
  {store : NodeShareStore}

/-- The first section leaves the store alone or makes the certificate call; if it succeeds, the
plan is verified and its certificate is the head. -/
theorem beginRound_cases (request : ExecuteRequest) (runtime : NodeRuntime) (disk : Disk)
    (store : NodeShareStore) :
    let result := (request.beginRound runtime disk).run store
    (after result = store ∧ succeeds result = false) ∨
      after result = (request.accept runtime disk).apply store ∧
        (succeeds result = true → request.plan.Bound request.now ∧ request.plan.resting.Nodup ∧
          (after result).state.orderingSequence = request.plan.orderingCertificate.sequence ∧
          (after result).state.orderingHead = request.plan.orderingCertificate.digest) := by
  rw [beginRound, run_ensure_bind]
  split
  · cases hverify : request.plan.verifyOrdering runtime.orderingPolicy runtime.orderingKeys
      request.now with
    | error e => exact Or.inl ⟨rfl, rfl⟩
    | ok u =>
      obtain ⟨hbound, hnodup, -⟩ := RoundPlan.verifyOrdering_ok hverify
      simp only [Except.mapError]
      rw [run_attempt_ok_bind, run_ensure_bind]
      split
      · right
        rw [EStateM.run_bind, run_adaptExcept, accept, StoreOp.apply]
        cases haccept : (acceptOrderCertificate disk request.plan.orderingCertificate
          runtime.orderingPolicy runtime.orderingKeys request.now).run store with
        | ok generation out =>
          obtain ⟨hsequence, hhead⟩ := acceptOrderCertificate_head haccept
          exact ⟨rfl, fun _ => ⟨hbound, hnodup, hsequence, hhead⟩⟩
        | error e out => exact ⟨rfl, fun h => absurd h (by simp [Lib.succeeds])⟩
      · exact Or.inl ⟨rfl, rfl⟩
  · exact Or.inl ⟨rfl, rfl⟩

omit [Serde] in
/-- A prepared input is that of `prepare_round`, of a round that is not complete. -/
theorem prepareInput_ok {files : PrivateFiles} {prepared : PreparedPartyInput}
    (h : request.prepareInput store files = .ok (.inr prepared)) :
    store.state.completedRounds.get? request.plan.roundId = none ∧
      store.prepareRound files request.plan.marketId request.plan.resting request.plan.arriving
        request.now = .ok prepared := by
  unfold prepareInput at h
  split at h
  · exact absurd h (by simp)
  · rename_i hnew
    simp only [ok_rules, Sum.inr.injEq] at h
    obtain ⟨found, hfound, rfl⟩ := h
    exact ⟨hnew, hfound⟩

/-- The third section leaves the store alone or records a receipt of the party. -/
theorem finishRound_cases (request : ExecuteRequest) (runtime : NodeRuntime) (disk : Disk)
    (outcome : Except PartyExecutionError PartyRun) (prepared : PreparedPartyInput)
    (store : NodeShareStore) :
    let out := after ((request.finishRound runtime disk outcome prepared).run store)
    out = store ∨ ∃ receipt, out = (StoreOp.recordCompletedRound disk receipt).apply store ∧
      receipt.roundId = request.plan.roundId ∧
      receipt.privateParentDigest = prepared.privateParentDigest := by
  rw [finishRound]
  cases hexecutor : runtime.executor with
  | none => exact Or.inl rfl
  | some executor =>
    simp only [okOr]
    rw [run_attempt_ok_bind]
    cases hreceipt : executor.execute outcome prepared request.plan with
    | error e => exact Or.inl rfl
    | ok receipt =>
      obtain ⟨-, -, -, hround, hparent⟩ := PartyExecutor.execute_ok hreceipt
      simp only [Except.mapError]
      rw [run_attempt_ok_bind, after_bind_of_reads _ _ fun _ _ => rfl, run_adaptExcept]
      refine Or.inr ⟨receipt, ?_, hround, hparent⟩
      rw [StoreOp.apply]
      cases (recordCompletedRound disk receipt).run store <;> rfl

end ExecuteRequest

/-! ## What calls do to the completed rounds -/

/-- Only `record_completed_round` adds a completed round. -/
theorem StoreOp.completedRounds_apply {op : StoreOp} (h : op.records = false)
    (store : NodeShareStore) :
    (op.apply store).state.completedRounds = store.state.completedRounds := by
  refine (op.effect store).preserves (P := fun state =>
    state.completedRounds = store.state.completedRounds) (fun heads => rfl) ?_
  intro g next hedit
  cases hedit with
  | recordCompletedRound g hcomplete hnew => exact absurd h (by simp [StoreOp.records])
  | finalizePrivateRound g hcheck hnew hsigned =>
    rw [signedFinalization_ok hsigned]
    rfl
  | _ => rfl

/-- A receipt is added under its round, or the rounds stay as they are. -/
theorem recordCompletedRound_rounds (disk : Disk) (receipt : NodeExecutionReceipt)
    (store : NodeShareStore) :
    let out := (StoreOp.recordCompletedRound disk receipt).apply store
    out.state.completedRounds = store.state.completedRounds ∨
      store.state.completedRounds.get? receipt.roundId = none ∧
        out.state.completedRounds = store.state.completedRounds.insert receipt.roundId receipt := by
  refine (StoreOp.effect _ store).preserves (P := fun state =>
    state.completedRounds = store.state.completedRounds ∨
      store.state.completedRounds.get? receipt.roundId = none ∧
        state.completedRounds = store.state.completedRounds.insert receipt.roundId receipt)
    (fun heads => Or.inl rfl) ?_
  intro g next hedit
  cases hedit with
  | recordCompletedRound g hcomplete hnew => exact Or.inr ⟨hnew, rfl⟩

namespace DrivenNode

variable {plan : RoundPlan} {chain : List OrderCertificate} {state : StoreState}
  {event : NodeEvent}

omit [NodeCrypto] [Serde] in
theorem completed_of_eq {heads : PrivateHeads} {before after : StoreState}
    (h : after.completedRounds = before.completedRounds) :
    completed plan heads before after = [] := by
  unfold completed
  rw [h]
  cases before.completedRounds.get? plan.roundId <;> rfl

omit [NodeCrypto] [Serde] in
theorem completed_of_insert {heads : PrivateHeads} {before after : StoreState}
    {receipt : NodeExecutionReceipt} (hnew : before.completedRounds.get? plan.roundId = none)
    (h : after.completedRounds = before.completedRounds.insert plan.roundId receipt) :
    completed plan heads before after = [⟨plan, receipt, heads⟩] := by
  unfold completed
  rw [hnew, h, get?_insert, if_pos rfl]

theorem extended_accept (request : ExecuteRequest) (runtime : NodeRuntime) (disk : Disk)
    (store : NodeShareStore) (chain : List OrderCertificate) :
    extended request.plan.orderingCertificate store.state
        ((request.accept runtime disk).apply store).state chain =
      ((request.accept runtime disk).extension store).toList ++ chain := by
  rw [ExecuteRequest.accept, StoreOp.extension_accept, extended]
  split <;> rfl

/-! ## The invariant -/

/-- The plan passed `RoundPlan::verify` at some time. -/
def Verified (plan : RoundPlan) : Prop := (∃ now, plan.Bound now) ∧ plan.resting.Nodup

/-- The chain holds the certificate the plan came with, for its arriving order. -/
def Certified (chain : List OrderCertificate) (plan : RoundPlan) : Prop :=
  ∃ certificate ∈ chain, certificate.digest = plan.orderingCertificate.digest ∧
    certificate.commitment = plan.arriving ∧ certificate.sequence = plan.sequence

/-- The certificates presented to the node are told apart by their digests. -/
def NoCollision (known : Set OrderCertificate) : Prop :=
  ∀ a ∈ known, ∀ b ∈ known, a.digest = b.digest → a.toOrderStatement = b.toOrderStatement

/-- What the running request and the histories stand for. -/
structure Sound (known : Set OrderCertificate) (node : DrivenNode) : Prop where
  chained : Chained node.store.state node.chain
  chain_known : ∀ certificate ∈ node.chain, certificate ∈ known
  running : ∀ running, node.running = some running → Verified running.request.plan ∧
    Certified node.chain running.request.plan ∧
    running.request.plan.sequence = node.chain.length ∧
    ∀ prepared heads, running.prepared = some (prepared, heads) →
      prepared.privateParentDigest = sha256 (parentText heads
        running.request.plan.resting running.request.plan.arriving)
  executed : ∀ execution ∈ node.executed, Verified execution.plan ∧
    Certified node.chain execution.plan ∧
    node.store.state.completedRounds.get? execution.plan.roundId = some execution.receipt ∧
    execution.receipt.privateParentDigest = sha256 (parentText execution.heads
      execution.plan.resting execution.plan.arriving)
  rounds : ∀ id receipt, node.store.state.completedRounds.get? id = some receipt →
    ∃ execution ∈ node.executed, execution.plan.roundId = id ∧ execution.receipt = receipt
  order : node.executed.Pairwise fun later earlier =>
    earlier.plan.sequence ≤ later.plan.sequence

omit [Serde] in
theorem Certified.mono
    (h : Certified chain plan) (l : List OrderCertificate) : Certified (l ++ chain) plan := by
  obtain ⟨certificate, hmem, hrest⟩ := h
  exact ⟨certificate, List.mem_append_right _ hmem, hrest⟩

omit [Serde] in
/-- A round of the history was completed no later than the head. -/
theorem Certified.sequence_le (h : Certified chain plan) (hchained : Chained state chain) :
    plan.sequence ≤ chain.length := by
  obtain ⟨certificate, hmem, -, -, hsequence⟩ := h
  exact hsequence ▸ (hchained.linked.sequence_le certificate hmem).2

omit [Serde] in
theorem sound_start {known : Set OrderCertificate} {store : NodeShareStore}
    (hchain : Chained store.state []) (hrounds : store.state.completedRounds = .empty) :
    Sound known (start store) where
  chained := hchain
  chain_known _ h := absurd h List.not_mem_nil
  running _ h := absurd h (by simp [start])
  executed _ h := absurd h List.not_mem_nil
  rounds id receipt h := by
    rw [start, hrounds] at h
    exact absurd h (by simp)
  order := List.Pairwise.nil

section Step

variable {known : Set OrderCertificate} {node : DrivenNode} (h : Sound known node)
  (runtime : NodeRuntime)

include h

theorem Sound.call (op : StoreOp)
    (hknown : ∀ certificate, (NodeEvent.call op).certificate = some certificate →
      certificate ∈ known) : Sound known (step runtime node (.call op)) := by
  simp only [DrivenNode.step]
  split
  · exact h
  · rename_i hfree
    simp only [Bool.or_eq_true, Bool.and_eq_true, not_or, not_and, Bool.not_eq_true] at hfree
    obtain ⟨hrecords, hlock⟩ := hfree
    have hrounds := StoreOp.completedRounds_apply hrecords node.store
    have hextension : ∀ certificate, op.extension node.store = some certificate →
        certificate ∈ known ∧ op.locks = true := by
      intro certificate hext
      cases op with
      | acceptOrderCertificate disk accepted policy keys now =>
        rw [StoreOp.extension_accept] at hext
        split at hext
        · exact absurd hext (by simp)
        · obtain rfl := Option.some.inj hext
          exact ⟨hknown _ rfl, rfl⟩
      | _ => exact absurd hext (by simp [StoreOp.extension])
    refine ⟨h.chained.apply op, ?_, ?_, ?_, ?_, h.order⟩
    · intro certificate hmem
      rcases List.mem_append.mp hmem with hmem | hmem
      · exact (hextension certificate (Option.mem_toList.mp hmem)).1
      · exact h.chain_known certificate hmem
    · intro running hrunning
      -- a call beside a running request does not move the head
      have hnone : op.extension node.store = none := by
        cases hext : op.extension node.store with
        | none => rfl
        | some certificate =>
          have hwaits := hlock (hextension certificate hext).2
          exact absurd hwaits (by simp [show node.running = some running from hrunning])
      rw [hnone]
      exact h.running running hrunning
    · intro execution hmem
      obtain ⟨hverified, hcertified, hround, hparent⟩ := h.executed execution hmem
      exact ⟨hverified, hcertified.mono _, hrounds ▸ hround, hparent⟩
    · exact hrounds ▸ h.rounds

theorem Sound.beginRound (hinj : NoCollision known) (disk : Disk) (request : ExecuteRequest)
    (hknown : request.plan.orderingCertificate ∈ known) :
    Sound known (step runtime node (.beginRound disk request)) := by
  simp only [DrivenNode.step]
  split
  · exact h
  · rename_i hidle
    rcases request.beginRound_cases runtime disk node.store with ⟨hsame, hfailed⟩ | ⟨hcall, hok⟩
    · rw [hsame, hfailed, extended, if_pos rfl]
      exact { h with running := nofun }
    · rw [hcall, extended_accept] at *
      have hchained := h.chained.apply (request.accept runtime disk)
      have hrounds := StoreOp.completedRounds_apply
        (show (request.accept runtime disk).records = false from rfl) node.store
      have hchain : ∀ certificate ∈ ((request.accept runtime disk).extension node.store).toList ++
          node.chain, certificate ∈ known := by
        intro certificate hmem
        rcases List.mem_append.mp hmem with hmem | hmem
        · have hext := Option.mem_toList.mp hmem
          rw [ExecuteRequest.accept, StoreOp.extension_accept] at hext
          split at hext
          · exact absurd hext (by simp)
          · exact Option.some.inj hext ▸ hknown
        · exact h.chain_known certificate hmem
      refine ⟨hchained, hchain, ?_, ?_, ?_, h.order⟩
      · intro running hrunning
        rw [Option.ite_none_right_eq_some] at hrunning
        obtain ⟨hsucceeded, hrunning⟩ := hrunning
        obtain rfl := Option.some.inj hrunning
        obtain ⟨hbound, hnodup, hsequence, hhead⟩ := hok hsucceeded
        have hplan : request.plan.orderingCertificate.sequence = request.plan.sequence ∧
            request.plan.orderingCertificate.commitment = request.plan.arriving ∧
            request.plan.sequence ≠ 0 :=
          ⟨hbound.2.2.2.2.2.1, hbound.2.2.2.2.2.2.1, hbound.2.2.2.1⟩
        have hlength := hchained.sequence.symm.trans (hsequence.trans hplan.1)
        refine ⟨⟨⟨_, hbound⟩, hnodup⟩, ?_, hlength.symm, fun _ _ hnone => absurd hnone (by simp)⟩
        -- the head is the digest of the last certificate, so that one is the plan's
        rw [hchained.head] at hhead
        generalize ((request.accept runtime disk).extension node.store).toList ++ node.chain =
          chain at hhead hlength hchain
        cases chain with
        | nil => exact absurd hlength.symm hplan.2.2
        | cons last rest =>
          have hstatement := hinj last (hchain last List.mem_cons_self) _ hknown hhead
          refine ⟨last, List.mem_cons_self, hhead, ?_, ?_⟩
          · exact (congrArg OrderStatement.commitment hstatement).trans hplan.2.1
          · exact (congrArg OrderStatement.sequence hstatement).trans hplan.1
      · intro execution hmem
        obtain ⟨hverified, hcertified, hround, hparent⟩ := h.executed execution hmem
        exact ⟨hverified, hcertified.mono _, hrounds ▸ hround, hparent⟩
      · exact hrounds ▸ h.rounds

theorem Sound.prepareInput (files : PrivateFiles) :
    Sound known (step runtime node (.prepareInput files)) := by
  simp only [DrivenNode.step]
  split
  · rename_i request hrunning
    obtain ⟨hverified, hcertified, hsequence, -⟩ := h.running _ hrunning
    split
    · rename_i prepared hprepared
      refine { h with running := fun running hnow => ?_ }
      obtain rfl := Option.some.inj hnow
      refine ⟨hverified, hcertified, hsequence, fun input heads hinput => ?_⟩
      obtain ⟨rfl, rfl⟩ := Prod.mk.inj (Option.some.inj hinput)
      exact prepareRound_parent (ExecuteRequest.prepareInput_ok hprepared).2
    · exact { h with running := nofun }
  · exact h

theorem Sound.finishRound (disk : Disk) (outcome : Except PartyExecutionError PartyRun) :
    Sound known (step runtime node (.finishRound disk outcome)) := by
  simp only [DrivenNode.step]
  split
  · rename_i request prepared heads hrunning
    obtain ⟨hverified, hcertified, hsequence, hprepared⟩ := h.running _ hrunning
    have hparent := hprepared prepared heads rfl
    rcases request.finishRound_cases runtime disk outcome prepared node.store with
      hsame | ⟨receipt, hcall, hround, hreceipt⟩
    · rw [hsame, completed_of_eq rfl]
      exact { h with running := nofun }
    · have hchained := h.chained.apply (.recordCompletedRound disk receipt)
      rw [hcall]
      rcases recordCompletedRound_rounds disk receipt node.store with hkept | ⟨hnew, hinsert⟩
      · rw [completed_of_eq hkept]
        exact { h with
          chained := hchained
          running := nofun
          executed := by
            rw [hkept]
            exact h.executed
          rounds := hkept ▸ h.rounds }
      · rw [hround] at hnew hinsert
        rw [completed_of_insert hnew hinsert]
        refine ⟨hchained, h.chain_known, nofun, ?_, ?_, ?_⟩
        · rw [hinsert]
          refine List.forall_mem_cons.mpr ⟨⟨hverified, hcertified, ?_, hreceipt.trans hparent⟩, ?_⟩
          · exact get?_insert_self
          · intro execution hmem
            obtain ⟨hverified, hcertified, hkept, hparent⟩ := h.executed execution hmem
            have hne := ne_of_get? hkept hnew
            exact ⟨hverified, hcertified, (get?_insert_of_ne hne).trans hkept, hparent⟩
        · intro id found hfound
          rw [hinsert] at hfound
          obtain ⟨rfl, rfl⟩ | ⟨-, hfound⟩ := get?_insert_eq_some hfound
          · exact ⟨_, List.mem_cons_self, rfl, rfl⟩
          · obtain ⟨execution, hmem, hid, hfound⟩ := h.rounds id found hfound
            exact ⟨execution, List.mem_cons_of_mem _ hmem, hid, hfound⟩
        · refine List.pairwise_cons.mpr ⟨fun execution hmem => ?_, h.order⟩
          have hle := (h.executed execution hmem).2.1.sequence_le h.chained
          exact hle.trans_eq hsequence.symm
  · exact h

/-- **One event keeps the node sound.** -/
theorem Sound.step (hinj : NoCollision known) (event : NodeEvent)
    (hknown : ∀ certificate, event.certificate = some certificate → certificate ∈ known) :
    Sound known (step runtime node event) := by
  cases event with
  | call op => exact h.call runtime op hknown
  | beginRound disk request => exact h.beginRound runtime hinj disk request (hknown _ rfl)
  | prepareInput files => exact h.prepareInput runtime files
  | finishRound disk outcome => exact h.finishRound runtime disk outcome

end Step

/-- **A run keeps the node sound**, and whatever else its events keep. -/
theorem Sound.runs {known : Set OrderCertificate} {runtime : NodeRuntime}
    (hinj : NoCollision known) {P : DrivenNode → NodeEvent → Prop} {Q : DrivenNode → Prop}
    (hstep : ∀ node event, Sound known node → Q node → P node event →
      Q (DrivenNode.step runtime node event))
    (events : List NodeEvent) {node : DrivenNode} (h : Sound known node) (hQ : Q node)
    (hP : Along runtime P node events)
    (hknown : ∀ event ∈ events, ∀ certificate, event.certificate = some certificate →
      certificate ∈ known) :
    Sound known (run runtime events node) ∧ Q (run runtime events node) := by
  induction events generalizing node with
  | nil => exact ⟨h, hQ⟩
  | cons event rest ih =>
    rw [run_cons]
    obtain ⟨hevent, hrest⟩ := List.forall_mem_cons.mp hknown
    exact ih (h.step runtime hinj event hevent) (hstep node event h hQ hP.1) hP.2 hrest

/-! ## What one event adds to the histories -/

/-- The chain only grows, an event completes the round of the running request or no round, and a
request runs because it just began or was running before. -/
theorem step_histories (runtime : NodeRuntime) (node : DrivenNode) (event : NodeEvent) :
    let next := step runtime node event
    (∃ added, next.chain = added ++ node.chain) ∧
    (next.executed = node.executed ∨ ∃ running execution, node.running = some running ∧
      execution.plan = running.request.plan ∧ next.executed = execution :: node.executed ∧
      next.running = none) ∧
    ∀ running, next.running = some running →
      (∃ before, node.running = some before ∧ before.request = running.request) ∨
        ∃ disk, event = .beginRound disk running.request := by
  have hkept : ∀ running, node.running = some running →
      (∃ before, node.running = some before ∧ before.request = running.request) ∨
        ∃ disk, event = .beginRound disk running.request :=
    fun running h => Or.inl ⟨running, h, rfl⟩
  cases event with
  | call op =>
    simp only [step]
    split
    · exact ⟨⟨[], rfl⟩, Or.inl rfl, hkept⟩
    · exact ⟨⟨_, rfl⟩, Or.inl rfl, hkept⟩
  | beginRound disk request =>
    simp only [step]
    split
    · exact ⟨⟨[], rfl⟩, Or.inl rfl, hkept⟩
    · refine ⟨?_, Or.inl rfl, fun running h => ?_⟩
      · change ∃ added, extended _ _ _ _ = _
        unfold extended
        split
        · exact ⟨[], rfl⟩
        · exact ⟨[_], rfl⟩
      · obtain ⟨-, hbegun⟩ := Option.ite_none_right_eq_some.mp h
        obtain rfl := Option.some.inj hbegun
        exact Or.inr ⟨disk, rfl⟩
  | prepareInput files =>
    simp only [step]
    split
    · rename_i request hrunning
      split
      · refine ⟨⟨[], rfl⟩, Or.inl rfl, fun running h => ?_⟩
        obtain rfl := Option.some.inj h
        exact Or.inl ⟨_, hrunning, rfl⟩
      · exact ⟨⟨[], rfl⟩, Or.inl rfl, nofun⟩
    · exact ⟨⟨[], rfl⟩, Or.inl rfl, hkept⟩
  | finishRound disk outcome =>
    simp only [step]
    split
    · rename_i request prepared heads hrunning
      refine ⟨⟨[], rfl⟩, ?_, nofun⟩
      unfold completed
      split
      · exact Or.inr ⟨_, _, hrunning, rfl, rfl, rfl⟩
      · exact Or.inl rfl
    · exact ⟨⟨[], rfl⟩, Or.inl rfl, hkept⟩

/-- A condition on the plans that begin, kept for the running request: what held of the completed
rounds when it began holds until it ends. -/
theorem running_of_begin {runtime : NodeRuntime} {node : DrivenNode}
    (P : List Execution → ExecuteRequest → Prop)
    (hrunning : ∀ running, node.running = some running → P node.executed running.request)
    (hbegin : ∀ disk request, event = .beginRound disk request → P node.executed request) :
    ∀ running, (step runtime node event).running = some running →
      P (step runtime node event).executed running.request := by
  intro running h
  have hexecuted : (step runtime node event).executed = node.executed := by
    rcases (step_histories runtime node event).2.1 with hsame | ⟨_, _, -, -, -, hnone⟩
    · exact hsame
    · exact absurd (hnone.symm.trans h) (by simp)
  rw [hexecuted]
  rcases (step_histories runtime node event).2.2 running h with
    ⟨before, hbefore, heq⟩ | ⟨disk, hevent⟩
  · exact heq ▸ hrunning before hbefore
  · exact hbegin disk running.request hevent

/-! ## An order is executed once -/

/-- The round matched a slot or left a remainder of its arriving order. -/
def Fills (receipt : NodeExecutionReceipt) : Prop :=
  anyMatched receipt.result = true ∨ 0 < receipt.result.arrivingRemaining

/-- The plan is the one its certificate was executed under, if that round filled. -/
def Unspent (executed : List Execution) (request : ExecuteRequest) : Prop :=
  ∀ execution ∈ executed,
    execution.plan.orderingCertificate.digest = request.plan.orderingCertificate.digest →
    Fills execution.receipt → execution.plan.roundId = request.plan.roundId

/-- A request does not bring a second plan for a certificate that already filled a round. -/
def SinglePlan (node : DrivenNode) : NodeEvent → Prop
  | .beginRound _ request => Unspent node.executed request
  | _ => True

/-- No order filled two rounds, and the running request will not be the second. -/
structure Once (node : DrivenNode) : Prop where
  running : ∀ running, node.running = some running → Unspent node.executed running.request
  executed : ∀ a ∈ node.executed, ∀ b ∈ node.executed, a.plan.arriving = b.plan.arriving →
    Fills a.receipt → Fills b.receipt → a.plan.roundId = b.plan.roundId

omit [Serde] in
/-- Plans for one arriving order came with one certificate. -/
theorem Certified.digest_eq
    {a b : RoundPlan} (ha : Certified chain a) (hb : Certified chain b)
    (hchained : Chained state chain) (harriving : a.arriving = b.arriving) :
    a.orderingCertificate.digest = b.orderingCertificate.digest := by
  obtain ⟨c, hc, hcdigest, hccommitment, -⟩ := ha
  obtain ⟨d, hd, hddigest, hdcommitment, -⟩ := hb
  obtain rfl := hchained.eq_of_commitment hc hd
    (hccommitment.trans (harriving.trans hdcommitment.symm))
  exact hcdigest.symm.trans hddigest

theorem Once.step {known : Set OrderCertificate} {runtime : NodeRuntime} {node : DrivenNode}
    (h : Once node) (hsound : Sound known node) (hplan : SinglePlan node event) :
    Once (step runtime node event) := by
  refine ⟨running_of_begin Unspent h.running ?_, ?_⟩
  · rintro disk request rfl
    exact hplan
  · rcases (step_histories runtime node event).2.1 with
      hsame | ⟨running, execution, hrunning, hexecution, hadded, -⟩
    · exact hsame ▸ h.executed
    · -- a round that filled before came with the same certificate, so under the same plan
      have hearlier : ∀ earlier ∈ node.executed,
          earlier.plan.arriving = execution.plan.arriving → Fills earlier.receipt →
          earlier.plan.roundId = execution.plan.roundId := by
        intro earlier hmem harriving hfills
        rw [hexecution] at harriving ⊢
        have hcertified := (hsound.running running hrunning).2.1
        have hdigest := (hsound.executed earlier hmem).2.1.digest_eq hcertified hsound.chained
          harriving
        exact h.running running hrunning earlier hmem hdigest hfills
      rw [hadded]
      intro a ha b hb harriving hafills hbfills
      rcases List.mem_cons.mp ha with rfl | ha' <;> rcases List.mem_cons.mp hb with rfl | hb'
      · rfl
      · exact (hearlier b hb' harriving.symm hbfills).symm
      · exact hearlier a ha' harriving hafills
      · exact h.executed a ha' b hb' harriving hafills hbfills

/-- **One certified order is executed at most once**, if no request brings a second plan for a
certificate that already filled a round: in every run of a fresh node, every completed round is
that of an executed plan, and no two of them have the same arriving order and a matched slot or a
remainder. -/
theorem executed_at_most_once {runtime : NodeRuntime} {store : NodeShareStore}
    (hchain : Chained store.state []) (hrounds : store.state.completedRounds = .empty)
    (events : List NodeEvent)
    (hinj : NoCollision { certificate | ∃ event ∈ events, event.certificate = some certificate })
    (hplans : Along runtime SinglePlan (start store) events) :
    let node := run runtime events (start store)
    (∀ id receipt, node.store.state.completedRounds.get? id = some receipt →
      ∃ execution ∈ node.executed, execution.plan.roundId = id ∧ execution.receipt = receipt) ∧
    ∀ a ∈ node.executed, ∀ b ∈ node.executed, a.plan.arriving = b.plan.arriving →
      Fills a.receipt → Fills b.receipt → a.plan.roundId = b.plan.roundId := by
  have honce : Once (start store) :=
    ⟨fun running hrunning => absurd hrunning (by simp [start]),
      fun a ha => absurd ha List.not_mem_nil⟩
  obtain ⟨hsound, hdone⟩ := Sound.runs hinj (fun node event hsound h hplan => h.step hsound hplan)
    events (sound_start hchain hrounds) honce hplans
    fun event hevent certificate h => ⟨event, hevent, h⟩
  exact ⟨hsound.rounds, hdone.executed⟩

/-! ## Time priority -/

/-- The chain holds certificates for both orders, that for `a` with the lower sequence. -/
def Precedes (chain : List OrderCertificate) (a b : Digest32) : Prop :=
  ∃ first ∈ chain, ∃ second ∈ chain, first.commitment = a ∧ second.commitment = b ∧
    first.sequence < second.sequence

/-- The resting orders of a plan are certified before the arriving one and listed in certified
order, so that a lower slot is an earlier order. -/
structure TimePriority (chain : List OrderCertificate) (plan : RoundPlan) : Prop where
  certified : ∀ commitment ∈ plan.resting, Precedes chain commitment plan.arriving
  sorted : plan.resting.Pairwise (Precedes chain)

/-- The resting orders arrived in earlier rounds of the node and are listed in the order of these
rounds. -/
def Queued (executed : List Execution) (request : ExecuteRequest) : Prop :=
  request.plan.resting.Sublist (executed.reverse.map fun execution => execution.plan.arriving)

/-- A request lists its resting orders as they arrived. -/
def ListsQueue (node : DrivenNode) : NodeEvent → Prop
  | .beginRound _ request => Queued node.executed request
  | _ => True

structure Prioritized (node : DrivenNode) : Prop where
  running : ∀ running, node.running = some running → Queued node.executed running.request
  executed : ∀ execution ∈ node.executed, TimePriority node.chain execution.plan

omit [NodeCrypto] [Serde] in
theorem Precedes.mono {a b : Digest32} (h : Precedes chain a b)
    (l : List OrderCertificate) : Precedes (l ++ chain) a b := by
  obtain ⟨first, hfirst, second, hsecond, hrest⟩ := h
  exact ⟨first, List.mem_append_right _ hfirst, second, List.mem_append_right _ hsecond, hrest⟩

omit [NodeCrypto] [Serde] in
theorem TimePriority.mono
    (h : TimePriority chain plan) (l : List OrderCertificate) : TimePriority (l ++ chain) plan :=
  ⟨fun commitment hmem => (h.certified commitment hmem).mono l, h.sorted.imp fun h => h.mono l⟩

omit [Serde] in
/-- Plans for different orders precede each other as their sequences do. -/
theorem Certified.precedes {a b : RoundPlan}
    (ha : Certified chain a) (hb : Certified chain b) (hchained : Chained state chain)
    (hle : a.sequence ≤ b.sequence) (hne : a.arriving ≠ b.arriving) :
    Precedes chain a.arriving b.arriving := by
  obtain ⟨c, hc, -, hccommitment, hcsequence⟩ := ha
  obtain ⟨d, hd, -, hdcommitment, hdsequence⟩ := hb
  refine ⟨c, hc, d, hd, hccommitment, hdcommitment, lt_of_le_of_ne (by omega) fun heq => hne ?_⟩
  rw [← hccommitment, ← hdcommitment, hchained.linked.eq_of_sequence hc hd heq]

omit [Serde] in
/-- The rounds of a sound node are queued in certified order. -/
theorem Sound.timePriority {known : Set OrderCertificate} {node : DrivenNode}
    (h : Sound known node) {running : Running} (hrunning : node.running = some running)
    (hqueued : Queued node.executed running.request) :
    TimePriority node.chain running.request.plan := by
  obtain ⟨⟨⟨now, hbound⟩, hnodup⟩, hcertified, hsequence, -⟩ := h.running running hrunning
  have harriving : running.request.plan.arriving ∉ running.request.plan.resting :=
    hbound.2.2.2.2.2.2.2.2.2.2.2.1
  obtain ⟨entries, hentries, hresting⟩ := List.sublist_map_iff.mp hqueued
  have hmem : ∀ entry ∈ entries, entry ∈ node.executed := fun entry hentry =>
    List.mem_reverse.mp (hentries.subset hentry)
  have hsorted : entries.Pairwise fun a b => a.plan.sequence ≤ b.plan.sequence :=
    (List.pairwise_reverse.mpr h.order).sublist hentries
  have hdistinct : entries.Pairwise fun a b => a.plan.arriving ≠ b.plan.arriving := by
    rw [hresting] at hnodup
    exact List.pairwise_map.mp hnodup
  constructor
  · intro commitment hcommitment
    rw [hresting] at hcommitment
    obtain ⟨entry, hentry, rfl⟩ := List.mem_map.mp hcommitment
    have hearlier := (h.executed entry (hmem entry hentry)).2.1
    refine hearlier.precedes hcertified h.chained ?_ ?_
    · exact (hearlier.sequence_le h.chained).trans_eq hsequence.symm
    · intro heq
      rw [← heq, hresting] at harriving
      exact harriving (List.mem_map.mpr ⟨entry, hentry, rfl⟩)
  · rw [hresting]
    refine List.pairwise_map.mpr ((hsorted.and hdistinct).imp_of_mem fun ha hb hab => ?_)
    exact (h.executed _ (hmem _ ha)).2.1.precedes (h.executed _ (hmem _ hb)).2.1 h.chained hab.1
      hab.2

theorem Prioritized.step {known : Set OrderCertificate} {runtime : NodeRuntime}
    {node : DrivenNode} (h : Prioritized node) (hsound : Sound known node)
    (hqueue : ListsQueue node event) : Prioritized (step runtime node event) := by
  obtain ⟨added, hchain⟩ := (step_histories runtime node event).1
  have hkept : ∀ execution ∈ node.executed,
      TimePriority (DrivenNode.step runtime node event).chain execution.plan := by
    intro execution hmem
    rw [hchain]
    exact (h.executed execution hmem).mono added
  refine ⟨running_of_begin Queued h.running ?_, ?_⟩
  · rintro disk request rfl
    exact hqueue
  · rcases (step_histories runtime node event).2.1 with
      hsame | ⟨running, execution, hrunning, hexecution, hadded, -⟩
    · exact hsame ▸ hkept
    · rw [hadded]
      refine List.forall_mem_cons.mpr ⟨?_, hkept⟩
      rw [hexecution, hchain]
      exact (hsound.timePriority hrunning (h.running running hrunning)).mono added

/-- **Executed rounds respect certified time priority**, if every request lists resting orders that
arrived in earlier rounds of the node, in the order of these rounds: then every completed round
comes from an executed plan whose resting orders were all certified before its arriving order, in
increasing sequence. -/
theorem rounds_respect_time_priority {runtime : NodeRuntime} {store : NodeShareStore}
    (hchain : Chained store.state []) (hrounds : store.state.completedRounds = .empty)
    (events : List NodeEvent)
    (hinj : NoCollision { certificate | ∃ event ∈ events, event.certificate = some certificate })
    (hqueue : Along runtime ListsQueue (start store) events) :
    let node := run runtime events (start store)
    ∀ id receipt, node.store.state.completedRounds.get? id = some receipt →
      ∃ execution ∈ node.executed, execution.plan.roundId = id ∧ execution.receipt = receipt ∧
        TimePriority node.chain execution.plan := by
  have hstart : Prioritized (start store) :=
    ⟨fun running hrunning => absurd hrunning (by simp [start]),
      fun execution hmem => absurd hmem List.not_mem_nil⟩
  obtain ⟨hsound, hdone⟩ := Sound.runs hinj (fun node event hsound h hqueue => h.step hsound hqueue)
    events (sound_start hchain hrounds) hstart hqueue
    fun event hevent certificate h => ⟨event, hevent, h⟩
  intro node id receipt hround
  obtain ⟨execution, hmem, hid, hreceipt⟩ := hsound.rounds id receipt hround
  exact ⟨execution, hmem, hid, hreceipt, hdone.executed execution hmem⟩

/-- A request that passes every check completes its round. -/
theorem run_request (runtime : NodeRuntime) (node : DrivenNode) (request : ExecuteRequest)
    {files : PrivateFiles} {outcome : Except PartyExecutionError PartyRun} {generation : Nat}
    {out : NodeShareStore} {executor : PartyExecutor} {prepared : PreparedPartyInput}
    {receipt : NodeExecutionReceipt} (hidle : node.running = none)
    (hrole : request.role = .coordinator)
    (hverify : request.plan.verifyOrdering runtime.orderingPolicy runtime.orderingKeys
      request.now = .ok ())
    (hkey : request.plan.coordinator = request.applicationKey)
    (haccept : (acceptOrderCertificate .written request.plan.orderingCertificate
      runtime.orderingPolicy runtime.orderingKeys request.now).run node.store = .ok generation out)
    (hnew : out.state.completedRounds.get? request.plan.roundId = none)
    (hprepared : out.prepareRound files request.plan.marketId request.plan.resting
      request.plan.arriving request.now = .ok prepared)
    (hexecutor : runtime.executor = some executor)
    (hreceipt : executor.execute outcome prepared request.plan = .ok receipt)
    (hcomplete : receipt.Complete out.state.party)
    (hfits : NodeShareStore.Fits { out.state with
      completedRounds := out.state.completedRounds.insert request.plan.roundId receipt }) :
    run runtime [.beginRound .written request, .prepareInput files, .finishRound .written outcome]
        node =
      { store := out.saved (bumped { out.state with
          completedRounds := out.state.completedRounds.insert request.plan.roundId receipt })
        running := none
        chain := extended request.plan.orderingCertificate node.store.state out.state node.chain
        executed := ⟨request.plan, receipt, out.state.privateHeads⟩ :: node.executed } := by
  have hround : receipt.roundId = request.plan.roundId := by
    obtain ⟨-, -, -, hround, -⟩ := PartyExecutor.execute_ok hreceipt
    exact hround
  have hbegin : (request.beginRound runtime .written).run node.store = .ok () out := by
    rw [ExecuteRequest.beginRound, run_ensure_bind, if_pos hrole, hverify]
    simp only [Except.mapError]
    rw [run_attempt_ok_bind, run_ensure_bind, if_pos hkey, EStateM.run_bind, run_adaptExcept,
      haccept]
    rfl
  have hprepare : request.prepareInput out files = .ok (.inr prepared) := by
    rw [ExecuteRequest.prepareInput, hnew, hprepared]
    rfl
  have hfinish : (request.finishRound runtime .written outcome prepared).run out =
      .ok receipt (out.saved (bumped { out.state with
        completedRounds := out.state.completedRounds.insert request.plan.roundId receipt })) := by
    rw [← hround] at hnew hfits ⊢
    rw [ExecuteRequest.finishRound, hexecutor]
    simp only [okOr]
    rw [run_attempt_ok_bind, hreceipt]
    simp only [Except.mapError]
    rw [run_attempt_ok_bind, EStateM.run_bind, run_adaptExcept,
      recordCompletedRound_written hcomplete hnew hfits]
    rfl
  simp only [run_cons, run_nil, step, hidle, hbegin, hprepare, hfinish, after, Lib.succeeds,
    if_true]
  rw [completed_of_insert hnew rfl]
  rfl

end DrivenNode

end

/-! ## One certificate, two rounds

The order of source 1 is certified as the first one and executed twice. -/

section Sample

set_option maxRecDepth 100000

attribute [local instance] transparentNodeCrypto clusterSerde

namespace DrivenNode

open Cluster NodeShareStore

def sampleExecutor : PartyExecutor := ⟨0, [7], [1], 41⟩

def sampleRuntime : NodeRuntime := ⟨.sevenNode, sampleKeys, some sampleExecutor⟩

/-- A signed plan for a certified order against `resting`. -/
def signedPlan (certificate : OrderCertificate) (resting : List Digest32) (issuedAt : Nat) :
    RoundPlan :=
  let draft : RoundPlan := {
    version := executorVersion
    marketId := "JGB10Y-JPY"
    sequence := certificate.sequence
    orderingCertificate := certificate
    resting
    arriving := certificate.commitment
    issuedAt
    expiresAt := 100
    coordinator := 51
    roundId := 0
    signature := [] }
  let plan := { draft with roundId := draft.derivedRoundId }
  { plan with signature := plan.coordinator.bytes ++ plan.signatureBody }

def requestOf (plan : RoundPlan) : ExecuteRequest := ⟨.coordinator, 51, plan, 60⟩

/-- The order stays in the book. -/
def restsResult : MpcBatchResult :=
  ⟨List.replicate 8 ⟨false, 0, 0⟩, 5, some [⟨.buy, 100, 5⟩]⟩

/-- The order is matched with that in the first slot. -/
def tradesResult : MpcBatchResult :=
  ⟨⟨true, 100, 5⟩ :: List.replicate 7 ⟨false, 0, 0⟩, 0, some []⟩

def requestEvents (plan : RoundPlan) (result : MpcBatchResult) : List NodeEvent :=
  [.beginRound .written (requestOf plan), .prepareInput none,
    .finishRound .written (.ok ⟨result, 61, 1⟩)]

/-- The fields of a sample order. -/
def sampleFields : List String :=
  let one := scalarDecimal 1
  ["1", one, one, one, one, "0", "0", "0"]

/-- The input of a round for the order of `source`. -/
def sampleInput (generation : Nat) (source : Digest32) (resting : List Digest32)
    (fields : List String) (manifests : List EdgeOrderManifest) : PreparedPartyInput :=
  let arriving := (sampleManifest source).commitment
  let contents := asBytes (" ".intercalate (fields ++ [sampleFields.getD 1 "",
    sampleFields.getD 2 "", sampleFields.getD 3 "", scalarDecimal 1, sampleFields.getD 4 "",
    sampleFields.getD 5 "", sampleFields.getD 6 "", sampleFields.getD 7 ""])) ++ [10]
  { party := 0
    generation
    roundCommitment := roundCommitment 0 generation resting arriving contents
    privateParentDigest := sha256 (parentText .empty resting arriving)
    contents
    arrivingManifest := sampleManifest source
    restingManifests := manifests }

/-- The input with an empty book. -/
def aloneInput (generation : Nat) (source : Digest32) : PreparedPartyInput :=
  sampleInput generation source [] (List.replicate 64 "0") []

/-- The input against the order of `other`. -/
def againstInput (generation : Nat) (source other : Digest32) : PreparedPartyInput :=
  sampleInput generation source [(sampleManifest other).commitment]
    (sampleFields ++ List.replicate 56 "0") [sampleManifest other]

/-- The attestation of the sample party. -/
def attestationOf (plan : RoundPlan) (result : MpcBatchResult) (levels : List PriceLevel) :
    DepthAttestation :=
  let draft : DepthAttestation := {
    version := 2
    party := 0
    marketId := plan.marketId
    sequence := plan.sequence
    roundId := plan.roundId
    bookDigest := publicDepthDigest levels
    publicOutputSha256 := publicOutputDigest result
    programSha256 := sha256 [1]
    stateCommitment := 61
    issuedAt := plan.issuedAt
    validUntil := plan.expiresAt
    settlementRequired := anyMatched result
    signer := verifyingKey [7]
    signature := [] }
  { draft with signature := (verifyingKey [7]).bytes ++ draft.body }

/-- The receipt of the sample party. -/
def receiptOf (plan : RoundPlan) (input : PreparedPartyInput) (result : MpcBatchResult)
    (levels : List PriceLevel) : NodeExecutionReceipt :=
  let receipt := sampleExecutor.unsignedReceipt ⟨result, 61, 1⟩ input plan
    (attestationOf plan result levels)
  { receipt with signature := (verifyingKey [7]).bytes ++ receipt.signatureBody }

/-- The certificate of the order of source 1. -/
def firstCertificate : OrderCertificate := sampleCertificate 1 100 [1, 2, 3, 4, 5]

/-- The certificate of the order of source 2, the next one. -/
def nextCertificate : OrderCertificate := votedCertificate
  ⟨"JGB10Y-JPY", 2, (sampleManifest 2).commitment, firstCertificate.digest, 100⟩ [1, 2, 3, 4, 5]

/-- The first order with an empty book; it rests. -/
def firstPlan : RoundPlan := signedPlan firstCertificate [] 55

def firstReceipt : NodeExecutionReceipt :=
  receiptOf firstPlan (aloneInput 4 1) restsResult [⟨.buy, 100, 5⟩]

/-- The first order again, against the second; they trade. -/
def againPlan : RoundPlan := signedPlan firstCertificate [(sampleManifest 2).commitment] 56

def againReceipt : NodeExecutionReceipt := receiptOf againPlan (againstInput 5 1 2) tradesResult []

/-- The second order against the first; they trade. -/
def nextPlan : RoundPlan := signedPlan nextCertificate [(sampleManifest 1).commitment] 57

def nextReceipt : NodeExecutionReceipt := receiptOf nextPlan (againstInput 6 2 1) tradesResult []

/-! The states of the node. -/

/-- Both orders are admitted and the first has the node's vote. -/
def votedState : StoreState := withVote (both 0) (sampleStatement 1 100)

def recordedState (state : StoreState) (receipt : NodeExecutionReceipt) : StoreState :=
  bumped { state with completedRounds := state.completedRounds.insert receipt.roundId receipt }

/-! The runs. -/

def sampleStart : DrivenNode := start (sampleNode 0 (emptyState 0 []))

def votedEvents : List NodeEvent :=
  [.call (ingestAt 1 0), .call (ingestAt 2 0), .call (voteAt 1 100 50 0)]

/-- The node that has voted for the first order. -/
def votedNode : DrivenNode := ⟨sampleNode 0 votedState, none, [], []⟩

theorem run_votedEvents : run sampleRuntime votedEvents sampleStart = votedNode := by
  have hfirst : (ingestAt 1 0).apply (sampleNode 0 (emptyState 0 [])) = _ := apply_ingestFirst 0
  have hvote : (voteAt 1 100 50 0).apply (sampleNode 0 (both 0)) = sampleNode 0 votedState := by
    have hcheck : checkVote (both 0) (sampleStatement 1 100) 50 = .ok () := by decide +kernel
    have hrun : (recordOrderVote .written (sampleStatement 1 100) 50).run (sampleNode 0 (both 0)) =
        .ok _ (sampleNode 0 votedState) :=
      recordOrderVote_written hcheck rfl (sample_fits (by decide : 2 + 1 < u64Bound))
    rw [voteAt, StoreOp.apply, hrun]
    rfl
  have hcall : ∀ (op : StoreOp) (store out : NodeShareStore), op.records = false →
      op.apply store = out → op.extension store = none →
      step sampleRuntime ⟨store, none, [], []⟩ (.call op) = ⟨out, none, [], []⟩ := by
    intro op store out hrecords happly hextension
    simp [step, hrecords, happly, hextension]
  rw [votedEvents, run_cons, sampleStart, start, hcall _ _ _ rfl hfirst rfl, run_cons,
    hcall _ _ _ rfl (apply_ingestSecond 0) rfl, run_cons, hcall _ _ _ rfl hvote rfl]
  rfl

theorem sample_digests : nextCertificate.digest ≠ firstCertificate.digest ∧
    firstPlan.roundId ≠ againPlan.roundId := by
  decide +kernel

/-- The node after the first round. -/
def afterFirst : DrivenNode := run sampleRuntime (requestEvents firstPlan restsResult) votedNode

/-- The order of `source` can enter a round, and no other round is pending. -/
structure Ready (store : NodeShareStore) (source : Digest32) : Prop where
  settled : store.state.Settled
  party : store.state.party = 0
  privateHeads : store.state.privateHeads = .empty
  record : store.state.records.get? (sampleManifest source).commitment =
    some (sampleRecord source 0 10)
  opens : store.openRecord (sampleManifest source).commitment "JGB10Y-JPY" 60 =
    .ok (sampleRecord source 0 10, sampleShare source 0)

section Ready

variable {store : NodeShareStore} {state : StoreState} {source other commitment : Digest32}
  {resting : List Digest32} {fields : List String} {manifests : List EdgeOrderManifest}

/-- The orders that party 0 has admitted are ready. -/
theorem ready_sample (hsource : source = 1 ∨ source = 2) (hsettled : state.Settled)
    (hstate : state.party = 0 ∧ state.privateHeads = .empty ∧ state.lifecycle = .empty ∧
      state.records = (both 0).records) : Ready (sampleNode 0 state) source := by
  obtain ⟨hparty, hheads, hlifecycle, hrecords⟩ := hstate
  have hrecord : state.records.get? (sampleManifest source).commitment =
      some (sampleRecord source 0 10) := by
    rw [hrecords]
    rcases hsource with rfl | rfl
    · exact (get?_insert _ _ _ _).trans
        ((if_neg sample_commitments.1).trans get?_insert_self)
    · exact get?_insert_self
  -- by its lemma: evaluated, the 64 KiB of the envelope would dominate every run below
  have hopen : (sampleSealedShare source 0).open sampleDecryptionKey (sampleManifest source)
      state.party 60 = .ok (sampleShare source 0) := by
    rw [hparty]
    refine sampleSealedShare_open ?_ (by decide) (by decide)
    rcases hsource with rfl | rfl <;> decide
  have hblocks : state.lifecycleBlocks (sampleManifest source).commitment = false := by
    rw [StoreState.lifecycleBlocks, hlifecycle]
    rfl
  refine ⟨hsettled, hparty, hheads, hrecord, ?_⟩
  simp only [openRecord, ok_rules]
  exact ⟨(), hblocks, _, hrecord, (), rfl, _, hopen, rfl⟩

theorem Ready.original (h : Ready store source) :
    store.originalPrivateFields (sampleManifest source).commitment "JGB10Y-JPY" 60 =
      .ok sampleFields := by
  simp only [originalPrivateFields, ok_rules]
  exact ⟨_, h.opens, rfl⟩

/-- The input of a round: the fields of the slots, and those of the arriving order. -/
theorem Ready.prepareRound (h : Ready store source) (hshape : resting.length ≤ maxMatchSlots ∧
      (sampleManifest source).commitment ∉ resting ∧ resting.Nodup)
    (hslots : store.slotFields none "JGB10Y-JPY" 60 resting maxMatchSlots = .ok fields)
    (hmanifests : manifestsOf store.state resting = .ok manifests) :
    store.prepareRound none "JGB10Y-JPY" resting (sampleManifest source).commitment 60 =
      .ok (sampleInput store.state.generation source resting fields manifests) := by
  have hname : 0 < "JGB10Y-JPY".utf8ByteSize ∧ "JGB10Y-JPY".utf8ByteSize ≤ 64 := by decide
  simp only [NodeShareStore.prepareRound, StoreState.requireLifecycleBarrier, ok_rules]
  refine ⟨(), h.settled, (), ⟨hname.1, hname.2, hshape⟩, _, h.opens, _, h.original, fields, hslots,
    _, h.record, manifests, hmanifests, ?_⟩
  rw [h.party, privateParentDigest, h.privateHeads]
  rfl

/-- The slots of a book with one order. -/
theorem slotFields_single (hheads : store.state.privateHeads = .empty)
    (h : store.originalPrivateFields commitment "JGB10Y-JPY" 60 = .ok fields) :
    store.slotFields none "JGB10Y-JPY" 60 [commitment] maxMatchSlots =
      .ok (fields ++ List.replicate 56 "0") := by
  have hfields : store.privateOrderFields none commitment "JGB10Y-JPY" 60 = .ok fields := by
    rw [privateOrderFields, hheads]
    exact h
  simp [slotFields, maxMatchSlots, privateOrderWires, hfields, bind, Except.bind, pure, Except.pure]

theorem Ready.against (h : Ready store source) (h' : Ready store other)
    (hne : (sampleManifest source).commitment ≠ (sampleManifest other).commitment) :
    store.prepareRound none "JGB10Y-JPY" [(sampleManifest other).commitment]
      (sampleManifest source).commitment 60 =
        .ok (againstInput store.state.generation source other) := by
  refine h.prepareRound
    ⟨(by decide : 1 ≤ 8), mt List.mem_singleton.mp hne, List.nodup_singleton _⟩
    (slotFields_single h.privateHeads h'.original) ?_
  simp only [manifestsOf, ok_rules]
  exact ⟨_, h'.record, [], rfl, rfl⟩

end Ready

/-- The state after the certificate of the first order. -/
def certifiedState : StoreState := bumped (afterCertificate votedState firstCertificate)

/-- The state after its round. -/
def firstState : StoreState := recordedState certifiedState firstReceipt

/-- The state after the certificate of the second order. -/
def nextState : StoreState := bumped (afterCertificate firstState nextCertificate)

/-- The node after the first round, written out. -/
def firstNode : DrivenNode :=
  ⟨sampleNode 0 firstState, none, [firstCertificate], [⟨firstPlan, firstReceipt, .empty⟩]⟩

theorem settled_firstState : firstState.Settled := by
  refine ⟨fun _ h => absurd h List.not_mem_nil, fun round hround hmatched => ?_⟩
  obtain rfl : round = (firstPlan.roundId, firstReceipt) := List.mem_singleton.mp hround
  exact absurd hmatched (by decide)

/-- The checks of a plan and of its receipt. -/
abbrev Passes (plan : RoundPlan) (result : MpcBatchResult) (input : PreparedPartyInput)
    (receipt : NodeExecutionReceipt) : Prop :=
  plan.verifyOrdering .sevenNode sampleKeys 60 = .ok () ∧
    sampleExecutor.execute (.ok ⟨result, 61, 1⟩) input plan = .ok receipt ∧ receipt.Complete 0

theorem afterFirst_eq : afterFirst = firstNode := by
  have hplan : Passes firstPlan restsResult (aloneInput 4 1) firstReceipt := by decide +kernel
  have hcheck : checkCertificate votedState firstCertificate 60 = .ok () := by decide +kernel
  have haccept : (acceptOrderCertificate .written firstCertificate .sevenNode sampleKeys 60).run
      (sampleNode 0 votedState) = .ok 4 (sampleNode 0 certifiedState) :=
    acceptOrderCertificate_written sample_quorums.1 (by decide : 1 ≠ 0) hcheck
      (sample_fits (by decide : 3 + 1 < u64Bound))
  have hready : Ready (sampleNode 0 certifiedState) 1 := ready_sample (.inl rfl)
    ⟨fun _ h => absurd h List.not_mem_nil, fun _ h => absurd h List.not_mem_nil⟩
    ⟨rfl, rfl, rfl, rfl⟩
  exact run_request sampleRuntime votedNode (requestOf firstPlan) rfl rfl hplan.1 rfl haccept rfl
    (hready.prepareRound ⟨by decide, List.not_mem_nil, List.nodup_nil⟩ rfl rfl) rfl hplan.2.1
    hplan.2.2 (sample_fits (by decide : 4 + 1 < u64Bound))

/-- What the rounds in turn leave behind. -/
theorem sample_next :
    let next := run sampleRuntime (requestEvents nextPlan tradesResult) afterFirst
    afterFirst.executed.map (·.plan) = [firstPlan] ∧ next.executed.length = 2 ∧
      next.store.state.completedRounds.get? nextPlan.roundId = some nextReceipt := by
  have hplan : Passes nextPlan tradesResult (againstInput 6 2 1) nextReceipt := by decide +kernel
  have hcheck : nextCertificate.verify .sevenNode sampleKeys 60 = .ok () ∧
      checkCertificate firstState nextCertificate 60 = .ok () ∧
      nextPlan.roundId ≠ firstPlan.roundId := by decide +kernel
  have haccept : (acceptOrderCertificate .written nextCertificate .sevenNode sampleKeys 60).run
      (sampleNode 0 firstState) = .ok 6 (sampleNode 0 nextState) :=
    acceptOrderCertificate_written hcheck.1 (by decide : 2 ≠ 1) hcheck.2.1
      (sample_fits (by decide : 5 + 1 < u64Bound))
  have hready {source : Digest32} (h : source = 1 ∨ source = 2) :
      Ready (sampleNode 0 nextState) source :=
    ready_sample h settled_firstState ⟨rfl, rfl, rfl, rfl⟩
  have hrun := run_request sampleRuntime firstNode (requestOf nextPlan) rfl rfl hplan.1 rfl haccept
    ((get?_insert _ _ _ _).trans (if_neg hcheck.2.2))
    ((hready (.inr rfl)).against (hready (.inl rfl)) sample_commitments.1.symm) rfl hplan.2.1
    hplan.2.2 (sample_fits (by decide : 6 + 1 < u64Bound))
  rw [afterFirst_eq, requestEvents, hrun]
  exact ⟨rfl, rfl, get?_insert_self⟩

/-- What the repeated round leaves behind. -/
theorem sample_again :
    let again := run sampleRuntime (requestEvents againPlan tradesResult) afterFirst
    (again.store.state.completedRounds.get? firstPlan.roundId = some firstReceipt ∧
      again.store.state.completedRounds.get? againPlan.roundId = some againReceipt) ∧
      again.chain = [firstCertificate] ∧
      ∃ execution ∈ again.executed, execution.plan = againPlan ∧
        execution.receipt = againReceipt := by
  have hplan : Passes againPlan tradesResult (againstInput 5 1 2) againReceipt := by decide +kernel
  have haccept : (acceptOrderCertificate .written firstCertificate .sevenNode sampleKeys 60).run
      (sampleNode 0 firstState) = .ok 5 (sampleNode 0 firstState) := by
    have hverify : firstCertificate.verify .sevenNode sampleKeys 60 = .ok () := sample_quorums.1
    have hhead : firstCertificate.sequence = (sampleNode 0 firstState).state.orderingSequence := rfl
    rw [acceptOrderCertificate, hverify]
    simp only [Except.mapError]
    rw [run_attempt_ok_bind, run_get_bind, if_pos hhead, run_ensure_bind]
    exact if_pos ⟨rfl, Finset.mem_insert_self _ _⟩
  have hready {source : Digest32} (h : source = 1 ∨ source = 2) :
      Ready (sampleNode 0 firstState) source :=
    ready_sample h settled_firstState ⟨rfl, rfl, rfl, rfl⟩
  have hrun := run_request sampleRuntime firstNode (requestOf againPlan) rfl rfl hplan.1 rfl haccept
    ((get?_insert _ _ _ _).trans (if_neg sample_digests.2.symm))
    ((hready (.inl rfl)).against (hready (.inr rfl)) sample_commitments.1) rfl hplan.2.1
    hplan.2.2 (sample_fits (by decide : 5 + 1 < u64Bound))
  rw [afterFirst_eq, requestEvents, hrun]
  refine ⟨⟨?_, get?_insert_self⟩, rfl, _, List.mem_cons_self, rfl, rfl⟩
  exact (get?_insert _ _ _ _).trans ((if_neg sample_digests.2).trans get?_insert_self)

theorem plan_of_afterFirst {execution : Execution} (h : execution ∈ afterFirst.executed) :
    execution.plan = firstPlan := by
  have hmem := List.mem_map_of_mem (f := (·.plan)) h
  rw [sample_next.1] at hmem
  exact List.mem_singleton.mp hmem

/-- The first order is executed, then the second against it. -/
def inTurn : List NodeEvent :=
  votedEvents ++ (requestEvents firstPlan restsResult ++ requestEvents nextPlan tradesResult)

theorem run_inTurn : run sampleRuntime inTurn sampleStart =
    run sampleRuntime (requestEvents nextPlan tradesResult) afterFirst := by
  rw [inTurn, run_append, run_append, run_votedEvents, afterFirst]

/-- Two rounds in turn meet a condition on requests that holds of both. -/
theorem along_inTurn {P : DrivenNode → NodeEvent → Prop}
    (hcall : ∀ node op, P node (.call op)) (hprepare : ∀ node files, P node (.prepareInput files))
    (hfinish : ∀ node disk outcome, P node (.finishRound disk outcome))
    (hfirst : P votedNode (.beginRound .written (requestOf firstPlan)))
    (hnext : P afterFirst (.beginRound .written (requestOf nextPlan))) :
    Along sampleRuntime P sampleStart inTurn := by
  rw [inTurn, along_append, along_append, run_votedEvents]
  exact ⟨⟨hcall _ _, hcall _ _, hcall _ _, trivial⟩, ⟨hfirst, hprepare _ _, hfinish _ _ _, trivial⟩,
    hnext, hprepare _ _, hfinish _ _ _, trivial⟩

theorem noCollision_inTurn :
    NoCollision { certificate | ∃ event ∈ inTurn, event.certificate = some certificate } := by
  have hknown : ∀ certificate, (∃ event ∈ inTurn, event.certificate = some certificate) →
      certificate = firstCertificate ∨ certificate = nextCertificate := by
    rintro certificate ⟨event, hevent, hcertificate⟩
    simp only [inTurn, votedEvents, requestEvents, List.cons_append, List.nil_append,
      List.mem_cons, List.not_mem_nil, or_false] at hevent
    rcases hevent with rfl | rfl | rfl | rfl | rfl | rfl | rfl | rfl | rfl
    case inr.inr.inr.inl => exact Or.inl (Option.some.inj hcertificate).symm
    case inr.inr.inr.inr.inr.inr.inl => exact Or.inr (Option.some.inj hcertificate).symm
    all_goals exact absurd hcertificate (by simp [NodeEvent.certificate, ingestAt, voteAt])
  intro a ha b hb hdigest
  rcases hknown a ha with rfl | rfl <;> rcases hknown b hb with rfl | rfl
  · rfl
  · exact absurd hdigest.symm sample_digests.1
  · exact absurd hdigest sample_digests.1
  · rfl

/-- Two orders executed in turn fill one round each. -/
theorem executed_at_most_once_sample :
    (run sampleRuntime inTurn sampleStart).executed.length = 2 ∧
    ∀ a ∈ (run sampleRuntime inTurn sampleStart).executed,
      ∀ b ∈ (run sampleRuntime inTurn sampleStart).executed, a.plan.arriving = b.plan.arriving →
      Fills a.receipt → Fills b.receipt → a.plan.roundId = b.plan.roundId := by
  have hlength : (run sampleRuntime inTurn sampleStart).executed.length = 2 := by
    rw [run_inTurn]
    exact sample_next.2.1
  refine ⟨hlength, (executed_at_most_once (chained_emptyState 0 []) rfl inTurn
    noCollision_inTurn (along_inTurn (fun _ _ => trivial) (fun _ _ => trivial)
      (fun _ _ _ => trivial) ?_ ?_)).2⟩
  · exact fun execution hmem => absurd hmem List.not_mem_nil
  · intro execution hmem hdigest
    rw [plan_of_afterFirst hmem] at hdigest
    exact absurd hdigest.symm sample_digests.1

/-- The second of them meets the first, which was certified before it. -/
theorem rounds_respect_time_priority_sample :
    ∃ execution ∈ (run sampleRuntime inTurn sampleStart).executed,
      execution.plan.roundId = nextPlan.roundId ∧ execution.receipt = nextReceipt ∧
      TimePriority (run sampleRuntime inTurn sampleStart).chain execution.plan := by
  have hround : (run sampleRuntime inTurn sampleStart).store.state.completedRounds.get?
      nextPlan.roundId = some nextReceipt := by
    rw [run_inTurn]
    exact sample_next.2.2
  have hqueued : Queued afterFirst.executed (requestOf nextPlan) := by
    have hplans : afterFirst.executed.reverse.map (·.plan.arriving) =
        [(sampleManifest 1).commitment] := by
      have harriving := congrArg (List.map (·.arriving)) sample_next.1
      rw [List.map_map] at harriving
      rw [List.map_reverse]
      exact congrArg List.reverse harriving
    rw [Queued, hplans]
    exact List.Sublist.refl _
  have hqueue : Along sampleRuntime ListsQueue sampleStart inTurn :=
    along_inTurn (fun _ _ => trivial) (fun _ _ => trivial) (fun _ _ _ => trivial)
      (List.nil_sublist _) hqueued
  rw [sampleStart] at hround hqueue ⊢
  exact rounds_respect_time_priority (chained_emptyState 0 []) rfl inTurn noCollision_inTurn hqueue
    nextPlan.roundId nextReceipt hround

/-- The first order is executed twice. -/
def twice : List NodeEvent :=
  votedEvents ++ (requestEvents firstPlan restsResult ++ requestEvents againPlan tradesResult)

theorem run_twice : run sampleRuntime twice sampleStart =
    run sampleRuntime (requestEvents againPlan tradesResult) afterFirst := by
  rw [twice, run_append, run_append, run_votedEvents, afterFirst]

/-- **An order is executed twice.** A fresh node executes two plans for one certificate: the order
rests with its whole quantity in the first round and is matched with its whole quantity in the
second. -/
theorem certified_order_executed_twice :
    let rounds := (run sampleRuntime twice sampleStart).store.state.completedRounds
    rounds.get? firstPlan.roundId = some firstReceipt ∧
      rounds.get? againPlan.roundId = some againReceipt ∧
      firstPlan.roundId ≠ againPlan.roundId ∧ firstPlan.arriving = againPlan.arriving ∧
      Fills firstReceipt ∧ Fills againReceipt := by
  obtain ⟨⟨hfirst, hagain⟩, -⟩ := sample_again
  rw [run_twice]
  exact ⟨hfirst, hagain, sample_digests.2, rfl, Or.inr (by decide : 0 < 5), Or.inl rfl⟩

/-- **A round runs against an order that was never certified.** The second of these rounds meets an
order for which the node has accepted no certificate. -/
theorem uncertified_order_matched :
    let node := run sampleRuntime twice sampleStart
    node.store.state.completedRounds.get? againPlan.roundId = some againReceipt ∧
      (∃ execution ∈ node.executed, execution.plan = againPlan ∧
        execution.receipt = againReceipt) ∧
      (sampleManifest 2).commitment ∈ againPlan.resting ∧
      (∀ certificate ∈ node.chain, certificate.commitment ≠ (sampleManifest 2).commitment) ∧
      ¬ TimePriority node.chain againPlan := by
  obtain ⟨⟨-, hagain⟩, hchain, hexecuted⟩ := sample_again
  rw [run_twice]
  have hnone : ∀ certificate ∈ (run sampleRuntime (requestEvents againPlan tradesResult)
      afterFirst).chain, certificate.commitment ≠ (sampleManifest 2).commitment := by
    rw [hchain]
    intro certificate hmem
    obtain rfl := List.mem_singleton.mp hmem
    exact sample_commitments.1
  refine ⟨hagain, hexecuted, List.mem_singleton_self _, hnone, fun h => ?_⟩
  obtain ⟨certificate, hmem, -, -, hcommitment, -⟩ :=
    h.certified _ (List.mem_singleton_self (sampleManifest 2).commitment)
  exact hnone certificate hmem hcommitment

end DrivenNode

end Sample

end Oclob.Node
