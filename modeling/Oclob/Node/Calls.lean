import Oclob.Node.Store

/-!
# The calls on a store

`StoreOp` names every call that can change a node's store, and `StoreOp.apply` is the store after
it, whether the call returned or failed. `StoreOp.effect` says once what a call can do, and the
results about runs of a store are read off it:

* it leaves the state alone (`kept`);
* it writes an `Edit` of the state, in memory and in the file (`wrote`);
* its generation is exhausted and it leaves the edit in memory only (`exhausted`);
* it is a finalization of more than eight resting orders, which may stop between two heads
  (`partialHeads`).
-/

namespace Oclob.Node

open Oclob.Core Oclob.Lib Oclob.Edge Oclob.Ordering NodeShareStore

/-- A call on a store with its arguments, its clock and the outcome of its write. -/
inductive StoreOp where
  | pinReservationTrust (trust : ReservationTrust)
  | ingest (disk : Disk) (manifest : EdgeOrderManifest) (sealedShare : SealedPartyShare)
      (sealedCapability : SealedCapabilityKeyShare) (now : Nat)
  | admissionReceipt (disk : Disk) (manifest : EdgeOrderManifest) (key : Bytes)
  | recordOrderVote (disk : Disk) (statement : OrderStatement) (now : Nat)
  | acceptOrderCertificate (disk : Disk) (certificate : OrderCertificate)
      (policy : CommitteePolicy) (keys : NodeKeys) (now : Nat)
  | recordCompletedRound (disk : Disk) (receipt : NodeExecutionReceipt)
  | recordNativeFinality (disk : Disk) (record : NativeFinalityRecord)
  | finalizePrivateRound (disk : Disk) (files : PrivateFiles) (plan : RoundPlan)
      (finality : PrivateStateFinality) (signingKey : Bytes)
  | registerLifecycle (disk : Disk) (command : LifecycleCommand) (now : Nat)
  | confirmRelease (disk : Disk) (observation : ReleaseObservation)
  | removeTerminal (disk : Disk) (commitment : Digest32)
  | pruneExpired (disk : Disk) (now : Nat)

namespace StoreOp

/-- The outcome of the write a call makes, if it makes one. -/
def disk : StoreOp → Disk
  | pinReservationTrust _ => .written
  | ingest disk _ _ _ _ | admissionReceipt disk _ _ | recordOrderVote disk _ _
  | acceptOrderCertificate disk _ _ _ _ | recordCompletedRound disk _
  | recordNativeFinality disk _ | finalizePrivateRound disk _ _ _ _
  | registerLifecycle disk _ _ | confirmRelease disk _ | removeTerminal disk _
  | pruneExpired disk _ => disk

/-- The calls that do not use `bump_generation`. -/
def eager : StoreOp → Bool
  | ingest .. | recordCompletedRound .. | removeTerminal .. | pruneExpired .. => true
  | _ => false

variable [NodeCrypto] [Serde]

/-- The store after a call. -/
def apply : StoreOp → NodeShareStore → NodeShareStore
  | pinReservationTrust trust, store => after ((NodeShareStore.pinReservationTrust trust).run store)
  | ingest disk manifest sealedShare sealedCapability now, store =>
    after ((NodeShareStore.ingest disk manifest sealedShare sealedCapability now).run store)
  | admissionReceipt disk manifest key, store =>
    after ((NodeShareStore.admissionReceipt disk manifest key).run store)
  | recordOrderVote disk statement now, store =>
    after ((NodeShareStore.recordOrderVote disk statement now).run store)
  | acceptOrderCertificate disk certificate policy keys now, store =>
    after ((NodeShareStore.acceptOrderCertificate disk certificate policy keys now).run store)
  | recordCompletedRound disk receipt, store =>
    after ((NodeShareStore.recordCompletedRound disk receipt).run store)
  | recordNativeFinality disk record, store =>
    after ((NodeShareStore.recordNativeFinality disk record).run store)
  | finalizePrivateRound disk files plan finality signingKey, store =>
    after ((NodeShareStore.finalizePrivateRound disk files plan finality signingKey).run store)
  | registerLifecycle disk command now, store =>
    after ((NodeShareStore.registerLifecycle disk command now).run store)
  | confirmRelease disk observation, store =>
    after ((NodeShareStore.confirmRelease disk observation).run store)
  | removeTerminal disk commitment, store =>
    after ((NodeShareStore.removeTerminal disk commitment).run store)
  | pruneExpired disk now, store => after ((NodeShareStore.pruneExpired disk now).run store)

/-- The store after a list of calls. -/
def run (ops : List StoreOp) (store : NodeShareStore) : NodeShareStore :=
  ops.foldl (fun store op => op.apply store) store

@[simp] theorem run_nil (store : NodeShareStore) : run [] store = store := rfl

@[simp] theorem run_cons (op : StoreOp) (rest : List StoreOp) (store : NodeShareStore) :
    run (op :: rest) store = run rest (op.apply store) := rfl

theorem run_append (first second : List StoreOp) (store : NodeShareStore) :
    run (first ++ second) store = run second (run first store) := List.foldl_append

end StoreOp

/-! ## Edits -/

/-- The heads after the loop of `finalize_private_round` over the resting orders. -/
def restingHeads (plan : RoundPlan) (receipt : NodeExecutionReceipt)
    (finality : PrivateStateFinality) :
    Nat → List Digest32 → OrdMap Digest32 PrivateBookStateRef →
      OrdMap Digest32 PrivateBookStateRef
  | _, [], heads => heads
  | slot, commitment :: rest, heads => restingHeads plan receipt finality (slot + 1) rest
      (heads.insert commitment
        (headAt plan receipt finality (slot * privateOrderWires)))

/-- The heads after the loop over the resting orders: old ones, and one for each slot. -/
theorem get?_restingHeads {plan : RoundPlan} {receipt : NodeExecutionReceipt}
    {finality : PrivateStateFinality} {commitment : Digest32} {head : PrivateBookStateRef}
    (l : List Digest32) : ∀ (slot : Nat) (heads : OrdMap Digest32 PrivateBookStateRef),
    (restingHeads plan receipt finality slot l heads).get? commitment = some head →
    heads.get? commitment = some head ∨ commitment ∈ l ∧ ∃ k < slot + l.length,
      head = headAt plan receipt finality (k * privateOrderWires) := by
  induction l with
  | nil => exact fun slot heads h => Or.inl h
  | cons first rest ih =>
    intro slot heads h
    rcases ih (slot + 1) _ h with hold | ⟨hmem, k, hk, heq⟩
    · obtain ⟨rfl, rfl⟩ | ⟨-, hold⟩ := OrdMap.get?_insert_eq_some hold
      · refine Or.inr ⟨List.mem_cons_self, slot, ?_, rfl⟩
        rw [List.length_cons]
        omega
      · exact Or.inl hold
    · refine Or.inr ⟨List.mem_cons_of_mem _ hmem, k, ?_, heq⟩
      rw [List.length_cons]
      omega

section

variable [NodeCrypto] [Serde]

open NodeShareStore in
/-- The state a call writes, with the generation it gives it, and the checks it made before. -/
inductive Edit (store : NodeShareStore) : StoreOp → Nat → StoreState → Prop
  | ingest {disk : Disk} {manifest : EdgeOrderManifest} {sealedShare : SealedPartyShare}
      {sealedCapability : SealedCapabilityKeyShare} {now : Nat} {tag : Option Digest32} (g : Nat)
      (hcheck : store.checkIngest manifest sealedShare sealedCapability now = .ok tag)
      (hnew : store.state.records.get? manifest.commitment = none) :
      Edit store (.ingest disk manifest sealedShare sealedCapability now) g { store.state with
        generation := g
        reservationClaims := claimed store.state.reservationClaims manifest.commitment tag
        records := store.state.records.insert manifest.commitment
          ⟨manifest, sealedShare, some sealedCapability, now, none⟩ }
  | admissionReceipt {disk : Disk} {manifest : EdgeOrderManifest} {key : Bytes}
      {record : StoredRecord} (receipt : NodeAdmissionReceipt)
      (hrecord : store.state.records.get? manifest.commitment = some record) :
      Edit store (.admissionReceipt disk manifest key) store.state.generation
        { store.state with
          records := store.state.records.insert manifest.commitment
            { record with admissionReceipt := some receipt } }
  | recordOrderVote {disk : Disk} {statement : OrderStatement} {now : Nat} (g : Nat)
      (hcheck : checkVote store.state statement now = .ok ())
      (hfree : ∀ vote, store.state.orderingVotes.get? statement.sequence = some vote →
        vote.statementDigest ≠ voteDigest statement ∧ vote.expiresAt < now) :
      Edit store (.recordOrderVote disk statement now) g { store.state with
        generation := g
        orderingVotes := store.state.orderingVotes.insert statement.sequence
          ⟨voteDigest statement, statement.expiresAt⟩ }
  | acceptOrderCertificate {disk : Disk} {certificate : OrderCertificate}
      {policy : CommitteePolicy} {keys : NodeKeys} {now : Nat} (g : Nat)
      (hverify : certificate.verify policy keys now = .ok ())
      (hnew : certificate.sequence ≠ store.state.orderingSequence)
      (hcheck : checkCertificate store.state certificate now = .ok ()) :
      Edit store (.acceptOrderCertificate disk certificate policy keys now) g
        { afterCertificate store.state certificate with generation := g }
  | recordCompletedRound {disk : Disk} {receipt : NodeExecutionReceipt} (g : Nat)
      (hcomplete : receipt.Complete store.state.party)
      (hnew : store.state.completedRounds.get? receipt.roundId = none) :
      Edit store (.recordCompletedRound disk receipt) g { store.state with
        generation := g
        completedRounds := store.state.completedRounds.insert receipt.roundId receipt }
  | recordNativeFinality {disk : Disk} {record : NativeFinalityRecord}
      {receipt : NodeExecutionReceipt} (g : Nat)
      (hround : store.state.completedRounds.get? record.roundId = some receipt)
      (hvalid : record.Observes receipt)
      (hopen : store.state.finalizedPrivateRounds.get? record.roundId = none) :
      Edit store (.recordNativeFinality disk record) g { store.state with
        generation := g
        nativeFinalities := store.state.nativeFinalities.insert record.roundId
          (((store.state.nativeFinalities.get? record.roundId).getD .empty).insert record.slot
            record) }
  | finalizePrivateRound {disk : Disk} {files : PrivateFiles} {plan : RoundPlan}
      {finality : PrivateStateFinality} {signingKey : Bytes} {receipt : NodeExecutionReceipt}
      {candidate : PrivateRoundFinalization} {next : StoreState}
      {signed : NodePrivateStateReceipt} (g : Nat)
      (hcheck : checkFinality store.state plan finality = .ok (receipt, candidate))
      (hnew : store.state.finalizedPrivateRounds.get? plan.roundId = none)
      (hsigned : signedFinalization (arrivingHead plan receipt finality { store.state with
        privateHeads := restingHeads plan receipt finality 0 plan.resting
          store.state.privateHeads }) plan receipt finality candidate signingKey =
        .ok (next, signed)) :
      Edit store (.finalizePrivateRound disk files plan finality signingKey) g next
  | registerLifecycle {disk : Disk} {command : LifecycleCommand} {now : Nat}
      {manifest : EdgeOrderManifest} (g : Nat)
      (hcheck : checkLifecycle store.state command now = .ok manifest)
      (hnew : store.state.lifecycle.get? command.digest = none) :
      Edit store (.registerLifecycle disk command now) g { store.state with
        generation := g
        lifecycle := store.state.lifecycle.insert command.digest
          ⟨command, manifest, none, none⟩ }
  | confirmRelease {disk : Disk} {observation : ReleaseObservation} {entry : StoredLifecycle}
      {finality : LifecycleFinality} (g : Nat)
      (hcheck : checkRelease store.state observation = .ok (entry, finality))
      (hnew : entry.finality = none) :
      Edit store (.confirmRelease disk observation) g
        { afterRelease store.state finality with generation := g }
  | removeTerminal {disk : Disk} {commitment : Digest32} {record : StoredRecord} (g : Nat)
      (hrecord : store.state.records.get? commitment = some record) :
      Edit store (.removeTerminal disk commitment) g { store.state with
        generation := g
        records := store.state.records.erase commitment }
  | pruneExpired {disk : Disk} {now : Nat} (g : Nat) :
      Edit store (.pruneExpired disk now) g { store.state with
        generation := g
        records := store.state.records.retain fun _ record => !expiredRecord now record }

/-- The store holds `state` in memory and in its file. -/
def Persisted (store : NodeShareStore) (state : StoreState) : Prop :=
  store.state = state ∧ store.file = frame (stateJson state) ∧
    (stateJson state).length ≤ maxStoreBytes

/-- What a call can do to a store. -/
inductive Effect (store : NodeShareStore) (op : StoreOp) (out : NodeShareStore) : Prop
  | kept (hstate : out.state = store.state) (hfile : op.disk = .written → out.file = store.file)
  | wrote (g : Nat) (next : StoreState) (hedit : Edit store op g next)
      (hg : store.state.generation ≤ g) (hout : Persisted out next)
  | exhausted (next : StoreState) (heager : op.eager = true)
      (hg : u64Bound ≤ store.state.generation + 1)
      (hedit : Edit store op store.state.generation next) (hstate : out.state = next)
  | partialHeads (disk : Disk) (files : PrivateFiles) (plan : RoundPlan)
      (finality : PrivateStateFinality) (signingKey : Bytes)
      (hop : op = .finalizePrivateRound disk files plan finality signingKey)
      (hlong : maxMatchSlots < plan.resting.length)
      (heads : OrdMap Digest32 PrivateBookStateRef)
      (hstate : out.state = { store.state with privateHeads := heads })

/-! ## What a call can do -/

/-- What a call leaves in the file: what was there, or an edit of the state in memory. -/
def Writes (store : NodeShareStore) (op : StoreOp) (out : NodeShareStore) : Prop :=
  out.file = store.file ∨ ∃ g next, Edit store op g next ∧
    out.file = frame (stateJson next) ∧ (stateJson next).length ≤ maxStoreBytes

/-- What a call does to the state and to the file. -/
structure Outcome (store : NodeShareStore) (op : StoreOp) (out : NodeShareStore) : Prop where
  effect : Effect store op out
  writes : Writes store op out

/-- What the call does to the store. -/
abbrev StoreOp.Ends (op : StoreOp) (store : NodeShareStore) : Prop :=
  Outcome store op (op.apply store)

namespace NodeShareStore

theorem run_persist (disk : Disk) (store : NodeShareStore) :
    (persist disk).run store =
      if (stateJson store.state).length ≤ maxStoreBytes then
        match disk with
        | .written => .ok () { store with file := frame (stateJson store.state) }
        | .failed => .error .ioError store
        | .failedAfterRename =>
          .error .ioError { store with file := frame (stateJson store.state) }
      else .error (.state "node share store exceeds size limit") store := by
  rw [persist, run_get_bind, run_ensure_bind]
  cases disk <;> rfl

/-- The ends of `persistOr`: the old state in memory, or the new one there and in the file. -/
theorem persistOr_cases (previous : StoreState) (disk : Disk) (store : NodeShareStore) :
    let out := after (persistOr previous disk store)
    (out.state = previous ∧ (disk = .written → out.file = store.file) ∧
        (out.file = store.file ∨ out.file = frame (stateJson store.state) ∧
          (stateJson store.state).length ≤ maxStoreBytes)) ∨
      Persisted out store.state := by
  unfold persistOr
  rw [run_persist]
  by_cases hfits : (stateJson store.state).length ≤ maxStoreBytes
  · rw [if_pos hfits]
    cases disk with
    | written => exact Or.inr ⟨rfl, rfl, hfits⟩
    | failed => exact Or.inl ⟨rfl, by simp, Or.inl rfl⟩
    | failedAfterRename => exact Or.inl ⟨rfl, by simp, Or.inr ⟨rfl, hfits⟩⟩
  · rw [if_neg hfits]
    exact Or.inl ⟨rfl, fun _ => rfl, Or.inl rfl⟩

variable {disk : Disk} {out : NodeShareStore} {u : Unit}

/-- A persist that returns has written the file. -/
theorem persist_ok {store : NodeShareStore}
    (h : (persist disk).run store = .ok u out) : Persisted out store.state := by
  rw [run_persist] at h
  split at h
  · rename_i hfits
    cases disk with
    | written =>
      obtain ⟨-, rfl⟩ := EStateM.Result.ok.inj h
      exact ⟨rfl, rfl, hfits⟩
    | failed => exact absurd h (by simp)
    | failedAfterRename => exact absurd h (by simp)
  · exact absurd h (by simp)

theorem persistOr_ok {previous : StoreState} {store : NodeShareStore}
    (h : (persistOr previous disk).run store = .ok u out) : Persisted out store.state := by
  change persistOr previous disk store = _ at h
  unfold persistOr at h
  split at h
  · rename_i hrun
    obtain ⟨-, rfl⟩ := EStateM.Result.ok.inj h
    exact persist_ok hrun
  · exact absurd h (by simp)

/-- A commit that returns has changed the state and the file. -/
theorem commit_ok {next : StoreState} {store : NodeShareStore}
    (h : (commit disk next).run store = .ok u out) :
    Persisted out { next with generation := next.generation + 1 } := by
  change commit disk next store = _ at h
  unfold commit at h
  split at h
  · exact absurd h (by simp)
  · rename_i g hadd
    obtain ⟨-, rfl⟩ := checkedAdd_eq_some.mp hadd
    exact persistOr_ok h

theorem create_ok {key : NodeDecryptionKey} {party : Nat} {policy : Bytes}
    {store : NodeShareStore} (h : create key party policy disk = .ok store) :
    Persisted store (emptyState party policy) := by
  simp only [create, ok_rules] at h
  obtain ⟨-, -, ⟨⟨⟩, fresh⟩, hstage, rfl⟩ := h
  exact persist_ok (stage_eq_ok.mp hstage)

variable {store : NodeShareStore} {op : StoreOp} {next : StoreState}

/-- Writing an edit and falling back to the old state. -/
theorem persistOr_outcome {g : Nat} (hedit : Edit store op g next)
    (hg : store.state.generation ≤ g) :
    Outcome store op (after (persistOr store.state op.disk { store with state := next })) := by
  rcases persistOr_cases store.state op.disk { store with state := next } with
    ⟨hstate, hwritten, hfile⟩ | hwrote
  · exact ⟨.kept hstate hwritten, hfile.imp_right fun h => ⟨g, next, hedit, h⟩⟩
  · exact ⟨.wrote g next hedit hg hwrote, Or.inr ⟨g, next, hedit, hwrote.2⟩⟩

theorem commit_outcome (hgen : next.generation = store.state.generation)
    (hedit : ∀ g, Edit store op g { next with generation := g }) :
    Outcome store op (after (commit op.disk next store)) := by
  unfold commit
  cases hadd : checkedAdd next.generation 1 with
  | none => exact ⟨.kept rfl fun _ => rfl, Or.inl rfl⟩
  | some g =>
    obtain ⟨-, rfl⟩ := checkedAdd_eq_some.mp hadd
    exact persistOr_outcome (hedit _) (by omega)

theorem commitEager_outcome (heager : op.eager = true)
    (hgen : next.generation = store.state.generation)
    (hedit : ∀ g, Edit store op g { next with generation := g }) :
    Outcome store op (after (commitEager op.disk next store)) := by
  unfold commitEager
  cases hadd : checkedAdd next.generation 1 with
  | none =>
    have hfull : u64Bound ≤ store.state.generation + 1 := by
      by_contra hlt
      rw [checkedAdd, if_pos (by omega)] at hadd
      exact absurd hadd (by simp)
    refine ⟨.exhausted next heager hfull ?_ rfl, Or.inl rfl⟩
    rw [← hgen]
    exact hedit next.generation
  | some g =>
    obtain ⟨-, rfl⟩ := checkedAdd_eq_some.mp hadd
    exact persistOr_outcome (hedit _) (by omega)

theorem kept_outcome : Outcome store op store := ⟨.kept rfl fun _ => rfl, Or.inl rfl⟩

variable {manifest : EdgeOrderManifest} {key : Bytes} {now : Nat} {plan : RoundPlan}
  {receipt : NodeExecutionReceipt} {finality : PrivateStateFinality} {files : PrivateFiles}

theorem ingest_ends {sealedShare : SealedPartyShare} {sealedCapability : SealedCapabilityKeyShare} :
    (StoreOp.ingest disk manifest sealedShare sealedCapability now).Ends store := by
  rw [StoreOp.Ends, StoreOp.apply, ingest, run_get_bind]
  cases hcheck : store.checkIngest manifest sealedShare sealedCapability now with
  | error e => exact kept_outcome
  | ok tag =>
    rw [run_attempt_ok_bind]
    cases hnew : store.state.records.get? manifest.commitment with
    | some existing =>
      dsimp only
      rw [run_ensure_bind]
      split <;> exact kept_outcome
    | none =>
      dsimp only
      rw [after_bind_of_reads _ _ fun _ _ => rfl]
      exact commitEager_outcome rfl rfl fun g => .ingest g hcheck hnew

theorem admissionReceiptFor_ok {record : StoredRecord} {receipt : NodeAdmissionReceipt}
    (h : store.admissionReceiptFor manifest key = .ok (record, receipt)) :
    store.state.records.get? manifest.commitment = some record := by
  simp only [admissionReceiptFor, ok_rules] at h
  obtain ⟨found, hfound, capability, -, h⟩ := h
  split at h
  · simp only [ok_rules, Prod.mk.injEq] at h
    obtain ⟨-, -, rfl, -⟩ := h
    exact hfound
  · simp only [ok_rules, Prod.mk.injEq] at h
    obtain ⟨-, -, rfl, -⟩ := h
    exact hfound

theorem admissionReceipt_ends : (StoreOp.admissionReceipt disk manifest key).Ends store := by
  rw [StoreOp.Ends, StoreOp.apply, admissionReceipt, run_get_bind]
  cases hcheck : store.admissionReceiptFor manifest key with
  | error e => exact kept_outcome
  | ok found =>
    obtain ⟨record, receipt⟩ := found
    rw [run_attempt_ok_bind]
    dsimp only
    split
    · exact kept_outcome
    · rw [run_set_bind, after_bind_of_reads _ _ fun _ _ => rfl]
      exact persistOr_outcome (.admissionReceipt receipt (admissionReceiptFor_ok hcheck)) le_rfl

theorem recordOrderVote_ends {statement : OrderStatement} :
    (StoreOp.recordOrderVote disk statement now).Ends store := by
  rw [StoreOp.Ends, StoreOp.apply, recordOrderVote, run_get_bind]
  cases hcheck : checkVote store.state statement now with
  | error e => exact kept_outcome
  | ok u =>
    rw [run_attempt_ok_bind]
    cases hvote : store.state.orderingVotes.get? statement.sequence with
    | none =>
      dsimp only
      rw [after_bind_of_reads _ _ fun _ _ => rfl]
      exact commit_outcome rfl fun g =>
        .recordOrderVote g hcheck fun vote h => absurd (hvote.symm.trans h) (by simp)
    | some existing =>
      dsimp only
      split
      · exact kept_outcome
      · rename_i hne
        rw [run_ensure_bind]
        split
        · rename_i hexpired
          rw [after_bind_of_reads _ _ fun _ _ => rfl]
          refine commit_outcome rfl fun g => .recordOrderVote g hcheck fun vote h => ?_
          obtain rfl := Option.some.inj (hvote.symm.trans h)
          exact ⟨hne, hexpired⟩
        · exact kept_outcome

theorem acceptOrderCertificate_ends {certificate : OrderCertificate} {policy : CommitteePolicy}
    {keys : NodeKeys} :
    (StoreOp.acceptOrderCertificate disk certificate policy keys now).Ends store := by
  rw [StoreOp.Ends, StoreOp.apply, acceptOrderCertificate]
  cases hverify : certificate.verify policy keys now with
  | error e => exact kept_outcome
  | ok u =>
    simp only [Except.mapError]
    rw [run_attempt_ok_bind, run_get_bind]
    split
    · rw [run_ensure_bind]
      split <;> exact kept_outcome
    · rename_i hnew
      cases hcheck : checkCertificate store.state certificate now with
      | error e => exact kept_outcome
      | ok u =>
        rw [run_attempt_ok_bind, after_bind_of_reads _ _ fun _ _ => rfl]
        exact commit_outcome rfl fun g => .acceptOrderCertificate g hverify hnew hcheck

theorem recordCompletedRound_ends : (StoreOp.recordCompletedRound disk receipt).Ends store := by
  rw [StoreOp.Ends, StoreOp.apply, recordCompletedRound, run_get_bind, run_ensure_bind]
  split
  · rename_i hcomplete
    cases hround : store.state.completedRounds.get? receipt.roundId with
    | some existing =>
      dsimp only
      rw [run_ensure]
      split <;> exact kept_outcome
    | none => exact commitEager_outcome rfl rfl fun g => .recordCompletedRound g hcomplete hround
  · exact kept_outcome

theorem recordNativeFinality_ends {record : NativeFinalityRecord} :
    (StoreOp.recordNativeFinality disk record).Ends store := by
  rw [StoreOp.Ends, StoreOp.apply, recordNativeFinality, run_get_bind]
  cases hround : store.state.completedRounds.get? record.roundId with
  | none => exact kept_outcome
  | some receipt =>
    simp only [okOr]
    rw [run_attempt_ok_bind]
    by_cases hvalid : record.Observes receipt
    · simp only [NativeFinalityRecord.validate, require, if_pos hvalid, Except.mapError]
      rw [run_attempt_ok_bind]
      split
      · rw [run_ensure]
        split <;> exact kept_outcome
      · rw [run_ensure_bind]
        split
        · rename_i hopen
          have hnone : store.state.finalizedPrivateRounds.get? record.roundId = none := by
            simpa [OrdMap.contains] using hopen
          exact commit_outcome rfl fun g => .recordNativeFinality g hround hvalid hnone
        · exact kept_outcome
    · simp only [NativeFinalityRecord.validate, require, if_neg hvalid, Except.mapError]
      exact kept_outcome

/-- The store with other heads. -/
def withHeads (store : NodeShareStore) (heads : OrdMap Digest32 PrivateBookStateRef) :
    NodeShareStore :=
  { store with state := { store.state with privateHeads := heads } }

omit [NodeCrypto] [Serde] in
/-- The loop over the resting orders inserts all heads, or stops at an offset beyond `u16`. -/
theorem run_insertHeads (plan : RoundPlan) (receipt : NodeExecutionReceipt)
    (finality : PrivateStateFinality) (l : List Digest32) :
    ∀ (slot : Nat) (store : NodeShareStore),
      (insertHeads plan receipt finality slot l).run store = .ok () (store.withHeads
        (restingHeads plan receipt finality slot l store.state.privateHeads)) ∨
      2 ^ 16 ≤ (slot + l.length) * privateOrderWires ∧ ∃ e heads,
        (insertHeads plan receipt finality slot l).run store =
          .error e (store.withHeads heads) := by
  induction l with
  | nil => exact fun slot store => Or.inl rfl
  | cons commitment rest ih =>
    intro slot store
    rw [insertHeads, run_ensure_bind]
    split
    · rcases ih (slot + 1) (store.withHeads (store.state.privateHeads.insert commitment
        (headAt plan receipt finality (slot * privateOrderWires)))) with hok | ⟨hlong, e, heads, he⟩
      · exact Or.inl hok
      · refine Or.inr ⟨?_, e, heads, he⟩
        rwa [List.length_cons, ← Nat.add_assoc, Nat.add_right_comm]
    · rename_i hoverflow
      refine Or.inr ⟨?_, _, store.state.privateHeads, rfl⟩
      exact (not_lt.mp hoverflow).trans (Nat.mul_le_mul_right _ (Nat.le_add_right _ _))

/-- The state a finalization writes. -/
theorem signedFinalization_ok {state : StoreState} {plan : RoundPlan}
    {receipt : NodeExecutionReceipt} {finality : PrivateStateFinality}
    {candidate : PrivateRoundFinalization} {signingKey : Bytes} {next : StoreState}
    {signed : NodePrivateStateReceipt}
    (h : signedFinalization state plan receipt finality candidate signingKey =
      .ok (next, signed)) :
    next = { state with
      generation := state.generation + 1
      finalizedPrivateRounds := state.finalizedPrivateRounds.insert plan.roundId
        { candidate with privateStateReceipt := some signed } } := by
  simp only [signedFinalization, ok_rules, Prod.mk.injEq] at h
  obtain ⟨g, hg, -, -, rfl, rfl⟩ := h
  obtain ⟨-, rfl⟩ := checkedAdd_eq_some.mp hg
  rfl

omit [NodeCrypto] [Serde] in
/-- The loop changes the heads of the resting orders only, to heads at offsets that fit `u16`. -/
theorem insertHeads_heads (plan : RoundPlan) (receipt : NodeExecutionReceipt)
    (finality : PrivateStateFinality) (l : List Digest32) (k : Digest32) :
    ∀ (slot : Nat) (store : NodeShareStore),
      let heads := (after ((insertHeads plan receipt finality slot l).run store)).state.privateHeads
      heads.get? k = store.state.privateHeads.get? k ∨ k ∈ l ∧ ∃ offset < 2 ^ 16,
        heads.get? k = some (headAt plan receipt finality offset) := by
  induction l with
  | nil => exact fun slot store => Or.inl rfl
  | cons commitment rest ih =>
    intro slot store
    rw [insertHeads, run_ensure_bind]
    split
    · rename_i hfits
      rcases ih (slot + 1) (store.withHeads (store.state.privateHeads.insert commitment
        (headAt plan receipt finality (slot * privateOrderWires)))) with hsame | ⟨hmem, hhead⟩
      · by_cases hk : k = commitment
        · refine Or.inr ⟨hk ▸ List.mem_cons_self, slot * privateOrderWires, hfits, ?_⟩
          exact hsame.trans (hk ▸ OrdMap.get?_insert_self)
        · exact Or.inl (hsame.trans (OrdMap.get?_insert_of_ne hk))
      · exact Or.inr ⟨List.mem_cons_of_mem _ hmem, hhead⟩
    · exact Or.inl rfl

/-- The ends of a finalization: it leaves the store alone, or its checks passed and it stops in the
loop over the resting orders or writes the finalized state. -/
theorem finalizePrivateRound_cases (disk : Disk) (files : PrivateFiles) (plan : RoundPlan)
    (finality : PrivateStateFinality) (signingKey : Bytes) (store : NodeShareStore) :
    let out := after ((finalizePrivateRound disk files plan finality signingKey).run store)
    out = store ∨ ∃ receipt candidate,
      checkFinality store.state plan finality = .ok (receipt, candidate) ∧
      store.state.finalizedPrivateRounds.get? plan.roundId = none ∧
      receipt.privateParentDigest = privateParentDigest store.state plan.resting plan.arriving ∧
      ((∃ e, (insertHeads plan receipt finality 0 plan.resting).run store = .error e out ∧
          2 ^ 16 ≤ plan.resting.length * privateOrderWires) ∨
        ∃ next signed, (insertHeads plan receipt finality 0 plan.resting).run store = .ok ()
            (store.withHeads (restingHeads plan receipt finality 0 plan.resting
              store.state.privateHeads)) ∧
          signedFinalization (arrivingHead plan receipt finality { store.state with
            privateHeads := restingHeads plan receipt finality 0 plan.resting
              store.state.privateHeads }) plan receipt finality candidate signingKey =
            .ok (next, signed) ∧
          out = after (persistOr store.state disk { store with state := next })) := by
  rw [finalizePrivateRound, run_get_bind]
  cases hcheck : checkFinality store.state plan finality with
  | error e => exact Or.inl rfl
  | ok found =>
    obtain ⟨receipt, candidate⟩ := found
    rw [run_attempt_ok_bind]
    dsimp only
    cases hnew : store.state.finalizedPrivateRounds.get? plan.roundId with
    | some existing =>
      dsimp only
      cases finalizedReceipt store.state existing candidate receipt finality signingKey <;>
        exact Or.inl rfl
    | none =>
      dsimp only
      rw [run_ensure_bind]
      split
      · rename_i hparent
        cases verifyPrivateStateFile files plan.roundId receipt.privateStateSha256 with
        | error e => exact Or.inl rfl
        | ok file =>
          rw [run_attempt_ok_bind, EStateM.run_bind]
          rcases run_insertHeads plan receipt finality plan.resting 0 store with
            hrun | ⟨hlong, e, heads, hrun⟩
          · rw [hrun]
            dsimp only
            rw [run_get_bind]
            cases hsigned : signedFinalization (arrivingHead plan receipt finality
              (store.withHeads (restingHeads plan receipt finality 0 plan.resting
                store.state.privateHeads)).state) plan receipt finality candidate signingKey with
            | error e => exact Or.inl rfl
            | ok found =>
              obtain ⟨next, signed⟩ := found
              dsimp only
              rw [run_set_bind, after_bind_of_reads _ _ fun _ _ => rfl]
              exact Or.inr ⟨receipt, candidate, rfl, rfl, hparent,
                Or.inr ⟨next, signed, hrun, hsigned, rfl⟩⟩
          · rw [hrun]
            rw [Nat.zero_add] at hlong
            exact Or.inr ⟨receipt, candidate, rfl, rfl, hparent, Or.inl ⟨e, hrun, hlong⟩⟩
      · exact Or.inl rfl

theorem finalizePrivateRound_ends :
    (StoreOp.finalizePrivateRound disk files plan finality key).Ends store := by
  rw [StoreOp.Ends, StoreOp.apply]
  rcases finalizePrivateRound_cases disk files plan finality key store with
    hsame | ⟨receipt, candidate, hcheck, hnew, -,
      ⟨e, hrun, hlong⟩ | ⟨next, signed, -, hsigned, hout⟩⟩
  · rw [hsame]
    exact kept_outcome
  · rcases run_insertHeads plan receipt finality plan.resting 0 store with
      hok | ⟨-, e', heads, hstopped⟩
    · exact absurd (hrun.symm.trans hok) (by simp)
    · obtain ⟨-, hout⟩ := EStateM.Result.error.inj (hrun.symm.trans hstopped)
      rw [hout]
      refine ⟨.partialHeads disk files plan finality key rfl ?_ heads rfl, Or.inl rfl⟩
      rw [privateOrderWires] at hlong
      rw [maxMatchSlots]
      omega
  · rw [hout]
    refine persistOr_outcome (.finalizePrivateRound next.generation hcheck hnew hsigned) ?_
    rw [signedFinalization_ok hsigned]
    exact Nat.le_succ _

/-- **A finalization that changes private heads has made its checks**: the round is complete, not
finalized before and observed as it must be, and its parents are the present heads. It changes the
heads of its own orders only. -/
theorem finalizePrivateRound_heads (disk : Disk) (files : PrivateFiles) (plan : RoundPlan)
    (finality : PrivateStateFinality) (signingKey : Bytes) (store : NodeShareStore) :
    let out := (StoreOp.finalizePrivateRound disk files plan finality signingKey).apply store
    out.state.privateHeads = store.state.privateHeads ∨ ∃ receipt candidate,
      checkFinality store.state plan finality = .ok (receipt, candidate) ∧
      store.state.finalizedPrivateRounds.get? plan.roundId = none ∧
      receipt.privateParentDigest = privateParentDigest store.state plan.resting plan.arriving ∧
      ∀ k, out.state.privateHeads.get? k = store.state.privateHeads.get? k ∨
        k ∈ plan.resting ++ [plan.arriving] ∧ (out.state.privateHeads.get? k = none ∨
          ∃ offset < 2 ^ 16, out.state.privateHeads.get? k =
            some (headAt plan receipt finality offset)) := by
  rw [StoreOp.apply]
  rcases finalizePrivateRound_cases disk files plan finality signingKey store with
    hsame | ⟨receipt, candidate, hcheck, hnew, hparent,
      ⟨e, hrun, -⟩ | ⟨next, signed, hrun, hsigned, hout⟩⟩
  · rw [hsame]
    exact Or.inl rfl
  · refine Or.inr ⟨receipt, candidate, hcheck, hnew, hparent, fun k => ?_⟩
    have hheads := insertHeads_heads plan receipt finality plan.resting k 0 store
    rw [hrun] at hheads
    exact hheads.imp_right fun ⟨hmem, hhead⟩ => ⟨List.mem_append_left _ hmem, Or.inr hhead⟩
  · rw [hout]
    dsimp only
    rcases persistOr_cases store.state disk { store with state := next } with
      ⟨hstate, -⟩ | ⟨hstate, -⟩
    · rw [hstate]
      exact Or.inl rfl
    · refine Or.inr ⟨receipt, candidate, hcheck, hnew, hparent, fun k => ?_⟩
      rw [hstate, signedFinalization_ok hsigned]
      have hheads := insertHeads_heads plan receipt finality plan.resting k 0 store
      rw [hrun] at hheads
      simp only [arrivingHead]
      by_cases hk : k = plan.arriving
      · refine Or.inr ⟨List.mem_append_right _ (List.mem_singleton.mpr hk), ?_⟩
        split
        · refine Or.inr ⟨maxMatchSlots * privateOrderWires, by decide, ?_⟩
          rw [OrdMap.get?_insert, if_pos hk]
        · rw [OrdMap.get?_erase, if_pos hk]
          exact Or.inl rfl
      · have hkept : (if 0 < receipt.result.arrivingRemaining then
            (restingHeads plan receipt finality 0 plan.resting store.state.privateHeads).insert
              plan.arriving (headAt plan receipt finality (maxMatchSlots * privateOrderWires))
            else (restingHeads plan receipt finality 0 plan.resting
              store.state.privateHeads).erase plan.arriving).get? k =
            (restingHeads plan receipt finality 0 plan.resting
              store.state.privateHeads).get? k := by
          split
          · rw [OrdMap.get?_insert, if_neg hk]
          · rw [OrdMap.get?_erase, if_neg hk]
        rw [hkept]
        exact hheads.imp_right fun ⟨hmem, hhead⟩ => ⟨List.mem_append_left _ hmem, Or.inr hhead⟩

theorem registerLifecycle_ends {command : LifecycleCommand} :
    (StoreOp.registerLifecycle disk command now).Ends store := by
  rw [StoreOp.Ends, StoreOp.apply, registerLifecycle, run_get_bind]
  cases hnew : store.state.lifecycle.get? command.digest with
  | some entry =>
    dsimp only
    rw [run_ensure_bind]
    split <;> exact kept_outcome
  | none =>
    dsimp only
    cases hcheck : checkLifecycle store.state command now with
    | error e => exact kept_outcome
    | ok manifest =>
      rw [run_attempt_ok_bind, after_bind_of_reads _ _ fun _ _ => rfl]
      exact commit_outcome rfl fun g => .registerLifecycle g hcheck hnew

theorem confirmRelease_ends {observation : ReleaseObservation} :
    (StoreOp.confirmRelease disk observation).Ends store := by
  rw [StoreOp.Ends, StoreOp.apply, confirmRelease, run_get_bind]
  cases hcheck : checkRelease store.state observation with
  | error e => exact kept_outcome
  | ok found =>
    obtain ⟨entry, finality⟩ := found
    rw [run_attempt_ok_bind]
    dsimp only
    cases hnew : entry.finality with
    | some existing =>
      dsimp only
      rw [run_ensure_bind]
      split <;> exact kept_outcome
    | none =>
      have houtcome : Outcome store (.confirmRelease disk observation)
          (after (commit disk (afterRelease store.state finality) store)) :=
        commit_outcome rfl fun g => .confirmRelease g hcheck hnew
      change Outcome store _ (after ((commit disk (afterRelease store.state finality)).run store))
        at houtcome
      revert houtcome
      cases (commit disk (afterRelease store.state finality)).run store <;> exact id

theorem removeTerminal_ends {commitment : Digest32} :
    (StoreOp.removeTerminal disk commitment).Ends store := by
  rw [StoreOp.Ends, StoreOp.apply, removeTerminal, run_get_bind]
  cases hrecord : store.state.records.get? commitment with
  | none => exact kept_outcome
  | some record =>
    dsimp only
    rw [run_ensure_bind]
    split
    · rw [after_bind_of_reads _ _ fun _ _ => rfl]
      exact commitEager_outcome rfl rfl fun g => .removeTerminal g hrecord
    · exact kept_outcome

theorem pruneExpired_ends : (StoreOp.pruneExpired disk now).Ends store := by
  rw [StoreOp.Ends, StoreOp.apply, pruneExpired, run_get_bind]
  dsimp only
  split
  · exact kept_outcome
  · rw [after_bind_of_reads _ _ fun _ _ => rfl]
    exact commitEager_outcome rfl rfl fun g => .pruneExpired g

theorem pinReservationTrust_ends {trust : ReservationTrust} :
    (StoreOp.pinReservationTrust trust).Ends store := by
  rw [StoreOp.Ends, StoreOp.apply, pinReservationTrust, run_ensure_bind]
  split
  · rw [run_get_bind, run_ensure_bind]
    split
    · cases forEach (store.recoverClaim trust) store.state.records.values with
      | error e => exact kept_outcome
      | ok u => exact ⟨.kept rfl fun _ => rfl, Or.inl rfl⟩
    · exact kept_outcome
  · exact kept_outcome

end NodeShareStore

open NodeShareStore in
/-- **What a call can do to a store.** -/
theorem StoreOp.outcome (op : StoreOp) (store : NodeShareStore) : op.Ends store := by
  cases op with
  | pinReservationTrust => exact pinReservationTrust_ends
  | ingest => exact ingest_ends
  | admissionReceipt => exact admissionReceipt_ends
  | recordOrderVote => exact recordOrderVote_ends
  | acceptOrderCertificate => exact acceptOrderCertificate_ends
  | recordCompletedRound => exact recordCompletedRound_ends
  | recordNativeFinality => exact recordNativeFinality_ends
  | finalizePrivateRound => exact finalizePrivateRound_ends
  | registerLifecycle => exact registerLifecycle_ends
  | confirmRelease => exact confirmRelease_ends
  | removeTerminal => exact removeTerminal_ends
  | pruneExpired => exact pruneExpired_ends

theorem StoreOp.effect (op : StoreOp) (store : NodeShareStore) :
    Effect store op (op.apply store) := (op.outcome store).effect

/-- What holds of the edit of a call and whatever the private heads are, holds after the call. -/
theorem Effect.preserves {P : StoreState → Prop} {store out : NodeShareStore} {op : StoreOp}
    (h : Effect store op out) (hheads : ∀ heads, P { store.state with privateHeads := heads })
    (hedit : ∀ g next, Edit store op g next → P next) : P out.state := by
  cases h with
  | kept hstate hfile => exact hstate ▸ hheads store.state.privateHeads
  | wrote g next h hg hout => exact hout.1 ▸ hedit g next h
  | exhausted next heager hg h hstate => exact hstate ▸ hedit _ next h
  | partialHeads disk files plan finality signingKey hop hlong heads hstate =>
    exact hstate ▸ hheads heads

/-! ## What the ordering checks give -/

section

variable {state : StoreState}

/-- An ordering turn is the next sequence and an admission. -/
theorem orderingTurn_admission {commitment : Digest32} {now expected deadline : Nat}
    {market : String} (h : state.orderingTurn commitment now = .ok (expected, market, deadline)) :
    expected = state.orderingSequence + 1 ∧ state.orderingSequence + 1 < u64Bound ∧
      state.orderingAdmission commitment now = .ok (market, deadline) := by
  simp only [StoreState.orderingTurn, ok_rules] at h
  obtain ⟨next, hnext, h⟩ := h
  obtain ⟨hbound, rfl⟩ := checkedAdd_eq_some.mp hnext
  split at h
  all_goals
    simp only [ok_rules, Prod.mk.injEq] at h
    obtain ⟨-, -, admission, hadmission, rfl, rfl, rfl⟩ := h
    exact ⟨rfl, hbound, hadmission⟩

/-- The order or the lifecycle command an ordering turn is about. -/
theorem orderingTurn_ok {commitment : Digest32} {now expected deadline : Nat} {market : String}
    (h : state.orderingTurn commitment now = .ok (expected, market, deadline)) :
    expected = state.orderingSequence + 1 ∧ state.orderingSequence + 1 < u64Bound ∧
    ((∃ record, state.records.get? commitment = some record) ∨
      ∃ entry, state.lifecycle.get? commitment = some entry ∧
        market = entry.command.marketId ∧ deadline = entry.command.expiresAt) := by
  obtain ⟨hexpected, hbound, hadmission⟩ := orderingTurn_admission h
  refine ⟨hexpected, hbound, ?_⟩
  unfold StoreState.orderingAdmission at hadmission
  split at hadmission
  · rename_i record hrecord
    exact Or.inl ⟨record, hrecord⟩
  · simp only [ok_rules, Prod.mk.injEq] at hadmission
    obtain ⟨entry, hentry, -, -, -, -, hmarket, hdeadline⟩ := hadmission
    exact Or.inr ⟨entry, hentry, hmarket.symm, hdeadline.symm⟩

theorem checkVote_ok {statement : OrderStatement} {now : Nat} {u : Unit}
    (h : checkVote state statement now = .ok u) :
    statement.sequence = state.orderingSequence + 1 ∧
      state.orderingSequence + 1 < u64Bound := by
  simp only [checkVote, except_bind_eq_ok] at h
  obtain ⟨⟨expected, market, deadline⟩, hturn, hrequire⟩ := h
  obtain ⟨rfl, hbound, -⟩ := orderingTurn_ok hturn
  obtain ⟨-, -, hsequence, -⟩ := require_eq_ok.mp hrequire
  exact ⟨hsequence, hbound⟩

theorem checkCertificate_ok {certificate : OrderCertificate} {now : Nat} {u : Unit}
    (h : checkCertificate state certificate now = .ok u) :
    certificate.sequence = state.orderingSequence + 1 ∧ state.orderingSequence + 1 < u64Bound ∧
    certificate.commitment ∉ state.orderedCommitments ∧
    ((∃ record, state.records.get? certificate.commitment = some record) ∨
      ∃ entry, state.lifecycle.get? certificate.commitment = some entry ∧
        certificate.marketId = entry.command.marketId ∧
        certificate.expiresAt ≤ entry.command.expiresAt) := by
  simp only [checkCertificate, except_bind_eq_ok] at h
  obtain ⟨⟨expected, market, deadline⟩, hturn, hrequire⟩ := h
  obtain ⟨rfl, hbound, hadmitted⟩ := orderingTurn_ok hturn
  obtain ⟨hsequence, -, hmarket, hdeadline, hnew, -⟩ := require_eq_ok.mp hrequire
  refine ⟨hsequence, hbound, hnew, hadmitted.imp_right ?_⟩
  rintro ⟨entry, hentry, rfl, rfl⟩
  exact ⟨entry, hentry, hmarket.symm, hdeadline⟩

/-! ## What the finality checks give -/

theorem checkFinality_ok {plan : RoundPlan} {finality : PrivateStateFinality}
    {receipt : NodeExecutionReceipt} {candidate : PrivateRoundFinalization}
    (h : checkFinality state plan finality = .ok (receipt, candidate))
    (hnew : state.finalizedPrivateRounds.get? plan.roundId = none) :
    finality.Filled ∧ finality.roundId = plan.roundId ∧
    state.completedRounds.get? plan.roundId = some receipt ∧
    receipt.publicOutputSha256 = finality.publicOutputSha256 ∧
    (∀ c ∈ plan.resting ++ [plan.arriving], ∃ record, state.records.get? c = some record) ∧
    ∃ required, candidate = ⟨required, finality.publicOutputSha256, finality.transitionDigest,
      finality.canonicalReceiptDigest, finality.canonicalHeight, none⟩ ∧
      (required = true → ∃ records, state.nativeFinalities.get? plan.roundId = some records ∧
        requireComplete receipt records finality = .ok ()) := by
  simp only [checkFinality, PrivateStateFinality.validate, ok_rules] at h
  obtain ⟨⟨⟩, hfilled, ⟨⟩, hround, found, hfound, ⟨⟩, houtput, required, hrequired, h⟩ := h
  have hrecords : ∀ c ∈ plan.resting ++ [plan.arriving],
      ∃ record, state.records.get? c = some record := by
    simp only [nativeFinalityRequired, hnew, ok_rules] at hrequired
    obtain ⟨records, hrecords, -⟩ := hrequired
    intro c hc
    obtain ⟨record, -, hrecord⟩ := exists_of_mapM_eq_some hrecords c hc
    exact ⟨record, hrecord⟩
  split at h
  · simp only [checkObserved, ok_rules, Prod.mk.injEq] at h
    obtain ⟨-, ⟨records, hnative, ⟨⟩, hcomplete, -⟩, rfl, rfl⟩ := h
    exact ⟨hfilled, hround, hfound, houtput, hrecords, required, rfl,
      fun _ => ⟨records, hnative, hcomplete⟩⟩
  · rename_i hnot
    simp only [ok_rules, Prod.mk.injEq] at h
    obtain ⟨-, -, rfl, rfl⟩ := h
    exact ⟨hfilled, hround, hfound, houtput, hrecords, required, rfl, fun h => absurd h hnot⟩

theorem checkRelease_ok {observation : ReleaseObservation} {entry : StoredLifecycle}
    {finality : LifecycleFinality}
    (h : checkRelease state observation = .ok (entry, finality)) :
    state.lifecycle.get? finality.command = some entry ∧
    finality.target = entry.command.target ∧
    entry.certificate.isSome = true ∧ finality.height ≠ 0 ∧ finality.releasedSequence ≠ 0 ∧
    finality.statement ≠ 0 ∧ finality.beforeRoot ≠ 0 ∧ finality.afterRoot ≠ 0 ∧
    finality.beforeRoot ≠ finality.afterRoot ∧ 0 < finality.transactionId.utf8ByteSize ∧
    0 < finality.blockId.utf8ByteSize := by
  simp only [checkRelease, lifecycleEntry, validateAccepted, ok_rules,
    Prod.mk.injEq] at h
  obtain ⟨entry', ⟨found, hfound, -, hcertified, rfl⟩, -, -, -, -, statement, -, -,
    ⟨htx, htxId, -, hstatement, hbefore, hbefore0, hafter0, hafter, hheight, hblock, -⟩, -, -, next,
    hnext, -, ⟨hsequence, -⟩, rfl, rfl⟩ := h
  obtain ⟨-, rfl⟩ := checkedAdd_eq_some.mp hnext
  refine ⟨hfound, rfl, hcertified, hheight, ?_, hstatement, ?_, hafter0, ?_, ?_, hblock⟩
  · rw [hsequence]
    exact Nat.succ_ne_zero _
  · rwa [hbefore]
  · rw [hbefore]
    exact hafter.symm
  · rwa [htxId]

end

/-! ## Calls whose checks pass -/

namespace NodeShareStore

/-- The store with `next` in memory and in its file. -/
def saved (store : NodeShareStore) (next : StoreState) : NodeShareStore :=
  { store with state := next, file := frame (stateJson next) }

/-- The state one generation later. -/
def bumped (state : StoreState) : StoreState := { state with generation := state.generation + 1 }

/-- The next generation exists and the state fits the file. -/
def Fits (state : StoreState) : Prop :=
  state.generation + 1 < u64Bound ∧ (stateJson (bumped state)).length ≤ maxStoreBytes

variable {store : NodeShareStore} {next previous : StoreState}

theorem persistOr_written (hfits : (stateJson next).length ≤ maxStoreBytes) :
    persistOr previous .written { store with state := next } = .ok () (store.saved next) := by
  unfold persistOr
  rw [run_persist, if_pos hfits]
  rfl

theorem commit_written (hfits : Fits next) :
    (commit .written next).run store = .ok () (store.saved (bumped next)) := by
  change commit .written next store = _
  rw [commit, checkedAdd, if_pos hfits.1]
  exact persistOr_written hfits.2

theorem commitEager_written (hfits : Fits next) :
    (commitEager .written next).run store = .ok () (store.saved (bumped next)) := by
  change commitEager .written next store = _
  rw [commitEager, checkedAdd, if_pos hfits.1]
  exact persistOr_written hfits.2

variable {manifest : EdgeOrderManifest} {now : Nat} {receipt : NodeExecutionReceipt}

theorem ingest_written {sealedShare : SealedPartyShare}
    {sealedCapability : SealedCapabilityKeyShare} {tag : Option Digest32}
    (hcheck : store.checkIngest manifest sealedShare sealedCapability now = .ok tag)
    (hnew : store.state.records.get? manifest.commitment = none) :
    let next :=
      afterIngest store.state ⟨manifest, sealedShare, some sealedCapability, now, none⟩ tag
    Fits next → (StoreOp.ingest .written manifest sealedShare sealedCapability now).apply store =
      store.saved (bumped next) := by
  intro next hfits
  rw [StoreOp.apply, ingest, run_get_bind, hcheck, run_attempt_ok_bind, hnew]
  dsimp only
  rw [run_bind_of_ok _ _ _ _ (commitEager_written hfits)]
  rfl

/-- At the last generation `ingest` fails with the order and its claim left in memory. -/
theorem ingest_exhausted {disk : Disk}
    {sealedShare : SealedPartyShare} {sealedCapability : SealedCapabilityKeyShare}
    {tag : Option Digest32}
    (hcheck : store.checkIngest manifest sealedShare sealedCapability now = .ok tag)
    (hnew : store.state.records.get? manifest.commitment = none)
    (hfull : u64Bound ≤ store.state.generation + 1) :
    (StoreOp.ingest disk manifest sealedShare sealedCapability now).apply store =
      { store with
        state := afterIngest store.state
          ⟨manifest, sealedShare, some sealedCapability, now, none⟩ tag } := by
  rw [StoreOp.apply, ingest, run_get_bind, hcheck, run_attempt_ok_bind, hnew]
  dsimp only
  rw [after_bind_of_reads _ _ fun _ _ => rfl]
  change after (commitEager _ _ store) = _
  unfold commitEager afterIngest
  rw [checkedAdd, if_neg (not_lt.mpr hfull)]
  rfl

/-- A vote for a sequence without a live vote for another statement. -/
theorem recordOrderVote_written {statement : OrderStatement}
    (hcheck : checkVote store.state statement now = .ok ())
    (hfree : (store.state.orderingVotes.get? statement.sequence).all (fun vote => decide
      (vote.statementDigest ≠ voteDigest statement ∧ vote.expiresAt < now)) = true) :
    let next : StoreState := { store.state with
      orderingVotes := store.state.orderingVotes.insert statement.sequence
        ⟨voteDigest statement, statement.expiresAt⟩ }
    Fits next → (recordOrderVote .written statement now).run store =
      .ok (voteDigest statement) (store.saved (bumped next)) := by
  intro next hfits
  rw [recordOrderVote, run_get_bind, hcheck, run_attempt_ok_bind]
  cases hvote : store.state.orderingVotes.get? statement.sequence with
  | none =>
    dsimp only
    rw [run_bind_of_ok _ _ _ _ (commit_written hfits)]
    rfl
  | some existing =>
    rw [hvote, Option.all_some, decide_eq_true_eq] at hfree
    dsimp only
    rw [if_neg hfree.1, run_ensure_bind, if_pos hfree.2,
      run_bind_of_ok _ _ _ _ (commit_written hfits)]
    rfl

theorem acceptOrderCertificate_written {certificate : OrderCertificate}
    {policy : CommitteePolicy} {keys : NodeKeys}
    (hverify : certificate.verify policy keys now = .ok ())
    (hnew : certificate.sequence ≠ store.state.orderingSequence)
    (hcheck : checkCertificate store.state certificate now = .ok ())
    (hfits : Fits (afterCertificate store.state certificate)) :
    (acceptOrderCertificate .written certificate policy keys now).run store =
      .ok (store.state.generation + 1)
        (store.saved (bumped (afterCertificate store.state certificate))) := by
  rw [acceptOrderCertificate, hverify]
  simp only [Except.mapError]
  rw [run_attempt_ok_bind, run_get_bind, if_neg hnew, hcheck, run_attempt_ok_bind,
    run_bind_of_ok _ _ _ _ (commit_written hfits)]
  rfl

theorem recordCompletedRound_written
    (hcomplete : receipt.Complete store.state.party)
    (hnew : store.state.completedRounds.get? receipt.roundId = none) :
    let next : StoreState := { store.state with
      completedRounds := store.state.completedRounds.insert receipt.roundId receipt }
    Fits next → (recordCompletedRound .written receipt).run store =
      .ok () (store.saved (bumped next)) := by
  intro next hfits
  rw [recordCompletedRound, run_get_bind, run_ensure_bind, if_pos hcomplete, hnew]
  exact commitEager_written hfits

theorem recordNativeFinality_written {record : NativeFinalityRecord}
    (hround : store.state.completedRounds.get? record.roundId = some receipt)
    (hvalid : record.Observes receipt)
    (hnew : ((store.state.nativeFinalities.get? record.roundId).getD .empty).get? record.slot =
      none)
    (hopen : store.state.finalizedPrivateRounds.contains record.roundId = false) :
    let next : StoreState := { store.state with
      nativeFinalities := store.state.nativeFinalities.insert record.roundId
        (((store.state.nativeFinalities.get? record.roundId).getD .empty).insert record.slot
          record) }
    Fits next → (recordNativeFinality .written record).run store =
      .ok () (store.saved (bumped next)) := by
  intro next hfits
  have hobserves : (record.validate receipt).mapError NodeError.privateState = .ok () :=
    mapError_eq_ok.mpr (require_eq_ok.mpr hvalid)
  rw [recordNativeFinality, run_get_bind, hround]
  simp only [okOr]
  rw [run_attempt_ok_bind, hobserves, run_attempt_ok_bind, hnew]
  dsimp only
  rw [run_ensure_bind, if_pos hopen]
  exact commit_written hfits

theorem finalizePrivateRound_written {files : PrivateFiles} {plan : RoundPlan}
    {finality : PrivateStateFinality} {signingKey : Bytes}
    {candidate : PrivateRoundFinalization} {signed : NodePrivateStateReceipt} {file : StateFile}
    (hcheck : checkFinality store.state plan finality = .ok (receipt, candidate))
    (hnew : store.state.finalizedPrivateRounds.get? plan.roundId = none)
    (hparent : receipt.privateParentDigest =
      privateParentDigest store.state plan.resting plan.arriving)
    (hfile : verifyPrivateStateFile files plan.roundId receipt.privateStateSha256 = .ok file)
    (hshort : plan.resting.length ≤ maxMatchSlots)
    (hsigned : signedFinalization (arrivingHead plan receipt finality { store.state with
        privateHeads := restingHeads plan receipt finality 0 plan.resting
          store.state.privateHeads }) plan receipt finality candidate signingKey =
        .ok (next, signed))
    (hfits : (stateJson next).length ≤ maxStoreBytes) :
    (finalizePrivateRound .written files plan finality signingKey).run store =
      .ok signed (store.saved next) := by
  rw [finalizePrivateRound, run_get_bind, hcheck, run_attempt_ok_bind]
  dsimp only
  rw [hnew]
  dsimp only
  rw [run_ensure_bind, if_pos hparent, hfile, run_attempt_ok_bind]
  rcases run_insertHeads plan receipt finality plan.resting 0 store with hrun | ⟨hlong, -⟩
  · have hsigned' : signedFinalization (arrivingHead plan receipt finality (store.withHeads
        (restingHeads plan receipt finality 0 plan.resting store.state.privateHeads)).state) plan
        receipt finality candidate signingKey = .ok (next, signed) := hsigned
    rw [run_bind_of_ok _ _ _ _ hrun, run_get_bind, hsigned']
    dsimp only
    rw [run_set_bind]
    exact run_bind_of_ok _ _ _ _ (persistOr_written hfits)
  · rw [Nat.zero_add, privateOrderWires] at hlong
    rw [maxMatchSlots] at hshort
    omega

theorem removeTerminal_written {commitment : Digest32} {record : StoredRecord}
    (hrecord : store.state.records.get? commitment = some record)
    (hlegacy : record.manifest.usesPretradeReservation = false)
    (hfits : Fits { store.state with records := store.state.records.erase commitment }) :
    (StoreOp.removeTerminal .written commitment).apply store =
      store.saved (bumped { store.state with
        records := store.state.records.erase commitment }) := by
  rw [StoreOp.apply, removeTerminal, run_get_bind, hrecord]
  dsimp only
  rw [run_ensure_bind, if_pos hlegacy, run_bind_of_ok _ _ _ _ (commitEager_written hfits)]
  rfl

theorem registerLifecycle_written {command : LifecycleCommand}
    (hnew : store.state.lifecycle.get? command.digest = none)
    (hcheck : checkLifecycle store.state command now = .ok manifest) :
    let next : StoreState := { store.state with
      lifecycle := store.state.lifecycle.insert command.digest ⟨command, manifest, none, none⟩ }
    Fits next → (registerLifecycle .written command now).run store =
      .ok command.digest (store.saved (bumped next)) := by
  intro next hfits
  rw [registerLifecycle, run_get_bind, hnew]
  dsimp only
  rw [hcheck, run_attempt_ok_bind, run_bind_of_ok _ _ _ _ (commit_written hfits)]
  rfl

theorem pinReservationTrust_fresh {trust : ReservationTrust}
    (htrust : trust.venueId ≠ 0 ∧ trust.defmiId ≠ 0 ∧ trust.signer.length = 1984)
    (hunpinned : store.reservationTrust = none) (hempty : store.state.records = .empty) :
    (StoreOp.pinReservationTrust trust).apply store =
      { store with reservationTrust := some trust } := by
  rw [StoreOp.apply, pinReservationTrust, run_ensure_bind, if_pos htrust, run_get_bind,
    run_ensure_bind, hunpinned, if_pos Option.all_none, hempty]
  rfl

theorem create_written {key : NodeDecryptionKey} {party : Nat} {policy : Bytes}
    (hparty : party < mpcParties)
    (hfits : (stateJson (emptyState party policy)).length ≤ maxStoreBytes) :
    create key party policy .written =
      .ok (saved ⟨key, emptyState party policy, [], none⟩ (emptyState party policy)) := by
  rw [create, require, if_pos hparty]
  simp only [bind, Except.bind]
  rw [stage, run_persist, if_pos hfits]
  rfl

end NodeShareStore

end

/-! ## The sample order in a sample store -/

section Sample

attribute [local instance] transparentNodeCrypto

variable {states : List StoreState}

theorem sample_size (state : StoreState) :
    ((sampleSerde states).stateJson state).length ≤ maxStoreBytes := by
  change (toBeBytes 8 _).length ≤ _
  rw [length_toBeBytes, maxStoreBytes]
  omega

theorem sample_fits {state : StoreState} (h : state.generation + 1 < u64Bound) :
    letI := sampleSerde states
    NodeShareStore.Fits state := ⟨h, sample_size _⟩

theorem sample_checkIngest {store : NodeShareStore} {source : Digest32} {now : Nat}
    (hkey : store.key = sampleDecryptionKey) (hparty : store.state.party < mpcParties)
    (hfree : store.state.lifecycle = .empty) (hsource : source ≠ 0) (hnow : now ≤ 2000) :
    store.checkIngest (sampleManifest source) (sampleSealedShare source store.state.party)
      (sampleSealedCapability source store.state.party) now = .ok none := by
  have hblocks : store.state.lifecycleBlocks (sampleManifest source).commitment = false := by
    rw [StoreState.lifecycleBlocks, hfree]
    rfl
  have htag : store.reservationTag (sampleManifest source)
      (sampleShare source store.state.party) now = .ok none := rfl
  rw [checkIngest, hkey, sampleSealedShare_open hsource hparty hnow,
    sampleSealedCapability_open hsource hparty hnow, require, if_pos hblocks]
  simp only [Except.mapError, bind, Except.bind, htag]
  rfl

/-- The sample order, admitted. -/
def sampleRecord (source : Digest32) (party now : Nat) : StoredRecord :=
  ⟨sampleManifest source, sampleSealedShare source party,
    some (sampleSealedCapability source party), now, none⟩

/-- Admitting the sample order. -/
theorem sample_ingest (store : NodeShareStore) (source : Digest32) (now party : Nat)
    (hkey : store.key = sampleDecryptionKey) (hself : store.state.party = party)
    (hparty : party < mpcParties)
    (hfree : store.state.lifecycle = .empty) (hsource : source ≠ 0) (hnow : now ≤ 2000)
    (hnew : store.state.records.get? (sampleManifest source).commitment = none)
    (hgeneration : store.state.generation + 1 < u64Bound) :
    letI := sampleSerde states
    (StoreOp.ingest .written (sampleManifest source) (sampleSealedShare source party)
      (sampleSealedCapability source party) now).apply store =
      store.saved (bumped { store.state with
        records := store.state.records.insert (sampleManifest source).commitment
          (sampleRecord source party now) }) := by
  subst hself
  let _ := sampleSerde states
  exact ingest_written (sample_checkIngest hkey hparty hfree hsource hnow) hnew
    (sample_fits hgeneration)

end Sample

end Oclob.Node
