import Oclob.Node.Calls

/-!
# Calls on a store that fail

The mutators of `NodeShareStore` clone their state before they change it and put it back by hand.
`Atomic` says that a call which returns an error leaves the state in memory as it was.

`StoreOp.restores_iff`: exactly when a call restores it. Four calls raise the generation themselves
and return between the change and the rollback when it is exhausted; `finalize_private_round`
returns in the loop over the resting orders, after the clone, at the first offset beyond `u16`.
The calls that use `bump_generation` always restore (`LeavesEdit` is false of them).
-/

namespace Oclob.Node

open Oclob.Core Oclob.Lib Oclob.Edge Oclob.Ordering NodeShareStore

variable {ε α β : Type}

/-- If a call on `store` ends with an error, the state in memory is as it was. -/
def Restored (store : NodeShareStore) (result : EStateM.Result ε NodeShareStore α) : Prop :=
  ∀ e out, result = .error e out → out.state = store.state

/-- Called on `store`, an error leaves the state in memory as it was. -/
def Atomic (call : EStateM ε NodeShareStore α) (store : NodeShareStore) : Prop :=
  Restored store (call.run store)

/-! ## Rules -/

section Rules

variable {x : EStateM ε NodeShareStore α} {f : α → EStateM ε NodeShareStore β}
variable {store : NodeShareStore}

theorem atomic_pure (a : α) : Atomic (pure a : EStateM ε NodeShareStore α) store := nofun

theorem atomic_ensure {c : Prop} [Decidable c] {e : ε} : Atomic (ensure c e) store := by
  intro e' out h
  rw [run_ensure_eq_error] at h
  rw [h.2.2]

theorem atomic_attempt {r : Except ε α} : Atomic (attempt r) store := by
  intro e out h
  rw [run_attempt_eq_error] at h
  rw [h.2]

/-- A refusal before any change. -/
theorem restored_error (e : ε) :
    Restored store (.error e store : EStateM.Result ε NodeShareStore β) := by
  intro e' out h
  rw [(EStateM.Result.error.inj h).2]

theorem atomic_get_bind {g : NodeShareStore → EStateM ε NodeShareStore β} :
    Atomic (get >>= g) store ↔ Atomic (g store) store := Iff.rfl

theorem atomic_attempt_bind {r : Except ε α} :
    Atomic (attempt r >>= f) store ↔ ∀ a, r = .ok a → Atomic (f a) store :=
  ends_attempt_bind (Q := Restored store) restored_error

theorem atomic_ensure_bind {c : Prop} [Decidable c] {e : ε}
    {g : Unit → EStateM ε NodeShareStore β} :
    Atomic (ensure c e >>= g) store ↔ (c → Atomic (g ()) store) :=
  ends_ensure_bind (Q := Restored store) restored_error

/-- What follows a call and cannot fail does not matter. -/
theorem atomic_bind_of_total (hf : ∀ a s e out, (f a).run s ≠ .error e out) :
    Atomic (x >>= f) store ↔ Atomic x store := by
  unfold Atomic Restored
  simp only [run_bind_eq_error]
  constructor
  · exact fun h e out hx => h e out (Or.inl hx)
  · rintro h e out (hx | ⟨a, s, -, hfail⟩)
    · exact h e out hx
    · exact absurd hfail (hf a s e out)

end Rules

/-! ## Writing -/

section Writing

variable [NodeCrypto] [Serde] {disk : Disk} {next : StoreState} {store : NodeShareStore}

theorem persistOr_error {previous : StoreState} {e : NodeError} {out : NodeShareStore}
    (h : persistOr previous disk store = .error e out) : out.state = previous := by
  unfold persistOr at h
  split at h
  · exact absurd h (by simp)
  · rw [← (EStateM.Result.error.inj h).2]

/-- A change in memory that is persisted with the old state to fall back to. -/
theorem atomic_set_persistOr {f : Unit → EStateM NodeError NodeShareStore β}
    (hf : ∀ u s e out, (f u).run s ≠ .error e out) :
    Atomic (set { store with state := next } >>= fun _ => persistOr store.state disk >>= f)
      store := by
  intro e out h
  rw [run_set_bind] at h
  rcases run_bind_eq_error.mp h with hwrite | ⟨u, s, -, hfail⟩
  · exact persistOr_error hwrite
  · exact absurd hfail (hf u s e out)

theorem atomic_commit : Atomic (commit disk next) store := by
  intro e out h
  change commit disk next store = _ at h
  unfold commit at h
  split at h
  · rw [(EStateM.Result.error.inj h).2]
  · exact persistOr_error h

/-- The early return at the last generation keeps the change. -/
theorem atomic_commitEager (hne : next ≠ store.state) :
    Atomic (commitEager disk next) store ↔ ¬u64Bound ≤ next.generation + 1 := by
  have hrun : (commitEager disk next).run store = commitEager disk next store := rfl
  unfold Atomic Restored
  rw [hrun, commitEager, checkedAdd]
  by_cases hroom : next.generation + 1 < u64Bound
  · rw [if_pos hroom]
    exact iff_of_true (fun e out h => persistOr_error h) (not_le.mpr hroom)
  · rw [if_neg hroom]
    exact iff_of_false (fun h => hne (h _ _ rfl)) (not_not_intro (not_lt.mp hroom))

end Writing

/-! ## The loop over the resting orders -/

section Heads

variable (plan : RoundPlan) (receipt : NodeExecutionReceipt) (finality : PrivateStateFinality)

/-- The slots whose offset fits `u16`. -/
def offsetSlots : Nat := 2 ^ 16 / privateOrderWires

/-- The loop ends, or stops after the slots whose offset fits. -/
theorem run_insertHeads_eq (l : List Digest32) : ∀ (slot : Nat) (store : NodeShareStore),
    slot ≤ offsetSlots →
    (insertHeads plan receipt finality slot l).run store =
      if slot + l.length ≤ offsetSlots then
        .ok () (store.withHeads
          (restingHeads plan receipt finality slot l store.state.privateHeads))
      else .error (.privateState "private wire offset overflowed") (store.withHeads
        (restingHeads plan receipt finality slot (l.take (offsetSlots - slot))
          store.state.privateHeads)) := by
  induction l with
  | nil =>
    intro slot store hslot
    rw [List.length_nil, Nat.add_zero, if_pos hslot]
    rfl
  | cons commitment rest ih =>
    intro slot store hslot
    rw [insertHeads, run_ensure_bind]
    have hfits : slot * privateOrderWires < 2 ^ 16 ↔ slot < offsetSlots := by
      unfold offsetSlots privateOrderWires
      omega
    by_cases hlt : slot < offsetSlots
    · rw [if_pos (hfits.mpr hlt)]
      have htake : offsetSlots - slot = (offsetSlots - (slot + 1)) + 1 := by omega
      rw [htake, List.take_succ_cons, List.length_cons, ← Nat.add_assoc, Nat.add_right_comm]
      exact ih (slot + 1) (store.withHeads (store.state.privateHeads.insert commitment
        (headAt plan receipt finality (slot * privateOrderWires)))) hlt
    · have hstop : ¬slot + (commitment :: rest).length ≤ offsetSlots := by
        rw [List.length_cons]
        omega
      rw [if_neg (fun h => hlt (hfits.mp h)), if_neg hstop, Nat.sub_eq_zero_of_le (not_lt.mp hlt)]
      rfl

/-- A loop that stops keeps the heads it has inserted. -/
theorem atomic_insertHeads_bind {l : List Digest32} {store : NodeShareStore}
    {f : Unit → EStateM NodeError NodeShareStore β}
    (hf : ∀ heads e out, (f ()).run (store.withHeads heads) = .error e out →
      out.state = store.state) :
    Atomic (insertHeads plan receipt finality 0 l >>= f) store ↔
      ¬(offsetSlots < l.length ∧ restingHeads plan receipt finality 0 (l.take offsetSlots)
        store.state.privateHeads ≠ store.state.privateHeads) := by
  have hrun := run_insertHeads_eq plan receipt finality l 0 store (Nat.zero_le _)
  rw [Nat.zero_add, Nat.sub_zero] at hrun
  unfold Atomic Restored
  rw [EStateM.run_bind, hrun]
  by_cases hfits : l.length ≤ offsetSlots
  · rw [if_pos hfits]
    exact iff_of_true (hf _) fun h => absurd hfits (not_le.mpr h.1)
  · rw [if_neg hfits, not_and, not_not]
    constructor
    · intro h _
      exact congrArg StoreState.privateHeads (h _ _ rfl)
    · intro h e out hout
      rw [← (EStateM.Result.error.inj hout).2]
      rw [h (not_le.mp hfits)]
      rfl

end Heads

/-! ## The calls -/

section Calls

variable [NodeCrypto] [Serde]

/-- If the call returns an error, the state in memory is the one before it. -/
def StoreOp.Restores : StoreOp → NodeShareStore → Prop
  | pinReservationTrust trust => Atomic (NodeShareStore.pinReservationTrust trust)
  | ingest disk manifest sealedShare sealedCapability now =>
    Atomic (NodeShareStore.ingest disk manifest sealedShare sealedCapability now)
  | admissionReceipt disk manifest key => Atomic (NodeShareStore.admissionReceipt disk manifest key)
  | recordOrderVote disk statement now => Atomic (NodeShareStore.recordOrderVote disk statement now)
  | acceptOrderCertificate disk certificate policy keys now =>
    Atomic (NodeShareStore.acceptOrderCertificate disk certificate policy keys now)
  | recordCompletedRound disk receipt => Atomic (NodeShareStore.recordCompletedRound disk receipt)
  | recordNativeFinality disk record => Atomic (NodeShareStore.recordNativeFinality disk record)
  | finalizePrivateRound disk files plan finality signingKey =>
    Atomic (NodeShareStore.finalizePrivateRound disk files plan finality signingKey)
  | registerLifecycle disk command now =>
    Atomic (NodeShareStore.registerLifecycle disk command now)
  | confirmRelease disk observation => Atomic (NodeShareStore.confirmRelease disk observation)
  | removeTerminal disk commitment => Atomic (NodeShareStore.removeTerminal disk commitment)
  | pruneExpired disk now => Atomic (NodeShareStore.pruneExpired disk now)

/-- The call returns between its change and its rollback: its checks pass, and the generation is
exhausted or the offset of a resting order beyond `u16` when heads have changed. -/
def StoreOp.LeavesEdit : StoreOp → NodeShareStore → Prop
  | ingest _ manifest sealedShare sealedCapability now, store =>
    u64Bound ≤ store.state.generation + 1 ∧
      store.state.records.get? manifest.commitment = none ∧
      ∃ tag, store.checkIngest manifest sealedShare sealedCapability now = .ok tag
  | recordCompletedRound _ receipt, store =>
    u64Bound ≤ store.state.generation + 1 ∧ receipt.Complete store.state.party ∧
      store.state.completedRounds.get? receipt.roundId = none
  | removeTerminal _ commitment, store =>
    u64Bound ≤ store.state.generation + 1 ∧ ∃ record,
      store.state.records.get? commitment = some record ∧
      record.manifest.usesPretradeReservation = false
  | pruneExpired _ now, store =>
    u64Bound ≤ store.state.generation + 1 ∧
      ∃ record ∈ store.state.records.values, expiredRecord now record = true
  | finalizePrivateRound _ files plan finality _, store =>
    offsetSlots < plan.resting.length ∧
      store.state.finalizedPrivateRounds.get? plan.roundId = none ∧
      ∃ receipt candidate, checkFinality store.state plan finality = .ok (receipt, candidate) ∧
        receipt.privateParentDigest = privateParentDigest store.state plan.resting plan.arriving ∧
        (∃ file, verifyPrivateStateFile files plan.roundId receipt.privateStateSha256 = .ok file) ∧
        restingHeads plan receipt finality 0 (plan.resting.take offsetSlots)
          store.state.privateHeads ≠ store.state.privateHeads
  | _, _ => False

variable (disk : Disk) (store : NodeShareStore)

theorem ingest_atomic (manifest : EdgeOrderManifest) (sealedShare : SealedPartyShare)
    (sealedCapability : SealedCapabilityKeyShare) (now : Nat) :
    (StoreOp.ingest disk manifest sealedShare sealedCapability now).Restores store ↔
      ¬(StoreOp.ingest disk manifest sealedShare sealedCapability now).LeavesEdit store := by
  change Atomic (attempt _ >>= _) store ↔ _
  rw [atomic_attempt_bind]
  simp only [StoreOp.LeavesEdit]
  cases hnew : store.state.records.get? manifest.commitment with
  | some existing =>
    refine iff_of_true (fun tag _ => ?_) (by simp)
    exact atomic_ensure_bind.mpr fun _ => atomic_pure _
  | none =>
    have hne (tag : Option Digest32) : afterIngest store.state
        ⟨manifest, sealedShare, some sealedCapability, now, none⟩ tag ≠ store.state := by
      intro h
      have hget := congrArg (fun state => state.records.get? manifest.commitment) h
      exact absurd ((OrdMap.get?_insert_self).symm.trans (hget.trans hnew)) (by simp)
    constructor
    · rintro h ⟨hfull, -, tag, htag⟩
      have hwrite := (atomic_bind_of_total (by rintro _ _ _ _ ⟨⟩)).mp (h tag htag)
      exact (atomic_commitEager (hne tag)).mp hwrite hfull
    · intro h tag htag
      refine (atomic_bind_of_total (by rintro _ _ _ _ ⟨⟩)).mpr ?_
      exact (atomic_commitEager (hne tag)).mpr fun hfull => h ⟨hfull, rfl, tag, htag⟩

theorem recordCompletedRound_atomic (receipt : NodeExecutionReceipt) :
    (StoreOp.recordCompletedRound disk receipt).Restores store ↔
      ¬(StoreOp.recordCompletedRound disk receipt).LeavesEdit store := by
  change Atomic (ensure _ _ >>= _) store ↔ _
  rw [atomic_ensure_bind]
  simp only [StoreOp.LeavesEdit]
  cases hnew : store.state.completedRounds.get? receipt.roundId with
  | some existing => exact iff_of_true (fun _ => atomic_ensure) (by simp)
  | none =>
    have hne : { store.state with
        completedRounds := store.state.completedRounds.insert receipt.roundId receipt } ≠
        store.state := by
      intro h
      have hget := congrArg (fun state => state.completedRounds.get? receipt.roundId) h
      exact absurd ((OrdMap.get?_insert_self).symm.trans (hget.trans hnew)) (by simp)
    simp only [and_true, not_and']
    exact imp_congr_right fun _ => atomic_commitEager hne

theorem removeTerminal_atomic (commitment : Digest32) :
    (StoreOp.removeTerminal disk commitment).Restores store ↔
      ¬(StoreOp.removeTerminal disk commitment).LeavesEdit store := by
  change Atomic (get >>= _) store ↔ _
  rw [atomic_get_bind]
  simp only [StoreOp.LeavesEdit]
  cases hrecord : store.state.records.get? commitment with
  | none => exact iff_of_true (atomic_pure _) (by simp)
  | some record =>
    have hne : { store.state with records := store.state.records.erase commitment } ≠
        store.state := by
      intro h
      have hget := congrArg (fun state => state.records.get? commitment) h
      simp [hrecord] at hget
    simp only [atomic_ensure_bind, Option.some.injEq, exists_eq_left', not_and']
    refine imp_congr_right fun _ => ?_
    exact (atomic_bind_of_total (by rintro _ _ _ _ ⟨⟩)).trans (atomic_commitEager hne)

theorem pruneExpired_atomic (now : Nat) :
    (StoreOp.pruneExpired disk now).Restores store ↔
      ¬(StoreOp.pruneExpired disk now).LeavesEdit store := by
  change Atomic (if _ then _ else _) store ↔ _
  simp only [StoreOp.LeavesEdit]
  by_cases hnone : store.state.records.values.countP (expiredRecord now) = 0
  · rw [if_pos hnone]
    refine iff_of_true (atomic_pure _) ?_
    rintro ⟨-, record, hmem, hexpired⟩
    exact List.countP_eq_zero.mp hnone record hmem hexpired
  · obtain ⟨record, hmem, hexpired⟩ := List.countP_pos_iff.mp (Nat.pos_of_ne_zero hnone)
    obtain ⟨key, hkey⟩ := OrdMap.mem_values.mp hmem
    have hne : { store.state with
        records := store.state.records.retain fun _ record => !expiredRecord now record } ≠
        store.state := by
      intro h
      have hget := congrArg (fun state => state.records.get? key) h
      simp [hkey, hexpired] at hget
    rw [if_neg hnone]
    refine (atomic_bind_of_total (by rintro _ _ _ _ ⟨⟩)).trans ?_
    refine (atomic_commitEager hne).trans (not_congr ?_)
    exact ⟨fun hfull => ⟨hfull, record, hmem, hexpired⟩, And.left⟩

theorem finalizePrivateRound_atomic (files : PrivateFiles) (plan : RoundPlan)
    (finality : PrivateStateFinality) (signingKey : Bytes) :
    (StoreOp.finalizePrivateRound disk files plan finality signingKey).Restores store ↔
      ¬(StoreOp.finalizePrivateRound disk files plan finality signingKey).LeavesEdit store := by
  change Atomic (attempt _ >>= _) store ↔ _
  rw [atomic_attempt_bind]
  simp only [StoreOp.LeavesEdit]
  cases hcheck : checkFinality store.state plan finality with
  | error e => exact iff_of_true (fun a h => absurd h (by simp)) (by simp)
  | ok found =>
    obtain ⟨receipt, candidate⟩ := found
    simp only [Except.ok.injEq, forall_eq']
    cases hnew : store.state.finalizedPrivateRounds.get? plan.roundId with
    | some existing => exact iff_of_true atomic_attempt (by simp)
    | none =>
      simp only [atomic_ensure_bind, atomic_attempt_bind]
      rw [atomic_insertHeads_bind plan receipt finality]
      · constructor
        · rintro h ⟨hlong, -, _, _, hfound, hparent, ⟨file, hfile⟩, hheads⟩
          obtain ⟨rfl, -⟩ := Prod.mk.inj hfound
          exact h hparent file hfile ⟨hlong, hheads⟩
        · rintro h hparent file hfile ⟨hlong, hheads⟩
          exact h ⟨hlong, trivial, receipt, candidate, rfl, hparent, ⟨file, hfile⟩, hheads⟩
      · -- after the loop only the signature and the write can fail, and both roll back
        intro heads e out h
        rw [run_get_bind] at h
        split at h
        · rw [← (EStateM.Result.error.inj h).2]
        · rw [run_set_bind] at h
          rcases run_bind_eq_error.mp h with hwrite | ⟨_, _, -, hfail⟩
          · exact persistOr_error hwrite
          · exact absurd hfail (by simp)

/-- **When a call on a store that fails leaves it as it was**: unless its checks pass and it
returns between its change and its rollback. -/
theorem StoreOp.restores_iff (op : StoreOp) :
    op.Restores store ↔ ¬op.LeavesEdit store := by
  have hcommit {γ : Type} {disk : Disk} {next : StoreState}
      {f : Unit → EStateM NodeError NodeShareStore γ}
      (hf : ∀ u s e out, (f u).run s ≠ .error e out) : Atomic (commit disk next >>= f) store :=
    (atomic_bind_of_total hf).mpr atomic_commit
  cases op with
  | ingest disk manifest sealedShare sealedCapability now =>
    exact ingest_atomic disk store manifest sealedShare sealedCapability now
  | recordCompletedRound disk receipt => exact recordCompletedRound_atomic disk store receipt
  | removeTerminal disk commitment => exact removeTerminal_atomic disk store commitment
  | pruneExpired disk now => exact pruneExpired_atomic disk store now
  | finalizePrivateRound disk files plan finality signingKey =>
    exact finalizePrivateRound_atomic disk store files plan finality signingKey
  | pinReservationTrust trust =>
    refine iff_of_true
      (atomic_ensure_bind.mpr fun _ => atomic_ensure_bind.mpr fun _ => ?_) not_false
    exact atomic_attempt_bind.mpr fun _ _ _ _ h => by cases h
  | admissionReceipt disk manifest key =>
    refine iff_of_true (atomic_attempt_bind.mpr fun found _ => ?_) not_false
    obtain ⟨record, receipt⟩ := found
    change Atomic (if _ then _ else _) store
    split
    · exact atomic_pure _
    · exact atomic_set_persistOr (by rintro _ _ _ _ ⟨⟩)
  | recordOrderVote disk statement now =>
    refine iff_of_true (atomic_attempt_bind.mpr fun _ _ => ?_) not_false
    dsimp only
    split
    · split
      · exact atomic_pure _
      · exact atomic_ensure_bind.mpr fun _ => hcommit (by rintro _ _ _ _ ⟨⟩)
    · exact hcommit (by rintro _ _ _ _ ⟨⟩)
  | acceptOrderCertificate disk certificate policy keys now =>
    refine iff_of_true (atomic_attempt_bind.mpr fun _ _ => ?_) not_false
    change Atomic (if _ then _ else _) store
    split
    · exact atomic_ensure_bind.mpr fun _ => atomic_pure _
    · exact atomic_attempt_bind.mpr fun _ _ => hcommit (by rintro _ _ _ _ ⟨⟩)
  | recordNativeFinality disk record =>
    refine iff_of_true (atomic_attempt_bind.mpr fun _ _ => atomic_attempt_bind.mpr fun _ _ => ?_)
      not_false
    dsimp only
    split
    · exact atomic_ensure
    · exact atomic_ensure_bind.mpr fun _ => atomic_commit
  | registerLifecycle disk command now =>
    refine iff_of_true ?_ not_false
    refine atomic_get_bind.mpr ?_
    dsimp only
    split
    · exact atomic_ensure_bind.mpr fun _ => atomic_pure _
    · exact atomic_attempt_bind.mpr fun _ _ => hcommit (by rintro _ _ _ _ ⟨⟩)
  | confirmRelease disk observation =>
    refine iff_of_true (atomic_attempt_bind.mpr fun found _ => ?_) not_false
    obtain ⟨entry, finality⟩ := found
    dsimp only
    split
    · exact atomic_ensure_bind.mpr fun _ => atomic_pure _
    · split
      · exact fun _ _ h => by cases h
      · rename_i hrun
        intro e out h
        obtain ⟨-, rfl⟩ := EStateM.Result.error.inj h
        exact atomic_commit _ _ hrun

end Calls

/-! ## A store at its last generation

`prune_expired` drops the expired order in memory, fails to count the generation up and returns. -/

section Sample

attribute [local instance] transparentNodeCrypto

/-- A store whose one order has the retention deadline 2000, at the last generation. -/
def lastGenerationStore : NodeShareStore where
  key := sampleDecryptionKey
  state := { emptyState 0 [] with
    generation := u64Bound - 1
    records := OrdMap.empty.insert 1 ⟨sampleManifest 1, sampleSealedShare 1 0, none, 1, none⟩ }
  file := []
  reservationTrust := none

theorem lastGeneration_not_restores :
    letI := sampleSerde []
    ¬(StoreOp.pruneExpired .written 2001).Restores lastGenerationStore := by
  intro h
  have hstate := h .generation _ rfl
  have hcontains := congrArg (fun state => state.records.contains 1) hstate
  exact absurd hcontains (by decide)

end Sample

end Oclob.Node
