import Oclob.Node.Format
import Oclob.Node.Lifecycle

/-!
# An order that was ended stays out

A node over its whole life: calls on its store, and restarts that read the file back. `Hosted` pairs
the store with the state its file was written from, which is not always the one in memory: a call
whose write fails after the rename returns to the old state and leaves the new one in the file.

`Kept` holds in memory and in the file: the target of a stored command is an ordered order, that of
a certified command was ordered before the head, and that of a released one has neither record nor
private head. With it, `ended_order_stays_out` says of an order with a certified cancellation or
expiry that no later state admits it, orders it or takes it into a round.
-/

namespace Oclob.Node

open Oclob.Core Oclob.Lib Oclob.Edge Oclob.Ordering NodeShareStore OrdMap

section

variable [NodeCrypto] [Serde]

/-! ## The life of a node -/

/-- A store and the state its file was written from. -/
structure Hosted where
  store : NodeShareStore
  saved : StoreState

/-- The certificate a call presents. -/
def StoreOp.certificate : StoreOp → Option OrderCertificate
  | acceptOrderCertificate _ certificate _ _ _ => some certificate
  | _ => none

/-- The state in the file after a call: the one before, or the edit the call has written. -/
def Hosted.Saves (node : Hosted) (op : StoreOp) (saved : StoreState) : Prop :=
  ((op.apply node.store).file = node.store.file ∧ saved = node.saved) ∨
  ∃ g, Edit node.store op g saved ∧
    (op.apply node.store).file = frame (stateJson saved) ∧
    (stateJson saved).length ≤ maxStoreBytes

/-- `Later known start node`: the node after some calls and restarts. The certificates presented to
it are in `known`, and a restart happens where `serde_json` reads back what it wrote. -/
inductive Later (known : Set OrderCertificate) (start : Hosted) : Hosted → Prop
  | refl : Later known start start
  | call {node : Hosted} (h : Later known start node) (op : StoreOp) (saved : StoreState)
      (hknown : ∀ certificate, op.certificate = some certificate → certificate ∈ known)
      (hsaves : node.Saves op saved) : Later known start ⟨op.apply node.store, saved⟩
  | restart {node : Hosted} (h : Later known start node) (key : NodeDecryptionKey) (party : Nat)
      (policy : Bytes) (state : StoreState) (hserde : RoundTrips node.saved)
      (hread : readState node.store.file party policy = .ok state) :
      Later known start ⟨⟨key, state, node.store.file, none⟩, node.saved⟩

/-- Every call leads on. -/
theorem Hosted.exists_saves (node : Hosted) (op : StoreOp) : ∃ saved, node.Saves op saved := by
  rcases (op.outcome node.store).writes with hfile | ⟨g, next, hedit, hfile⟩
  · exact ⟨node.saved, Or.inl ⟨hfile, rfl⟩⟩
  · exact ⟨next, Or.inr ⟨g, hedit, hfile⟩⟩

/-- So does every run of calls. -/
theorem Later.run {known : Set OrderCertificate} {start : Hosted} (ops : List StoreOp)
    (hknown : ∀ op ∈ ops, ∀ certificate, op.certificate = some certificate → certificate ∈ known)
    {node : Hosted} (h : Later known start node) :
    ∃ saved, Later known start ⟨StoreOp.run ops node.store, saved⟩ := by
  induction ops generalizing node with
  | nil => exact ⟨node.saved, h⟩
  | cons op rest ih =>
    obtain ⟨saved, hsaves⟩ := node.exists_saves op
    rw [StoreOp.run_cons]
    exact ih (fun other hother => hknown other (List.mem_cons_of_mem op hother))
      (h.call op saved (hknown op List.mem_cons_self) hsaves)

/-- A property of states that calls keep, in memory and in what they write. -/
structure Stable (known : Set OrderCertificate) (Q : StoreState → Prop) : Prop where
  version : ∀ state, Q state → state.version = storeVersion
  edit : ∀ (store : NodeShareStore) (op : StoreOp) (g : Nat) (next : StoreState),
    (∀ certificate, op.certificate = some certificate → certificate ∈ known) →
    Q store.state → Edit store op g next → Q next
  apply : ∀ (store : NodeShareStore) (op : StoreOp),
    (∀ certificate, op.certificate = some certificate → certificate ∈ known) →
    Q store.state → Q (op.apply store).state

/-- The property holds in memory and in the file. -/
structure Holds (Q : StoreState → Prop) (node : Hosted) : Prop where
  memory : Q node.store.state
  saved : Q node.saved
  file : node.store.file = frame (stateJson node.saved)
  size : (stateJson node.saved).length ≤ maxStoreBytes

/-- **A stable property holds for ever**, across calls and restarts. -/
theorem Later.holds {known : Set OrderCertificate} {Q : StoreState → Prop} {start node : Hosted}
    (h : Later known start node) (hQ : Stable known Q) (hstart : Holds Q start) :
    Holds Q node := by
  induction h with
  | refl => exact hstart
  | call h op saved hknown hsaves ih =>
    rename_i node
    have hmemory := hQ.apply node.store op hknown ih.memory
    rcases hsaves with ⟨hfile, rfl⟩ | ⟨g, hedit, hfile, hsize⟩
    · exact ⟨hmemory, ih.saved, hfile.trans ih.file, ih.size⟩
    · exact ⟨hmemory, hQ.edit _ _ _ _ hknown ih.memory hedit, hfile, hsize⟩
  | restart h key party policy state hserde hread ih =>
    rename_i node
    have hstate : state = node.saved :=
      eq_of_readState_frame hserde (hQ.version _ ih.saved) ih.size (ih.file ▸ hread)
    exact ⟨hstate ▸ ih.saved, ih.saved, ih.file, ih.size⟩

/-! ## What calls keep of a command -/

variable {g : Nat} {next : StoreState}

/-- A property of a command that certification and release keep is not lost. -/
theorem Edit.exists_entry {P : StoredLifecycle → Prop}
    (hcertify : ∀ entry certificate, P entry → P { entry with certificate := some certificate })
    (hrelease : ∀ entry finality, P entry → P { entry with finality := some finality })
    {store : NodeShareStore} {op : StoreOp}
    (hedit : Edit store op g next)
    (h : ∃ id entry, store.state.lifecycle.get? id = some entry ∧ P entry) :
    ∃ id entry, next.lifecycle.get? id = some entry ∧ P entry := by
  obtain ⟨id, entry, hentry, hP⟩ := h
  have hcases := hedit.entry id
  rw [hentry] at hcases
  generalize hnext : next.lifecycle.get? id = after at hcases
  cases hcases with
  | same => exact ⟨id, entry, hnext, hP⟩
  | certified hop hid hnew hmoved => exact ⟨id, _, hnext, hcertify entry _ hP⟩
  | released hcertified hrecord hhead => exact ⟨id, _, hnext, hrelease entry _ hP⟩

theorem Edit.lifecycleBlocks {store : NodeShareStore} {op : StoreOp} {target : Digest32}
    (hedit : Edit store op g next)
    (h : store.state.lifecycleBlocks target = true) : next.lifecycleBlocks target = true := by
  rw [StoreState.lifecycleBlocks_eq_true] at h ⊢
  exact hedit.exists_entry (P := fun entry => entry.command.target = target ∧
    entry.certificate.isSome = true) (fun entry certificate h => ⟨h.1, rfl⟩)
    (fun entry finality h => h) h

omit [Serde] in
theorem checkIngest_blocks {store : NodeShareStore} {manifest : EdgeOrderManifest}
    {sealedShare : SealedPartyShare} {sealedCapability : SealedCapabilityKeyShare} {now : Nat}
    {tag : Option Digest32}
    (h : store.checkIngest manifest sealedShare sealedCapability now = .ok tag) :
    store.state.lifecycleBlocks manifest.commitment = false := by
  simp only [checkIngest, ok_rules] at h
  exact h.choose_spec.1

/-- An order with a certified command that is gone does not come back. -/
theorem Edit.gone {store : NodeShareStore} {op : StoreOp}
    {target : Digest32} (hedit : Edit store op g next)
    (hblocks : store.state.lifecycleBlocks target = true)
    (hrecord : store.state.records.get? target = none)
    (hhead : store.state.privateHeads.get? target = none) :
    next.records.get? target = none ∧ next.privateHeads.get? target = none := by
  cases hedit with
  | ingest g hcheck hnew =>
    refine ⟨?_, hhead⟩
    rw [get?_insert, if_neg, hrecord]
    rintro rfl
    exact absurd (checkIngest_blocks hcheck) (by simp [hblocks])
  | admissionReceipt receipt hstored =>
    refine ⟨?_, hhead⟩
    rw [get?_insert, if_neg, hrecord]
    rintro rfl
    exact absurd (hrecord.symm.trans hstored) (by simp)
  | finalizePrivateRound g hcheck hnew hsigned =>
    rename_i plan finality signingKey receipt candidate signed
    -- every order of the round has a record, so the target is none of them
    obtain ⟨-, -, -, -, hrecords, -⟩ := checkFinality_ok hcheck hnew
    have hother : target ∉ plan.resting ++ [plan.arriving] := by
      intro hmem
      obtain ⟨record, hstored⟩ := hrecords target hmem
      exact absurd (hrecord.symm.trans hstored) (by simp)
    rw [List.mem_append, List.mem_singleton, not_or] at hother
    rw [signedFinalization_ok hsigned]
    refine ⟨hrecord, ?_⟩
    have hresting : (restingHeads plan receipt finality 0 plan.resting
        store.state.privateHeads).get? target = none := by
      by_contra hsome
      obtain ⟨head, hget⟩ := Option.ne_none_iff_exists'.mp hsome
      rcases get?_restingHeads plan.resting 0 store.state.privateHeads hget with hold | ⟨hmem, -⟩
      · exact absurd (hhead.symm.trans hold) (by simp)
      · exact hother.1 hmem
    simp only [arrivingHead]
    split
    · rw [get?_insert, if_neg hother.2, hresting]
    · rw [get?_erase, if_neg hother.2, hresting]
  | confirmRelease g hcheck hnew =>
    simp only [afterRelease, get?_erase, hrecord, hhead, ite_self, and_self]
  | removeTerminal g hstored =>
    refine ⟨?_, hhead⟩
    rw [get?_erase, hrecord, ite_self]
  | pruneExpired g =>
    refine ⟨?_, hhead⟩
    rw [get?_retain, hrecord]
    rfl
  | _ => exact ⟨hrecord, hhead⟩

/-! ## The invariant -/

/-- Commands and their targets in the chain of certificates. -/
structure Kept (known : Set OrderCertificate) (state : StoreState) : Prop where
  version : state.version = storeVersion
  chain : ∃ chain, Chained state chain ∧ (∀ certificate ∈ chain, certificate ∈ known) ∧
    ∀ id entry, state.lifecycle.get? id = some entry → entry.certificate.isSome = true →
      ∃ certificate ∈ chain.tail, certificate.commitment = entry.command.target
  ordered : ∀ id entry, state.lifecycle.get? id = some entry →
    entry.command.target ∈ state.orderedCommitments
  released : ∀ id entry, state.lifecycle.get? id = some entry → entry.finality.isSome = true →
    entry.certificate.isSome = true ∧ state.records.get? entry.command.target = none ∧
      state.privateHeads.get? entry.command.target = none

omit [Serde] in
theorem kept_emptyState (known : Set OrderCertificate) (party : Nat) (policy : Bytes) :
    Kept known (emptyState party policy) := by
  have hnone : ∀ id entry, (emptyState party policy).lifecycle.get? id = some entry → False :=
    fun id entry h => absurd h (by simp [emptyState])
  exact ⟨rfl, ⟨[], chained_emptyState party policy, by simp,
      fun id entry h => (hnone id entry h).elim⟩,
    fun id entry h => (hnone id entry h).elim, fun id entry h => (hnone id entry h).elim⟩

theorem Edit.version {store : NodeShareStore} {op : StoreOp}
    (h : Edit store op g next) : next.version = store.state.version := by
  cases h with
  | finalizePrivateRound g hcheck hnew hsigned =>
    rw [signedFinalization_ok hsigned]
    rfl
  | _ => rfl

theorem Edit.orderedCommitments {store : NodeShareStore} {op : StoreOp} (h : Edit store op g next) :
    store.state.orderedCommitments ⊆ next.orderedCommitments := by
  rcases h.ordering with ⟨-, -, hsame⟩ | ⟨_, certificate, _, _, _, -, -, -, -, -, -, -, hinsert⟩
  · rw [hsame]
  · rw [hinsert]
    exact Finset.subset_insert _ _

section

variable {known : Set OrderCertificate} {store : NodeShareStore} {op : StoreOp}

theorem Kept.edit {g : Nat} {next : StoreState} (h : Kept known store.state)
    (hknown : ∀ certificate, op.certificate = some certificate → certificate ∈ known)
    (hedit : Edit store op g next) : Kept known next := by
  refine ⟨hedit.version.trans h.version, ?_, ?_, ?_⟩
  · obtain ⟨chain, hchained, hchain, htail⟩ := h.chain
    rcases hchained.edit hedit with ⟨hsame, hnext⟩ | ⟨_, certificate, _, _, _, rfl, hne, hnext⟩
    · refine ⟨chain, hnext, hchain, fun id entry hentry hcertified => ?_⟩
      obtain ⟨before, hbefore, hcommand, hwas | ⟨_, certificate, _, _, _, -, -, hnew, hmoved⟩⟩ :=
        hedit.certified hentry hcertified
      · exact hcommand ▸ htail id before hbefore hwas
      · exact absurd (hmoved.symm.trans hsame) hnew
    · refine ⟨certificate :: chain, hnext, List.forall_mem_cons.mpr ⟨hknown _ rfl, hchain⟩,
        fun id entry hentry hcertified => ?_⟩
      -- the target was ordered when its command was registered, before this certificate
      obtain ⟨before, hbefore, hcommand, -⟩ := hedit.certified hentry hcertified
      rw [← hcommand]
      exact (hchained.ordered _).mp (h.ordered id before hbefore)
  · intro id entry hentry
    have hcases := hedit.entry id
    rw [hentry] at hcases
    generalize hbefore : store.state.lifecycle.get? id = before at hcases
    cases hcases with
    | same => exact hedit.orderedCommitments (h.ordered id entry hbefore)
    | registered hcheck =>
      simp only [checkLifecycle, ok_rules] at hcheck
      obtain ⟨-, -, -, -, record, -, -, -, -, hordered, -⟩ := hcheck
      exact hedit.orderedCommitments hordered
    | certified hop hid hnew hmoved =>
      have hordered := h.ordered id _ hbefore
      exact hedit.orderedCommitments hordered
    | released hcertified hrecord hhead =>
      have hordered := h.ordered id _ hbefore
      exact hedit.orderedCommitments hordered
  · intro id entry hentry hfinal
    have hgone : ∀ before, store.state.lifecycle.get? id = some before →
        before.finality.isSome = true → before.certificate.isSome = true ∧
        next.records.get? before.command.target = none ∧
        next.privateHeads.get? before.command.target = none := by
      intro before hbefore hwas
      obtain ⟨hcertified, hrecord, hhead⟩ := h.released id before hbefore hwas
      exact ⟨hcertified, hedit.gone (StoreState.lifecycleBlocks_eq_true.mpr
        ⟨id, before, hbefore, rfl, hcertified⟩) hrecord hhead⟩
    have hcases := hedit.entry id
    rw [hentry] at hcases
    generalize hbefore : store.state.lifecycle.get? id = before at hcases
    cases hcases with
    | same => exact hgone entry hbefore hfinal
    | registered hcheck => exact absurd hfinal (by simp)
    | certified hop hid hnew hmoved => exact ⟨rfl, (hgone _ hbefore hfinal).2⟩
    | released hcertified hrecord hhead => exact ⟨hcertified, hrecord, hhead⟩

theorem Kept.apply (h : Kept known store.state)
    (hknown : ∀ certificate, op.certificate = some certificate → certificate ∈ known) :
    Kept known (op.apply store).state := by
  cases op.effect store with
  | kept hstate hfile => exact hstate ▸ h
  | wrote g next hedit hg hout => exact hout.1 ▸ h.edit hknown hedit
  | exhausted next heager hg hedit hstate => exact hstate ▸ h.edit hknown hedit
  | partialHeads disk files plan finality signingKey hop hlong heads hstate =>
    -- the finalization stopped in its loop: it has found the records of all its orders
    subst hop
    have hheads := finalizePrivateRound_heads disk files plan finality signingKey store
    dsimp only at hheads
    rw [hstate] at hheads ⊢
    obtain ⟨chain, hchained, hrest⟩ := h.chain
    refine ⟨h.version, ⟨chain, ⟨hchained.1, hchained.2, hchained.3, hchained.4, hchained.5⟩, hrest⟩,
      h.ordered, fun id entry hentry hfinal => ?_⟩
    obtain ⟨hcertified, hrecord, hhead⟩ := h.released id entry hentry hfinal
    refine ⟨hcertified, hrecord, ?_⟩
    rcases hheads with hsame | ⟨receipt, candidate, hcheck, hnew, -, hchanged⟩
    · exact (congrArg (get? · _) hsame).trans hhead
    · rcases hchanged entry.command.target with hsame | ⟨hmem, -⟩
      · exact hsame.trans hhead
      · obtain ⟨-, -, -, -, hrecords, -⟩ := checkFinality_ok hcheck hnew
        obtain ⟨record, hstored⟩ := hrecords _ hmem
        exact absurd (hrecord.symm.trans hstored) (by simp)

/-- What is known of an order with a certified command. -/
def Ended (known : Set OrderCertificate) (target : Digest32) (state : StoreState) : Prop :=
  Kept known state ∧ state.lifecycleBlocks target = true

theorem StoreOp.lifecycleBlocks_apply {target : Digest32}
    (h : store.state.lifecycleBlocks target = true) :
    (op.apply store).state.lifecycleBlocks target = true :=
  (op.effect store).preserves (P := fun state => state.lifecycleBlocks target = true)
    (fun _ => h) fun _ _ hedit => hedit.lifecycleBlocks h

end

theorem stable_kept (known : Set OrderCertificate) : Stable known (Kept known) :=
  ⟨fun _ h => h.version, fun _ _ _ _ hknown h hedit => h.edit hknown hedit,
    fun _ _ hknown h => h.apply hknown⟩

theorem stable_ended (known : Set OrderCertificate) (target : Digest32) :
    Stable known (Ended known target) :=
  ⟨fun _ h => h.1.version,
    fun _ _ _ _ hknown h hedit => ⟨h.1.edit hknown hedit, hedit.lifecycleBlocks h.2⟩,
    fun _ _ hknown h => ⟨h.1.apply hknown, StoreOp.lifecycleBlocks_apply h.2⟩⟩

/-! ## What an ended order can no longer do -/

section

variable {known : Set OrderCertificate} {target : Digest32} {store : NodeShareStore}

omit [Serde] in
theorem Ended.ordered (h : Ended known target store.state) :
    target ∈ store.state.orderedCommitments := by
  obtain ⟨id, entry, hentry, rfl, -⟩ := StoreState.lifecycleBlocks_eq_true.mp h.2
  exact h.1.ordered id entry hentry

theorem Ended.ingest_fails (h : Ended known target store.state) (disk : Disk)
    {manifest : EdgeOrderManifest} (hmanifest : manifest.commitment = target)
    (sealedShare : SealedPartyShare) (sealedCapability : SealedCapabilityKeyShare) (now : Nat) :
    succeeds ((ingest disk manifest sealedShare sealedCapability now).run store) =
      false := by
  rw [ingest, run_get_bind]
  cases hcheck : store.checkIngest manifest sealedShare sealedCapability now with
  | error e => rfl
  | ok tag => exact absurd (checkIngest_blocks hcheck) (by simp [hmanifest, h.2])

theorem Ended.recordOrderVote_fails (h : Ended known target store.state) (disk : Disk)
    {statement : OrderStatement} (hstatement : statement.commitment = target) (now : Nat) :
    succeeds ((recordOrderVote disk statement now).run store) = false := by
  rw [recordOrderVote, run_get_bind]
  cases hcheck : checkVote store.state statement now with
  | error e => rfl
  | ok u =>
    simp only [checkVote, ok_rules] at hcheck
    obtain ⟨turn, -, -, -, -, -, -, -, -, hnew⟩ := hcheck
    exact absurd h.ordered (hstatement ▸ hnew)

/-- The head is the certificate of a later order or command, so the order's own certificate is not
even accepted as a retry. -/
theorem Ended.acceptOrderCertificate_fails (h : Ended known target store.state)
    (hinj : DrivenNode.NoCollision known) (disk : Disk) {certificate : OrderCertificate}
    (hcertificate : certificate.commitment = target) (hknown : certificate ∈ known)
    (policy : CommitteePolicy) (keys : NodeKeys) (now : Nat) :
    succeeds ((acceptOrderCertificate disk certificate policy keys now).run store) =
      false := by
  rw [acceptOrderCertificate]
  cases certificate.verify policy keys now with
  | error e => rfl
  | ok u =>
    simp only [Except.mapError]
    rw [run_attempt_ok_bind, run_get_bind]
    split
    · rw [run_ensure_bind, if_neg]
      · rfl
      rintro ⟨hhead, -⟩
      obtain ⟨id, entry, hentry, htarget, hcertified⟩ := StoreState.lifecycleBlocks_eq_true.mp h.2
      obtain ⟨chain, hchained, hchain, htail⟩ := h.1.chain
      obtain ⟨own, hown, hcommitment⟩ := htail id entry hentry hcertified
      cases chain with
      | nil => exact absurd hown List.not_mem_nil
      | cons last rest =>
        have hdigest : last.digest = certificate.digest := hchained.head.symm.trans hhead
        have hstatement := hinj last (hchain last List.mem_cons_self) certificate hknown hdigest
        have hlast : last.commitment = own.commitment :=
          (congrArg OrderStatement.commitment hstatement).trans
            (hcertificate.trans (htarget.symm.trans hcommitment.symm))
        have hdistinct := hchained.distinct
        rw [List.map_cons, List.nodup_cons] at hdistinct
        exact hdistinct.1 (hlast ▸ List.mem_map_of_mem hown)
    · cases hcheck : checkCertificate store.state certificate now with
      | error e => rfl
      | ok u =>
        obtain ⟨-, -, hnew, -⟩ := checkCertificate_ok hcheck
        exact absurd h.ordered (hcertificate ▸ hnew)

omit [Serde] in
theorem Ended.prepareRound_fails (h : Ended known target store.state) (files : PrivateFiles)
    (market : String) {resting : List Digest32} {arriving : Digest32}
    (hmem : target ∈ arriving :: resting) (now : Nat) :
    ¬ ∃ prepared, store.prepareRound files market resting arriving now = .ok prepared := by
  intro hprepared
  obtain ⟨hsettled, -, ⟨⟨record, share⟩, hopened⟩, hresting⟩ :=
    prepareRound_isOk.mp hprepared
  rcases List.mem_cons.mp hmem with rfl | hrest
  · exact absurd (openRecord_ok hopened).2 (by simp [h.2])
  · -- the barrier holds, so the command is released and the order has no record
    obtain ⟨id, entry, hentry, htarget, hcertified⟩ := StoreState.lifecycleBlocks_eq_true.mp h.2
    have hfinal := hsettled.1 entry (mem_values.mpr ⟨id, hentry⟩) hcertified
    obtain ⟨-, record, hrecord⟩ := hresting target hrest
    have hgone := (h.1.released id entry hentry hfinal).2.1
    rw [htarget] at hgone
    exact absurd (hgone.symm.trans hrecord) (by simp)

end

/-! ## The calls that end an order -/

section

variable {store out : NodeShareStore} {disk : Disk}

/-- A certificate that extends the chain is in memory and in the file. -/
theorem acceptOrderCertificate_new {certificate : OrderCertificate} {policy : CommitteePolicy}
    {keys : NodeKeys} {now generation : Nat}
    (h : (acceptOrderCertificate disk certificate policy keys now).run store =
      .ok generation out)
    (hnew : certificate.sequence ≠ store.state.orderingSequence) :
    Persisted out out.state ∧ out.state.lifecycle = (afterCertificate store.state
        certificate).lifecycle ∧
      ∃ g, Edit store (.acceptOrderCertificate disk certificate policy keys now) g out.state := by
  unfold acceptOrderCertificate at h
  obtain ⟨⟨⟩, _, hattempt, hget⟩ := run_bind_eq_ok.mp h
  obtain ⟨hverify, rfl⟩ := run_attempt_eq_ok.mp hattempt
  rw [run_get_bind, if_neg hnew] at hget
  obtain ⟨⟨⟩, _, hcheck, hwrite⟩ := run_bind_eq_ok.mp hget
  obtain ⟨hcheck, rfl⟩ := run_attempt_eq_ok.mp hcheck
  obtain ⟨⟨⟩, _, hcommit, hreturn⟩ := run_bind_eq_ok.mp hwrite
  rw [run_get_bind] at hreturn
  obtain ⟨-, rfl⟩ := run_pure_eq_ok.mp hreturn
  obtain ⟨hstate, hfile⟩ := commit_ok hcommit
  rw [hstate]
  exact ⟨⟨hstate, hfile⟩, rfl, _, .acceptOrderCertificate _ (mapError_eq_ok.mp hverify) hnew hcheck⟩

/-- A confirmed release is in memory, and a new one is in the file. -/
theorem confirmRelease_ok {observation : ReleaseObservation} {finality : LifecycleFinality}
    (h : (confirmRelease disk observation).run store = .ok finality out) :
    (∃ entry, out.state.lifecycle.get? finality.command = some entry ∧
      entry.command.target = finality.target ∧ entry.finality = some finality) ∧
    (out = store ∨ Persisted out out.state ∧
      ∃ g, Edit store (.confirmRelease disk observation) g out.state) := by
  rw [confirmRelease, run_get_bind] at h
  obtain ⟨⟨entry, found⟩, current, hattempt, h⟩ := run_bind_eq_ok.mp h
  obtain ⟨hcheck, rfl⟩ := run_attempt_eq_ok.mp hattempt
  obtain ⟨hentry, htarget, -⟩ := checkRelease_ok hcheck
  dsimp only at h
  split at h
  · rename_i existing hexisting
    obtain ⟨⟨⟩, _, hensure, hreturn⟩ := run_bind_eq_ok.mp h
    obtain ⟨hsame, rfl⟩ := run_ensure_eq_ok.mp hensure
    obtain ⟨rfl, rfl⟩ := run_pure_eq_ok.mp hreturn
    exact ⟨⟨entry, hentry, htarget.symm, hexisting.trans (congrArg some hsame)⟩, Or.inl rfl⟩
  · rename_i hnone
    cases hcommit : (commit disk
      (afterRelease current.state found)).run current with
    | error e next =>
      rw [hcommit] at h
      exact absurd (show EStateM.Result.error e.text next = .ok finality out from h) (by simp)
    | ok u next =>
      rw [hcommit] at h
      obtain ⟨rfl, rfl⟩ := EStateM.Result.ok.inj h
      obtain ⟨hstate, hfile⟩ := commit_ok hcommit
      rw [hstate]
      refine ⟨⟨{ entry with finality := some found }, ?_, htarget.symm, rfl⟩,
        Or.inr ⟨⟨hstate, hfile⟩, _, .confirmRelease _ hcheck hnone⟩⟩
      exact (get?_alter _ _ _ _).trans ((if_pos rfl).trans (by rw [hentry]; rfl))

end

/-- What is known of an order with a released command. -/
def Released (known : Set OrderCertificate) (target : Digest32) (state : StoreState) : Prop :=
  Kept known state ∧ ∃ id entry, state.lifecycle.get? id = some entry ∧
    entry.command.target = target ∧ entry.finality.isSome = true

theorem stable_released (known : Set OrderCertificate) (target : Digest32) :
    Stable known (Released known target) := by
  have hentry : ∀ {store : NodeShareStore} {op : StoreOp} {g : Nat} {next : StoreState},
      Edit store op g next →
      (∃ id entry, store.state.lifecycle.get? id = some entry ∧ entry.command.target = target ∧
        entry.finality.isSome = true) →
      ∃ id entry, next.lifecycle.get? id = some entry ∧ entry.command.target = target ∧
        entry.finality.isSome = true :=
    fun hedit => hedit.exists_entry (P := fun entry => entry.command.target = target ∧
      entry.finality.isSome = true) (fun entry certificate h => h)
      fun entry finality h => ⟨h.1, rfl⟩
  refine ⟨fun _ h => h.1.version, fun _ _ _ _ hknown h hedit => ⟨h.1.edit hknown hedit,
    hentry hedit h.2⟩, fun store op hknown h => ⟨h.1.apply hknown, ?_⟩⟩
  exact (op.effect store).preserves (P := fun state => ∃ id entry,
    state.lifecycle.get? id = some entry ∧ entry.command.target = target ∧
      entry.finality.isSome = true) (fun _ => h.2) fun _ _ hedit => hentry hedit h.2

omit [Serde] in
theorem Released.gone {known : Set OrderCertificate} {target : Digest32} {state : StoreState}
    (h : Released known target state) :
    state.records.get? target = none ∧ state.privateHeads.get? target = none := by
  obtain ⟨hkept, id, entry, hentry, rfl, hfinal⟩ := h
  exact (hkept.released id entry hentry hfinal).2

/-- **An order that was ended stays out.** Once a node has accepted the certificate of a lifecycle
command, in every later state, after whatever calls and restarts, the order the command ends is not
admitted, gets no vote, is not accepted for the chain and enters no round; and once its release is
confirmed, the store has neither record nor private head for it. -/
theorem ended_order_stays_out {known : Set OrderCertificate} (hinj : DrivenNode.NoCollision known)
    {key : NodeDecryptionKey} {party : Nat} {policy : Bytes} {first : Disk}
    {store : NodeShareStore} (hcreate : create key party policy first = .ok store)
    {before : Hosted} (hbefore : Later known ⟨store, store.state⟩ before)
    {disk : Disk} {certificate : OrderCertificate} {committee : CommitteePolicy} {keys : NodeKeys}
    {now generation : Nat} {out : NodeShareStore} {entry : StoredLifecycle}
    (hknown : certificate ∈ known)
    (hentry : before.store.state.lifecycle.get? certificate.commitment = some entry)
    (hnew : certificate.sequence ≠ before.store.state.orderingSequence)
    (haccept : (acceptOrderCertificate disk certificate committee keys now).run
      before.store = .ok generation out)
    {node : Hosted} (hlater : Later known ⟨out, out.state⟩ node) :
    let target := entry.command.target
    (∀ disk manifest sealedShare sealedCapability now, manifest.commitment = target →
      succeeds ((ingest disk manifest sealedShare sealedCapability now).run
        node.store) = false) ∧
    (∀ disk statement now, statement.commitment = target →
      succeeds ((recordOrderVote disk statement now).run node.store) = false) ∧
    (∀ disk certificate committee keys now, certificate ∈ known →
      certificate.commitment = target →
      succeeds ((acceptOrderCertificate disk certificate committee keys now).run
        node.store) = false) ∧
    (∀ files market resting arriving now, target ∈ arriving :: resting →
      ¬ ∃ prepared, node.store.prepareRound files market resting arriving now = .ok prepared) ∧
    ∀ disk observation finality released,
      (confirmRelease disk observation).run node.store = .ok finality released →
      finality.target = target →
      (released.state.records.get? target = none ∧
        released.state.privateHeads.get? target = none) ∧
      ((∀ entry, node.store.state.lifecycle.get? finality.command = some entry →
        entry.finality = none) →
        ∀ last, Later known ⟨released, released.state⟩ last →
          last.store.state.records.get? target = none ∧
            last.store.state.privateHeads.get? target = none) := by
  have hkept : Holds (Kept known) before := by
    obtain ⟨hstate, hfile, hsize⟩ := create_ok hcreate
    rw [← hstate] at hfile hsize
    exact hbefore.holds (stable_kept known)
      ⟨hstate ▸ kept_emptyState known party policy, hstate ▸ kept_emptyState known party policy,
        hfile, hsize⟩
  obtain ⟨⟨-, hfile, hsize⟩, hlifecycle, g, hedit⟩ := acceptOrderCertificate_new haccept hnew
  have hended : Ended known entry.command.target out.state := by
    refine ⟨hkept.memory.edit ?_ hedit, ?_⟩
    · rintro other ⟨⟩
      exact hknown
    refine StoreState.lifecycleBlocks_eq_true.mpr ⟨certificate.commitment,
      { entry with certificate := some certificate }, ?_, rfl, rfl⟩
    rw [hlifecycle]
    exact (get?_alter _ _ _ _).trans ((if_pos rfl).trans (by rw [hentry]; rfl))
  have h := (hlater.holds (stable_ended known _) ⟨hended, hended, hfile, hsize⟩).memory
  refine ⟨fun disk manifest share capability now hmanifest =>
      h.ingest_fails disk hmanifest share capability now,
    fun disk statement now hstatement => h.recordOrderVote_fails disk hstatement now,
    fun disk other committee keys now hother hcommitment =>
      h.acceptOrderCertificate_fails hinj disk hcommitment hother committee keys now,
    fun files market resting arriving now hmem => h.prepareRound_fails files market hmem now, ?_⟩
  intro disk observation finality released hconfirm htarget
  obtain ⟨⟨found, hfound, hcommand, hfinal⟩, hcases⟩ := confirmRelease_ok hconfirm
  have hkept : Kept known released.state := by
    rcases hcases with rfl | ⟨-, g, hrelease⟩
    · exact h.1
    · exact h.1.edit (fun _ h => absurd h (by simp [StoreOp.certificate])) hrelease
  have hreleased : Released known entry.command.target released.state :=
    ⟨hkept, _, found, hfound, hcommand.trans htarget, by rw [hfinal]; rfl⟩
  refine ⟨hreleased.gone, fun hfirst last hlast => ?_⟩
  rcases hcases with rfl | ⟨⟨-, hfile, hsize⟩, -⟩
  · exact absurd (hfinal.symm.trans (hfirst found hfound)) (by simp)
  · exact (hlast.holds (stable_released known _) ⟨hreleased, hreleased, hfile, hsize⟩).memory.gone

end

/-! ## The cancelled order after a restart -/

section Sample

set_option maxRecDepth 100000

open NodeShareStore

attribute [local instance] nativeCrypto nativeSerde

/-- The certificates presented to the node. -/
def presented : Set OrderCertificate := {orderCertificate, firstCancelled}

theorem noCollision_presented : DrivenNode.NoCollision presented := by
  have hne : orderCertificate.digest ≠ firstCancelled.digest := by decide +kernel
  rintro a (rfl | rfl) b (rfl | rfl) h
  · rfl
  · exact absurd h hne
  · exact absurd h.symm hne
  · rfl

/-- The node once it has read its file back. -/
def restarted : Hosted :=
  ⟨⟨nativeKey, firstCertified, (nativeStore firstCertified).file, none⟩, firstCertified⟩

theorem readState_firstCertified :
    RoundTrips firstCertified ∧
      readState (nativeStore firstCertified).file 0 [] = .ok firstCertified := by
  have hserde : RoundTrips firstCertified := ⟨rfl, rfl⟩
  have hvalid : firstCertified.validate 0 [] = .ok () := by decide +kernel
  refine ⟨hserde, ?_⟩
  change readState (frame (stateJson firstCertified)) 0 [] = _
  rw [readState_frame hserde rfl (sample_size _), hvalid]
  rfl

theorem later_restarted :
    Later presented ⟨nativeStore firstCertified, firstCertified⟩ restarted :=
  .restart .refl nativeKey 0 [] firstCertified readState_firstCertified.1 readState_firstCertified.2

theorem ended_order_stays_out_sample :
    DrivenNode.NoCollision presented ∧ create nativeKey 0 [] .written = .ok nativeStart ∧
      (∃ before, Later presented ⟨nativeStart, nativeStart.state⟩ before ∧
        before.store = nativeStore bothRegistered) ∧
      Later presented ⟨nativeStore firstCertified, firstCertified⟩ restarted ∧
      (∀ sealedShare sealedCapability now, Lib.succeeds ((ingest .written nativeManifest
        sealedShare sealedCapability now).run restarted.store) = false) ∧
      ∀ files market resting now, ¬ ∃ prepared, restarted.store.prepareRound files market resting
        nativeManifest.commitment now = .ok prepared := by
  have hcreate : create nativeKey 0 [] .written = .ok nativeStart :=
    create_written (by decide) (sample_size _)
  have hpresented : ∀ op ∈ beforeCancelled, ∀ certificate, op.certificate = some certificate →
      certificate ∈ presented := by
    simp [beforeCancelled, StoreOp.certificate, presented]
  have hstart : Later presented ⟨nativeStart, nativeStart.state⟩ ⟨nativeStart, nativeStart.state⟩ :=
    .refl
  obtain ⟨saved, hbefore⟩ := hstart.run beforeCancelled hpresented
  rw [run_beforeCancelled] at hbefore
  have hentry : bothRegistered.lifecycle.get? firstCancelled.commitment =
      some ⟨cancel 1, nativeManifest, none, none⟩ := by decide +kernel
  have hnew : firstCancelled.sequence ≠ bothRegistered.orderingSequence := by decide
  obtain ⟨hingest, -, -, hround, -⟩ := ended_order_stays_out noCollision_presented hcreate hbefore
    (Or.inr rfl) hentry hnew accept_firstCancelled later_restarted
  exact ⟨noCollision_presented, hcreate, ⟨_, hbefore, rfl⟩, later_restarted,
    fun share capability now => hingest .written nativeManifest share capability now rfl,
    fun files market resting now => hround files market resting _ now List.mem_cons_self⟩

end Sample

end Oclob.Node
