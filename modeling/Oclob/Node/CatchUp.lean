import Oclob.Node.Chain

/-!
# Catching up with the chain

Model of a node that has accepted fewer certificates than another one and is given the missing
ones, oldest first, with the calls that complete the finality of each in between
(`accept_order_certificate` of `oclob-node/src/lib.rs`).

A certificate that was accepted once passes almost every check again: what it was admitted for is
kept by every completing call (`StoreOp.sameTurn`), its order is not the target of a
release, because only ordered targets can be released (`Orderly`), and a certificate extends every
chain that ends where the first node's chain was. What is left are the clock and the node's own
vote. `verify` rejects a certificate after its `expires_at`, and a live vote of the node for
another statement at the next sequence blocks the first missing certificate.

* `StoreOp.log`: the certificates a run has accepted, each with what it was accepted for and when.
* `lagging_node_catches_up_iff`: the node catches up exactly if no missing certificate has expired
  and its own vote is for the first missing one or has expired.
* `expired_certificate_strands_node`: one expired certificate, and the node stays behind.
-/

namespace Oclob.Node

open Oclob.Core Oclob.Lib Oclob.Edge Oclob.Ordering NodeShareStore

section

variable [NodeCrypto] [Serde]

/-! ## What a certificate is accepted for -/

/-- The order, or the release command with the manifest it was registered under. -/
inductive Admission where
  | order (manifest : EdgeOrderManifest)
  | release (command : LifecycleCommand) (manifest : EdgeOrderManifest)

/-- What `ordering_admission` looks up for a commitment. -/
def StoreState.admission? (state : StoreState) (commitment : Digest32) : Option Admission :=
  match state.records.get? commitment with
  | some record => some (.order record.manifest)
  | none => (state.lifecycle.get? commitment).map fun entry => .release entry.command entry.manifest

/-- What `accept_order_certificate` asks of the order or the command. -/
def Admission.Admits (certificate : OrderCertificate) (now : Nat) : Admission → Prop
  | order manifest => manifest.marketId = certificate.marketId ∧
      certificate.expiresAt ≤ manifest.retentionDeadline
  | release command manifest => command.verify manifest now = .ok () ∧
      command.marketId = certificate.marketId ∧ certificate.expiresAt ≤ command.expiresAt

/-- A command that was valid once is valid until it expires. -/
theorem LifecycleCommand.verify_at {command : LifecycleCommand} {manifest : EdgeOrderManifest}
    {past now : Nat} (h : command.verify manifest past = .ok ()) (hpast : past ≤ now)
    (hnow : now ≤ command.expiresAt) : command.verify manifest now = .ok () := by
  simp only [verify, ok_rules] at h ⊢
  obtain ⟨⟨⟩, hmanifest, -, ⟨hversion, hmarket, htarget, huses, hissued, -, hlt, hspan⟩,
    hreason⟩ := h
  exact ⟨(), hmanifest, (),
    ⟨hversion, hmarket, htarget, huses, hissued.trans hpast, hnow, hlt, hspan⟩, hreason⟩

variable {certificate : OrderCertificate} {state : StoreState}

/-- What admits a live certificate admits it until it expires. -/
theorem Admission.Admits.mono {admission : Admission}
    {past now : Nat} (h : admission.Admits certificate past) (hpast : past ≤ now)
    (hnow : now ≤ certificate.expiresAt) : admission.Admits certificate now := by
  cases admission with
  | order manifest => exact h
  | release command manifest =>
    obtain ⟨hverify, hmarket, hexpires⟩ := h
    exact ⟨LifecycleCommand.verify_at hverify hpast (hnow.trans hexpires), hmarket, hexpires⟩

/-- The vote a node has stored for the sequence of a certificate does not stand against it. -/
def VoteFree (state : StoreState) (certificate : OrderCertificate) (now : Nat) : Prop :=
  ∀ vote, state.orderingVotes.get? certificate.sequence = some vote →
    vote.statementDigest = voteDigest certificate.toOrderStatement ∨ vote.expiresAt < now

/-- What a passed check has found. -/
theorem checkCertificate_admits {now : Nat}
    (h : checkCertificate state certificate now = .ok ()) :
    (∃ admission, state.admission? certificate.commitment = some admission ∧
      admission.Admits certificate now) ∧ VoteFree state certificate now := by
  simp only [checkCertificate, except_bind_eq_ok] at h
  obtain ⟨⟨expected, market, deadline⟩, hturn, hrequire⟩ := h
  obtain ⟨-, -, rfl, hdeadline, -, hvotes⟩ := require_eq_ok.mp hrequire
  refine ⟨?_, fun vote hvote => ?_⟩
  · have hadmission := (orderingTurn_admission hturn).2.2
    unfold StoreState.orderingAdmission at hadmission
    unfold StoreState.admission?
    cases hrecord : state.records.get? certificate.commitment with
    | some record =>
      simp only [hrecord, ok_rules, Prod.mk.injEq] at hadmission
      obtain ⟨-, -, hmarket, rfl⟩ := hadmission
      exact ⟨_, rfl, hmarket, hdeadline⟩
    | none =>
      simp only [hrecord, ok_rules, Prod.mk.injEq] at hadmission
      obtain ⟨entry, hentry, ⟨⟩, hverify, -, -, hmarket, rfl⟩ := hadmission
      exact ⟨.release entry.command entry.manifest, congrArg (Option.map _) hentry, hverify,
        hmarket, hdeadline⟩
  · rw [hvote, Option.all_some, decide_eq_true_eq] at hvotes
    exact hvotes

/-- The check passes for a certificate that extends the chain, is admitted by what the store holds
and has no vote against it. -/
theorem checkCertificate_of_admits {now : Nat}
    {admission : Admission} (hsettled : state.Settled)
    (hfree : state.lifecycleBlocks certificate.commitment = false)
    (hheld : state.admission? certificate.commitment = some admission)
    (hadmits : admission.Admits certificate now) (hbound : certificate.sequence < u64Bound)
    (hsequence : certificate.sequence = state.orderingSequence + 1)
    (hprevious : certificate.previousCertificate = state.orderingHead)
    (hnew : certificate.commitment ∉ state.orderedCommitments)
    (hvote : VoteFree state certificate now) :
    checkCertificate state certificate now = .ok () := by
  have hbarrier : state.requireLifecycleBarrier = .ok () := require_eq_ok.mpr hsettled
  obtain ⟨deadline, hdeadline, hadmission⟩ : ∃ deadline, certificate.expiresAt ≤ deadline ∧
      state.orderingAdmission certificate.commitment now =
        .ok (certificate.marketId, deadline) := by
    unfold StoreState.orderingAdmission
    unfold StoreState.admission? at hheld
    cases hrecord : state.records.get? certificate.commitment with
    | some record =>
      rw [hrecord] at hheld
      obtain rfl := Option.some.inj hheld
      obtain ⟨hmarket, hexpires⟩ := hadmits
      refine ⟨_, hexpires, except_bind_eq_ok.mpr ⟨(), require_eq_ok.mpr hfree, ?_⟩⟩
      rw [hmarket]
      rfl
    | none =>
      rw [hrecord] at hheld
      obtain ⟨entry, hentry, rfl⟩ := Option.map_eq_some_iff.mp hheld
      obtain ⟨hverify, hmarket, hexpires⟩ := hadmits
      refine ⟨_, hexpires, ?_⟩
      simp only [ok_rules]
      exact ⟨entry, hentry, (), hverify, (), hbarrier, hmarket ▸ rfl⟩
  have hturn : state.orderingTurn certificate.commitment now =
      .ok (state.orderingSequence + 1, certificate.marketId, deadline) := by
    have hnext : okOr (checkedAdd state.orderingSequence 1) NodeError.generation =
        .ok (state.orderingSequence + 1) :=
      okOr_eq_ok.mpr (checkedAdd_eq_some.mpr ⟨hsequence ▸ hbound, rfl⟩)
    refine except_bind_eq_ok.mpr ⟨_, hnext, ?_⟩
    rw [hbarrier, hadmission]
    split <;> rfl
  have hvotes : (state.orderingVotes.get? certificate.sequence).all (fun vote => decide
      (vote.statementDigest = voteDigest certificate.toOrderStatement ∨
        vote.expiresAt < now)) = true := by
    cases hfound : state.orderingVotes.get? certificate.sequence with
    | none => rfl
    | some vote => exact decide_eq_true (hvote vote hfound)
  exact except_bind_eq_ok.mpr ⟨_, hturn,
    require_eq_ok.mpr ⟨hsequence, hprevious, rfl, hdeadline, hnew, hvotes⟩⟩

/-! ## What a run has accepted -/

/-- A certificate a node has accepted, with what it was accepted for and the clock. -/
structure Acceptance where
  certificate : OrderCertificate
  admission : Option Admission
  now : Nat

namespace StoreOp

/-- The clock a certificate is checked at. -/
def clock : StoreOp → Nat
  | acceptOrderCertificate _ _ _ _ now => now
  | _ => 0

/-- The node verifies certificates under its configured policy and keys. -/
def Pinned (policy : CommitteePolicy) (keys : NodeKeys) : StoreOp → Prop
  | acceptOrderCertificate _ _ policy' keys' _ => policy' = policy ∧ keys' = keys
  | _ => True

/-- What a call accepts. -/
def acceptance (store : NodeShareStore) (op : StoreOp) : Option Acceptance :=
  (op.extension store).map fun certificate =>
    ⟨certificate, store.state.admission? certificate.commitment, op.clock⟩

/-- What a run accepts, newest first. -/
def log : List StoreOp → NodeShareStore → List Acceptance
  | [], _ => []
  | op :: rest, store => log rest (op.apply store) ++ (op.acceptance store).toList

theorem chain_eq_log (ops : List StoreOp) (store : NodeShareStore) :
    chain ops store = (log ops store).map Acceptance.certificate := by
  induction ops generalizing store with
  | nil => rfl
  | cons op rest ih =>
    have htoList : ((op.acceptance store).toList).map Acceptance.certificate =
        (op.extension store).toList := by
      unfold acceptance
      cases op.extension store <;> rfl
    rw [chain, log, List.map_append, ih, htoList]

/-- A certificate that extends the chain passed its checks. -/
theorem extension_checked {store : NodeShareStore} {op : StoreOp} {certificate : OrderCertificate}
    {policy : CommitteePolicy} {keys : NodeKeys} (hpinned : op.Pinned policy keys)
    (h : op.extension store = some certificate) :
    certificate.verify policy keys op.clock = .ok () ∧
      checkCertificate store.state certificate op.clock = .ok () := by
  cases op with
  | acceptOrderCertificate disk accepted policy' keys' now =>
    obtain ⟨rfl, rfl⟩ := hpinned
    rw [extension_accept] at h
    split at h
    · exact nomatch h
    rename_i hmoved
    obtain rfl := Option.some.inj h
    refine (or_iff_right hmoved).mp ((effect _ store).preserves (P := fun state =>
      state.orderingSequence = store.state.orderingSequence ∨
        accepted.verify policy' keys' now = .ok () ∧
          checkCertificate store.state accepted now = .ok ())
      (fun heads => Or.inl rfl) fun g next hedit => ?_)
    cases hedit with
    | acceptOrderCertificate g hverify hnew hcheck => exact Or.inr ⟨hverify, hcheck⟩
  | _ => exact nomatch h

end StoreOp

/-- What the log of a node says of each certificate. -/
structure Acceptance.Passed (policy : CommitteePolicy) (keys : NodeKeys) (a : Acceptance) :
    Prop where
  verified : a.certificate.verify policy keys a.now = .ok ()
  bounded : a.certificate.sequence < u64Bound
  admitted : ∃ admission, a.admission = some admission ∧ admission.Admits a.certificate a.now

theorem passed_of_mem_log {policy : CommitteePolicy} {keys : NodeKeys} {ops : List StoreOp}
    {store : NodeShareStore} (hpinned : ∀ op ∈ ops, op.Pinned policy keys) :
    ∀ a ∈ StoreOp.log ops store, a.Passed policy keys := by
  induction ops generalizing store with
  | nil => exact fun a ha => absurd ha List.not_mem_nil
  | cons op rest ih =>
    intro a ha
    rcases List.mem_append.mp ha with hlater | hfirst
    · exact ih (fun op hop => hpinned op (List.mem_cons_of_mem _ hop)) a hlater
    · obtain ⟨certificate, hextension, rfl⟩ :=
        Option.map_eq_some_iff.mp (Option.mem_toList.mp hfirst)
      obtain ⟨hverify, hcheck⟩ :=
        StoreOp.extension_checked (hpinned op List.mem_cons_self) hextension
      obtain ⟨hsequence, hbound, -⟩ := checkCertificate_ok hcheck
      exact ⟨hverify, hsequence ▸ hbound, (checkCertificate_admits hcheck).1⟩

/-! ## The node that is behind -/

/-- Only ordered orders are targets of a release, and no vote is ahead of the next sequence. -/
structure Orderly (state : StoreState) : Prop where
  targets : ∀ digest entry, state.lifecycle.get? digest = some entry →
    entry.command.target ∈ state.orderedCommitments
  votes : ∀ sequence vote, state.orderingVotes.get? sequence = some vote →
    sequence ≤ state.orderingSequence + 1

section

omit [NodeCrypto] [Serde]

theorem orderly_emptyState (party : Nat) (policy : Bytes) : Orderly (emptyState party policy) :=
  ⟨fun _ _ h => (nomatch h), fun _ _ h => (nomatch h)⟩

/-- An order that has not been ordered is no target of a certified release. -/
theorem Orderly.lifecycleBlocks (h : Orderly state) {commitment : Digest32}
    (hnew : commitment ∉ state.orderedCommitments) : state.lifecycleBlocks commitment = false := by
  rw [StoreState.lifecycleBlocks, List.any_eq_false]
  intro entry hentry hblocks
  obtain ⟨digest, hdigest⟩ := OrdMap.mem_values.mp hentry
  obtain ⟨htarget, -⟩ := (Bool.and_eq_true _ _).mp hblocks
  exact hnew (of_decide_eq_true htarget ▸ h.targets digest entry hdigest)

/-- What a rewritten value keeps of the old one is kept by the map. -/
theorem map_get?_alter_map {β : Type} {m : OrdMap Digest32 StoredLifecycle} (k q : Digest32)
    {f : StoredLifecycle → StoredLifecycle} {g : StoredLifecycle → β} (hf : ∀ e, g (f e) = g e) :
    ((m.alter k fun found => found.map f).get? q).map g = (m.get? q).map g := by
  rw [OrdMap.get?_alter]
  split
  · rename_i heq
    rw [heq, Option.map_map]
    exact congrArg (fun g => Option.map g (m.get? k)) (funext hf)
  · rfl

theorem Orderly.target_alter (h : Orderly state) {k digest : Digest32}
    {f : StoredLifecycle → StoredLifecycle} {entry : StoredLifecycle}
    (hentry : (state.lifecycle.alter k fun found => found.map f).get? digest = some entry)
    (hf : ∀ e, (f e).command = e.command) :
    entry.command.target ∈ state.orderedCommitments := by
  have hcommand := map_get?_alter_map (m := state.lifecycle) k digest hf
  rw [hentry, Option.map_some] at hcommand
  obtain ⟨old, hold, heq⟩ := Option.map_eq_some_iff.mp hcommand.symm
  exact heq ▸ h.targets digest old hold

end

/-- **A call keeps a store orderly.** -/
theorem Orderly.apply {store : NodeShareStore} (h : Orderly store.state) (op : StoreOp) :
    Orderly (op.apply store).state := by
  refine (op.effect store).preserves (fun heads => ⟨h.targets, h.votes⟩) fun g next hedit => ?_
  cases hedit with
  | recordOrderVote g hcheck hfree =>
    refine ⟨h.targets, fun sequence vote hvote => ?_⟩
    rw [OrdMap.get?_insert] at hvote
    split at hvote
    · rename_i heq
      exact (heq.trans (checkVote_ok hcheck).1).le
    · exact h.votes sequence vote hvote
  | acceptOrderCertificate g hverify hnew hcheck =>
    constructor
    · intro digest entry hentry
      exact Finset.mem_insert_of_mem (h.target_alter hentry fun _ => rfl)
    · intro sequence vote hvote
      have hsequence := (checkCertificate_ok hcheck).1
      simp only [afterCertificate, OrdMap.get?_erase] at hvote ⊢
      split at hvote
      · cases hvote
      · have hle := h.votes sequence vote hvote
        omega
  | finalizePrivateRound g hcheck hnew hsigned =>
    rw [signedFinalization_ok hsigned]
    exact ⟨h.targets, h.votes⟩
  | registerLifecycle g hcheck hnew =>
    refine ⟨fun digest entry hentry => ?_, h.votes⟩
    rw [OrdMap.get?_insert] at hentry
    split at hentry
    · obtain rfl := Option.some.inj hentry
      simp only [checkLifecycle, ok_rules] at hcheck
      obtain ⟨-, -, -, -, record, -, -, -, -, hordered, -⟩ := hcheck
      exact hordered
    · exact h.targets digest entry hentry
  | confirmRelease g hcheck hnew =>
    refine ⟨fun digest entry hentry => ?_, h.votes⟩
    exact h.target_alter hentry fun _ => rfl
  | _ => exact ⟨h.targets, h.votes⟩

theorem Orderly.run {store : NodeShareStore} (h : Orderly store.state) (ops : List StoreOp) :
    Orderly (StoreOp.run ops store).state := by
  induction ops generalizing store with
  | nil => exact h
  | cons op rest ih => exact ih (h.apply op)

/-! ## The calls between two certificates -/

/-- The calls that record a round or complete the finality of a round or of a release. -/
def StoreOp.completes : StoreOp → Bool
  | recordCompletedRound .. | recordNativeFinality .. | finalizePrivateRound ..
  | confirmRelease .. => true
  | _ => false

/-- The ordering state is the same, and so is what new orders are admitted for. -/
structure SameTurn (before after : StoreState) : Prop where
  sequence : after.orderingSequence = before.orderingSequence
  head : after.orderingHead = before.orderingHead
  ordered : after.orderedCommitments = before.orderedCommitments
  votes : after.orderingVotes = before.orderingVotes
  admission : ∀ commitment, commitment ∉ before.orderedCommitments →
    after.admission? commitment = before.admission? commitment

omit [NodeCrypto] [Serde] in
theorem SameTurn.trans {first second third : StoreState} (h : SameTurn first second)
    (h' : SameTurn second third) : SameTurn first third where
  sequence := h'.sequence.trans h.sequence
  head := h'.head.trans h.head
  ordered := h'.ordered.trans h.ordered
  votes := h'.votes.trans h.votes
  admission commitment hnew :=
    (h'.admission commitment (h.ordered ▸ hnew)).trans (h.admission commitment hnew)

omit [Serde] in
theorem SameTurn.chained {before after : StoreState} {chain : List OrderCertificate}
    (h : SameTurn before after) (hchained : Chained before chain) : Chained after chain :=
  ⟨h.sequence.trans hchained.sequence, h.head.trans hchained.head, h.ordered ▸ hchained.ordered,
    hchained.distinct, hchained.linked⟩

omit [NodeCrypto] [Serde] in
/-- A confirmed release removes the record of its target, which has been ordered. -/
theorem sameTurn_afterRelease {finality : LifecycleFinality} {g : Nat}
    (htarget : finality.target ∈ state.orderedCommitments) :
    SameTurn state { afterRelease state finality with generation := g } where
  sequence := rfl
  head := rfl
  ordered := rfl
  votes := rfl
  admission commitment hnew := by
    have hother : commitment ≠ finality.target := fun heq => hnew (heq ▸ htarget)
    simp only [StoreState.admission?, afterRelease, OrdMap.get?_erase,
      if_neg hother]
    cases state.records.get? commitment with
    | some record => rfl
    | none => exact map_get?_alter_map finality.command commitment fun _ => rfl

theorem StoreOp.sameTurn {op : StoreOp} (hop : op.completes = true) {store : NodeShareStore}
    (h : Orderly store.state) : SameTurn store.state (op.apply store).state := by
  refine (op.effect store).preserves (fun heads => ⟨rfl, rfl, rfl, rfl, fun _ _ => rfl⟩)
    fun g next hedit => ?_
  cases hedit with
  | recordCompletedRound g hcomplete hnew => exact ⟨rfl, rfl, rfl, rfl, fun _ _ => rfl⟩
  | recordNativeFinality g hround hvalid hopen => exact ⟨rfl, rfl, rfl, rfl, fun _ _ => rfl⟩
  | finalizePrivateRound g hcheck hnew hsigned =>
    rw [signedFinalization_ok hsigned]
    exact ⟨rfl, rfl, rfl, rfl, fun _ _ => rfl⟩
  | confirmRelease g hcheck hnew =>
    obtain ⟨hentry, htarget, -⟩ := checkRelease_ok hcheck
    exact sameTurn_afterRelease (htarget ▸ h.targets _ _ hentry)
  | _ => exact absurd hop (by simp [StoreOp.completes])

theorem sameTurn_run {ops : List StoreOp} (hops : ∀ op ∈ ops, op.completes = true)
    {store : NodeShareStore} (h : Orderly store.state) :
    SameTurn store.state (StoreOp.run ops store).state := by
  induction ops generalizing store with
  | nil => exact ⟨rfl, rfl, rfl, rfl, fun _ _ => rfl⟩
  | cons op rest ih =>
    have hfirst := StoreOp.sameTurn (hops op List.mem_cons_self) h
    exact hfirst.trans (ih (fun op hop => hops op (List.mem_cons_of_mem _ hop)) (h.apply op))

/-! ## Catching up -/

/-- Present certificates in order, each followed by the calls that complete its finality; `none`
at the first one that is refused. -/
def NodeShareStore.catchUp (policy : CommitteePolicy) (keys : NodeKeys)
    (complete : OrderCertificate → List StoreOp) (now : Nat) :
    List OrderCertificate → NodeShareStore → Option NodeShareStore
  | [], store => some store
  | certificate :: rest, store =>
    match (acceptOrderCertificate .written certificate policy keys now).run store with
    | .ok _ out => catchUp policy keys complete now rest (StoreOp.run (complete certificate) out)
    | .error _ _ => none

/-- The environment of the node: before each certificate the finality of what came before is
completed, and the certificate can be written. -/
def Completing (policy : CommitteePolicy) (keys : NodeKeys)
    (complete : OrderCertificate → List StoreOp) (now : Nat) (missing : List OrderCertificate)
    (store : NodeShareStore) : Prop :=
  (∀ certificate, ∀ op ∈ complete certificate, op.completes = true) ∧
  ∀ done rest, missing = done ++ rest → ∀ out,
    catchUp policy keys complete now done store = some out → ∀ certificate ∈ rest.head?,
      out.state.Settled ∧ NodeShareStore.Fits (afterCertificate out.state certificate)

/-- A node with the chain `base`, and what another one has accepted beyond it, oldest first. -/
structure Behind (policy : CommitteePolicy) (keys : NodeKeys) (now : Nat) (store : NodeShareStore)
    (base : List OrderCertificate) (recent : List Acceptance) : Prop where
  chained : Chained store.state base
  orderly : Orderly store.state
  extended : Linked ((recent.map Acceptance.certificate).reverse ++ base)
  distinct : (((recent.map Acceptance.certificate).reverse ++ base).map
    fun certificate => certificate.commitment).Nodup
  passed : ∀ a ∈ recent, a.Passed policy keys
  clock : ∀ a ∈ recent, a.now ≤ now
  held : ∀ a ∈ recent, store.state.admission? a.certificate.commitment = a.admission

section

variable {policy : CommitteePolicy} {keys : NodeKeys} {complete : OrderCertificate → List StoreOp}
  {now : Nat} {store out : NodeShareStore} {base : List OrderCertificate} {a : Acceptance}
  {rest : List Acceptance}

omit [Serde] in
theorem Linked.of_append {newer older : List OrderCertificate} (h : Linked (newer ++ older)) :
    Linked older := by
  induction newer with
  | nil => exact h
  | cons certificate newer ih => exact ih h.2.2

/-- The next missing certificate extends the chain. -/
theorem Behind.next (h : Behind policy keys now store base (a :: rest)) :
    a.certificate.sequence = store.state.orderingSequence + 1 ∧
      a.certificate.previousCertificate = store.state.orderingHead ∧
      a.certificate.commitment ∉ store.state.orderedCommitments := by
  have hchain : ((a :: rest).map Acceptance.certificate).reverse ++ base =
      (rest.map Acceptance.certificate).reverse ++ (a.certificate :: base) := by simp
  have hlinked := h.extended
  have hdistinct := h.distinct
  rw [hchain] at hlinked hdistinct
  obtain ⟨hsequence, hprevious, -⟩ := hlinked.of_append
  refine ⟨hsequence.trans (h.chained.sequence ▸ rfl), hprevious.trans h.chained.head.symm, ?_⟩
  rw [List.map_append, List.map_cons] at hdistinct
  have hfresh := (List.nodup_cons.mp hdistinct.of_append_right).1
  intro hordered
  obtain ⟨old, hold, heq⟩ := (h.chained.ordered _).mp hordered
  exact hfresh (List.mem_map.mpr ⟨old, hold, heq⟩)

variable {certificate : OrderCertificate} {generation : Nat} {missing : List OrderCertificate}

/-- An accepted certificate beyond the head passed its check. -/
theorem acceptOrderCertificate_checked {disk : Disk}
    (hnew : certificate.sequence ≠ store.state.orderingSequence)
    (h : (acceptOrderCertificate disk certificate policy keys now).run store =
      .ok generation out) :
    checkCertificate store.state certificate now = .ok () := by
  unfold acceptOrderCertificate at h
  obtain ⟨⟨⟩, checked, hattempt, hrest⟩ := run_bind_eq_ok.mp h
  obtain ⟨-, rfl⟩ := run_attempt_eq_ok.mp hattempt
  rw [run_get_bind, if_neg hnew] at hrest
  obtain ⟨⟨⟩, current, hcheck, -⟩ := run_bind_eq_ok.mp hrest
  exact (run_attempt_eq_ok.mp hcheck).1

/-- A certificate that is accepted is live, and no vote stands against it. -/
theorem Behind.live_of_accepts (h : Behind policy keys now store base (a :: rest))
    (hrun : (acceptOrderCertificate .written a.certificate policy keys now).run
      store = .ok generation out) :
    now ≤ a.certificate.expiresAt ∧ VoteFree store.state a.certificate now := by
  have hmoved : a.certificate.sequence ≠ store.state.orderingSequence := by
    have hsequence := h.next.1
    omega
  refine ⟨?_, (checkCertificate_admits (acceptOrderCertificate_checked hmoved hrun)).2⟩
  exact certificate_live (acceptOrderCertificate_ok hrun)

/-- A live certificate with no vote against it is accepted. -/
theorem Behind.accepts (h : Behind policy keys now store base (a :: rest))
    (hsettled : store.state.Settled)
    (hfits : NodeShareStore.Fits (afterCertificate store.state a.certificate))
    (hlive : now ≤ a.certificate.expiresAt) (hvote : VoteFree store.state a.certificate now) :
    (acceptOrderCertificate .written a.certificate policy keys now).run store =
      .ok (store.state.generation + 1)
        (store.saved (bumped
          (afterCertificate store.state a.certificate))) := by
  obtain ⟨hsequence, hprevious, hnew⟩ := h.next
  have hpassed := h.passed a List.mem_cons_self
  obtain ⟨admission, hadmission, hadmits⟩ := hpassed.admitted
  have hcheck : checkCertificate store.state a.certificate now = .ok () :=
    checkCertificate_of_admits hsettled (h.orderly.lifecycleBlocks hnew)
      ((h.held a List.mem_cons_self).trans hadmission)
      (hadmits.mono (h.clock a List.mem_cons_self) hlive) hpassed.bounded hsequence hprevious hnew
      hvote
  exact acceptOrderCertificate_written
    (certificate_verify_at hpassed.verified hlive) (by omega) hcheck hfits

omit [NodeCrypto] [Serde] in
/-- An accepted certificate changes nothing a commitment is admitted for. -/
theorem admission?_afterCertificate [NodeCrypto] (state : StoreState)
    (certificate : OrderCertificate) (commitment : Digest32) :
    (afterCertificate state certificate).admission? commitment =
      state.admission? commitment := by
  simp only [StoreState.admission?, afterCertificate]
  cases state.records.get? commitment with
  | some record => rfl
  | none => exact map_get?_alter_map certificate.commitment commitment fun _ => rfl

/-- The chain and the invariant after the next certificate. -/
theorem Behind.accepted (h : Behind policy keys now store base (a :: rest))
    (hrun : (acceptOrderCertificate .written a.certificate policy keys now).run
      store = .ok generation out)
    (hsequence : out.state.orderingSequence = a.certificate.sequence) :
    Chained out.state (a.certificate :: base) ∧ Orderly out.state := by
  have happly : (StoreOp.acceptOrderCertificate .written a.certificate policy keys now).apply
      store = out := congrArg after hrun
  have hmoved : out.state.orderingSequence ≠ store.state.orderingSequence := by
    have hnext := h.next.1
    omega
  have hchained := h.chained.apply (.acceptOrderCertificate .written a.certificate policy keys now)
  rw [StoreOp.extension_accept, happly, if_neg hmoved] at hchained
  exact ⟨hchained, happly ▸ h.orderly.apply _⟩

/-- What the node is behind after the next certificate and its finality. -/
theorem Behind.step (h : Behind policy keys now store base (a :: rest))
    (hcomplete : ∀ op ∈ complete a.certificate, op.completes = true)
    (hsettled : store.state.Settled)
    (hfits : NodeShareStore.Fits (afterCertificate store.state a.certificate))
    (hlive : now ≤ a.certificate.expiresAt) (hvote : VoteFree store.state a.certificate now) :
    ∃ out, (∃ generation, (acceptOrderCertificate .written a.certificate policy keys
          now).run store = .ok generation out) ∧
      Behind policy keys now (StoreOp.run (complete a.certificate) out) (a.certificate :: base)
        rest ∧
      ∀ later ∈ rest.head?, VoteFree (StoreOp.run (complete a.certificate) out).state
        later.certificate now := by
  have hrun := h.accepts hsettled hfits hlive hvote
  refine ⟨_, ⟨_, hrun⟩, ?_⟩
  obtain ⟨hchained, horderly⟩ := h.accepted hrun rfl
  generalize hout : store.saved _ = out at hchained horderly
  have hsame := sameTurn_run hcomplete horderly
  have hchain : ((a :: rest).map Acceptance.certificate).reverse ++ base =
      (rest.map Acceptance.certificate).reverse ++ (a.certificate :: base) := by simp
  have hextended := hchain ▸ h.extended
  have hdistinct := hchain ▸ h.distinct
  have hbehind : Behind policy keys now (StoreOp.run (complete a.certificate) out)
      (a.certificate :: base) rest := by
    refine ⟨hsame.chained hchained, horderly.run _, hextended, hdistinct,
      fun b hb => h.passed b (List.mem_cons_of_mem _ hb),
      fun b hb => h.clock b (List.mem_cons_of_mem _ hb), fun b hb => ?_⟩
    have hnew : b.certificate.commitment ∉ out.state.orderedCommitments := by
      intro hordered
      obtain ⟨old, hold, heq⟩ := (hchained.ordered _).mp hordered
      rw [List.map_append, List.nodup_append] at hdistinct
      exact hdistinct.2.2 _ (List.mem_map.mpr ⟨_, List.mem_reverse.mpr (List.mem_map.mpr
        ⟨b, hb, rfl⟩), rfl⟩) _ (List.mem_map.mpr ⟨old, hold, rfl⟩) heq.symm
    rw [hsame.admission _ hnew, ← hout]
    exact (admission?_afterCertificate store.state a.certificate _).trans
      (h.held b (List.mem_cons_of_mem _ hb))
  refine ⟨hbehind, fun later hlater vote hfound => ?_⟩
  -- the node has voted for no sequence beyond the certificate it has just accepted
  obtain ⟨tail, rfl⟩ := List.head?_eq_some_iff.mp hlater
  have hsequence := hbehind.next.1
  rw [hsame.sequence, ← hout] at hsequence
  rw [hsame.votes, ← hout] at hfound
  have hstored : store.state.orderingVotes.get? later.certificate.sequence = some vote := by
    refine ((OrdMap.get?_erase _ _ _).trans (if_neg ?_)).symm.trans hfound
    exact hsequence ▸ Nat.succ_ne_self _
  have hle := h.orderly.votes _ _ hstored
  rw [hsequence, ← h.next.1] at hle
  exact absurd hle (Nat.not_succ_le_self _)

theorem Completing.ready
    (h : Completing policy keys complete now (certificate :: missing) store) :
    store.state.Settled ∧
      NodeShareStore.Fits (afterCertificate store.state certificate) :=
  h.2 [] _ rfl store rfl certificate rfl

theorem catchUp_cons
    (h : (acceptOrderCertificate .written certificate policy keys now).run store =
      .ok generation out) :
    catchUp policy keys complete now (certificate :: missing) store =
      catchUp policy keys complete now missing
        (StoreOp.run (complete certificate) out) := by
  rw [catchUp, h]

theorem Completing.step
    (hworks : Completing policy keys complete now (certificate :: missing) store)
    (h : (acceptOrderCertificate .written certificate policy keys now).run store =
      .ok generation out) :
    Completing policy keys complete now missing (StoreOp.run (complete certificate) out) :=
  ⟨hworks.1, fun done rest heq final hfinal => hworks.2 (certificate :: done) rest
    (congrArg (certificate :: ·) heq) final ((catchUp_cons h).trans hfinal)⟩

/-- **Catching up**: the node ends with the chain of the other one, and it gets there exactly if
the missing certificates are live and no vote stands against the next one. -/
theorem Behind.catchUp {recent : List Acceptance} (h : Behind policy keys now store base recent)
    (hworks : Completing policy keys complete now (recent.map Acceptance.certificate) store) :
    (∀ out, catchUp policy keys complete now (recent.map Acceptance.certificate)
        store = some out →
      Chained out.state ((recent.map Acceptance.certificate).reverse ++ base)) ∧
    ((∃ out, catchUp policy keys complete now (recent.map Acceptance.certificate)
        store = some out) ↔
      (∀ a ∈ recent, now ≤ a.certificate.expiresAt) ∧
        ∀ a ∈ recent.head?, VoteFree store.state a.certificate now) := by
  induction recent generalizing store base with
  | nil =>
    refine ⟨fun out hout => ?_, fun _ => ⟨fun _ ha => absurd ha List.not_mem_nil, by simp⟩,
      fun _ => ⟨store, rfl⟩⟩
    obtain rfl := Option.some.inj hout
    exact h.chained
  | cons a rest ih =>
    obtain ⟨hsettled, hfits⟩ := hworks.ready
    by_cases hnext : now ≤ a.certificate.expiresAt ∧ VoteFree store.state a.certificate now
    · obtain ⟨out, ⟨generation, hrun⟩, hbehind, hvote⟩ :=
        h.step (hworks.1 a.certificate) hsettled hfits hnext.1 hnext.2
      obtain ⟨hchained, hiff⟩ := ih hbehind (hworks.step hrun)
      rw [List.map_cons, catchUp_cons hrun, hiff]
      constructor
      · simpa using hchained
      · simp only [List.forall_mem_cons, List.head?_cons, Option.mem_some_iff, forall_eq']
        exact ⟨fun hlater => ⟨⟨hnext.1, hlater.1⟩, hnext.2⟩, fun hall => ⟨hall.1.2, hvote⟩⟩
    · -- the node refuses the certificate
      have hrefused : ∀ out, catchUp policy keys complete now
          ((a :: rest).map Acceptance.certificate) store ≠ some out := by
        intro out hout
        cases hrun : (acceptOrderCertificate .written a.certificate policy keys
            now).run store with
        | ok generation next => exact hnext (h.live_of_accepts hrun)
        | error e next =>
          rw [List.map_cons, catchUp, hrun] at hout
          exact nomatch hout
      refine ⟨fun out hout => absurd hout (hrefused out), ⟨fun ⟨out, hout⟩ =>
        absurd hout (hrefused out), fun hall => absurd ⟨hall.1 a List.mem_cons_self,
          hall.2 a rfl⟩ hnext⟩⟩

/-- **A lagging node catches up** exactly if no missing certificate has expired and its own vote at
the next sequence is for the first of them or has expired. Both nodes are reached by any calls; the
second one has accepted the older part `old` of what the first one has accepted, and still holds
what the missing certificates were accepted for. -/
theorem lagging_node_catches_up_iff {first second ahead behind : NodeShareStore}
    {ops others : List StoreOp} {recent old : List Acceptance} (hfirst : Chained first.state [])
    (hsecond : Chained second.state []) (horderly : Orderly second.state)
    (hruns : StoreOp.run ops first = ahead ∧ StoreOp.run others second = behind)
    (hpinned : ∀ op ∈ ops, op.Pinned policy keys)
    (hlog : StoreOp.log ops first = recent.reverse ++ old)
    (hchain : StoreOp.chain others second = old.map Acceptance.certificate)
    (hheld : ∀ a ∈ recent, behind.state.admission? a.certificate.commitment = a.admission)
    (hclock : ∀ a ∈ recent, a.now ≤ now)
    (hworks : Completing policy keys complete now (recent.map Acceptance.certificate) behind) :
    (∃ out, catchUp policy keys complete now (recent.map Acceptance.certificate)
        behind = some out ∧
      out.state.orderingSequence = ahead.state.orderingSequence ∧
      out.state.orderingHead = ahead.state.orderingHead) ↔
    (∀ a ∈ recent, now ≤ a.certificate.expiresAt) ∧
      ∀ a ∈ recent.head?, VoteFree behind.state a.certificate now := by
  obtain ⟨rfl, rfl⟩ := hruns
  have hahead := hfirst.run ops
  have hhere := hsecond.run others
  rw [List.append_nil, StoreOp.chain_eq_log, hlog, List.map_append, List.map_reverse] at hahead
  rw [List.append_nil, hchain] at hhere
  have hbehind : Behind policy keys now (StoreOp.run others second)
      (old.map Acceptance.certificate) recent :=
    ⟨hhere, horderly.run others, hahead.linked, hahead.distinct,
      fun a ha => passed_of_mem_log hpinned a (hlog ▸ List.mem_append_left _
        (List.mem_reverse.mpr ha)), hclock, hheld⟩
  obtain ⟨hchained, hiff⟩ := hbehind.catchUp hworks
  rw [← hiff]
  refine exists_congr fun out => and_iff_left_of_imp fun hout => ?_
  exact ⟨(hchained out hout).sequence.trans hahead.sequence.symm,
    (hchained out hout).head.trans hahead.head.symm⟩

end

end

section Sample

attribute [local instance] transparentNodeCrypto clusterSerde

open Cluster NodeShareStore

/-- A node before any call. -/
def freshNode (party : Fin mpcParties) : NodeShareStore := sampleNode party (emptyState party [])

/-- The certificate of the first order, as a node accepts it. -/
def sampleAcceptance : Acceptance :=
  ⟨sampleCertificate 1 100 [1, 2, 3, 4, 5], some (.order (sampleManifest 1)), 60⟩

theorem admission?_votedState (party : Fin mpcParties) :
    (votedState party).admission? (sampleManifest 1).commitment =
      some (.order (sampleManifest 1)) := by
  have hrecord : (votedState party).records.get? (sampleManifest 1).commitment = some _ :=
    OrdMap.get?_insert_self
  rw [StoreState.admission?, hrecord]
  rfl

theorem log_orderedBy :
    StoreOp.log (orderedBy [1, 2, 3, 4, 5] 0) (freshNode 0) = [sampleAcceptance] := by
  have haccept : StoreOp.acceptance (sampleNode 0 (votedState 0))
      (acceptAt 1 100 [1, 2, 3, 4, 5] 60 0) = some sampleAcceptance := by
    have hheld : (sampleNode 0 (votedState 0)).state.admission?
        (sampleCertificate 1 100 [1, 2, 3, 4, 5]).commitment = some (.order (sampleManifest 1)) :=
      admission?_votedState 0
    rw [StoreOp.acceptance, (sample_accepts _ List.mem_cons_self 0).1, Option.map_some, hheld]
    rfl
  rw [orderedBy, freshNode, StoreOp.log, StoreOp.log, StoreOp.log, StoreOp.log, apply_ingestFirst,
    apply_voteAt, haccept]
  rfl

/-- A node votes for the order and does not see the certificate. -/
def votedBy (party : Fin mpcParties) : List StoreOp := [ingestAt 1 party, voteAt 1 100 50 party]

theorem run_votedBy (party : Fin mpcParties) :
    StoreOp.run (votedBy party) (freshNode party) = sampleNode party (votedState party) := by
  rw [votedBy, freshNode, StoreOp.run_cons, StoreOp.run_cons, apply_ingestFirst, apply_voteAt,
    StoreOp.run_nil]

/-- The state of a node that has accepted the certificate. -/
def acceptedState (party : Fin mpcParties) : StoreState :=
  bumped (afterCertificate (votedState party) (sampleCertificate 1 100 [1, 2, 3, 4, 5]))

/-- With no round and no release there is no finality to wait for. -/
theorem settled_of_idle {state : StoreState} (hlifecycle : state.lifecycle = .empty)
    (hrounds : state.completedRounds = .empty) : state.Settled := by
  rw [StoreState.Settled, hlifecycle, hrounds]
  exact ⟨fun _ h => absurd h List.not_mem_nil, fun _ h => absurd h List.not_mem_nil⟩

set_option maxRecDepth 100000 in
theorem completing_sample :
    Completing .sevenNode sampleKeys (fun _ => []) 100 [sampleAcceptance.certificate]
      (sampleNode 1 (votedState 1)) := by
  refine ⟨fun _ op hop => absurd hop List.not_mem_nil,
    fun done rest hsplit out hout certificate hnext => ?_⟩
  cases done with
  | nil =>
    obtain rfl := Option.some.inj hout
    exact ⟨settled_of_idle rfl rfl, sample_fits (by decide : 2 + 1 < u64Bound)⟩
  | cons first done =>
    obtain ⟨rfl, rfl⟩ := List.append_eq_nil_iff.mp (List.cons.inj hsplit).2.symm
    exact absurd hnext (Option.not_mem_none _)

theorem lagging_node_catches_up_iff_sample :
    StoreOp.log (orderedBy [1, 2, 3, 4, 5] 0) (freshNode 0) = [sampleAcceptance] ∧
      StoreOp.chain (votedBy 1) (freshNode 1) = [] ∧
      ∃ out, catchUp .sevenNode sampleKeys (fun _ => []) 100
          [sampleAcceptance.certificate] (sampleNode 1 (votedState 1)) = some out ∧
        out.state.orderingSequence = (acceptedState 0).orderingSequence ∧
        out.state.orderingHead = (acceptedState 0).orderingHead := by
  have hpinned : ∀ op ∈ orderedBy [1, 2, 3, 4, 5] 0, op.Pinned .sevenNode sampleKeys := by
    simp [orderedBy, ingestAt, voteAt, acceptAt, StoreOp.Pinned]
  have hlog : StoreOp.log (orderedBy [1, 2, 3, 4, 5] 0) (freshNode 0) =
      [sampleAcceptance].reverse ++ [] := log_orderedBy
  have hvote : VoteFree (votedState 1) sampleAcceptance.certificate 100 := by
    intro vote hvote
    obtain rfl := Option.some.inj (hvote.symm.trans
      (OrdMap.get?_insert_self))
    exact Or.inl rfl
  obtain ⟨-, hsequence, hhead⟩ := sample_accepts _ List.mem_cons_self 0
  obtain ⟨out, hout, hsame⟩ := (lagging_node_catches_up_iff (chained_emptyState 0 [])
    (chained_emptyState 1 []) (orderly_emptyState 1 []) ⟨run_orderedBy _ 0, run_votedBy 1⟩ hpinned
    hlog rfl (List.forall_mem_singleton.mpr (admission?_votedState 1))
    (List.forall_mem_singleton.mpr (by decide : 60 ≤ 100)) completing_sample).mpr
    ⟨List.forall_mem_singleton.mpr le_rfl, fun a ha => Option.some.inj ha ▸ hvote⟩
  exact ⟨log_orderedBy, rfl, out, hout, hsame.1.trans hsequence, hsame.2.trans hhead⟩

/-- **An expired certificate strands a node.** Node 0 has accepted the first order at 60; node 1
holds its record, waits for nothing and has voted for it. From the expiry of the certificate at 100
on it refuses the certificate, and with it every later one. -/
theorem expired_certificate_strands_node :
    StoreOp.log (orderedBy [1, 2, 3, 4, 5] 0) (freshNode 0) = [sampleAcceptance] ∧
      StoreOp.chain (votedBy 1) (freshNode 1) = [] ∧
      StoreOp.run (votedBy 1) (freshNode 1) = sampleNode 1 (votedState 1) ∧
      (votedState 1).Settled ∧
      (votedState 1).admission? sampleAcceptance.certificate.commitment =
        sampleAcceptance.admission ∧
      (∀ now, 100 < now → sampleAcceptance.now ≤ now ∧ ∀ complete,
        catchUp .sevenNode sampleKeys complete now [sampleAcceptance.certificate]
          (sampleNode 1 (votedState 1)) = none) := by
  refine ⟨log_orderedBy, rfl, run_votedBy 1, settled_of_idle rfl rfl, admission?_votedState 1,
    fun now hlate => ⟨(by decide : 60 ≤ 100).trans hlate.le, fun complete => ?_⟩⟩
  rw [catchUp]
  cases hrun : (acceptOrderCertificate .written sampleAcceptance.certificate .sevenNode sampleKeys
      now).run (sampleNode 1 (votedState 1)) with
  | ok generation out =>
    have hlive := certificate_live (acceptOrderCertificate_ok hrun)
    exact absurd hlive (Nat.not_le.mpr hlate)
  | error e out => rfl

end Sample

end Oclob.Node
