import Mathlib.Data.Finset.Image
import Oclob.Lib.Quorum
import Oclob.Node.Calls

/-!
# Ordering agreement between seven nodes

Seven stores, some of them corrupt, and a coordinator that chooses every call, its arguments and
its clock. A node signs the digests `record_order_vote` returns; a certificate carries signatures
of a quorum. The argument for agreement:

1. `Faithful`: a node signs one digest for each sequence. A vote stays in the store until the node
   accepts a certificate for its sequence, and after that the node never votes for that sequence
   again. This needs that no expired vote is replaced (`StoreOp.Steady`).
2. `Cluster.Backed`: an accepted certificate is backed by a quorum of nodes whose correct members
   signed its digest (unforgeability).
3. `certificates_agree`: two certificates of one sequence are backed by a common correct node
   (`Oclob.Lib.Quorum`), which signed both.

`record_order_vote` does replace a vote once it has expired, whatever happened to the certificate
it went into; `expired_vote_breaks_agreement` is the run in which two honest nodes then accept
different orders for the first sequence.
-/

namespace Oclob.Node

open Oclob.Core Oclob.Lib Oclob.Edge Oclob.Ordering NodeShareStore

section

variable [NodeCrypto] [Serde]

/-! ## What a node signs and accepts -/

namespace StoreOp

/-- The statement whose digest a call returns for signing. -/
def voted (store : NodeShareStore) : StoreOp → Option OrderStatement
  | recordOrderVote disk statement now =>
    if succeeds ((NodeShareStore.recordOrderVote disk statement now).run store) then some statement
    else none
  | _ => none

/-- The certificate a call accepts. -/
def accepted (store : NodeShareStore) : StoreOp → Option OrderCertificate
  | acceptOrderCertificate disk certificate policy keys now =>
    if succeeds ((NodeShareStore.acceptOrderCertificate disk certificate policy keys now).run store)
    then some certificate else none
  | _ => none

/-- The call does not replace an expired vote by a vote for another statement. -/
def Steady (store : NodeShareStore) : StoreOp → Prop
  | recordOrderVote _ statement now => ∀ vote,
    store.state.orderingVotes.get? statement.sequence = some vote →
    vote.statementDigest = voteDigest statement ∨ now ≤ vote.expiresAt
  | _ => True

end StoreOp

variable {disk : Disk} {store out : NodeShareStore}

/-- What a returned digest stands for: the statement passed the checks, and the store holds a vote
with its digest. -/
theorem recordOrderVote_ok {statement : OrderStatement} {now : Nat} {digest : Digest32}
    (h : (recordOrderVote disk statement now).run store = .ok digest out) :
    statement.sequence = store.state.orderingSequence + 1 ∧
      ∃ vote, out.state.orderingVotes.get? statement.sequence = some vote ∧
        vote.statementDigest = voteDigest statement := by
  rw [recordOrderVote, run_get_bind] at h
  obtain ⟨⟨⟩, _, hattempt, hrest⟩ := run_bind_eq_ok.mp h
  obtain ⟨hcheck, rfl⟩ := run_attempt_eq_ok.mp hattempt
  obtain ⟨hsequence, -⟩ := checkVote_ok hcheck
  refine ⟨hsequence, ?_⟩
  dsimp only at hrest
  split at hrest
  · rename_i existing hexisting
    split at hrest
    · rename_i hsame
      obtain ⟨-, rfl⟩ := run_pure_eq_ok.mp hrest
      exact ⟨existing, hexisting, hsame⟩
    · obtain ⟨⟨⟩, _, hensure, hwrite⟩ := run_bind_eq_ok.mp hrest
      obtain ⟨-, rfl⟩ := run_ensure_eq_ok.mp hensure
      obtain ⟨⟨⟩, _, hcommit, hreturn⟩ := run_bind_eq_ok.mp hwrite
      obtain ⟨-, rfl⟩ := run_pure_eq_ok.mp hreturn
      rw [(commit_ok hcommit).1]
      exact ⟨_, OrdMap.get?_insert_self, rfl⟩
  · obtain ⟨⟨⟩, _, hcommit, hreturn⟩ := run_bind_eq_ok.mp hrest
    obtain ⟨-, rfl⟩ := run_pure_eq_ok.mp hreturn
    rw [(commit_ok hcommit).1]
    exact ⟨_, OrdMap.get?_insert_self, rfl⟩

/-- An accepted certificate was verified. -/
theorem acceptOrderCertificate_ok {certificate : OrderCertificate}
    {policy : CommitteePolicy} {keys : NodeKeys} {now generation : Nat}
    (h : (acceptOrderCertificate disk certificate policy keys now).run store =
      .ok generation out) : certificate.verify policy keys now = .ok () := by
  unfold acceptOrderCertificate at h
  obtain ⟨⟨⟩, _, hattempt, -⟩ := run_bind_eq_ok.mp h
  exact mapError_eq_ok.mp (run_attempt_eq_ok.mp hattempt).1

/-! ## One node -/

/-- Every signed statement is behind the head or still the stored vote, and no sequence has two
signed digests. -/
structure Faithful (state : StoreState) (signed : List OrderStatement) : Prop where
  kept : ∀ statement ∈ signed, statement.sequence ≤ state.orderingSequence ∨
    statement.sequence = state.orderingSequence + 1 ∧
      ∃ vote, state.orderingVotes.get? statement.sequence = some vote ∧
        vote.statementDigest = voteDigest statement
  single : ∀ statement ∈ signed, ∀ other ∈ signed, statement.sequence = other.sequence →
    voteDigest statement = voteDigest other

/-- A call other than a vote: it keeps the ordering state or accepts the next certificate. -/
theorem Faithful.kept_of_effect {op : StoreOp}
    {signed : List OrderStatement} (hf : Faithful store.state signed) (hsteady : op.Steady store)
    (heffect : Effect store op out) :
    ∀ statement ∈ signed, statement.sequence ≤ out.state.orderingSequence ∨
      statement.sequence = out.state.orderingSequence + 1 ∧
        ∃ vote, out.state.orderingVotes.get? statement.sequence = some vote ∧
          vote.statementDigest = voteDigest statement := by
  intro statement hmem
  have hkept := hf.kept statement hmem
  refine heffect.preserves (P := fun state => statement.sequence ≤ state.orderingSequence ∨
      statement.sequence = state.orderingSequence + 1 ∧
        ∃ vote, state.orderingVotes.get? statement.sequence = some vote ∧
          vote.statementDigest = voteDigest statement) (fun heads => hkept) ?_
  intro g next hedit
  cases hedit with
  | recordOrderVote g hcheck hfree =>
    refine hkept.imp_right ?_
    rintro ⟨hsequence, vote, hvote, hdigest⟩
    -- the sequence already has a vote, so a steady call cannot have written another one
    obtain ⟨hnext, -⟩ := checkVote_ok hcheck
    rw [hsequence, ← hnext] at hvote
    obtain ⟨hne, hexpired⟩ := hfree vote hvote
    rcases hsteady vote hvote with hsame | hlive
    · exact absurd hsame hne
    · omega
  | acceptOrderCertificate g hverify hnew hcheck =>
    obtain ⟨hsequence, -⟩ := checkCertificate_ok hcheck
    left
    simp only [afterCertificate]
    omega
  | finalizePrivateRound g hcheck hnew hsigned =>
    rw [signedFinalization_ok hsigned]
    exact hkept
  | _ => exact hkept

/-- A vote does not move the head. -/
theorem recordOrderVote_sequence
    {statement : OrderStatement} {now : Nat}
    (heffect : Effect store (.recordOrderVote disk statement now) out) :
    out.state.orderingSequence = store.state.orderingSequence := by
  cases heffect with
  | kept hstate hfile => rw [hstate]
  | wrote g next hedit hg hout =>
    cases hedit with
    | recordOrderVote g hcheck hfree => rw [hout.1]
  | exhausted next heager hg hedit hstate => exact absurd heager (by simp [StoreOp.eager])
  | partialHeads disk files plan finality signingKey hop hlong heads hstate =>
    exact absurd hop (by simp)

/-- **One call keeps a node faithful**, with what the call makes it sign. -/
theorem Faithful.apply {op : StoreOp} {signed : List OrderStatement}
    (hf : Faithful store.state signed) (hsteady : op.Steady store) :
    Faithful (op.apply store).state ((op.voted store).toList ++ signed) := by
  have hkept := hf.kept_of_effect hsteady (op.effect store)
  cases hvoted : op.voted store with
  | none => exact ⟨hkept, hf.single⟩
  | some statement =>
    obtain ⟨disk, now, digest, hop, hrun⟩ : ∃ disk now digest,
        op = .recordOrderVote disk statement now ∧
        (recordOrderVote disk statement now).run store =
          .ok digest (op.apply store) := by
      cases op with
      | recordOrderVote disk voted now =>
        simp only [StoreOp.voted, Option.ite_none_right_eq_some, Option.some.injEq] at hvoted
        obtain ⟨hok, rfl⟩ := hvoted
        cases hrun : (recordOrderVote disk voted now).run store with
        | ok digest out => exact ⟨disk, now, digest, rfl, by rw [StoreOp.apply, hrun]; rfl⟩
        | error e out =>
          rw [hrun] at hok
          exact absurd hok (by simp [Lib.succeeds])
      | _ => exact absurd hvoted (by simp [StoreOp.voted])
    obtain ⟨hsequence, vote, hvote, hdigest⟩ := recordOrderVote_ok hrun
    have hhead : (op.apply store).state.orderingSequence = store.state.orderingSequence := by
      subst hop
      exact recordOrderVote_sequence (StoreOp.effect _ store)
    refine ⟨fun signedNow hmem => ?_, fun first hfirst second hsecond heq => ?_⟩
    · rcases List.mem_cons.mp hmem with rfl | hold
      · exact Or.inr ⟨by rw [hhead, hsequence], vote, hvote, hdigest⟩
      · exact hkept signedNow hold
    · -- a statement signed earlier for this sequence is the vote the store still holds
      have hold : ∀ other ∈ signed, statement.sequence = other.sequence →
          voteDigest statement = voteDigest other := by
        intro other hother heq
        rcases hkept other hother with hle | ⟨-, vote', hvote', hdigest'⟩
        · omega
        · rw [← heq, hvote] at hvote'
          rw [← hdigest, ← hdigest', Option.some.inj hvote']
      rcases List.mem_cons.mp hfirst with rfl | hfirst'
      · rcases List.mem_cons.mp hsecond with rfl | hsecond'
        · rfl
        · exact hold second hsecond' heq
      · rcases List.mem_cons.mp hsecond with rfl | hsecond'
        · exact (hold first hfirst' heq.symm).symm
        · exact hf.single first hfirst' second hsecond' heq

/-! ## Seven nodes -/

instance : NeZero mpcParties := ⟨by decide⟩

/-- A call at a node. -/
structure Event where
  party : Fin mpcParties
  op : StoreOp

/-- The statement a call is about. -/
def Event.statement? (event : Event) : Option OrderStatement :=
  match event.op with
  | .recordOrderVote _ statement _ => some statement
  | .acceptOrderCertificate _ certificate _ _ _ => some certificate.toOrderStatement
  | _ => none

/-- The stores, with what each node signed and which certificates were accepted. -/
structure Cluster where
  stores : Fin mpcParties → NodeShareStore
  voted : Fin mpcParties → List OrderStatement
  accepted : List (Fin mpcParties × OrderCertificate)

namespace Cluster

/-- Stores before the first call. -/
def start (stores : Fin mpcParties → NodeShareStore) : Cluster := ⟨stores, fun _ => [], []⟩

/-- The cluster after a call. -/
def step (cluster : Cluster) (event : Event) : Cluster where
  stores := Function.update cluster.stores event.party
    (event.op.apply (cluster.stores event.party))
  voted := Function.update cluster.voted event.party
    ((event.op.voted (cluster.stores event.party)).toList ++ cluster.voted event.party)
  accepted := ((event.op.accepted (cluster.stores event.party)).toList.map (event.party, ·)) ++
    cluster.accepted

def run (cluster : Cluster) (events : List Event) : Cluster := events.foldl step cluster

/-- Every call of a run satisfies `P` in the cluster it finds. -/
def Along (P : Cluster → Event → Prop) : Cluster → List Event → Prop
  | _, [] => True
  | cluster, event :: rest => P cluster event ∧ Along P (cluster.step event) rest

/-- Honest nodes verify certificates under the pinned keys, and a signature that verifies under
the key of an honest node is one the node made: on a digest `record_order_vote` returned to it. -/
def Unforgeable (keys : NodeKeys) (corrupt : Finset (Fin mpcParties)) (cluster : Cluster)
    (event : Event) : Prop :=
  match event.op with
  | .acceptOrderCertificate _ certificate _ used _ => event.party ∉ corrupt → used = keys ∧
    ∀ vote ∈ certificate.votes, ∀ q, q ∉ corrupt → vote.nodeId = q.val + 1 →
      ∀ key, keys.get? vote.nodeId = some key →
      verifyStrict key (voteDigest certificate.toOrderStatement).bytes vote.signature = true →
      ∃ statement ∈ cluster.voted q,
        voteDigest statement = voteDigest certificate.toOrderStatement
  | _ => True

/-- Honest nodes do not replace expired votes. -/
def Steady (corrupt : Finset (Fin mpcParties)) (cluster : Cluster) (event : Event) : Prop :=
  event.party ∉ corrupt → event.op.Steady (cluster.stores event.party)

/-- The pinned committee: node ids 1 to 7, of which at most two are corrupt, and quorums of five. -/
def committee (corrupt : Finset (Fin mpcParties)) (hcorrupt : corrupt.card ≤ 2) :
    Committee Nat where
  members := Finset.Icc 1 mpcParties
  faulty := corrupt.image fun party => party.val + 1
  quorum := 5
  overlap := by
    have hfaulty : (corrupt.image fun party => party.val + 1).card ≤ corrupt.card :=
      Finset.card_image_le
    have hmembers : (Finset.Icc 1 mpcParties).card = 7 := Nat.card_Icc 1 7
    omega

/-- Node `id` is honest and signed `digest` for `sequence`. -/
def Signed (corrupt : Finset (Fin mpcParties)) (cluster : Cluster) (id sequence : Nat)
    (digest : Digest32) : Prop :=
  ∃ party, party ∉ corrupt ∧ id = party.val + 1 ∧ ∃ statement ∈ cluster.voted party,
    statement.sequence = sequence ∧ voteDigest statement = digest

/-- What holds along a run. `statements` are those of the run. -/
structure Invariant (statements : Set OrderStatement) (corrupt : Finset (Fin mpcParties))
    (hcorrupt : corrupt.card ≤ 2) (cluster : Cluster) : Prop where
  faithful : ∀ party, party ∉ corrupt →
    Faithful (cluster.stores party).state (cluster.voted party)
  known : ∀ party, ∀ statement ∈ cluster.voted party, statement ∈ statements
  backed : ∀ party certificate, (party, certificate) ∈ cluster.accepted → party ∉ corrupt →
    certificate.toOrderStatement ∈ statements ∧ (committee corrupt hcorrupt).Backed
      (Signed corrupt cluster) certificate.sequence (voteDigest certificate.toOrderStatement)

omit [Serde] in
theorem invariant_start {statements : Set OrderStatement} {corrupt : Finset (Fin mpcParties)}
    {hcorrupt : corrupt.card ≤ 2} (stores : Fin mpcParties → NodeShareStore) :
    Invariant statements corrupt hcorrupt (start stores) where
  faithful _ _ := ⟨fun _ h => absurd h List.not_mem_nil, fun _ h => absurd h List.not_mem_nil⟩
  known _ _ h := absurd h List.not_mem_nil
  backed _ _ h := absurd h List.not_mem_nil

variable {keys : NodeKeys} {corrupt : Finset (Fin mpcParties)} {hcorrupt : corrupt.card ≤ 2}
  {statements : Set OrderStatement} {cluster : Cluster} {event : Event}

theorem mem_voted_step {party : Fin mpcParties} {statement : OrderStatement} :
    statement ∈ (cluster.step event).voted party ↔
      (party = event.party ∧ event.op.voted (cluster.stores party) = some statement) ∨
        statement ∈ cluster.voted party := by
  by_cases hparty : party = event.party
  · subst hparty
    simp [step, Option.mem_toList, eq_comm]
  · simp [step, hparty]

omit [Serde] in
/-- A verified certificate is backed by the nodes that signed its digest. -/
theorem backed_of_verify {certificate : OrderCertificate} {policy : CommitteePolicy} {now : Nat}
    (hkeys : ∀ id key, keys.get? id = some key → 1 ≤ id ∧ id ≤ mpcParties)
    (hinj : Set.InjOn voteDigest statements)
    (hknown : ∀ party, ∀ statement ∈ cluster.voted party, statement ∈ statements)
    (hmem : certificate.toOrderStatement ∈ statements)
    (hsigned : ∀ vote ∈ certificate.votes, ∀ q, q ∉ corrupt → vote.nodeId = q.val + 1 →
      ∀ key, keys.get? vote.nodeId = some key →
      verifyStrict key (voteDigest certificate.toOrderStatement).bytes vote.signature = true →
      ∃ statement ∈ cluster.voted q,
        voteDigest statement = voteDigest certificate.toOrderStatement)
    (hverify : certificate.verify policy keys now = .ok ()) :
    (committee corrupt hcorrupt).Backed (Signed corrupt cluster) certificate.sequence
      (voteDigest certificate.toOrderStatement) := by
  obtain ⟨hpolicy, -, ids, hquorum, hvotes⟩ := OrderCertificate.verify_ok hverify
  obtain ⟨-, hmax, -, hordering, -⟩ := require_eq_ok.mp hpolicy
  refine ⟨ids, fun id hid => ?_, ?_, fun id hid hcorrect => ?_⟩
  · obtain ⟨vote, -, -, -, key, hkey, -⟩ := hvotes id hid
    exact Finset.mem_Icc.mpr (hkeys id key hkey)
  · change 5 ≤ ids.card
    omega
  · obtain ⟨vote, hvote, rfl, -, key, hkey, hverifies⟩ := hvotes id hid
    obtain ⟨hlow, hhigh⟩ := hkeys _ key hkey
    let party : Fin mpcParties := ⟨vote.nodeId - 1, by omega⟩
    have hparty : vote.nodeId = party.val + 1 := (Nat.sub_add_cancel hlow).symm
    have hhonest : party ∉ corrupt := fun hmem =>
      hcorrect (Finset.mem_image.mpr ⟨party, hmem, hparty.symm⟩)
    obtain ⟨statement, hstatement, hdigest⟩ :=
      hsigned vote hvote party hhonest hparty key hkey hverifies
    have heq : statement = certificate.toOrderStatement :=
      hinj (hknown party statement hstatement) hmem hdigest
    exact ⟨party, hhonest, hparty, statement, hstatement, heq ▸ rfl, hdigest⟩

/-- **One call keeps the invariant.** -/
theorem Invariant.step (hkeys : ∀ id key, keys.get? id = some key → 1 ≤ id ∧ id ≤ mpcParties)
    (hinj : Set.InjOn voteDigest statements)
    (hinv : Invariant statements corrupt hcorrupt cluster)
    (hmem : ∀ statement, event.statement? = some statement → statement ∈ statements)
    (hunforgeable : Unforgeable keys corrupt cluster event)
    (hsteady : Steady corrupt cluster event) :
    Invariant statements corrupt hcorrupt (cluster.step event) := by
  have hgrows : ∀ id sequence digest, Signed corrupt cluster id sequence digest →
      Signed corrupt (cluster.step event) id sequence digest := by
    rintro id sequence digest ⟨party, hhonest, hid, statement, hstatement, hvote⟩
    exact ⟨party, hhonest, hid, statement, mem_voted_step.mpr (Or.inr hstatement), hvote⟩
  refine ⟨fun party hhonest => ?_, fun party statement hstatement => ?_,
    fun party certificate haccepted hhonest => ?_⟩
  · by_cases hparty : party = event.party
    · subst hparty
      simp only [Cluster.step, Function.update_self]
      exact (hinv.faithful _ hhonest).apply (hsteady hhonest)
    · simp only [Cluster.step, Function.update_of_ne hparty]
      exact hinv.faithful party hhonest
  · rcases mem_voted_step.mp hstatement with ⟨rfl, hvoted⟩ | hold
    · refine hmem statement ?_
      unfold Event.statement?
      unfold StoreOp.voted at hvoted
      split at hvoted
      · rename_i hop
        rw [hop]
        exact (Option.ite_none_right_eq_some.mp hvoted).2
      · exact absurd hvoted (by simp)
    · exact hinv.known party statement hold
  · rcases List.mem_append.mp haccepted with hnew | hold
    · obtain ⟨found, hfound, heq⟩ := List.mem_map.mp hnew
      obtain ⟨rfl, rfl⟩ := Prod.mk.inj heq
      have hop := Option.mem_toList.mp hfound
      unfold StoreOp.accepted at hop
      split at hop
      · rename_i disk accepted policy used now heventop
        obtain ⟨hok, hsome⟩ := Option.ite_none_right_eq_some.mp hop
        obtain rfl := Option.some.inj hsome
        simp only [Unforgeable, heventop] at hunforgeable
        obtain ⟨rfl, hsigned⟩ := hunforgeable hhonest
        have hstatement : accepted.toOrderStatement ∈ statements :=
          hmem _ (by simp [Event.statement?, heventop])
        cases hrun : (NodeShareStore.acceptOrderCertificate disk accepted policy used now).run
          (cluster.stores event.party) with
        | error e out =>
          rw [hrun] at hok
          exact absurd hok (by simp [Lib.succeeds])
        | ok generation out =>
          exact ⟨hstatement, (backed_of_verify hkeys hinj hinv.known hstatement hsigned
            (acceptOrderCertificate_ok hrun)).mono hgrows⟩
      · exact absurd hop (by simp)
    · obtain ⟨hstatement, hbacked⟩ := hinv.backed party certificate hold hhonest
      exact ⟨hstatement, hbacked.mono hgrows⟩

theorem Invariant.run (hkeys : ∀ id key, keys.get? id = some key → 1 ≤ id ∧ id ≤ mpcParties)
    (hinj : Set.InjOn voteDigest statements) (events : List Event) {cluster : Cluster}
    (hinv : Invariant statements corrupt hcorrupt cluster)
    (hmem : ∀ event ∈ events, ∀ statement, event.statement? = some statement →
      statement ∈ statements)
    (hunforgeable : Along (Unforgeable keys corrupt) cluster events)
    (hsteady : Along (Steady corrupt) cluster events) :
    Invariant statements corrupt hcorrupt (cluster.run events) := by
  induction events generalizing cluster with
  | nil => exact hinv
  | cons event rest ih =>
    rw [List.forall_mem_cons] at hmem
    exact ih (hinv.step hkeys hinj hmem.1 hunforgeable.1 hsteady.1) hmem.2 hunforgeable.2 hsteady.2

/-- **Honest nodes accept one order for a sequence**, if no honest node replaces an expired vote:
over every run of calls at seven nodes, at most two of them corrupt, with unforgeable signatures
and no collision of digests among the statements of the run. -/
theorem certificates_agree (stores : Fin mpcParties → NodeShareStore) (events : List Event)
    (hcorrupt : corrupt.card ≤ 2)
    (hkeys : ∀ id key, keys.get? id = some key → 1 ≤ id ∧ id ≤ mpcParties)
    (hinj : Set.InjOn voteDigest
      { statement | ∃ event ∈ events, event.statement? = some statement })
    (hunforgeable : Along (Unforgeable keys corrupt) (start stores) events)
    (hsteady : Along (Steady corrupt) (start stores) events)
    {p q : Fin mpcParties} {c d : OrderCertificate}
    (hp : p ∉ corrupt) (hq : q ∉ corrupt)
    (hc : (p, c) ∈ ((start stores).run events).accepted)
    (hd : (q, d) ∈ ((start stores).run events).accepted)
    (hsequence : c.sequence = d.sequence) :
    c.marketId = d.marketId ∧ c.commitment = d.commitment := by
  have hinv : Invariant { statement | ∃ event ∈ events, event.statement? = some statement }
      corrupt hcorrupt ((start stores).run events) :=
    Invariant.run hkeys hinj events (invariant_start stores)
      (fun event hevent statement h => ⟨event, hevent, h⟩) hunforgeable hsteady
  obtain ⟨hcmem, hcbacked⟩ := hinv.backed p c hc hp
  obtain ⟨hdmem, hdbacked⟩ := hinv.backed q d hd hq
  rw [← hsequence] at hdbacked
  have hdigest : voteDigest c.toOrderStatement = voteDigest d.toOrderStatement := by
    refine hcbacked.unique (fun id _ hfirst hsecond => ?_) hdbacked
    obtain ⟨party, hhonest, hid, statement, hstatement, hseq, hdigest⟩ := hfirst
    obtain ⟨party', -, hid', other, hother, hseq', hdigest'⟩ := hsecond
    have hsame : party' = party := Fin.ext (by omega)
    subst hsame
    rw [← hdigest, ← hdigest']
    exact (hinv.faithful party' hhonest).single statement hstatement other hother
      (hseq.trans hseq'.symm)
  have hstatement := hinj hcmem hdmem hdigest
  exact ⟨congrArg OrderStatement.marketId hstatement,
    congrArg OrderStatement.commitment hstatement⟩

/-! ## Rounds of calls

A coordinator makes one call at each of several nodes. -/

theorem run_append (cluster : Cluster) (first second : List Event) :
    cluster.run (first ++ second) = (cluster.run first).run second := List.foldl_append

theorem along_append {P : Cluster → Event → Prop} {first second : List Event} :
    Along P cluster (first ++ second) ↔
      Along P cluster first ∧ Along P (cluster.run first) second := by
  induction first generalizing cluster with
  | nil => simp [Along, run]
  | cons event rest ih =>
    simp only [List.cons_append, Along, ih, and_assoc]
    rfl

/-- A call at each of `parties`. -/
def round (parties : List (Fin mpcParties)) (op : Fin mpcParties → StoreOp) : List Event :=
  parties.map fun party => ⟨party, op party⟩

variable {parties : List (Fin mpcParties)}

theorem run_round (op : Fin mpcParties → StoreOp)
    (hnodup : parties.Nodup) (cluster : Cluster) :
    cluster.run (round parties op) = {
      stores := fun party => if party ∈ parties then (op party).apply (cluster.stores party)
        else cluster.stores party
      voted := fun party => if party ∈ parties then
          ((op party).voted (cluster.stores party)).toList ++ cluster.voted party
        else cluster.voted party
      accepted := (parties.reverse.flatMap fun party =>
        ((op party).accepted (cluster.stores party)).toList.map (party, ·)) ++
          cluster.accepted } := by
  induction parties generalizing cluster with
  | nil => simp [round, run]
  | cons first rest ih =>
    obtain ⟨hfirst, hrest⟩ := List.nodup_cons.mp hnodup
    have hother : ∀ party ∈ rest, party ≠ first := fun party hparty heq => hfirst (heq ▸ hparty)
    change (cluster.step ⟨first, op first⟩).run (round rest op) = _
    rw [ih hrest]
    simp only [step, List.reverse_cons, List.flatMap_append, List.flatMap_singleton,
      List.append_assoc, Cluster.mk.injEq]
    refine ⟨funext fun party => ?_, funext fun party => ?_, ?_⟩
    · by_cases hparty : party = first
      · subst hparty
        simp [hfirst]
      · simp [hparty]
    · by_cases hparty : party = first
      · subst hparty
        simp [hfirst]
      · simp [hparty]
    · refine congrArg (· ++ _) (List.flatMap_congr fun party hparty => ?_)
      rw [Function.update_of_ne (hother party (List.mem_reverse.mp hparty))]

/-- A round is steady if its calls are in the stores before it. -/
theorem along_steady_round (op : Fin mpcParties → StoreOp)
    (hnodup : parties.Nodup) (cluster : Cluster)
    (h : ∀ party ∈ parties, (op party).Steady (cluster.stores party)) :
    Along (Steady corrupt) cluster (round parties op) := by
  induction parties generalizing cluster with
  | nil => trivial
  | cons first rest ih =>
    obtain ⟨hfirst, hrest⟩ := List.nodup_cons.mp hnodup
    rw [List.forall_mem_cons] at h
    refine ⟨fun _ => h.1, ih hrest _ fun party hparty => ?_⟩
    have hne : party ≠ first := fun heq => hfirst (heq ▸ hparty)
    simp only [step, Function.update_of_ne hne]
    exact h.2 party hparty

/-- Only accepted certificates can be forged. -/
theorem along_unforgeable_round (op : Fin mpcParties → StoreOp)
    (h : ∀ party cluster, Unforgeable keys corrupt cluster ⟨party, op party⟩) (cluster : Cluster) :
    Along (Unforgeable keys corrupt) cluster (round parties op) := by
  induction parties generalizing cluster with
  | nil => trivial
  | cons first rest ih => exact ⟨h first cluster, ih _⟩

end Cluster

end

/-! ## Sample runs

Seven fresh nodes ingest the orders `A` and `B`. -/

section Sample

set_option maxRecDepth 100000

attribute [local instance] transparentNodeCrypto

@[reducible] def clusterSerde : Serde := sampleSerde []

attribute [local instance] clusterSerde

namespace Cluster

open NodeShareStore

/-- The ids 1 to 7, with a key each. -/
def sampleKeys : NodeKeys :=
  (List.range 7).foldl (fun keys i => keys.insert (i + 1) (Fin.ofNat _ (i + 101))) .empty

def sampleStatement (source : Digest32) (expiresAt : Nat) : OrderStatement :=
  ⟨"JGB10Y-JPY", 1, (sampleManifest source).commitment, 0, expiresAt⟩

/-- The certificate of a statement, with the votes of the nodes `ids`. -/
def votedCertificate (statement : OrderStatement) (ids : List Nat) : OrderCertificate :=
  ⟨statement, ids.map fun id => ⟨id, voteDigest statement,
    Digest32.bytes (Fin.ofNat _ (id + 100)) ++ (voteDigest statement).bytes⟩⟩

/-- The first certificate. -/
def sampleCertificate (source : Digest32) (expiresAt : Nat) (ids : List Nat) : OrderCertificate :=
  votedCertificate (sampleStatement source expiresAt) ids

def sampleNode (party : Fin mpcParties) (state : StoreState) : NodeShareStore :=
  saved ⟨sampleDecryptionKey, emptyState party [], [], none⟩ state

/-! The states of a node. -/

def admitted (state : StoreState) (party : Fin mpcParties) (source : Digest32) : StoreState :=
  bumped { state with
    records := state.records.insert (sampleManifest source).commitment
      (sampleRecord source party 10) }

def both (party : Fin mpcParties) : StoreState :=
  admitted (admitted (emptyState party []) party 1) party 2

def withVote (state : StoreState) (statement : OrderStatement) : StoreState :=
  bumped { state with
    orderingVotes := state.orderingVotes.insert statement.sequence
      ⟨voteDigest statement, statement.expiresAt⟩ }

/-! The calls. -/

def ingestAt (source : Digest32) (party : Fin mpcParties) : StoreOp :=
  .ingest .written (sampleManifest source) (sampleSealedShare source party)
    (sampleSealedCapability source party) 10

def voteAt (source : Digest32) (expiresAt now : Nat) (_ : Fin mpcParties) : StoreOp :=
  .recordOrderVote .written (sampleStatement source expiresAt) now

def acceptAt (source : Digest32) (expiresAt : Nat) (ids : List Nat) (now : Nat)
    (_ : Fin mpcParties) : StoreOp :=
  .acceptOrderCertificate .written (sampleCertificate source expiresAt ids) .sevenNode sampleKeys
    now

theorem sample_commitments :
    (sampleManifest 1).commitment ≠ (sampleManifest 2).commitment ∧
      voteDigest (sampleStatement 1 100) ≠ voteDigest (sampleStatement 2 200) := by
  decide +kernel

theorem sample_quorums :
    (sampleCertificate 1 100 [1, 2, 3, 4, 5]).verify .sevenNode sampleKeys 60 = .ok () ∧
      (sampleCertificate 1 100 [2, 3, 4, 5, 6]).verify .sevenNode sampleKeys 60 = .ok () := by
  decide +kernel

theorem apply_ingestFirst (party : Fin mpcParties) :
    (ingestAt 1 party).apply (sampleNode party (emptyState party [])) =
      sampleNode party (admitted (emptyState party []) party 1) :=
  sample_ingest (sampleNode party (emptyState party [])) 1 10 party rfl rfl party.isLt rfl
    (by decide) (by decide) rfl (by decide : 0 + 1 < u64Bound)

theorem apply_ingestSecond (party : Fin mpcParties) :
    (ingestAt 2 party).apply (sampleNode party (admitted (emptyState party []) party 1)) =
      sampleNode party (both party) := by
  refine sample_ingest (sampleNode party (admitted (emptyState party []) party 1)) 2 10 party rfl
    rfl party.isLt rfl (by decide) (by decide) ?_ (by decide : 1 + 1 < u64Bound)
  exact (OrdMap.get?_insert _ _ _ _).trans (if_neg sample_commitments.1.symm)

def fresh : Cluster := start fun party => sampleNode party (emptyState party [])

/-- Both orders are admitted everywhere. -/
def stocked : Cluster := start fun party => sampleNode party (both party)

theorem run_admitted : fresh.run (round (List.finRange mpcParties) (ingestAt 1) ++
    round (List.finRange mpcParties) (ingestAt 2)) = stocked := by
  rw [run_append, run_round _ (List.nodup_finRange _), run_round _ (List.nodup_finRange _)]
  simp only [fresh, stocked, start, List.mem_finRange, if_true, apply_ingestFirst,
    apply_ingestSecond]
  simp [ingestAt, StoreOp.voted, StoreOp.accepted]

/-- The clock values of the calls at a node. -/
def clocks (events : List Event) (party : Fin mpcParties) : List Nat :=
  events.filterMap fun event => if event.party = party then match event.op with
    | .ingest _ _ _ _ now | .recordOrderVote _ _ now | .acceptOrderCertificate _ _ _ _ now =>
      some now
    | _ => none
    else none

/-- Both orders are admitted and `voters` vote for `A` until time 100. -/
def firstVotes (voters : List (Fin mpcParties)) : List Event :=
  round (List.finRange mpcParties) (ingestAt 1) ++
    round (List.finRange mpcParties) (ingestAt 2) ++ round voters (voteAt 1 100 50)

theorem run_firstVotes (voters : List (Fin mpcParties)) :
    fresh.run (firstVotes voters) = stocked.run (round voters (voteAt 1 100 50)) := by
  rw [firstVotes, run_append, run_admitted]

theorem sampleKeys_ids (id : Nat) (key : Digest32) (h : sampleKeys.get? id = some key) :
    1 ≤ id ∧ id ≤ mpcParties := by
  have hall : ∀ entry ∈ sampleKeys.entries, 1 ≤ entry.1 ∧ entry.1 ≤ mpcParties := by
    decide +kernel
  exact hall (id, key) (OrdMap.mem_entries_iff.mpr h)

/-- The votes of a sample certificate are those its nodes made. -/
theorem unforgeable_acceptAt {source : Digest32} {expiresAt now : Nat} {ids : List Nat}
    {party : Fin mpcParties} {cluster : Cluster}
    (h : ∀ q : Fin mpcParties, q.val + 1 ∈ ids →
      sampleStatement source expiresAt ∈ cluster.voted q) :
    Unforgeable sampleKeys ∅ cluster ⟨party, acceptAt source expiresAt ids now party⟩ := by
  refine fun _ => ⟨rfl, fun vote hvote q _ hid _ _ _ => ?_⟩
  obtain ⟨id, hmem, rfl⟩ := List.mem_map.mp hvote
  exact ⟨sampleStatement source expiresAt, h q (hid ▸ hmem), rfl⟩

theorem along_unforgeable_firstVotes (voters : List (Fin mpcParties)) :
    Along (Unforgeable sampleKeys ∅) fresh (firstVotes voters) := by
  refine along_append.mpr ⟨along_append.mpr ⟨?_, ?_⟩, ?_⟩
  all_goals exact along_unforgeable_round _ (fun _ _ => by trivial) _

/-- The statements of the first votes. -/
theorem statement?_firstVotes {voters : List (Fin mpcParties)} {event : Event}
    {statement : OrderStatement} (hevent : event ∈ firstVotes voters)
    (h : event.statement? = some statement) : statement = sampleStatement 1 100 := by
  simp only [firstVotes, round, List.mem_append, List.mem_map] at hevent
  rcases hevent with (⟨party, -, rfl⟩ | ⟨party, -, rfl⟩) | ⟨party, -, rfl⟩
  · exact absurd h (by simp [Event.statement?, ingestAt])
  · exact absurd h (by simp [Event.statement?, ingestAt])
  · exact (Option.some.inj h).symm

/-! Six nodes vote for `A`, and two nodes accept certificates of different quorums. -/

def agreedRun : List Event :=
  firstVotes [0, 1, 2, 3, 4, 5] ++ round [0] (acceptAt 1 100 [1, 2, 3, 4, 5] 60) ++
    round [1] (acceptAt 1 100 [2, 3, 4, 5, 6] 60)

theorem agreedRun_accepted : (fresh.run agreedRun).accepted =
    [(1, sampleCertificate 1 100 [2, 3, 4, 5, 6]),
      (0, sampleCertificate 1 100 [1, 2, 3, 4, 5])] := by
  rw [agreedRun, run_append, run_append, run_firstVotes]
  decide +kernel

/-- The two certificates name the same order. -/
theorem certificates_agree_sample :
    ((0, sampleCertificate 1 100 [1, 2, 3, 4, 5]) ∈ (fresh.run agreedRun).accepted ∧
      (1, sampleCertificate 1 100 [2, 3, 4, 5, 6]) ∈ (fresh.run agreedRun).accepted) ∧
    (sampleCertificate 1 100 [1, 2, 3, 4, 5]).marketId =
      (sampleCertificate 1 100 [2, 3, 4, 5, 6]).marketId ∧
    (sampleCertificate 1 100 [1, 2, 3, 4, 5]).commitment =
      (sampleCertificate 1 100 [2, 3, 4, 5, 6]).commitment := by
  have hfirst : (0, sampleCertificate 1 100 [1, 2, 3, 4, 5]) ∈ (fresh.run agreedRun).accepted := by
    rw [agreedRun_accepted]
    exact List.mem_cons_of_mem _ List.mem_cons_self
  have hsecond : (1, sampleCertificate 1 100 [2, 3, 4, 5, 6]) ∈ (fresh.run agreedRun).accepted := by
    rw [agreedRun_accepted]
    exact List.mem_cons_self
  have hstatements : ∀ statement,
      (∃ event ∈ agreedRun, event.statement? = some statement) →
        statement = sampleStatement 1 100 := by
    rintro statement ⟨event, hevent, h⟩
    simp only [agreedRun, List.mem_append, round, List.map_cons, List.map_nil,
      List.mem_singleton] at hevent
    rcases hevent with (hevent | rfl) | rfl
    · exact statement?_firstVotes hevent h
    · exact (Option.some.inj h).symm
    · exact (Option.some.inj h).symm
  have hinj : Set.InjOn voteDigest
      { statement | ∃ event ∈ agreedRun, event.statement? = some statement } :=
    fun a ha b hb _ => (hstatements a ha).trans (hstatements b hb).symm
  have hunforgeable : Along (Unforgeable sampleKeys ∅) fresh agreedRun := by
    refine along_append.mpr ⟨along_append.mpr ⟨along_unforgeable_firstVotes _, ?_⟩, ?_⟩
    · rw [run_firstVotes]
      exact ⟨unforgeable_acceptAt (by decide +kernel), trivial⟩
    · rw [run_append, run_firstVotes]
      exact ⟨unforgeable_acceptAt (by decide +kernel), trivial⟩
  have hsteady : Along (Steady ∅) fresh agreedRun := by
    refine along_append.mpr ⟨along_append.mpr ⟨along_append.mpr ⟨along_append.mpr ⟨?_, ?_⟩, ?_⟩,
      ?_⟩, ?_⟩
    · exact along_steady_round (ingestAt 1) (List.nodup_finRange _) _ fun _ _ => trivial
    · exact along_steady_round (ingestAt 2) (List.nodup_finRange _) _ fun _ _ => trivial
    · rw [run_admitted]
      refine along_steady_round (voteAt 1 100 50) (by decide) _ fun party _ vote hvote => ?_
      exact nomatch hvote
    · exact along_steady_round (acceptAt 1 100 _ 60) (by decide) _ fun _ _ => trivial
    · exact along_steady_round (acceptAt 1 100 _ 60) (by decide) _ fun _ _ => trivial
  exact ⟨⟨hfirst, hsecond⟩, certificates_agree _ agreedRun (by decide) sampleKeys_ids hinj
    hunforgeable hsteady (Finset.notMem_empty 0) (Finset.notMem_empty 1) hfirst hsecond rfl⟩

/-! Five nodes vote for `A`, but only the first node gets the certificate in time. -/

/-- The second certificate holds votes of four nodes that replaced their expired vote. -/
def splitRun : List Event :=
  firstVotes [0, 1, 2, 3, 4] ++ round [0] (acceptAt 1 100 [1, 2, 3, 4, 5] 60) ++
    round [1, 2, 3, 4, 5] (voteAt 2 200 101) ++ round [1] (acceptAt 2 200 [2, 3, 4, 5, 6] 110)

theorem splitRun_accepted : (fresh.run splitRun).accepted =
    [(1, sampleCertificate 2 200 [2, 3, 4, 5, 6]),
      (0, sampleCertificate 1 100 [1, 2, 3, 4, 5])] := by
  rw [splitRun, run_append, run_append, run_append, run_firstVotes]
  decide +kernel

/-- **An expired vote breaks agreement.** Seven honest, freshly created nodes, unforgeable
signatures, no digest collision and clocks that do not run back; yet the nodes 0 and 1 accept
different orders for the first sequence of one market. -/
theorem expired_vote_breaks_agreement :
    (∀ party : Fin mpcParties, NodeShareStore.create sampleDecryptionKey party [] .written =
      .ok (sampleNode party (emptyState party []))) ∧
    (∀ id key, sampleKeys.get? id = some key → 1 ≤ id ∧ id ≤ mpcParties) ∧
    Set.InjOn voteDigest { statement | ∃ event ∈ splitRun, event.statement? = some statement } ∧
    Along (Unforgeable sampleKeys ∅) fresh splitRun ∧
    (∀ party, (clocks splitRun party).Pairwise (· ≤ ·)) ∧
    ∃ p q c d, (p, c) ∈ (fresh.run splitRun).accepted ∧ (q, d) ∈ (fresh.run splitRun).accepted ∧
      c.marketId = d.marketId ∧ c.sequence = d.sequence ∧ c.commitment ≠ d.commitment := by
  have hstatements : ∀ statement, (∃ event ∈ splitRun, event.statement? = some statement) →
      statement = sampleStatement 1 100 ∨ statement = sampleStatement 2 200 := by
    rintro statement ⟨event, hevent, h⟩
    simp only [splitRun, List.mem_append] at hevent
    rcases hevent with ((hevent | hevent) | hevent) | hevent
    · exact Or.inl (statement?_firstVotes hevent h)
    all_goals
      obtain ⟨party, -, rfl⟩ := List.mem_map.mp hevent
      obtain rfl := Option.some.inj h
    · exact Or.inl rfl
    · exact Or.inr rfl
    · exact Or.inr rfl
  refine ⟨fun party => NodeShareStore.create_written party.isLt (sample_size _), sampleKeys_ids,
    ?_, ?_, ?_, 0, 1, sampleCertificate 1 100 [1, 2, 3, 4, 5],
    sampleCertificate 2 200 [2, 3, 4, 5, 6], ?_, ?_, rfl, rfl, sample_commitments.1⟩
  · intro a ha b hb heq
    rcases hstatements a ha with rfl | rfl <;> rcases hstatements b hb with rfl | rfl
    · rfl
    · exact absurd heq sample_commitments.2
    · exact absurd heq.symm sample_commitments.2
    · rfl
  · refine along_append.mpr ⟨along_append.mpr ⟨along_append.mpr
      ⟨along_unforgeable_firstVotes _, ?_⟩, ?_⟩, ?_⟩
    · rw [run_firstVotes]
      exact ⟨unforgeable_acceptAt (by decide +kernel), trivial⟩
    · exact along_unforgeable_round (voteAt 2 200 101) (fun _ _ => by trivial) _
    · rw [run_append, run_append, run_firstVotes]
      exact ⟨unforgeable_acceptAt (by decide +kernel), trivial⟩
  · decide +kernel
  · rw [splitRun_accepted]
    exact List.mem_cons_of_mem _ List.mem_cons_self
  · rw [splitRun_accepted]
    exact List.mem_cons_self

end Cluster

end Sample

end Oclob.Node
