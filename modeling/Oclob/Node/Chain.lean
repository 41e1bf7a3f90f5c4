import Oclob.Node.Cluster

/-!
# The chain of accepted certificates

Of the certificates a node has accepted the store keeps the last sequence, the digest of the last
certificate and the set of ordered commitments. `Chained` says what these stand for: a list of
certificates, newest first, numbered without a gap, each naming the digest of the one before it,
for different commitments. Every call keeps it (`Chained.apply`), and a run from an empty chain
builds it from the certificates it accepts (`Chained.run`).

`heads_agree_iff` compares two nodes. `OrderCertificate::digest` hashes the votes of a certificate
together with its statement, so the head is that of the certificates and not of the statements:
nodes with the same ordered statements hold the same head exactly if they were given the same
votes at every sequence.
-/

namespace Oclob.Node

open Oclob.Core Oclob.Lib Oclob.Edge Oclob.Ordering StoreOp

section

variable [NodeCrypto]

/-! ## Chains -/

/-- The head a chain gives, newest certificate first. -/
def headDigest : List OrderCertificate → Digest32
  | [] => 0
  | certificate :: _ => certificate.digest

/-- The certificates are numbered from 1 and each names the head before it. -/
def Linked : List OrderCertificate → Prop
  | [] => True
  | certificate :: rest => certificate.sequence = rest.length + 1 ∧
    certificate.previousCertificate = headDigest rest ∧ Linked rest

/-- What the ordering fields of a store stand for. -/
structure Chained (state : StoreState) (chain : List OrderCertificate) : Prop where
  sequence : state.orderingSequence = chain.length
  head : state.orderingHead = headDigest chain
  ordered : ∀ commitment, commitment ∈ state.orderedCommitments ↔
    ∃ certificate ∈ chain, certificate.commitment = commitment
  distinct : (chain.map fun certificate => certificate.commitment).Nodup
  linked : Linked chain

theorem certificate_live {certificate : OrderCertificate} {policy : CommitteePolicy}
    {keys : NodeKeys} {now : Nat} (h : certificate.verify policy keys now = .ok ()) :
    now ≤ certificate.expiresAt := by
  simp only [OrderCertificate.verify, ok_rules] at h
  obtain ⟨-, -, -, ⟨-, -, -, -, -, hlive⟩, -⟩ := h
  exact hlive

/-- A certificate verified once verifies until it expires. -/
theorem certificate_verify_at {certificate : OrderCertificate} {policy : CommitteePolicy}
    {keys : NodeKeys} {past now : Nat} (h : certificate.verify policy keys past = .ok ())
    (hnow : now ≤ certificate.expiresAt) : certificate.verify policy keys now = .ok () := by
  simp only [OrderCertificate.verify, ok_rules] at h ⊢
  obtain ⟨⟨⟩, hpolicy, ⟨⟩, ⟨hsequence, hname, hlength, hcommitment, hfirst, -⟩, hrest⟩ := h
  exact ⟨(), hpolicy, (), ⟨hsequence, hname, hlength, hcommitment, hfirst, hnow⟩, hrest⟩

theorem Linked.sequence_le {chain : List OrderCertificate} (h : Linked chain) :
    ∀ certificate ∈ chain, 1 ≤ certificate.sequence ∧ certificate.sequence ≤ chain.length := by
  induction chain with
  | nil => exact fun certificate hmem => absurd hmem List.not_mem_nil
  | cons last rest ih =>
    obtain ⟨hsequence, -, hrest⟩ := h
    intro certificate hmem
    rw [List.length_cons]
    rcases List.mem_cons.mp hmem with rfl | hmem
    · omega
    · have := ih hrest certificate hmem
      omega

/-- A sequence belongs to one certificate of the chain. -/
theorem Linked.eq_of_sequence {chain : List OrderCertificate} (h : Linked chain)
    {a b : OrderCertificate} (ha : a ∈ chain) (hb : b ∈ chain) (heq : a.sequence = b.sequence) :
    a = b := by
  induction chain with
  | nil => exact absurd ha List.not_mem_nil
  | cons last rest ih =>
    obtain ⟨hlast, -, hrest⟩ := h
    have hbelow : ∀ certificate ∈ rest, certificate.sequence ≠ last.sequence := by
      intro certificate hmem
      have := hrest.sequence_le certificate hmem
      omega
    rcases List.mem_cons.mp ha with rfl | ha' <;> rcases List.mem_cons.mp hb with rfl | hb'
    · rfl
    · exact absurd heq.symm (hbelow b hb')
    · exact absurd heq (hbelow a ha')
    · exact ih hrest ha' hb'

/-- A commitment belongs to one certificate of the chain. -/
theorem Chained.eq_of_commitment {state : StoreState} {chain : List OrderCertificate}
    (h : Chained state chain) {a b : OrderCertificate} (ha : a ∈ chain) (hb : b ∈ chain)
    (heq : a.commitment = b.commitment) : a = b :=
  List.inj_on_of_nodup_map h.distinct ha hb heq

/-- The chain of a store that has accepted nothing. -/
theorem chained_emptyState (party : Nat) (policy : Bytes) :
    Chained (emptyState party policy) [] :=
  ⟨rfl, rfl, fun _ => by simp [emptyState], List.nodup_nil, trivial⟩

/-! ## What a call does to the chain -/

variable [Serde]

theorem checkCertificate_previous {state : StoreState} {certificate : OrderCertificate}
    {now : Nat} {u : Unit}
    (h : NodeShareStore.checkCertificate state certificate now = .ok u) :
    certificate.previousCertificate = state.orderingHead := by
  simp only [NodeShareStore.checkCertificate, except_bind_eq_ok] at h
  obtain ⟨turn, -, hrequire⟩ := h
  exact (require_eq_ok.mp hrequire).2.1

namespace StoreOp

/-- The certificate a call adds to the chain. -/
def extension (store : NodeShareStore) (op : StoreOp) : Option OrderCertificate :=
  match op with
  | acceptOrderCertificate _ certificate _ _ _ =>
    if (op.apply store).state.orderingSequence = store.state.orderingSequence then none
    else some certificate
  | _ => none

theorem extension_accept (store : NodeShareStore) (disk : Disk) (certificate : OrderCertificate)
    (policy : CommitteePolicy) (keys : NodeKeys) (now : Nat) :
    (acceptOrderCertificate disk certificate policy keys now).extension store =
      if ((acceptOrderCertificate disk certificate policy keys now).apply
          store).state.orderingSequence = store.state.orderingSequence then none
      else some certificate := rfl

/-- The certificates a run adds to the chain, newest first. -/
def chain : List StoreOp → NodeShareStore → List OrderCertificate
  | [], _ => []
  | op :: rest, store => chain rest (op.apply store) ++ (op.extension store).toList

end StoreOp

/-- Only an accepted certificate moves the ordering fields. -/
theorem Edit.ordering {store : NodeShareStore} {op : StoreOp} {g : Nat} {next : StoreState}
    (h : Edit store op g next) :
    (next.orderingSequence = store.state.orderingSequence ∧
      next.orderingHead = store.state.orderingHead ∧
      next.orderedCommitments = store.state.orderedCommitments) ∨
    ∃ disk certificate policy keys now,
      op = .acceptOrderCertificate disk certificate policy keys now ∧
      certificate.verify policy keys now = .ok () ∧
      certificate.sequence = store.state.orderingSequence + 1 ∧
      certificate.previousCertificate = store.state.orderingHead ∧
      certificate.commitment ∉ store.state.orderedCommitments ∧
      next.orderingSequence = certificate.sequence ∧ next.orderingHead = certificate.digest ∧
      next.orderedCommitments =
        insert certificate.commitment store.state.orderedCommitments := by
  cases h with
  | acceptOrderCertificate g hverify hnew hcheck =>
    obtain ⟨hsequence, -, hfresh, -⟩ := checkCertificate_ok hcheck
    exact Or.inr ⟨_, _, _, _, _, rfl, hverify, hsequence, checkCertificate_previous hcheck, hfresh,
      rfl, rfl, rfl⟩
  | finalizePrivateRound g hcheck hnew hsigned =>
    left
    rw [NodeShareStore.signedFinalization_ok hsigned]
    exact ⟨rfl, rfl, rfl⟩
  | _ => exact Or.inl ⟨rfl, rfl, rfl⟩

/-- An edit keeps the chain or extends it by the certificate it accepts. -/
theorem Chained.edit {store : NodeShareStore} {chain : List OrderCertificate} {op : StoreOp}
    {g : Nat} {next : StoreState} (h : Chained store.state chain) (hedit : Edit store op g next) :
    (next.orderingSequence = store.state.orderingSequence ∧ Chained next chain) ∨
      ∃ disk certificate policy keys now,
        op = .acceptOrderCertificate disk certificate policy keys now ∧
        next.orderingSequence ≠ store.state.orderingSequence ∧
        Chained next (certificate :: chain) := by
  rcases hedit.ordering with ⟨hsequence, hhead, hordered⟩ | ⟨disk, certificate, policy, keys, now,
    hop, -, hnext, hprevious, hfresh, hsequence, hhead, hordered⟩
  · exact Or.inl ⟨hsequence, hsequence ▸ h.1, hhead ▸ h.2, hordered ▸ h.3, h.4, h.5⟩
  · refine Or.inr ⟨disk, certificate, policy, keys, now, hop, by omega, ?_⟩
    refine ⟨?_, hhead, fun commitment => ?_, ?_, ?_, ?_, h.linked⟩
    · rw [hsequence, hnext, h.sequence, List.length_cons]
    · rw [hordered, Finset.mem_insert, h.ordered, List.exists_mem_cons_iff]
      exact or_congr eq_comm Iff.rfl
    · rw [List.map_cons, List.nodup_cons]
      refine ⟨fun hmem => hfresh ((h.ordered _).mpr ?_), h.distinct⟩
      obtain ⟨old, hold, heq⟩ := List.mem_map.mp hmem
      exact ⟨old, hold, heq⟩
    · rw [hnext, h.sequence]
    · rw [hprevious, h.head]

/-- **A call keeps the chain** or extends it by the certificate it accepts. -/
theorem Chained.apply {store : NodeShareStore} {chain : List OrderCertificate}
    (h : Chained store.state chain) (op : StoreOp) :
    Chained (op.apply store).state ((op.extension store).toList ++ chain) := by
  have hcases := (op.effect store).preserves (P := fun state =>
    (state.orderingSequence = store.state.orderingSequence ∧ Chained state chain) ∨
      ∃ disk certificate policy keys now,
        op = .acceptOrderCertificate disk certificate policy keys now ∧
        state.orderingSequence ≠ store.state.orderingSequence ∧
        Chained state (certificate :: chain))
    (fun heads => Or.inl ⟨rfl, h.1, h.2, h.3, h.4, h.5⟩) fun g next hedit => h.edit hedit
  rcases hcases with ⟨hsame, hchained⟩ | ⟨disk, certificate, policy, keys, now, rfl, hne, hchained⟩
  · have hnone : op.extension store = none := by
      unfold extension
      split
      · exact if_pos hsame
      · rfl
    rwa [hnone]
  · rwa [extension_accept, if_neg hne]

/-- **A run extends the chain** by the certificates it accepts. -/
theorem Chained.run {store : NodeShareStore} {chain : List OrderCertificate}
    (h : Chained store.state chain) (ops : List StoreOp) :
    Chained (StoreOp.run ops store).state (StoreOp.chain ops store ++ chain) := by
  induction ops generalizing store chain with
  | nil => exact h
  | cons op rest ih =>
    rw [StoreOp.run_cons, StoreOp.chain, List.append_assoc]
    exact ih (h.apply op)

/-! ## Two nodes -/

omit [Serde]

/-- Two certificates for one order, whatever their votes. -/
def SameOrder (a b : OrderCertificate) : Prop :=
  a.marketId = b.marketId ∧ a.commitment = b.commitment ∧ a.expiresAt = b.expiresAt

/-- The votes in the order in which the digest reads them. -/
def canonicalVotes (certificate : OrderCertificate) : List OrderVote :=
  certificate.votes.insertionSort fun a b => a.nodeId ≤ b.nodeId

/-- Two certificates with the same votes. -/
def SameVotes (a b : OrderCertificate) : Prop := canonicalVotes a = canonicalVotes b

/-- A vote as the digest reads it. -/
def voteBytes (vote : OrderVote) : Bytes :=
  toBeBytes 2 vote.nodeId ++ vote.statementDigest.bytes ++ putBytes vote.signature

/-- What `OrderCertificate::digest` hashes. -/
def digestText (certificate : OrderCertificate) : Bytes :=
  asBytes "OCLOB:ORDER-CERTIFICATE:v2" ++ putBytes (asBytes certificate.marketId) ++
    toBeBytes 8 certificate.sequence ++ certificate.commitment.bytes ++
    certificate.previousCertificate.bytes ++ toBeBytes 8 certificate.expiresAt ++
    (canonicalVotes certificate).flatMap voteBytes

theorem digest_eq (certificate : OrderCertificate) :
    certificate.digest = sha256 (digestText certificate) := rfl

/-- The votes fit their types: a node id is a `u16`, a length a `u64`. -/
def Sized (certificate : OrderCertificate) : Prop :=
  ∀ vote ∈ certificate.votes, vote.nodeId < 256 ^ 2 ∧ vote.signature.length < 256 ^ 8

instance (certificate : OrderCertificate) : Decidable (Sized certificate) :=
  inferInstanceAs (Decidable (∀ vote ∈ certificate.votes, _))

omit [NodeCrypto] in
theorem selfDelimiting_voteBytes : SelfDelimiting voteBytes fun vote =>
    vote.nodeId < 256 ^ 2 ∧ vote.signature.length < 256 ^ 8 := by
  intro a b ha hb x y h
  simp only [voteBytes, List.append_assoc] at h
  obtain ⟨hid, hdigest⟩ := selfDelimiting_toBeBytes 2 _ _ ha.1 hb.1 _ _ h
  obtain ⟨hdigest, hsignature⟩ := selfDelimiting_digest _ _ trivial trivial _ _ hdigest
  obtain ⟨hsignature, hrest⟩ := selfDelimiting_putBytes _ _ ha.2 hb.2 _ _ hsignature
  cases a
  cases b
  simp_all

omit [NodeCrypto] in
/-- Two certificates for one order hash the same text if they name the same head and hold the same
votes. -/
theorem digestText_eq_iff {a b : OrderCertificate} (horder : SameOrder a b)
    (hsequence : a.sequence = b.sequence) (ha : Sized a) (hb : Sized b) :
    digestText a = digestText b ↔
      a.previousCertificate = b.previousCertificate ∧ SameVotes a b := by
  obtain ⟨hmarket, hcommitment, hexpires⟩ := horder
  simp only [digestText, hmarket, hcommitment, hexpires, hsequence, List.append_assoc,
    List.append_cancel_left_eq]
  constructor
  · intro h
    obtain ⟨hprevious, hvotes⟩ := selfDelimiting_digest _ _ trivial trivial _ _ h
    have hne : ∀ vote, voteBytes vote ≠ [] := fun vote hnil =>
      absurd (congrArg List.length hnil) (by simp [voteBytes])
    refine ⟨hprevious, selfDelimiting_voteBytes.flatMap hne ?_ ?_
      (List.append_cancel_left hvotes)⟩
    · exact fun vote hvote => ha vote ((List.mem_insertionSort _).mp hvote)
    · exact fun vote hvote => hb vote ((List.mem_insertionSort _).mp hvote)
  · rintro ⟨hprevious, hvotes⟩
    rw [hprevious, show canonicalVotes a = canonicalVotes b from hvotes]

/-- Chains of the same orders have the same head exactly if their certificates hold the same
votes. -/
theorem headDigest_eq_iff {as bs : List OrderCertificate} (horders : List.Forall₂ SameOrder as bs)
    (ha : Linked as) (hb : Linked bs)
    (hsized : ∀ certificate, certificate ∈ as ∨ certificate ∈ bs → Sized certificate)
    (hinj : ∀ a ∈ as, ∀ b ∈ bs, sha256 (digestText a) = sha256 (digestText b) →
      digestText a = digestText b) :
    headDigest as = headDigest bs ↔ List.Forall₂ SameVotes as bs := by
  induction horders with
  | nil => simp [headDigest]
  | @cons a b as bs horder horders ih =>
    obtain ⟨hseqA, hpreviousA, ha⟩ := ha
    obtain ⟨hseqB, hpreviousB, hb⟩ := hb
    have hsequence : a.sequence = b.sequence := by rw [hseqA, hseqB, horders.length_eq]
    have hrest := ih ha hb
      (fun certificate h => hsized certificate
        (h.imp (List.mem_cons_of_mem _) (List.mem_cons_of_mem _)))
      (fun c hc d hd => hinj c (List.mem_cons_of_mem _ hc) d (List.mem_cons_of_mem _ hd))
    have htext := digestText_eq_iff horder hsequence
      (hsized a (Or.inl List.mem_cons_self)) (hsized b (Or.inr List.mem_cons_self))
    rw [hpreviousA, hpreviousB, hrest] at htext
    rw [List.forall₂_cons, and_comm, ← htext, headDigest, headDigest, digest_eq, digest_eq]
    exact ⟨hinj a List.mem_cons_self b List.mem_cons_self, congrArg sha256⟩

/-- The chain test of `accept_order_certificate`. -/
def ExtendsChain (state : StoreState) (certificate : OrderCertificate) : Prop :=
  certificate.sequence = state.orderingSequence + 1 ∧
    certificate.previousCertificate = state.orderingHead

variable [Serde]

/-- **Two nodes with the same ordered statements** hold the same head exactly if the certificates
they were given hold the same votes at every sequence; then the next certificate extends the chain
of one node if it extends that of the other. -/
theorem heads_agree_iff {first second : NodeShareStore} (hfirst : Chained first.state [])
    (hsecond : Chained second.state []) (firstOps secondOps : List StoreOp)
    (horders : List.Forall₂ SameOrder (chain firstOps first)
      (chain secondOps second))
    (hsized : ∀ certificate, certificate ∈ chain firstOps first ∨
      certificate ∈ chain secondOps second → Sized certificate)
    (hinj : ∀ a ∈ chain firstOps first, ∀ b ∈ chain secondOps second,
      sha256 (digestText a) = sha256 (digestText b) → digestText a = digestText b) :
    ((run firstOps first).state.orderingHead =
        (run secondOps second).state.orderingHead ↔
      List.Forall₂ SameVotes (chain firstOps first) (chain secondOps second)) ∧
    (List.Forall₂ SameVotes (chain firstOps first) (chain secondOps second) →
      ∀ certificate, ExtendsChain (run firstOps first).state certificate ↔
        ExtendsChain (run secondOps second).state certificate) := by
  have ha := hfirst.run firstOps
  have hb := hsecond.run secondOps
  rw [List.append_nil] at ha hb
  have hheads : (run firstOps first).state.orderingHead =
      (run secondOps second).state.orderingHead ↔
      List.Forall₂ SameVotes (chain firstOps first) (chain secondOps second) := by
    rw [ha.head, hb.head]
    exact headDigest_eq_iff horders ha.linked hb.linked hsized hinj
  refine ⟨hheads, fun hvotes certificate => ?_⟩
  have hsequence : (run firstOps first).state.orderingSequence =
      (run secondOps second).state.orderingSequence := by
    rw [ha.sequence, hb.sequence, horders.length_eq]
  rw [ExtendsChain, ExtendsChain, hsequence, hheads.mpr hvotes]

end

section Sample

set_option maxRecDepth 100000

attribute [local instance] transparentNodeCrypto clusterSerde

open Cluster NodeShareStore

/-- The first order is admitted, voted for and accepted with the votes of the nodes `ids`. -/
def orderedBy (ids : List Nat) (party : Fin mpcParties) : List StoreOp :=
  [ingestAt 1 party, voteAt 1 100 50 party, acceptAt 1 100 ids 60 party]

/-- The state of a node that has voted for the first order. -/
def votedState (party : Fin mpcParties) : StoreState :=
  withVote (admitted (emptyState party []) party 1) (sampleStatement 1 100)

theorem apply_voteAt (party : Fin mpcParties) :
    (voteAt 1 100 50 party).apply (sampleNode party (admitted (emptyState party []) party 1)) =
      sampleNode party (votedState party) := by
  have hcheck : ∀ party : Fin mpcParties, checkVote (admitted (emptyState party []) party 1)
      (sampleStatement 1 100) 50 = .ok () := by decide +kernel
  rw [voteAt, apply, recordOrderVote_written (hcheck party) rfl
    (sample_fits (by decide : 1 + 1 < u64Bound))]
  rfl

/-- Both certificates extend the chain of a node that has voted. -/
theorem sample_accepts : ∀ ids ∈ [[1, 2, 3, 4, 5], [2, 3, 4, 5, 6]], ∀ party : Fin mpcParties,
    let accept := acceptAt 1 100 ids 60 party
    let out := accept.apply (sampleNode party (votedState party))
    accept.extension (sampleNode party (votedState party)) = some (sampleCertificate 1 100 ids) ∧
      out.state.orderingSequence = 1 ∧
      out.state.orderingHead = (sampleCertificate 1 100 ids).digest := by
  decide +kernel

theorem run_orderedBy (ids : List Nat) (party : Fin mpcParties) :
    run (orderedBy ids party) (sampleNode party (emptyState party [])) =
      (acceptAt 1 100 ids 60 party).apply (sampleNode party (votedState party)) := by
  rw [orderedBy, run_cons, run_cons, apply_ingestFirst, apply_voteAt,
    run_cons, run_nil]

theorem chain_orderedBy {ids : List Nat} (hids : ids ∈ [[1, 2, 3, 4, 5], [2, 3, 4, 5, 6]])
    (party : Fin mpcParties) :
    chain (orderedBy ids party) (sampleNode party (emptyState party [])) =
      [sampleCertificate 1 100 ids] := by
  rw [orderedBy, chain, chain, chain, chain, apply_ingestFirst,
    apply_voteAt, (sample_accepts ids hids party).1]
  rfl

/-- Two nodes that accept one certificate hold the same head. -/
theorem heads_agree_sample :
    (run (orderedBy [1, 2, 3, 4, 5] 0) (sampleNode 0 (emptyState 0 []))).state.orderingHead =
      (run (orderedBy [1, 2, 3, 4, 5] 1)
        (sampleNode 1 (emptyState 1 []))).state.orderingHead := by
  have hchain := chain_orderedBy (List.mem_cons_self : [1, 2, 3, 4, 5] ∈ _)
  have hsized : Sized (sampleCertificate 1 100 [1, 2, 3, 4, 5]) := by
    decide +kernel
  refine (heads_agree_iff (chained_emptyState 0 []) (chained_emptyState 1 [])
    (orderedBy [1, 2, 3, 4, 5] 0) (orderedBy [1, 2, 3, 4, 5] 1) ?_ ?_ ?_).1.mpr ?_
  all_goals rw [show chain (orderedBy [1, 2, 3, 4, 5] 0) (sampleNode 0 (emptyState 0 [])) =
    _ from hchain 0, show chain (orderedBy [1, 2, 3, 4, 5] 1)
      (sampleNode 1 (emptyState 1 [])) = _ from hchain 1]
  · exact List.Forall₂.cons ⟨rfl, rfl, rfl⟩ .nil
  · intro certificate h
    rw [or_self, List.mem_singleton] at h
    exact h ▸ hsized
  · intro a ha b hb _
    rw [List.mem_singleton.mp ha, List.mem_singleton.mp hb]
  · exact List.Forall₂.cons rfl .nil

/-- **Different quorums split the heads.** Two fresh nodes accept the same order at the first
sequence, with the votes of the nodes 1 to 5 and of the nodes 2 to 6; their heads differ, so no
certificate extends both chains. -/
theorem different_quorums_split_heads :
    List.Forall₂ SameOrder
      (chain (orderedBy [1, 2, 3, 4, 5] 0) (sampleNode 0 (emptyState 0 [])))
      (chain (orderedBy [2, 3, 4, 5, 6] 1) (sampleNode 1 (emptyState 1 []))) ∧
    (run (orderedBy [1, 2, 3, 4, 5] 0) (sampleNode 0 (emptyState 0 []))).state.orderingSequence
      = 1 ∧
    (run (orderedBy [2, 3, 4, 5, 6] 1) (sampleNode 1 (emptyState 1 []))).state.orderingSequence
      = 1 ∧
    (run (orderedBy [1, 2, 3, 4, 5] 0) (sampleNode 0 (emptyState 0 []))).state.orderingHead ≠
      (run (orderedBy [2, 3, 4, 5, 6] 1)
        (sampleNode 1 (emptyState 1 []))).state.orderingHead ∧
    ∀ certificate,
      ¬ (ExtendsChain (run (orderedBy [1, 2, 3, 4, 5] 0)
          (sampleNode 0 (emptyState 0 []))).state certificate ∧
        ExtendsChain (run (orderedBy [2, 3, 4, 5, 6] 1)
          (sampleNode 1 (emptyState 1 []))).state certificate) := by
  obtain ⟨-, hfirst, hfirstHead⟩ := sample_accepts _ List.mem_cons_self 0
  obtain ⟨-, hsecond, hsecondHead⟩ := sample_accepts _ (List.mem_cons_of_mem _ List.mem_cons_self) 1
  have hdigests : (sampleCertificate 1 100 [1, 2, 3, 4, 5]).digest ≠
      (sampleCertificate 1 100 [2, 3, 4, 5, 6]).digest := by decide +kernel
  have hchains : chain (orderedBy [1, 2, 3, 4, 5] 0) (sampleNode 0 (emptyState 0 [])) = _ ∧
      chain (orderedBy [2, 3, 4, 5, 6] 1) (sampleNode 1 (emptyState 1 [])) = _ :=
    ⟨chain_orderedBy List.mem_cons_self 0,
      chain_orderedBy (List.mem_cons_of_mem _ List.mem_cons_self) 1⟩
  have hruns : run (orderedBy [1, 2, 3, 4, 5] 0) (sampleNode 0 (emptyState 0 [])) = _ ∧
      run (orderedBy [2, 3, 4, 5, 6] 1) (sampleNode 1 (emptyState 1 [])) = _ :=
    ⟨run_orderedBy _ 0, run_orderedBy _ 1⟩
  rw [hchains.1, hchains.2, hruns.1, hruns.2]
  refine ⟨List.Forall₂.cons ⟨rfl, rfl, rfl⟩ .nil, hfirst, hsecond, ?_, ?_⟩
  · rw [hfirstHead, hsecondHead]
    exact hdigests
  · rintro certificate ⟨⟨-, hone⟩, -, htwo⟩
    exact hdigests (hfirstHead.symm.trans (hone.symm.trans (htwo.trans hsecondHead)))

end Sample

end Oclob.Node
