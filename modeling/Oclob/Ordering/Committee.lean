import Mathlib.Data.Finset.Image
import Oclob.Lib.Quorum
import Oclob.Ordering.Certificate

/-!
# The ordering committee

Model of the stateful half of `oclob-ordering/src/lib.rs`: `OrderingNode::vote`, `OrderingLog`
and `OrderingCommittee::certify`.

* A `SigningKey` of `application_crypto` is a value here: the fingerprint its signatures are
  verified under and `try_sign`. `SigningKey.Signs` says that a key signs every message.
* `certify` asks one node after the other and stops at the first that refuses; the nodes before
  it keep their vote (`collectVotes`). The log is extended last.

Two kinds of runs are considered. In the first, requests reach the nodes in any order, and two
verified certificates of one sequence agree (`verified_certificates_agree`): whatever the policy
that `validate` admits, two quorums share an honest node, and the votes it holds are one for each
sequence. In the second, `certify` is called again and again on one committee, and no failed call
spoils a later one (`certify_never_poisoned`): no node ever holds a vote beyond the log
(`Sound.ahead`).
-/

namespace Oclob.Ordering

open Oclob.Core Oclob.Lib

/-- `SigningKey`: the fingerprint of its verifying key, and `try_sign`. -/
structure SigningKey where
  verifyingKey : Digest32
  trySign : Bytes → Option Bytes

/-- `OrderingNode`. -/
structure OrderingNode where
  id : Nat
  key : SigningKey
  voted : OrdMap Nat Digest32

/-- `OrderingNode::new`. -/
def OrderingNode.new (id : Nat) (key : SigningKey) : Except OrderingError OrderingNode := do
  require (id ≠ 0) .invalidNode
  return ⟨id, key, .empty⟩

section

variable [Crypto]

/-- The key signs every message, and its fingerprint verifies the signature. -/
def SigningKey.Signs (key : SigningKey) : Prop :=
  ∀ message, ∃ signature, key.trySign message = some signature ∧
    verifyStrict key.verifyingKey message signature = true

namespace OrderingNode

/-- `OrderingNode::vote`. -/
def vote (statement : OrderStatement) (now : Nat) :
    EStateM OrderingError OrderingNode OrderVote := do
  ensure (statement.sequence ≠ 0 ∧ 0 < statement.marketId.utf8ByteSize ∧
    statement.marketId.utf8ByteSize ≤ 64 ∧ statement.commitment ≠ 0 ∧
    (statement.sequence = 1 ↔ statement.previousCertificate = 0) ∧
    now ≤ statement.expiresAt) .invalidVote
  let self ← get
  let digest := voteDigest statement
  ensure ((self.voted.get? statement.sequence).all (· = digest)) .equivocation
  let signature ← attempt (okOr (self.key.trySign digest.bytes) .invalidVote)
  set { self with voted := self.voted.insert statement.sequence digest }
  return ⟨self.id, digest, signature⟩

variable {statement : OrderStatement} {now : Nat} {node node' : OrderingNode} {ballot : OrderVote}

/-- What a vote is and what it leaves behind. -/
theorem vote_ok : (vote statement now).run node = .ok ballot node' ↔
    statement.Votable now ∧
    (∀ existing ∈ node.voted.get? statement.sequence, existing = voteDigest statement) ∧
    ∃ signature, node.key.trySign (voteDigest statement).bytes = some signature ∧
      ballot = ⟨node.id, voteDigest statement, signature⟩ ∧
      node' = { node with
        voted := node.voted.insert statement.sequence (voteDigest statement) } := by
  simp only [vote, run_rules, okOr_eq_ok, Option.all_eq_true, decide_eq_true_eq]
  constructor
  · rintro ⟨_, _, ⟨hvotable, rfl⟩, _, _, ⟨rfl, rfl⟩, _, _, ⟨hfree, rfl⟩, signature, _, ⟨hsign, rfl⟩,
      _, _, rfl, rfl, rfl⟩
    exact ⟨hvotable, hfree, signature, hsign, rfl, rfl⟩
  · rintro ⟨hvotable, hfree, signature, hsign, rfl, rfl⟩
    exact ⟨(), _, ⟨hvotable, rfl⟩, _, _, ⟨rfl, rfl⟩, (), _, ⟨hfree, rfl⟩, signature, _,
      ⟨hsign, rfl⟩, ⟨⟩, _, rfl, rfl, rfl⟩

/-- A refused vote leaves the node as it was. -/
theorem vote_error {e : OrderingError} (h : (vote statement now).run node = .error e node') :
    node' = node := by
  have hkeeps : KeepsOnError (fun self => self) (vote statement now) :=
    keeps_ensure_bind <| keeps_get_bind fun _ => keeps_ensure_bind <| keeps_attempt_bind fun _ =>
      fun _ _ _ hrun => by cases hrun
  exact hkeeps node e node' h

/-- A node with a working key refuses for one of two reasons. -/
theorem vote_of_free (hsigns : node.key.Signs) (hvotable : statement.Votable now)
    (hfree : ∀ existing ∈ node.voted.get? statement.sequence, existing = voteDigest statement) :
    ∃ signature, verifyStrict node.key.verifyingKey (voteDigest statement).bytes signature = true ∧
      (vote statement now).run node = .ok ⟨node.id, voteDigest statement, signature⟩
        { node with voted := node.voted.insert statement.sequence (voteDigest statement) } := by
  obtain ⟨signature, hsign, hverify⟩ := hsigns (voteDigest statement).bytes
  exact ⟨signature, hverify, vote_ok.mpr ⟨hvotable, hfree, signature, hsign, rfl, rfl⟩⟩

end OrderingNode

/-! ## Requests in any order -/

/-- A request of `vote` at the node pinned under an id. -/
structure VoteRequest where
  node : Nat
  statement : OrderStatement
  now : Nat
  words : statement.Words

/-- The nodes by pinned id, and every vote they have returned. -/
structure Signers where
  nodes : Nat → OrderingNode
  issued : List (Nat × OrderVote)

namespace Signers

/-- One request. -/
def step (signers : Signers) (request : VoteRequest) : Signers :=
  match (OrderingNode.vote request.statement request.now).run (signers.nodes request.node) with
  | .ok ballot node =>
    ⟨Function.update signers.nodes request.node node, (request.node, ballot) :: signers.issued⟩
  | .error _ node => { signers with nodes := Function.update signers.nodes request.node node }

/-- Requests, one after the other. -/
def run (signers : Signers) (requests : List VoteRequest) : Signers := requests.foldl step signers

/-- Every vote a node returned is for a requested statement, and its sequence is taken by it. -/
def Recorded (asked : OrderStatement → Prop) (signers : Signers) : Prop :=
  ∀ id ballot, (id, ballot) ∈ signers.issued → ∃ statement, asked statement ∧ statement.Words ∧
    statement.marketId.utf8ByteSize ≤ 64 ∧ ballot.statementDigest = voteDigest statement ∧
    (signers.nodes id).voted.get? statement.sequence = some (voteDigest statement)

variable {asked : OrderStatement → Prop} {signers : Signers} {request : VoteRequest}

/-- **One request keeps the votes of every node consistent.** -/
theorem Recorded.step (h : Recorded asked signers) (hasked : asked request.statement) :
    Recorded asked (signers.step request) := by
  unfold Signers.step
  split
  · rename_i ballot node hrun
    obtain ⟨hvotable, hfree, signature, -, rfl, rfl⟩ := OrderingNode.vote_ok.mp hrun
    intro id other hother
    rcases List.mem_cons.mp hother with heq | hold
    · obtain ⟨rfl, rfl⟩ := Prod.mk.inj heq
      refine ⟨request.statement, hasked, request.words, hvotable.2.2.1, rfl, ?_⟩
      simp
    · obtain ⟨statement, hstatement, hwords, hmarket, hdigest, hvoted⟩ := h id other hold
      refine ⟨statement, hstatement, hwords, hmarket, hdigest, ?_⟩
      dsimp only
      by_cases hid : id = request.node
      · -- the node was free to vote, so a sequence it had taken keeps its digest
        subst hid
        rw [Function.update_self, OrdMap.get?_insert]
        split
        · rename_i hsequence
          rw [hsequence] at hvoted
          rw [hfree _ hvoted]
        · exact hvoted
      · rw [Function.update_of_ne hid]
        exact hvoted
  · rename_i node hrun
    obtain rfl := OrderingNode.vote_error hrun
    rw [Function.update_eq_self]
    exact h

theorem Recorded.run {requests : List VoteRequest} (h : Recorded asked signers)
    (hasked : ∀ request ∈ requests, asked request.statement) :
    Recorded asked (signers.run requests) := by
  induction requests generalizing signers with
  | nil => exact h
  | cons request rest ih =>
    rw [List.forall_mem_cons] at hasked
    exact ih (h.step hasked.1) hasked.2

end Signers

/-- Signatures cannot be forged: a vote of the certificate that an honest node's pinned key
verifies was returned by that node. -/
def Unforgeable (keys : NodeKeys) (corrupt : Finset Nat) (signers : Signers)
    (certificate : OrderCertificate) : Prop :=
  ∀ ballot ∈ certificate.votes, ballot.nodeId ∉ corrupt → ∀ key,
    keys.get? ballot.nodeId = some key →
    verifyStrict key ballot.statementDigest.bytes ballot.signature = true →
    ∃ issued, (ballot.nodeId, issued) ∈ signers.issued ∧
      issued.statementDigest = ballot.statementDigest

/-- The pinned keys, of which a policy's quorums overlap. -/
def pinnedCommittee (policy : CommitteePolicy) (keys : NodeKeys) (corrupt : Finset Nat)
    (hpolicy : policy.validate = .ok ()) (hkeys : keys.entries.length ≤ 7)
    (hcorrupt : corrupt.card ≤ policy.maxCorruptNodes) : Committee Nat where
  members := keys.keys.toFinset
  faulty := corrupt
  quorum := policy.orderingQuorum
  overlap := by
    obtain ⟨-, hmax, -, hquorum, -⟩ := require_eq_ok.mp hpolicy
    have hmembers : keys.keys.toFinset.card ≤ 7 :=
      (List.toFinset_card_le _).trans (by rwa [OrdMap.keys, List.length_map])
    omega

section Agreement

variable {policy : CommitteePolicy} {keys : NodeKeys} {corrupt : Finset Nat}
  {signers : Signers} {asked : OrderStatement → Prop} {certificate : OrderCertificate}

/-- A node's vote for a statement: it holds the statement's digest for the sequence. -/
def Signers.VotedFor (signers : Signers) (id sequence : Nat) (digest : Digest32) : Prop :=
  (signers.nodes id).voted.get? sequence = some digest

/-- A verified certificate is backed by the honest nodes among its signers. -/
theorem backed_of_verified (hrecorded : signers.Recorded asked)
    (hpolicy : policy.validate = .ok ()) (hkeys : keys.entries.length ≤ 7)
    (hcorrupt : corrupt.card ≤ policy.maxCorruptNodes)
    (hunforgeable : Unforgeable keys corrupt signers certificate)
    (hwords : certificate.toOrderStatement.Words)
    (hcollision : ∀ statement, asked statement →
      voteDigest statement = voteDigest certificate.toOrderStatement →
      voteMessage statement = voteMessage certificate.toOrderStatement)
    {now : Nat} (hverify : certificate.verify policy keys now = .ok ()) :
    (pinnedCommittee policy keys corrupt hpolicy hkeys hcorrupt).Backed signers.VotedFor
      certificate.sequence (voteDigest certificate.toOrderStatement) := by
  obtain ⟨-, hformed, ids, hquorum, hvotes⟩ := OrderCertificate.verify_ok hverify
  refine ⟨ids, fun id hid => ?_, hquorum, fun id hid hhonest => ?_⟩
  · obtain ⟨ballot, -, -, -, key, hkey, -⟩ := hvotes id hid
    exact List.mem_toFinset.mpr (OrdMap.mem_keys.mpr ⟨key, hkey⟩)
  · obtain ⟨ballot, hballot, rfl, hdigest, key, hkey, hsignature⟩ := hvotes id hid
    obtain ⟨issued, hissued, hsame⟩ :=
      hunforgeable ballot hballot hhonest key hkey (hdigest.symm ▸ hsignature)
    obtain ⟨statement, hasked, hwords', hmarket, hstatement, hvoted⟩ := hrecorded _ _ hissued
    have heq : voteDigest statement = voteDigest certificate.toOrderStatement :=
      hstatement.symm.trans (hsame.trans hdigest)
    obtain rfl : statement = certificate.toOrderStatement :=
      voteMessage_inj hwords' hwords hmarket hformed.market.2 (hcollision _ hasked heq)
    exact hvoted

/-- **Quorum agreement.** Two certificates of one sequence that verify under at most seven pinned
keys agree, over every interleaving of requests at the honest nodes. -/
theorem verified_certificates_agree (nodes : Nat → OrderingNode) (requests : List VoteRequest)
    (hkeys : keys.entries.length ≤ 7) (hcorrupt : corrupt.card ≤ policy.maxCorruptNodes)
    {c d : OrderCertificate} (hwords : c.toOrderStatement.Words ∧ d.toOrderStatement.Words)
    (hcollision : Set.InjOn sha256 { message | ∃ statement,
      (statement = c.toOrderStatement ∨ statement = d.toOrderStatement ∨
        ∃ request ∈ requests, request.statement = statement) ∧ message = voteMessage statement })
    (hunforgeable : Unforgeable keys corrupt (Signers.run ⟨nodes, []⟩ requests) c ∧
      Unforgeable keys corrupt (Signers.run ⟨nodes, []⟩ requests) d)
    {now now' : Nat} (hc : c.verify policy keys now = .ok ())
    (hd : d.verify policy keys now' = .ok ()) (hsequence : c.sequence = d.sequence) :
    c.marketId = d.marketId ∧ c.commitment = d.commitment ∧
      c.previousCertificate = d.previousCertificate ∧ c.expiresAt = d.expiresAt := by
  have hrecorded : (Signers.run ⟨nodes, []⟩ requests).Recorded
      fun statement => ∃ request ∈ requests, request.statement = statement :=
    Signers.Recorded.run (fun _ _ hnone => absurd hnone List.not_mem_nil)
      fun request hrequest => ⟨request, hrequest, rfl⟩
  obtain ⟨hpolicy, hcformed, -⟩ := OrderCertificate.verify_ok hc
  obtain ⟨-, hdformed, -⟩ := OrderCertificate.verify_ok hd
  have hcbacked := backed_of_verified hrecorded hpolicy hkeys hcorrupt hunforgeable.1 hwords.1
    (fun statement hasked heq => hcollision ⟨statement, Or.inr (Or.inr hasked), rfl⟩
      ⟨_, Or.inl rfl, rfl⟩ heq) hc
  have hdbacked := backed_of_verified hrecorded hpolicy hkeys hcorrupt hunforgeable.2 hwords.2
    (fun statement hasked heq => hcollision ⟨statement, Or.inr (Or.inr hasked), rfl⟩
      ⟨_, Or.inr (Or.inl rfl), rfl⟩ heq) hd
  have hdigest : voteDigest c.toOrderStatement = voteDigest d.toOrderStatement := by
    refine Committee.Backed.unique (fun id _ hcid hdid => ?_) hcbacked (hsequence ▸ hdbacked)
    exact Option.some.inj (hcid.symm.trans hdid)
  have hmessage : voteMessage c.toOrderStatement = voteMessage d.toOrderStatement :=
    hcollision ⟨_, Or.inl rfl, rfl⟩ ⟨_, Or.inr (Or.inl rfl), rfl⟩ hdigest
  have hstatement : c.toOrderStatement = d.toOrderStatement :=
    voteMessage_inj hwords.1 hwords.2 hcformed.market.2 hdformed.market.2 hmessage
  exact ⟨congrArg OrderStatement.marketId hstatement, congrArg OrderStatement.commitment hstatement,
    congrArg OrderStatement.previousCertificate hstatement,
    congrArg OrderStatement.expiresAt hstatement⟩

end Agreement

/-! ## The log and the committee -/

/-- `OrderingLog`. -/
structure OrderingLog where
  certificates : List OrderCertificate
  commitments : Finset Digest32

namespace OrderingLog

/-- `OrderingLog::default`. -/
def empty : OrderingLog := ⟨[], ∅⟩

/-- `OrderingLog::contains`. -/
def contains (log : OrderingLog) (commitment : Digest32) : Bool := commitment ∈ log.commitments

/-- `OrderingLog::next_sequence`. -/
def nextSequence (log : OrderingLog) : Nat := log.certificates.length + 1

/-- `OrderingLog::head`. -/
def head (log : OrderingLog) : Digest32 := (log.certificates.getLast?.map (·.digest)).getD 0

/-- `OrderingLog::append`. -/
def append (certificate : OrderCertificate) (policy : CommitteePolicy) (keys : NodeKeys)
    (now : Nat) : EStateM OrderingError OrderingLog Unit := do
  attempt (certificate.verify policy keys now)
  let self ← get
  ensure (certificate.sequence = self.nextSequence ∧
    certificate.previousCertificate = self.head) .brokenChain
  ensure (certificate.commitment ∉ self.commitments) .replay
  set (⟨self.certificates ++ [certificate], insert certificate.commitment self.commitments⟩ :
    OrderingLog)

variable {certificate : OrderCertificate} {policy : CommitteePolicy} {keys : NodeKeys}
  {now : Nat} {log log' : OrderingLog} {u : Unit}

theorem append_ok : (append certificate policy keys now).run log = .ok u log' ↔
    certificate.verify policy keys now = .ok () ∧ certificate.sequence = log.nextSequence ∧
    certificate.previousCertificate = log.head ∧ certificate.commitment ∉ log.commitments ∧
    log' = ⟨log.certificates ++ [certificate],
      insert certificate.commitment log.commitments⟩ := by
  simp only [append, run_rules]
  constructor
  · rintro ⟨_, _, ⟨hverify, rfl⟩, _, _, ⟨rfl, rfl⟩, _, _, ⟨⟨hsequence, hhead⟩, rfl⟩, _, _,
      ⟨hfresh, rfl⟩, rfl⟩
    exact ⟨hverify, hsequence, hhead, hfresh, rfl⟩
  · rintro ⟨hverify, hsequence, hhead, hfresh, rfl⟩
    exact ⟨(), _, ⟨hverify, rfl⟩, _, _, ⟨rfl, rfl⟩, (), _, ⟨⟨hsequence, hhead⟩, rfl⟩, (), _,
      ⟨hfresh, rfl⟩, rfl⟩

/-- A gap-free chain: the entry at position `i` has sequence `i + 1` and names the digest of the
entry before it, no commitment occurs twice, and the set holds the commitments of the entries. -/
structure Chained (log : OrderingLog) : Prop where
  sequence : ∀ i certificate, log.certificates[i]? = some certificate →
    certificate.sequence = i + 1
  first : ∀ certificate, log.certificates[0]? = some certificate →
    certificate.previousCertificate = 0
  linked : ∀ i certificate next, log.certificates[i]? = some certificate →
    log.certificates[i + 1]? = some next → next.previousCertificate = certificate.digest
  distinct : (log.certificates.map (·.commitment)).Nodup
  commitments : log.commitments = (log.certificates.map (·.commitment)).toFinset

theorem chained_empty : empty.Chained where
  sequence i certificate h := absurd h (by simp [empty])
  first certificate h := absurd h (by simp [empty])
  linked i certificate next h := absurd h (by simp [empty])
  distinct := List.nodup_nil
  commitments := rfl

/-- **One appended certificate extends the chain.** -/
theorem Chained.append (h : log.Chained)
    (happend : (append certificate policy keys now).run log = .ok u log') : log'.Chained := by
  obtain ⟨-, hsequence, hhead, hfresh, rfl⟩ := append_ok.mp happend
  refine ⟨fun i c hi => ?_, fun c hi => ?_, fun i c next hi hnext => ?_, ?_, ?_⟩
  · rw [List.getElem?_append] at hi
    split at hi
    · exact h.sequence i c hi
    · rw [List.getElem?_singleton, Option.ite_none_right_eq_some] at hi
      obtain ⟨hpos, heq⟩ := hi
      obtain rfl := Option.some.inj heq
      rw [hsequence, nextSequence]
      omega
  · cases hlog : log.certificates with
    | nil =>
      rw [hlog] at hi
      obtain rfl : certificate = c := Option.some.inj hi
      rw [hhead, head, hlog]
      rfl
    | cons a rest =>
      rw [hlog] at hi
      exact h.first c (by rw [hlog]; exact hi)
  · rw [List.getElem?_append] at hnext
    split at hnext
    · rename_i hlt
      rw [List.getElem?_append_left (Nat.lt_of_succ_lt hlt)] at hi
      exact h.linked i c next hi hnext
    · rename_i hlt
      rw [List.getElem?_singleton, Option.ite_none_right_eq_some] at hnext
      obtain ⟨hpos, heq⟩ := hnext
      obtain rfl := Option.some.inj heq
      have hlast : log.certificates.length = i + 1 := by omega
      rw [List.getElem?_append_left (by omega)] at hi
      have hget : log.certificates.getLast? = some c := by
        rw [List.getLast?_eq_getElem?, hlast]
        exact hi
      rw [hhead, head, hget]
      rfl
  · rw [List.map_append, List.map_singleton, List.nodup_append]
    refine ⟨h.distinct, List.nodup_singleton _, fun a ha b hb => ?_⟩
    obtain rfl := List.mem_singleton.mp hb
    rintro rfl
    exact hfresh (h.commitments ▸ List.mem_toFinset.mpr ha)
  · rw [List.map_append, List.toFinset_append, h.commitments, Finset.union_comm]
    rfl

end OrderingLog

/-- `OrderingCommittee`. -/
structure OrderingCommittee where
  policy : CommitteePolicy
  nodes : List OrderingNode
  keys : NodeKeys
  log : OrderingLog

/-- The votes of `certify`, asked one node after the other up to the first refusal: the nodes
afterwards, and the votes. -/
def collectVotes (statement : OrderStatement) (now : Nat) :
    List OrderingNode → List OrderingNode × Except OrderingError (List OrderVote)
  | [] => ([], .ok [])
  | node :: rest =>
    match (OrderingNode.vote statement now).run node with
    | .error e node => (node :: rest, .error e)
    | .ok ballot node =>
      let (rest, votes) := collectVotes statement now rest
      (node :: rest, votes.map (ballot :: ·))

/-- The node with its vote for a statement. -/
def OrderingNode.withVote (node : OrderingNode) (statement : OrderStatement) : OrderingNode :=
  { node with voted := node.voted.insert statement.sequence (voteDigest statement) }

section Votes

variable {statement : OrderStatement} {now : Nat} {nodes : List OrderingNode}

/-- A statement that is not votable is refused by the first node, before any node has changed. -/
theorem collectVotes_of_not_votable (hne : nodes ≠ []) (hvotable : ¬ statement.Votable now) :
    collectVotes statement now nodes = (nodes, .error .invalidVote) := by
  cases nodes with
  | nil => exact absurd rfl hne
  | cons node rest =>
    have hrun : (OrderingNode.vote statement now).run node = .error .invalidVote node := by
      rw [OrderingNode.vote, run_ensure_bind, if_neg hvotable]
    rw [collectVotes, hrun]

/-- Nodes that are free for the sequence all vote. -/
theorem collectVotes_of_free (hvotable : statement.Votable now)
    (hsigns : ∀ node ∈ nodes, node.key.Signs)
    (hfree : ∀ node ∈ nodes, node.voted.get? statement.sequence = none) :
    ∃ votes, collectVotes statement now nodes = (nodes.map (·.withVote statement), .ok votes) ∧
      votes.map OrderVote.nodeId = nodes.map OrderingNode.id ∧
      ∀ ballot ∈ votes, ballot.statementDigest = voteDigest statement ∧
        ∃ node ∈ nodes, ballot.nodeId = node.id ∧ verifyStrict node.key.verifyingKey
          (voteDigest statement).bytes ballot.signature = true := by
  induction nodes with
  | nil => exact ⟨[], rfl, rfl, fun _ hnone => absurd hnone List.not_mem_nil⟩
  | cons node rest ih =>
    rw [List.forall_mem_cons] at hsigns hfree
    obtain ⟨votes, hrest, hids, hvotes⟩ := ih hsigns.2 hfree.2
    have hnode : ∀ existing ∈ node.voted.get? statement.sequence,
        existing = voteDigest statement := by
      rw [hfree.1]
      exact fun _ hnone => absurd hnone (Option.not_mem_none _)
    obtain ⟨signature, hverify, hrun⟩ := OrderingNode.vote_of_free hsigns.1 hvotable hnode
    refine ⟨⟨node.id, voteDigest statement, signature⟩ :: votes, ?_, ?_, fun ballot hballot => ?_⟩
    · rw [collectVotes, hrun]
      simp only [hrest]
      rfl
    · rw [List.map_cons, List.map_cons, hids]
    · rcases List.mem_cons.mp hballot with rfl | hlater
      · exact ⟨rfl, node, List.mem_cons_self, rfl, hverify⟩
      · obtain ⟨hdigest, other, hother, hsigned⟩ := hvotes ballot hlater
        exact ⟨hdigest, other, List.mem_cons_of_mem _ hother, hsigned⟩

end Votes

namespace OrderingCommittee

/-- `OrderingCommittee::deterministic_for_demo`; `signer id` is the key of the seed `[id; 64]`. -/
def deterministicForDemo (signer : Nat → SigningKey) : Except OrderingError OrderingCommittee := do
  let policy := CommitteePolicy.sevenNode
  policy.validate
  let nodes ← (List.range' 1 policy.nodes).mapM fun id => OrderingNode.new id (signer id)
  let keys := nodes.foldl (fun keys node => keys.insert node.id node.key.verifyingKey) .empty
  return ⟨policy, nodes, keys, .empty⟩

/-- The statement that `certify` asks the nodes to vote for. -/
def proposal (committee : OrderingCommittee) (marketId : String) (commitment : Digest32)
    (expiresAt : Nat) : OrderStatement :=
  ⟨marketId, committee.log.nextSequence, commitment, committee.log.head, expiresAt⟩

/-- `OrderingCommittee::certify`. `append` changes the log only when it succeeds,
so it may run on a copy. -/
def certify (marketId : String) (commitment : Digest32) (expiresAt now : Nat) :
    EStateM OrderingError OrderingCommittee OrderCertificate := do
  let self ← get
  ensure (self.log.contains commitment = false) .replay
  let statement := self.proposal marketId commitment expiresAt
  let (voters, votes) := collectVotes statement now (self.nodes.take self.policy.orderingQuorum)
  set { self with nodes := voters ++ self.nodes.drop self.policy.orderingQuorum }
  let votes ← attempt votes
  let certificate : OrderCertificate := { statement with votes }
  let ((), log) ← attempt
    (stage (OrderingLog.append certificate self.policy self.keys now) self.log)
  modify fun self => { self with log }
  return certificate

variable {committee committee' : OrderingCommittee} {marketId : String} {commitment : Digest32}
  {expiresAt now : Nat} {certificate : OrderCertificate}

/-- What a successful call returns and leaves behind. -/
theorem certify_ok (h : (certify marketId commitment expiresAt now).run committee =
      .ok certificate committee') :
    certificate.toOrderStatement = committee.proposal marketId commitment expiresAt ∧
      committee'.policy = committee.policy ∧ committee'.keys = committee.keys ∧
      (OrderingLog.append certificate committee.policy committee.keys now).run committee.log =
        .ok () committee'.log := by
  simp only [certify, run_rules] at h
  obtain ⟨_, _, ⟨rfl, rfl⟩, _, _, ⟨-, rfl⟩, _, _, rfl, votes, _, ⟨-, rfl⟩, ⟨_, log⟩, _,
    ⟨happend, rfl⟩, _, _, rfl, rfl, rfl⟩ := h
  exact ⟨rfl, rfl, rfl, stage_eq_ok.mp happend⟩

/-- A committee between calls. -/
structure Sound (committee : OrderingCommittee) : Prop where
  policy : committee.policy.validate = .ok ()
  ids : (committee.nodes.map OrderingNode.id).Nodup
  enough : committee.policy.orderingQuorum ≤ committee.nodes.length
  enrolled : ∀ node ∈ committee.nodes,
    committee.keys.get? node.id = some node.key.verifyingKey
  signs : ∀ node ∈ committee.nodes, node.key.Signs
  chained : committee.log.Chained
  ahead : ∀ node ∈ committee.nodes, ∀ sequence digest,
    node.voted.get? sequence = some digest → sequence ≤ committee.log.certificates.length

/-- The committee with one more certificate and the votes for it. -/
def withCertificate (committee : OrderingCommittee) (certificate : OrderCertificate) :
    OrderingCommittee :=
  { committee with
    nodes := (committee.nodes.take committee.policy.orderingQuorum).map
        (·.withVote certificate.toOrderStatement) ++
      committee.nodes.drop committee.policy.orderingQuorum
    log := ⟨committee.log.certificates ++ [certificate],
      insert certificate.commitment committee.log.commitments⟩ }

theorem mem_nodes_withCertificate {node : OrderingNode}
    (h : node ∈ (committee.withCertificate certificate).nodes) :
    ∃ old ∈ committee.nodes, node = old ∨ node = old.withVote certificate.toOrderStatement := by
  rcases List.mem_append.mp h with hvoted | hlater
  · obtain ⟨old, hold, rfl⟩ := List.mem_map.mp hvoted
    exact ⟨old, List.mem_of_mem_take hold, Or.inr rfl⟩
  · exact ⟨node, List.mem_of_mem_drop hlater, Or.inl rfl⟩

theorem map_id_withCertificate :
    (committee.withCertificate certificate).nodes.map OrderingNode.id =
      committee.nodes.map OrderingNode.id := by
  rw [withCertificate, List.map_append, List.map_map]
  exact (List.map_append ..).symm.trans (congrArg _ (List.take_append_drop _ _))

theorem Sound.withCertificate (h : committee.Sound)
    (happend : (OrderingLog.append certificate committee.policy committee.keys now).run
      committee.log = .ok () (committee.withCertificate certificate).log) :
    (committee.withCertificate certificate).Sound where
  policy := h.policy
  ids := by
    rw [map_id_withCertificate]
    exact h.ids
  enough := by
    rw [← List.length_map (f := OrderingNode.id), map_id_withCertificate, List.length_map]
    exact h.enough
  enrolled node hnode := by
    obtain ⟨old, hold, rfl | rfl⟩ := mem_nodes_withCertificate hnode
    · exact h.enrolled node hold
    · exact h.enrolled old hold
  signs node hnode := by
    obtain ⟨old, hold, rfl | rfl⟩ := mem_nodes_withCertificate hnode
    · exact h.signs node hold
    · exact h.signs old hold
  chained := h.chained.append happend
  ahead node hnode sequence digest hdigest := by
    have hlength : (committee.withCertificate certificate).log.certificates.length =
        committee.log.certificates.length + 1 := List.length_append
    rw [hlength]
    obtain ⟨old, hold, rfl | rfl⟩ := mem_nodes_withCertificate hnode
    · exact (h.ahead node hold sequence digest hdigest).trans (Nat.le_succ _)
    · rw [OrderingNode.withVote, OrdMap.get?_insert] at hdigest
      split at hdigest
      · -- the new vote is for the sequence of the new certificate
        rename_i hsequence
        rw [hsequence, (OrderingLog.append_ok.mp happend).2.1]
        exact le_rfl
      · exact (h.ahead old hold sequence digest hdigest).trans (Nat.le_succ _)

/-- A call that is neither a replay nor out of form succeeds, with one more certificate. -/
theorem Sound.certify_of_votable (h : committee.Sound)
    (hnew : commitment ∉ committee.log.commitments)
    (hvotable : (committee.proposal marketId commitment expiresAt).Votable now) :
    ∃ certificate, (certify marketId commitment expiresAt now).run committee =
        .ok certificate (committee.withCertificate certificate) ∧
      (committee.withCertificate certificate).Sound := by
  set statement := committee.proposal marketId commitment expiresAt with hstatement
  set voters := committee.nodes.take committee.policy.orderingQuorum with hvoters
  have hmem : ∀ node ∈ voters, node ∈ committee.nodes := fun node => List.mem_of_mem_take
  have hfree : ∀ node ∈ voters, node.voted.get? statement.sequence = none := by
    intro node hnode
    by_contra hvoted
    obtain ⟨digest, hdigest⟩ := Option.ne_none_iff_exists'.mp hvoted
    exact absurd (h.ahead node (hmem node hnode) _ digest hdigest) (Nat.not_succ_le_self _)
  obtain ⟨votes, hcollect, hids, hvotes⟩ := collectVotes_of_free hvotable
    (fun node hnode => h.signs node (hmem node hnode)) hfree
  have hcount : committee.policy.orderingQuorum ≤ votes.length := by
    rw [← List.length_map (f := OrderVote.nodeId), hids, List.length_map, List.length_take]
    exact le_min le_rfl h.enough
  have hdistinct : (votes.map OrderVote.nodeId).Nodup := by
    rw [hids, hvoters, List.map_take]
    exact h.ids.sublist (List.take_sublist _ _)
  have hverify : ({ statement with votes } : OrderCertificate).verify committee.policy
      committee.keys now = .ok () := by
    obtain ⟨hsequence, hlow, hhigh, hcommitment, hfirst, hlive⟩ := hvotable
    refine OrderCertificate.verify_of_quorum h.policy
      ⟨hsequence, ⟨hlow, hhigh⟩, hcommitment, hfirst, hlive⟩ hcount hdistinct
        fun ballot hballot => ?_
    obtain ⟨hdigest, node, hnode, hid, hsigned⟩ := hvotes ballot hballot
    exact ⟨hdigest, _, hid ▸ h.enrolled node (hmem node hnode), hsigned⟩
  have happend : (OrderingLog.append { statement with votes } committee.policy committee.keys
      now).run committee.log = .ok () (committee.withCertificate { statement with votes }).log :=
    OrderingLog.append_ok.mpr ⟨hverify, rfl, rfl, hnew, rfl⟩
  refine ⟨{ statement with votes }, ?_, h.withCertificate happend⟩
  simp only [certify, run_rules]
  refine ⟨_, _, ⟨rfl, rfl⟩, (), _, ⟨by simpa [OrderingLog.contains] using hnew, rfl⟩, ⟨⟩, _, rfl,
    votes, _, ⟨by rw [← hstatement, ← hvoters, hcollect], rfl⟩, ((), _), _,
    ⟨stage_eq_ok.mpr happend, rfl⟩, ⟨⟩, _, rfl, rfl, ?_⟩
  rw [← hstatement, ← hvoters, hcollect]
  rfl

/-- **A failed call leaves the whole committee as it was**: the first node refuses what the others
would refuse, and what it accepts they all accept. -/
theorem Sound.certify_error (h : committee.Sound) {e : OrderingError}
    (hrun : (certify marketId commitment expiresAt now).run committee = .error e committee') :
    committee' = committee := by
  by_cases hnew : commitment ∈ committee.log.commitments
  · have hreplay : (certify marketId commitment expiresAt now).run committee =
        .error .replay committee := by
      rw [certify, run_get_bind, run_ensure_bind,
        if_neg (by simpa [OrderingLog.contains] using hnew)]
    rw [hreplay] at hrun
    cases hrun
    rfl
  by_cases hvotable : (committee.proposal marketId commitment expiresAt).Votable now
  · obtain ⟨certificate, hok, -⟩ := h.certify_of_votable hnew hvotable
    rw [hok] at hrun
    cases hrun
  · obtain ⟨-, -, -, hquorum, -⟩ := require_eq_ok.mp h.policy
    have hne : committee.nodes.take committee.policy.orderingQuorum ≠ [] := by
      have henough := h.enough
      refine List.ne_nil_of_length_pos ?_
      rw [List.length_take]
      omega
    have hrefused : (certify marketId commitment expiresAt now).run committee =
        .error .invalidVote committee := by
      rw [certify, run_get_bind, run_ensure_bind,
        if_pos (by simpa [OrderingLog.contains] using hnew)]
      simp only [collectVotes_of_not_votable hne hvotable, List.take_append_drop]
      rfl
    rw [hrefused] at hrun
    cases hrun
    rfl

/-- The arguments of one call of `certify`. -/
structure CertifyCall where
  marketId : String
  commitment : Digest32
  expiresAt : Nat
  now : Nat

/-- One call, whatever its outcome. -/
def step (committee : OrderingCommittee) (call : CertifyCall) : OrderingCommittee :=
  after ((certify call.marketId call.commitment call.expiresAt call.now).run committee)

/-- A history of calls. -/
def run (committee : OrderingCommittee) (calls : List CertifyCall) : OrderingCommittee :=
  calls.foldl step committee

/-- One call keeps the chain, whoever signs: an error comes before the log is written. -/
theorem chained_step (h : committee.log.Chained) (call : CertifyCall) :
    (committee.step call).log.Chained := by
  unfold OrderingCommittee.step
  cases hrun : (certify call.marketId call.commitment call.expiresAt call.now).run committee with
  | ok certificate later => exact h.append (certify_ok hrun).2.2.2
  | error e later =>
    have hlog : later.log = committee.log := by
      rw [certify, run_get_bind, run_ensure_bind] at hrun
      split at hrun
      · dsimp only at hrun
        rw [run_set_bind] at hrun
        cases hvotes : (collectVotes (committee.proposal call.marketId call.commitment
          call.expiresAt) call.now (committee.nodes.take committee.policy.orderingQuorum)).2 with
        | error e =>
          rw [hvotes, run_attempt_error_bind] at hrun
          cases hrun
          rfl
        | ok votes =>
          rw [hvotes, run_attempt_ok_bind] at hrun
          rcases run_bind_eq_error.mp hrun with happend | ⟨_, _, -, hlast⟩
          · exact (run_attempt_eq_error.mp happend).2 ▸ rfl
          · cases hlast
      · cases hrun
        rfl
    change later.log.Chained
    exact hlog ▸ h

theorem chained_run (h : committee.log.Chained) (calls : List CertifyCall) :
    (committee.run calls).log.Chained := by
  induction calls generalizing committee with
  | nil => exact h
  | cons call rest ih => exact ih (chained_step h call)

/-- **One call keeps the committee sound.** -/
theorem Sound.step (h : committee.Sound) (call : CertifyCall) : (committee.step call).Sound := by
  unfold OrderingCommittee.step
  cases hrun : (certify call.marketId call.commitment call.expiresAt call.now).run committee with
  | error e later =>
    obtain rfl := h.certify_error hrun
    exact h
  | ok certificate later =>
    obtain ⟨hstatement, -, -, happend⟩ := certify_ok hrun
    obtain ⟨hverify, -, -, hfresh, -⟩ := OrderingLog.append_ok.mp happend
    obtain ⟨-, hformed, -⟩ := OrderCertificate.verify_ok hverify
    have hvotable : certificate.toOrderStatement.Votable call.now :=
      ⟨hformed.sequence, hformed.market.1, hformed.market.2, hformed.commitment, hformed.first,
        hformed.live⟩
    have hcommitment : certificate.commitment = call.commitment :=
      congrArg OrderStatement.commitment hstatement
    obtain ⟨certified, hok, hsound⟩ :=
      h.certify_of_votable (hcommitment ▸ hfresh) (hstatement ▸ hvotable)
    rw [hok] at hrun
    cases hrun
    exact hsound

theorem Sound.run (h : committee.Sound) (calls : List CertifyCall) :
    (committee.run calls).Sound := by
  induction calls generalizing committee with
  | nil => exact h
  | cons call rest ih => exact ih (h.step call)

/-- The demonstration committee has no certificate at first. -/
theorem chained_deterministicForDemo {signer : Nat → SigningKey}
    (h : deterministicForDemo signer = .ok committee) : committee.log.Chained := by
  obtain rfl := Except.ok.inj h
  exact OrderingLog.chained_empty

/-- The demonstration committee starts sound. -/
theorem sound_deterministicForDemo {signer : Nat → SigningKey} (hsigns : ∀ id, (signer id).Signs)
    (h : deterministicForDemo signer = .ok committee) : committee.Sound := by
  have hnodes : (List.range' 1 CommitteePolicy.sevenNode.nodes).mapM
      (fun id => OrderingNode.new id (signer id)) =
        .ok ((List.range' 1 7).map fun id => ⟨id, signer id, .empty⟩) := rfl
  simp only [deterministicForDemo, hnodes] at h
  obtain rfl := Except.ok.inj h
  refine ⟨rfl, (by decide : (List.range' 1 7).Nodup), (by decide : 5 ≤ 7), fun node hnode => ?_,
    fun node hnode => ?_, OrderingLog.chained_empty, fun node hnode sequence digest hdigest => ?_⟩
  all_goals obtain ⟨id, hid, rfl⟩ := List.mem_map.mp hnode
  · simp only [List.range', List.mem_cons, List.not_mem_nil, or_false] at hid
    rcases hid with rfl | rfl | rfl | rfl | rfl | rfl | rfl <;>
      simp [List.range', OrdMap.get?_insert]
  · exact hsigns id
  · exact absurd hdigest (by simp)

/-- The first certificate, and no other, names no predecessor, unless a digest is zero. -/
theorem first_iff
    (hdigest : ∀ certificate ∈ committee.log.certificates, certificate.digest ≠ 0) :
    committee.log.nextSequence = 1 ↔ committee.log.head = 0 := by
  unfold OrderingLog.nextSequence OrderingLog.head
  cases hlast : committee.log.certificates.getLast? with
  | none =>
    rw [List.getLast?_eq_none_iff] at hlast
    simp [hlast]
  | some last =>
    have hmem : last ∈ committee.log.certificates := List.mem_of_getLast? hlast
    have hpos : 0 < committee.log.certificates.length := List.length_pos_of_mem hmem
    simp only [Option.map_some, Option.getD_some, hdigest last hmem, iff_false]
    omega

/-- **A failed certification never poisons the committee.** After every history of calls the log
is a gap-free chain; and if the keys sign what they are given, the next call in form is certified
and appended. -/
theorem certify_never_poisoned {signer : Nat → SigningKey} {start : OrderingCommittee}
    (hstart : deterministicForDemo signer = .ok start) (calls : List CertifyCall) :
    (start.run calls).log.Chained ∧
    ((∀ id, (signer id).Signs) →
      (∀ certificate ∈ (start.run calls).log.certificates, certificate.digest ≠ 0) →
      ∀ marketId commitment expiresAt now, 0 < marketId.utf8ByteSize →
      marketId.utf8ByteSize ≤ 64 → commitment ≠ 0 →
      commitment ∉ (start.run calls).log.certificates.map (·.commitment) →
      now ≤ expiresAt → ∃ certificate committee',
        (certify marketId commitment expiresAt now).run (start.run calls) =
          .ok certificate committee' ∧
        certificate.marketId = marketId ∧ certificate.commitment = commitment ∧
        certificate.expiresAt = expiresAt ∧ committee'.log.Chained ∧
        committee'.log.certificates = (start.run calls).log.certificates ++ [certificate]) := by
  have hchained := chained_run (chained_deterministicForDemo hstart) calls
  refine ⟨hchained, fun hsigns hdigest marketId commitment expiresAt now hlow hhigh hcommitment hnew
    hlive => ?_⟩
  have hsound := (sound_deterministicForDemo hsigns hstart).run calls
  have hfresh : commitment ∉ (start.run calls).log.commitments := by
    rw [hsound.chained.commitments, List.mem_toFinset]
    exact hnew
  obtain ⟨certificate, hrun, hlater⟩ := hsound.certify_of_votable hfresh
    ⟨Nat.succ_ne_zero _, hlow, hhigh, hcommitment, first_iff hdigest, hlive⟩
  obtain ⟨hstatement, -⟩ := certify_ok hrun
  exact ⟨certificate, _, hrun, congrArg OrderStatement.marketId hstatement,
    congrArg OrderStatement.commitment hstatement, congrArg OrderStatement.expiresAt hstatement,
    hlater.chained, rfl⟩

end OrderingCommittee

end

/-! ## A committee of seven -/

section Sample

set_option maxRecDepth 100000

attribute [local instance] transparentCrypto

/-- A key of the transparent instance. -/
def sampleSigner (id : Nat) : SigningKey where
  verifyingKey := Fin.ofNat _ id
  trySign message := some (Digest32.bytes (Fin.ofNat _ id) ++ message)

theorem sampleSigner_signs (id : Nat) : (sampleSigner id).Signs :=
  fun _ => ⟨_, rfl, beq_self_eq_true _⟩

/-- Seven nodes that have not voted. -/
def sampleNodes (id : Nat) : OrderingNode := ⟨id, sampleSigner id, .empty⟩

/-- Their pinned keys. -/
def pinnedKeys : NodeKeys :=
  (List.range' 1 7).foldl (fun keys id => keys.insert id (sampleSigner id).verifyingKey) .empty

/-- The first order of a market. -/
def firstOrder : OrderStatement := ⟨"JGB10Y-JPY", 1, 9, 0, 2000⟩

/-- A node's vote for it. -/
def sampleBallot (id : Nat) : OrderVote :=
  ⟨id, voteDigest firstOrder, Digest32.bytes (Fin.ofNat _ id) ++ (voteDigest firstOrder).bytes⟩

/-- Its certificate with the votes of some nodes. -/
def certifiedBy (ids : List Nat) : OrderCertificate :=
  { firstOrder with votes := ids.map sampleBallot }

/-- Every node is asked for its vote, the node 3 also for another order of that sequence. -/
def sampleRequests : List VoteRequest :=
  (List.range' 1 7).map (fun id => ⟨id, firstOrder, 1000, by decide⟩) ++
    [⟨3, { firstOrder with commitment := 8 }, 1000, by decide⟩]

theorem sampleBallot_issued : ∀ id ∈ List.range' 1 7,
    (id, sampleBallot id) ∈ (Signers.run ⟨sampleNodes, []⟩ sampleRequests).issued := by
  decide +kernel

theorem unforgeable_certifiedBy {ids : List Nat} (hids : ∀ id ∈ ids, id ∈ List.range' 1 7) :
    Unforgeable pinnedKeys {6, 7} (Signers.run ⟨sampleNodes, []⟩ sampleRequests)
      (certifiedBy ids) := by
  intro ballot hballot _ key _ _
  obtain ⟨id, hid, rfl⟩ := List.mem_map.mp hballot
  exact ⟨sampleBallot id, sampleBallot_issued id (hids id hid), rfl⟩

/-- Two certificates of the first sequence, with the nodes 6 and 7 corrupt. -/
theorem verified_certificates_agree_sample :
    ((certifiedBy [1, 2, 3, 4, 5]).verify .sevenNode pinnedKeys 1000 = .ok () ∧
      (certifiedBy [3, 4, 5, 6, 7]).verify .sevenNode pinnedKeys 1500 = .ok ()) ∧
    (certifiedBy [1, 2, 3, 4, 5]).commitment = (certifiedBy [3, 4, 5, 6, 7]).commitment := by
  have hfirst : (certifiedBy [1, 2, 3, 4, 5]).verify .sevenNode pinnedKeys 1000 = .ok () := by
    decide +kernel
  have hsecond : (certifiedBy [3, 4, 5, 6, 7]).verify .sevenNode pinnedKeys 1500 = .ok () := by
    decide +kernel
  have hapart : sha256 (voteMessage firstOrder) ≠
      sha256 (voteMessage { firstOrder with commitment := 8 }) := by decide +kernel
  have hmessages : ∀ statement, (statement = firstOrder ∨ statement = firstOrder ∨
      ∃ request ∈ sampleRequests, request.statement = statement) →
        statement = firstOrder ∨ statement = { firstOrder with commitment := 8 } := by
    rintro statement (rfl | rfl | ⟨request, hrequest, rfl⟩)
    · exact Or.inl rfl
    · exact Or.inl rfl
    · rcases List.mem_append.mp hrequest with hvoter | hother
      · obtain ⟨id, -, rfl⟩ := List.mem_map.mp hvoter
        exact Or.inl rfl
      · obtain rfl := List.mem_singleton.mp hother
        exact Or.inr rfl
  refine ⟨⟨hfirst, hsecond⟩, (verified_certificates_agree sampleNodes sampleRequests (by decide)
    (by decide : ({6, 7} : Finset Nat).card ≤ 2) ⟨by decide, by decide⟩ ?_
    ⟨unforgeable_certifiedBy (by decide), unforgeable_certifiedBy (by decide)⟩ hfirst hsecond
    rfl).2.1⟩
  rintro _ ⟨a, ha, rfl⟩ _ ⟨b, hb, rfl⟩ heq
  rcases hmessages a ha with rfl | rfl <;> rcases hmessages b hb with rfl | rfl
  · rfl
  · exact absurd heq hapart
  · exact absurd heq.symm hapart
  · rfl

/-- A history with a replay and an empty market between two orders. -/
def sampleCalls : List OrderingCommittee.CertifyCall :=
  [⟨"JGB10Y-JPY", 9, 2000, 1000⟩, ⟨"JGB10Y-JPY", 9, 2000, 1000⟩, ⟨"", 8, 2000, 1000⟩,
    ⟨"JGB10Y-JPY", 8, 2000, 1000⟩]

/-- The committee of the seven sample keys. -/
def sampleCommittee : OrderingCommittee :=
  ⟨.sevenNode, (List.range' 1 7).map sampleNodes, pinnedKeys, .empty⟩

/-- After that history a third order is certified. -/
theorem certify_never_poisoned_sample :
    (sampleCommittee.run sampleCalls).log.certificates.length = 2 ∧
    ∃ certificate committee', (OrderingCommittee.certify "JGB10Y-JPY" 7 2000 1000).run
      (sampleCommittee.run sampleCalls) = .ok certificate committee' ∧
        certificate.commitment = 7 := by
  have hdigest : ∀ certificate ∈ (sampleCommittee.run sampleCalls).log.certificates,
      certificate.digest ≠ 0 := by decide +kernel
  have hnew : 7 ∉ (sampleCommittee.run sampleCalls).log.certificates.map (·.commitment) := by
    decide +kernel
  refine ⟨by decide +kernel, ?_⟩
  obtain ⟨certificate, later, hrun, -, hcommitment, -⟩ :=
    (OrderingCommittee.certify_never_poisoned rfl sampleCalls).2 sampleSigner_signs hdigest
      "JGB10Y-JPY" 7 2000 1000 (by decide) (by decide) (by decide) hnew (by decide)
  exact ⟨certificate, later, hrun, hcommitment⟩

end Sample

end Oclob.Ordering
