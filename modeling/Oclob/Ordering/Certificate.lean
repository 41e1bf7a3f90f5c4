import Mathlib.Data.Finset.Card
import Oclob.Core.Order
import Oclob.Lib.OrdMap

/-!
# Ordering certificates

Model of the certificate half of `oclob-ordering/src/lib.rs`: `CommitteePolicy::validate`,
`vote_digest`, `OrderCertificate::digest` and `OrderCertificate::verify`.

The five values a vote signs are an `OrderStatement`; a certificate carries the same five fields
and the votes for them. `verify_ok` says what a verified certificate is: a quorum of votes of
distinct pinned keys for its own statement.
-/

namespace Oclob.Ordering

open Oclob.Core Oclob.Lib

/-- `OrderingError`. -/
inductive OrderingError where
  | invalidPolicy
  | invalidNode
  | invalidVote
  | insufficientQuorum
  | equivocation
  | brokenChain
  | replay
deriving DecidableEq, Repr

/-- The texts of `OrderingError`. -/
def OrderingError.text : OrderingError → String
  | .invalidPolicy => "the OCLOB committee policy is not the frozen 7-node profile"
  | .invalidNode => "unknown or invalid ordering node"
  | .invalidVote => "invalid or expired order vote"
  | .insufficientQuorum => "the ordering quorum was not reached"
  | .equivocation => "an orderer attempted to vote twice for different statements"
  | .brokenChain => "the certificate does not extend the current chain"
  | .replay => "the same order commitment was already ordered"

/-- `CommitteePolicy`. -/
structure CommitteePolicy where
  nodes : Nat
  maxCorruptNodes : Nat
  reconstructionQuorum : Nat
  orderingQuorum : Nat
  settlementAuthorizationQuorum : Nat
deriving DecidableEq

namespace CommitteePolicy

/-- `CommitteePolicy::seven_node`. -/
def sevenNode : CommitteePolicy := ⟨7, 2, 3, 5, 3⟩

/-- `CommitteePolicy::validate`. -/
def validate (policy : CommitteePolicy) : Except OrderingError Unit :=
  require (policy.nodes = 7 ∧ policy.maxCorruptNodes = 2 ∧
    policy.reconstructionQuorum = policy.maxCorruptNodes + 1 ∧
    2 * policy.maxCorruptNodes < policy.orderingQuorum ∧
    policy.orderingQuorum ≤ policy.nodes ∧
    policy.settlementAuthorizationQuorum = policy.reconstructionQuorum) .invalidPolicy

end CommitteePolicy

/-- What a vote signs. -/
structure OrderStatement where
  marketId : String
  sequence : Nat
  commitment : Digest32
  previousCertificate : Digest32
  expiresAt : Nat
deriving DecidableEq

/-- Its two numbers are `u64`s. -/
abbrev OrderStatement.Words (statement : OrderStatement) : Prop :=
  statement.sequence < u64Bound ∧ statement.expiresAt < u64Bound

/-- What `OrderingNode::vote` and `OrderCertificate::verify` ask of a statement at a time. -/
abbrev OrderStatement.Votable (statement : OrderStatement) (now : Nat) : Prop :=
  statement.sequence ≠ 0 ∧ 0 < statement.marketId.utf8ByteSize ∧
    statement.marketId.utf8ByteSize ≤ 64 ∧ statement.commitment ≠ 0 ∧
    (statement.sequence = 1 ↔ statement.previousCertificate = 0) ∧ now ≤ statement.expiresAt

/-- `OrderVote`. -/
structure OrderVote where
  nodeId : Nat
  statementDigest : Digest32
  signature : Bytes
deriving DecidableEq

/-- `OrderCertificate`. -/
structure OrderCertificate extends OrderStatement where
  votes : List OrderVote
deriving DecidableEq

/-- The verifying keys by node id. -/
abbrev NodeKeys := OrdMap Nat Digest32

section

variable [Crypto]

/-- The text that `vote_digest` hashes. -/
def voteMessage (statement : OrderStatement) : Bytes :=
  asBytes "OCLOB:ORDER-VOTE:v2" ++ putBytes (asBytes statement.marketId) ++
    toBeBytes 8 statement.sequence ++ statement.commitment.bytes ++
    statement.previousCertificate.bytes ++ toBeBytes 8 statement.expiresAt

/-- `vote_digest`. -/
def voteDigest (statement : OrderStatement) : Digest32 := sha256 (voteMessage statement)

omit [Crypto] in
/-- **The text determines the statement.** -/
theorem voteMessage_inj {a b : OrderStatement} (ha : a.Words) (hb : b.Words)
    (hma : a.marketId.utf8ByteSize ≤ 64) (hmb : b.marketId.utf8ByteSize ≤ 64)
    (h : voteMessage a = voteMessage b) : a = b := by
  have hsize : ∀ market : String, market.utf8ByteSize ≤ 64 →
      (asBytes market).length < 256 ^ 8 := by
    intro market hmarket
    rw [length_asBytes]
    exact lt_of_le_of_lt hmarket (by decide)
  simp only [voteMessage, List.append_assoc] at h
  obtain ⟨hmarket, h⟩ := selfDelimiting_putBytes _ _ (hsize _ hma) (hsize _ hmb) _ _
    (List.append_cancel_left h)
  obtain ⟨hsequence, h⟩ := selfDelimiting_toBeBytes 8 _ _ ha.1 hb.1 _ _ h
  obtain ⟨hcommitment, h⟩ := selfDelimiting_digest _ _ trivial trivial _ _ h
  obtain ⟨hprevious, h⟩ := selfDelimiting_digest _ _ trivial trivial _ _ h
  have hexpires := (selfDelimiting_toBeBytes 8 _ _ ha.2 hb.2 [] [] (by simpa using h)).1
  cases a
  cases b
  simp only [OrderStatement.mk.injEq]
  exact ⟨asBytes_injective hmarket, hsequence, hcommitment, hprevious, hexpires⟩

namespace OrderCertificate

/-- `OrderCertificate::digest`. -/
def digest (certificate : OrderCertificate) : Digest32 :=
  sha256 (asBytes "OCLOB:ORDER-CERTIFICATE:v2" ++ putBytes (asBytes certificate.marketId) ++
    toBeBytes 8 certificate.sequence ++ certificate.commitment.bytes ++
    certificate.previousCertificate.bytes ++ toBeBytes 8 certificate.expiresAt ++
    (certificate.votes.insertionSort fun a b => a.nodeId ≤ b.nodeId).flatMap fun vote =>
      toBeBytes 2 vote.nodeId ++ vote.statementDigest.bytes ++ putBytes vote.signature)

/-- The loop of `verify` over the votes: the ids seen, all distinct, of votes for `wanted`. -/
def checkVotes (keys : NodeKeys) (wanted : Digest32) :
    List OrderVote → Finset Nat → Except OrderingError (Finset Nat)
  | [], distinct => .ok distinct
  | vote :: votes, distinct => do
    require (vote.nodeId ∉ distinct ∧ vote.statementDigest = wanted) .invalidVote
    let key ← okOr (keys.get? vote.nodeId) .invalidNode
    require (verifyStrict key wanted.bytes vote.signature = true) .invalidVote
    checkVotes keys wanted votes (insert vote.nodeId distinct)

/-- `OrderCertificate::verify`. -/
def verify (certificate : OrderCertificate) (policy : CommitteePolicy) (keys : NodeKeys)
    (now : Nat) : Except OrderingError Unit := do
  policy.validate
  require (certificate.sequence ≠ 0 ∧ 0 < certificate.marketId.utf8ByteSize ∧
    certificate.marketId.utf8ByteSize ≤ 64 ∧ certificate.commitment ≠ 0 ∧
    (certificate.sequence = 1 ↔ certificate.previousCertificate = 0) ∧
    now ≤ certificate.expiresAt) .invalidVote
  require (policy.orderingQuorum ≤ certificate.votes.length) .insufficientQuorum
  let distinct ← checkVotes keys (voteDigest certificate.toOrderStatement) certificate.votes ∅
  require (policy.orderingQuorum ≤ distinct.card) .insufficientQuorum

variable {certificate : OrderCertificate} {policy : CommitteePolicy} {keys : NodeKeys}
  {now : Nat} {u : Unit}

theorem checkVotes_ok {wanted : Digest32} {votes : List OrderVote} {seen distinct : Finset Nat}
    (h : checkVotes keys wanted votes seen = .ok distinct) :
    ∀ id ∈ distinct, id ∈ seen ∨ ∃ vote ∈ votes, vote.nodeId = id ∧
      vote.statementDigest = wanted ∧ ∃ key, keys.get? id = some key ∧
        verifyStrict key wanted.bytes vote.signature = true := by
  induction votes generalizing seen with
  | nil =>
    obtain rfl := Except.ok.inj h
    exact fun id hid => Or.inl hid
  | cons vote votes ih =>
    simp only [checkVotes, ok_rules] at h
    obtain ⟨-, ⟨-, hwanted⟩, key, hkey, -, hverify, hrest⟩ := h
    intro id hid
    rcases ih hrest id hid with hseen | ⟨other, hother, hvote⟩
    · rcases Finset.mem_insert.mp hseen with rfl | hseen
      · exact Or.inr ⟨vote, List.mem_cons_self, rfl, hwanted, key, hkey, hverify⟩
      · exact Or.inl hseen
    · exact Or.inr ⟨other, List.mem_cons_of_mem _ hother, hvote⟩

/-- A verified certificate, apart from its votes. -/
structure WellFormed (certificate : OrderCertificate) (now : Nat) : Prop where
  sequence : certificate.sequence ≠ 0
  market : 0 < certificate.marketId.utf8ByteSize ∧ certificate.marketId.utf8ByteSize ≤ 64
  commitment : certificate.commitment ≠ 0
  first : certificate.sequence = 1 ↔ certificate.previousCertificate = 0
  live : now ≤ certificate.expiresAt

/-- **A verified certificate** holds votes of a quorum of distinct pinned keys for its statement. -/
theorem verify_ok (h : certificate.verify policy keys now = .ok u) :
    policy.validate = .ok () ∧ certificate.WellFormed now ∧ ∃ ids : Finset Nat,
      policy.orderingQuorum ≤ ids.card ∧ ∀ id ∈ ids, ∃ vote ∈ certificate.votes,
        vote.nodeId = id ∧ vote.statementDigest = voteDigest certificate.toOrderStatement ∧
        ∃ key, keys.get? id = some key ∧ verifyStrict key
          (voteDigest certificate.toOrderStatement).bytes vote.signature = true := by
  simp only [verify, ok_rules] at h
  obtain ⟨⟨⟩, hpolicy, -, ⟨hseq, hpos, hlen, hcommit, hfirst, hlive⟩, -, -, distinct, hvotes,
    hquorum⟩ := h
  refine ⟨hpolicy, ⟨hseq, ⟨hpos, hlen⟩, hcommit, hfirst, hlive⟩, distinct, hquorum,
    fun id hid => ?_⟩
  rcases checkVotes_ok hvotes id hid with hempty | hvote
  · exact absurd hempty (Finset.notMem_empty id)
  · exact hvote

theorem checkVotes_of_valid {wanted : Digest32} {votes : List OrderVote} {seen : Finset Nat}
    (hnodup : (votes.map OrderVote.nodeId).Nodup) (hfresh : ∀ vote ∈ votes, vote.nodeId ∉ seen)
    (hvotes : ∀ vote ∈ votes, vote.statementDigest = wanted ∧ ∃ key,
      keys.get? vote.nodeId = some key ∧ verifyStrict key wanted.bytes vote.signature = true) :
    checkVotes keys wanted votes seen = .ok (seen ∪ (votes.map OrderVote.nodeId).toFinset) := by
  induction votes generalizing seen with
  | nil => simp [checkVotes]
  | cons vote votes ih =>
    rw [List.map_cons, List.nodup_cons] at hnodup
    rw [List.forall_mem_cons] at hfresh hvotes
    obtain ⟨⟨hwanted, key, hkey, hverify⟩, hrest⟩ := hvotes
    have hfresh' : ∀ other ∈ votes, other.nodeId ∉ insert vote.nodeId seen := by
      intro other hother hmem
      rcases Finset.mem_insert.mp hmem with heq | hseen
      · exact hnodup.1 (heq ▸ List.mem_map_of_mem hother)
      · exact hfresh.2 other hother hseen
    simp only [checkVotes, require, if_pos (And.intro hfresh.1 hwanted), hkey, okOr, if_pos hverify,
      bind, Except.bind, ih hnodup.2 hfresh' hrest]
    rw [List.map_cons, List.toFinset_cons, Finset.insert_union, Finset.union_insert]

/-- Valid votes of a quorum make a certificate. -/
theorem verify_of_quorum (hpolicy : policy.validate = .ok ()) (hformed : certificate.WellFormed now)
    (hquorum : policy.orderingQuorum ≤ certificate.votes.length)
    (hnodup : (certificate.votes.map OrderVote.nodeId).Nodup)
    (hvotes : ∀ vote ∈ certificate.votes,
      vote.statementDigest = voteDigest certificate.toOrderStatement ∧ ∃ key,
        keys.get? vote.nodeId = some key ∧ verifyStrict key
          (voteDigest certificate.toOrderStatement).bytes vote.signature = true) :
    certificate.verify policy keys now = .ok () := by
  have hcard : policy.orderingQuorum ≤
      ((certificate.votes.map OrderVote.nodeId).toFinset).card := by
    rwa [List.toFinset_card_of_nodup hnodup, List.length_map]
  simp only [verify, ok_rules]
  refine ⟨(), hpolicy, (), ⟨hformed.sequence, hformed.market.1, hformed.market.2,
    hformed.commitment, hformed.first, hformed.live⟩, (), hquorum, _,
    checkVotes_of_valid hnodup (fun _ _ => Finset.notMem_empty _) hvotes, ?_⟩
  rwa [Finset.empty_union]

end OrderCertificate

end

end Oclob.Ordering
