import Oclob.Node.Calls
import Oclob.Node.Format

/-!
# Reopening a store

When the file of a store can be read back. The argument:

1. `Sound`: the rules of `read_state` entry by entry, with what keeps them inductive: the
   commitments of orders and the digests of lifecycle commands stay apart, and every ordered
   commitment is one of them. A sound state passes every check of `read_state` (`Sound.validate`).
2. `Extends`: no call forgets a completed round, a finalization or the observations of a finalized
   round, so entries that only read those stay valid.
3. One lemma for each edit of `Oclob.Node.Calls`, `Sound.edit`, under the condition
   `StoreOp.Reopenable` on the call and the state before it.
4. `sound_run`: every state of a run is sound, and the file holds it.

Two removals break the rules: `remove_terminal` and `prune_expired` drop records and leave their
private heads behind, which `read_state` refuses.
-/

namespace Oclob.Node

open Oclob.Core Oclob.Lib Oclob.Edge Oclob.Ordering NodeShareStore OrdMap

section

variable [NodeCrypto] [Serde]

/-! ## Sound states -/

/-- The state passes `read_state`. `orders` are the commitments admitted so far or later. -/
structure Sound (orders : Set Digest32) (party : Nat) (policy : Bytes) (state : StoreState) :
    Prop where
  version : state.version = storeVersion
  policy : state.deploymentCryptoPolicy = policy
  chain : state.ChainValid party
  record : ∀ {commitment record}, state.records.get? commitment = some record →
    StoreState.RecordValid party (commitment, record) ∧ commitment ∈ orders
  lifecycle : ∀ {id entry}, state.lifecycle.get? id = some entry →
    entry.command.verify entry.manifest entry.command.issuedAt = .ok () ∧
      state.LifecycleValid (id, entry) ∧ id ∉ orders
  ordered : ∀ id ∈ state.orderedCommitments,
    id ∈ orders ∨ ∃ entry, state.lifecycle.get? id = some entry
  claim : ∀ {nullifier order}, state.reservationClaims.get? nullifier = some order →
    nullifier ≠ 0 ∧ order ≠ 0
  round : ∀ {id receipt}, state.completedRounds.get? id = some receipt →
    id = receipt.roundId ∧ receipt.Complete party
  head : ∀ {commitment head}, state.privateHeads.get? commitment = some head →
    state.HeadValid (commitment, head)
  native : ∀ {id records}, state.nativeFinalities.get? id = some records →
    state.checkNativeFinality (id, records) = .ok ()
  finalized : ∀ {id finalization}, state.finalizedPrivateRounds.get? id = some finalization →
    state.checkFinalization party (id, finalization) = .ok ()

variable {orders : Set Digest32} {party : Nat} {policy : Bytes} {state next : StoreState}

/-- **A sound state passes the checks of `read_state`.** -/
theorem Sound.validate (hs : Sound orders party policy state) :
    state.validate party policy = .ok () := by
  simp only [StoreState.validate, ok_rules, forEach_eq_ok]
  refine ⟨(), hs.policy, (), hs.chain, (), fun entry h => ?_, (), fun entry h => ?_, (),
    fun entry h => hs.claim (mem_entries_iff.mp h), (),
    fun entry h => hs.round (mem_entries_iff.mp h), (),
    fun entry h => hs.head (mem_entries_iff.mp h), (),
    fun entry h => hs.native (mem_entries_iff.mp h),
    fun entry h => hs.finalized (mem_entries_iff.mp h)⟩
  · exact (hs.record (mem_entries_iff.mp h)).1
  · obtain ⟨hverify, hvalid, -⟩ := hs.lifecycle (mem_entries_iff.mp h)
    simp only [StoreState.checkLifecycleEntry, ok_rules]
    exact ⟨(), hverify, hvalid⟩

theorem sound_emptyState : Sound orders party policy (emptyState party policy) where
  version := rfl
  policy := rfl
  chain := ⟨rfl, by simp [emptyState], rfl, by simp [emptyState], by simp [emptyState]⟩
  record h := absurd h (by simp [emptyState])
  lifecycle h := absurd h (by simp [emptyState])
  ordered id h := absurd h (Finset.notMem_empty id)
  claim h := absurd h (by simp [emptyState])
  round h := absurd h (by simp [emptyState])
  head h := absurd h (by simp [emptyState])
  native h := absurd h (by simp [emptyState])
  finalized h := absurd h (by simp [emptyState])

/-! ## What no call forgets -/

/-- `next` keeps what the entries of the round maps read. -/
structure Extends (state next : StoreState) : Prop where
  generation : state.generation ≤ next.generation
  round : ∀ {id receipt}, state.completedRounds.get? id = some receipt →
    next.completedRounds.get? id = some receipt
  finalized : ∀ {id finalization}, state.finalizedPrivateRounds.get? id = some finalization →
    next.finalizedPrivateRounds.get? id = some finalization
  native : ∀ {id finalization records},
    state.finalizedPrivateRounds.get? id = some finalization →
    state.nativeFinalities.get? id = some records → next.nativeFinalities.get? id = some records

omit [NodeCrypto] [Serde] in
theorem Extends.headValid (hext : Extends state next) {entry : Digest32 × PrivateBookStateRef}
    (h : state.HeadValid entry)
    (hrecord : ∃ record, next.records.get? entry.1 = some record) : next.HeadValid entry := by
  obtain ⟨-, hround, hstate, hoffset, hmod, htransition, hreceipt, hheight, hcompleted,
    hfinalized⟩ := h
  refine ⟨contains_eq_true.mpr hrecord, hround, hstate, hoffset, hmod, htransition,
    hreceipt, hheight, ?_, ?_⟩
  · obtain ⟨receipt, hget, heq⟩ := (Option.any_eq_true _ _).mp hcompleted
    rw [hext.round hget]
    exact heq
  · obtain ⟨finalization, hget, heq⟩ := (Option.any_eq_true _ _).mp hfinalized
    rw [hext.finalized hget]
    exact heq

omit [NodeCrypto] [Serde] in
theorem Extends.checkNativeFinality (hext : Extends state next)
    {entry : Digest32 × SlotRecords} (h : state.checkNativeFinality entry = .ok ()) :
    next.checkNativeFinality entry = .ok () := by
  simp only [StoreState.checkNativeFinality, ok_rules] at h ⊢
  obtain ⟨receipt, hround, hrest⟩ := h
  exact ⟨receipt, hext.round hround, hrest⟩

theorem Extends.checkFinalization (hext : Extends state next)
    {entry : Digest32 × PrivateRoundFinalization}
    (hold : state.finalizedPrivateRounds.get? entry.1 = some entry.2)
    (h : state.checkFinalization party entry = .ok ()) :
    next.checkFinalization party entry = .ok () := by
  simp only [StoreState.checkFinalization, ok_rules] at h ⊢
  obtain ⟨receipt, hround, ⟨⟩, hbound, signed, hsigned, ⟨⟩, hsigner, ⟨⟩, hverify, ⟨⟩, hgen,
    hnative⟩ := h
  refine ⟨receipt, hext.round hround, (), hbound, signed, hsigned, (), hsigner, (), hverify, (),
    hgen.trans hext.generation, ?_⟩
  split at hnative
  · rename_i hrequired
    simp only [ok_rules] at hnative
    obtain ⟨records, hrecords, hcomplete⟩ := hnative
    rw [if_pos hrequired]
    simp only [ok_rules]
    exact ⟨records, hext.native hold hrecords, hcomplete⟩
  · rename_i hrequired
    rw [if_neg hrequired]

/-- An edit that leaves the round maps alone keeps the finalizations. -/
theorem Sound.finalized_mono {g : Nat} (hs : Sound orders party policy state)
    (hg : state.generation ≤ g) {id : Digest32} {finalization : PrivateRoundFinalization}
    (h : state.finalizedPrivateRounds.get? id = some finalization) :
    StoreState.checkFinalization { state with generation := g } party (id, finalization) = .ok () :=
  have hext : Extends state { state with generation := g } :=
    ⟨hg, fun h => h, fun h => h, fun _ h => h⟩
  hext.checkFinalization h (hs.finalized h)

/-- A lifecycle entry stays sound while its own order stays as it is, the chain only grows, and
the target of a released one stays away. -/
theorem Sound.lifecycle_mono (hs : Sound orders party policy state) {id : Digest32}
    {entry : StoredLifecycle} (h : state.lifecycle.get? id = some entry)
    (hordered : id ∈ next.orderedCommitments ↔ id ∈ state.orderedCommitments)
    (hsequence : state.orderingSequence ≤ next.orderingSequence)
    (haway : entry.certificate.isSome = true → state.records.get? entry.command.target = none →
      state.privateHeads.get? entry.command.target = none →
      next.records.get? entry.command.target = none ∧
        next.privateHeads.get? entry.command.target = none) :
    entry.command.verify entry.manifest entry.command.issuedAt = .ok () ∧
      next.LifecycleValid (id, entry) ∧ id ∉ orders := by
  obtain ⟨hverify, ⟨hid, hcertified, hcertificate, hfinality⟩, happart⟩ := hs.lifecycle h
  refine ⟨hverify, ⟨hid, hcertified.trans hordered.symm, ?_, ?_⟩, happart⟩
  · simp only [Option.all_eq_true, decide_eq_true_eq] at hcertificate ⊢
    intro certificate hsome
    obtain ⟨hcommit, hmarket, hpos, hle, hexpires⟩ := hcertificate certificate hsome
    exact ⟨hcommit, hmarket, hpos, hle.trans hsequence, hexpires⟩
  · simp only [Option.all_eq_true, decide_eq_true_eq] at hfinality ⊢
    intro finality hsome
    obtain ⟨hsigned, hcommand, htarget, hheight, hreleased, hstatement, hbefore, hafter, hne, htx,
      hblock, hrecord, hhead⟩ := hfinality finality hsome
    exact ⟨hsigned, hcommand, htarget, hheight, hreleased, hstatement, hbefore, hafter, hne, htx,
      hblock, haway hsigned hrecord hhead⟩

/-! ## What the checks give -/

omit [NodeCrypto] [Serde] in
theorem lifecycleBlocks_eq_false {commitment : Digest32}
    (h : state.lifecycleBlocks commitment = false) {id : Digest32} {entry : StoredLifecycle}
    (hentry : state.lifecycle.get? id = some entry) (hcertified : entry.certificate.isSome = true) :
    entry.command.target ≠ commitment := by
  intro htarget
  have hmem : entry ∈ state.lifecycle.values := mem_values.mpr ⟨id, hentry⟩
  have hblocked := List.any_eq_false.mp h entry hmem
  exact hblocked (by simp [htarget, hcertified])

variable {store : NodeShareStore}

omit [Serde] in
theorem checkIngest_ok {manifest : EdgeOrderManifest}
    {sealedShare : SealedPartyShare} {sealedCapability : SealedCapabilityKeyShare} {now : Nat}
    {tag : Option Digest32}
    (h : store.checkIngest manifest sealedShare sealedCapability now = .ok tag) :
    store.state.lifecycleBlocks manifest.commitment = false ∧
    StoreState.RecordValid store.state.party
      (manifest.commitment, ⟨manifest, sealedShare, some sealedCapability, now, none⟩) ∧
    ∀ nullifier, tag = some nullifier → ∃ share admission,
      store.key.unsealShare sealedShare = .ok share ∧
      NodeCrypto.decodeAdmission share.reservationAdmission = some admission ∧
      admission.reservationNullifier = nullifier := by
  simp only [checkIngest, ok_rules] at h
  obtain ⟨⟨⟩, hblocks, share, hopen, tag', htag, key, hcapability, rfl⟩ := h
  obtain ⟨hparty, hcommitment, -⟩ := SealedPartyShare.open_ok hopen
  obtain ⟨hparty', hcommitment', hbound⟩ := SealedCapabilityKeyShare.open_ok hcapability
  refine ⟨hblocks, ⟨rfl, hcommitment.symm, hparty, ?_⟩, ?_⟩
  · simp [hparty', hcommitment', hbound]
  · rintro nullifier rfl
    simp only [reservationTag] at htag
    split at htag
    · simp only [PartyOrderShare.verifiedReservationAdmission, ok_rules, Option.some.injEq] at htag
      obtain ⟨-, -, admission, ⟨-, -, decoded, hdecoded, -, -, -, -, -, -, rfl⟩, -, -, rfl⟩ := htag
      simp only [SealedPartyShare.open, ok_rules] at hopen
      obtain ⟨-, -, opened, hunseal, -, -, rfl⟩ := hopen
      exact ⟨opened, decoded, hunseal, hdecoded, rfl⟩
    · exact absurd htag (by simp)

/-- Signing and checking agree, and a public key is not zero. -/
structure SigningWorks : Prop where
  verifies : ∀ {key body signature : Bytes}, trySign key body = some signature →
    verifyStrict (verifyingKey key) body signature = true
  nonzero : ∀ key : Bytes, verifyingKey key ≠ 0

omit [Serde] in
/-- A private-state receipt the node signs verifies under its own signer. -/
theorem NodePrivateStateReceipt.sign_verify (hsign : SigningWorks)
    {execution : NodeExecutionReceipt} {finality : PrivateStateFinality} {generation : Nat}
    {digest : Digest32} {key : Bytes} {signed : NodePrivateStateReceipt}
    (h : NodePrivateStateReceipt.sign party execution finality generation digest key =
      some signed) :
    signed.signer ≠ 0 ∧ signed.generation = generation ∧
      signed.verify execution finality party signed.signer = true := by
  simp only [NodePrivateStateReceipt.sign, Option.ite_none_right_eq_some,
    Option.map_eq_some_iff] at h
  obtain ⟨⟨-, hround, houtput, -, -, -, -, hgeneration, hdigest⟩, signature, hsignature, rfl⟩ := h
  refine ⟨hsign.nonzero key, rfl, ?_⟩
  simp only [NodePrivateStateReceipt.verify, Bool.and_eq_true, decide_eq_true_eq]
  exact ⟨⟨rfl, rfl, rfl, hround.symm, rfl, rfl, rfl, rfl, houtput, hgeneration, hdigest,
      trivial⟩, hsign.verifies hsignature⟩

/-! ## The edits keep a state sound -/

section Edits

variable {g : Nat} (hs : Sound orders party policy state) (hg : state.generation ≤ g)
include hs hg

/-- Admission: the record is bound, its claim is not zero, and no released order comes back. -/
theorem Sound.ingest {record : StoredRecord} {tag : Option Digest32} {commitment : Digest32}
    (hrecord : StoreState.RecordValid party (commitment, record))
    (hblocks : state.lifecycleBlocks commitment = false) (horder : commitment ∈ orders)
    (hcommitment : commitment ≠ 0) (htag : ∀ nullifier, tag = some nullifier → nullifier ≠ 0) :
    Sound orders party policy { state with
      generation := g
      reservationClaims := claimed state.reservationClaims commitment tag
      records := state.records.insert commitment record } := by
  refine { hs with
    record := fun {c r} h => ?_
    lifecycle := fun {id entry} h => ?_
    claim := fun {nullifier order} h => ?_
    head := fun h => ⟨contains_insert (hs.head h).1, (hs.head h).2⟩
    finalized := hs.finalized_mono hg }
  · obtain ⟨rfl, rfl⟩ | ⟨-, h⟩ := get?_insert_eq_some h
    · exact ⟨hrecord, horder⟩
    · exact hs.record h
  · refine hs.lifecycle_mono h Iff.rfl le_rfl fun hcertified hgone hhead => ⟨?_, hhead⟩
    exact (get?_insert_of_ne (lifecycleBlocks_eq_false hblocks h hcertified)).trans hgone
  · cases tag with
    | none => exact hs.claim h
    | some t =>
      obtain ⟨rfl, rfl⟩ | ⟨-, h⟩ := get?_insert_eq_some h
      · exact ⟨htag _ rfl, hcommitment⟩
      · exact hs.claim h

omit hg in
theorem Sound.admissionReceipt {commitment : Digest32} {record : StoredRecord}
    (hrecord : state.records.get? commitment = some record) (receipt : NodeAdmissionReceipt) :
    Sound orders party policy { state with
      records := state.records.insert commitment
        { record with admissionReceipt := some receipt } } := by
  refine { hs with
    record := fun {c r} h => ?_
    lifecycle := fun {id entry} h => ?_
    head := fun h => ⟨contains_insert (hs.head h).1, (hs.head h).2⟩ }
  · obtain ⟨rfl, rfl⟩ | ⟨-, h⟩ := get?_insert_eq_some h
    · obtain ⟨hvalid, horder⟩ := hs.record hrecord
      exact ⟨hvalid, horder⟩
    · exact hs.record h
  · refine hs.lifecycle_mono h Iff.rfl le_rfl fun _ hgone hhead => ⟨?_, hhead⟩
    exact (get?_insert_of_ne (ne_of_get? hrecord hgone).symm).trans hgone

/-- A vote: the only one, for the next sequence. -/
theorem Sound.recordOrderVote {sequence : Nat} {vote : StoredOrderVote}
    (hsequence : sequence = state.orderingSequence + 1)
    (hbound : state.orderingSequence + 1 < u64Bound) (hdigest : vote.statementDigest ≠ 0)
    (hexpires : vote.expiresAt ≠ 0) :
    Sound orders party policy { state with
      generation := g
      orderingVotes := state.orderingVotes.insert sequence vote } := by
  obtain ⟨hparty, hzero, hcard, -, hvotes⟩ := hs.chain
  have hsaturating : saturatingAdd state.orderingSequence 1 = sequence := by
    rw [saturatingAdd, hsequence]
    omega
  have hall : ∀ entry ∈ (state.orderingVotes.insert sequence vote).entries,
      entry.1 = saturatingAdd state.orderingSequence 1 ∧ entry.2.statementDigest ≠ 0 ∧
        entry.2.expiresAt ≠ 0 := by
    rintro ⟨key, stored⟩ hmem
    obtain ⟨rfl, rfl⟩ | ⟨-, hget⟩ := get?_insert_eq_some (mem_entries_iff.mp hmem)
    · exact ⟨hsaturating.symm, hdigest, hexpires⟩
    · exact hvotes _ (mem_entries_iff.mpr hget)
  have hone := length_entries_le_one fun entry h => (hall entry h).1
  exact { hs with
    chain := ⟨hparty, hzero, hcard, hone, hall⟩
    finalized := hs.finalized_mono hg }

/-- A new certificate: the chain grows by its commitment, and a command under that commitment is
certified. -/
theorem Sound.acceptOrderCertificate {certificate : OrderCertificate}
    (hsequence : certificate.sequence = state.orderingSequence + 1)
    (hbound : state.orderingSequence + 1 < u64Bound)
    (hnew : certificate.commitment ∉ state.orderedCommitments)
    (hadmitted : (∃ record, state.records.get? certificate.commitment = some record) ∨
      ∃ entry, state.lifecycle.get? certificate.commitment = some entry ∧
        certificate.marketId = entry.command.marketId ∧
        certificate.expiresAt ≤ entry.command.expiresAt)
    (hdigest : certificate.digest ≠ 0) :
    Sound orders party policy
      { afterCertificate state certificate with generation := g } := by
  obtain ⟨hparty, -, hcard, -, hvotes⟩ := hs.chain
  have hsaturating : saturatingAdd state.orderingSequence 1 = certificate.sequence := by
    rw [saturatingAdd, hsequence]
    omega
  have hvotes' : ∀ entry, entry ∉ (state.orderingVotes.erase certificate.sequence).entries := by
    rintro ⟨key, vote⟩ hmem
    obtain ⟨hne, hget⟩ := get?_erase_eq_some (mem_entries_iff.mp hmem)
    have hkey := (hvotes _ (mem_entries_iff.mpr hget)).1
    exact hne (hkey.trans hsaturating)
  refine { hs with
    chain := ⟨hparty, ?_, ?_, ?_, fun entry h => absurd h (hvotes' entry)⟩
    lifecycle := fun {id entry} h => ?_
    ordered := fun id hid => ?_
    finalized := hs.finalized_mono hg }
  · exact iff_of_false (by simp [afterCertificate, hsequence]) hdigest
  · exact (Finset.card_insert_of_notMem hnew).trans ((congrArg (· + 1) hcard).trans hsequence.symm)
  · exact length_entries_le_one (k := 0) fun entry h => absurd h (hvotes' entry)
  · simp only [afterCertificate, get?_alter] at h
    split at h
    · -- the command this certificate orders
      rename_i heq
      subst heq
      obtain ⟨old, hold, rfl⟩ := Option.map_eq_some_iff.mp h
      obtain ⟨hverify, ⟨hid, -, -, hfinality⟩, happart⟩ := hs.lifecycle hold
      rcases hadmitted with ⟨record, hrecord⟩ | ⟨entry, hentry, hmarket, hexpires⟩
      · exact absurd (hs.record hrecord).2 happart
      · obtain rfl := Option.some.inj (hentry.symm.trans hold)
        refine ⟨hverify, ⟨hid, iff_of_true rfl (Finset.mem_insert_self _ _), ?_, ?_⟩, happart⟩
        · simp only [Option.all_some, decide_eq_true_eq]
          exact ⟨rfl, hmarket, by omega, le_rfl, hexpires⟩
        · simp only [Option.all_eq_true, decide_eq_true_eq] at hfinality ⊢
          intro finality hsome
          exact ⟨rfl, (hfinality finality hsome).2⟩
    · rename_i hne
      refine hs.lifecycle_mono h ?_ ?_ fun _ hr hh => ⟨hr, hh⟩
      · exact Finset.mem_insert.trans (or_iff_right hne)
      · exact (Nat.le_succ _).trans hsequence.ge
  · simp only [afterCertificate, get?_alter]
    rcases Finset.mem_insert.mp hid with rfl | hid
    · rw [if_pos rfl]
      rcases hadmitted with ⟨record, hrecord⟩ | ⟨entry, hentry, -⟩
      · exact Or.inl (hs.record hrecord).2
      · exact Or.inr ⟨_, by rw [hentry]; rfl⟩
    · refine (hs.ordered id hid).imp_right fun ⟨entry, hentry⟩ => ?_
      split
      · rename_i heq
        exact ⟨_, by rw [← heq, hentry]; rfl⟩
      · exact ⟨entry, hentry⟩

variable {receipt : NodeExecutionReceipt}

theorem Sound.recordCompletedRound
    (hcomplete : receipt.Complete party)
    (hnew : state.completedRounds.get? receipt.roundId = none) :
    Sound orders party policy { state with
      generation := g
      completedRounds := state.completedRounds.insert receipt.roundId receipt } := by
  have hext : Extends state { state with
      generation := g
      completedRounds := state.completedRounds.insert receipt.roundId receipt } := by
    refine ⟨hg, fun h => ?_, id, fun _ => id⟩
    exact (get?_insert_of_ne (ne_of_get? h hnew)).trans h
  refine { hs with
    round := fun {id old} h => ?_
    head := fun h => hext.headValid (hs.head h) (contains_eq_true.mp (hs.head h).1)
    native := fun h => hext.checkNativeFinality (hs.native h)
    finalized := fun h => hext.checkFinalization h (hs.finalized h) }
  obtain ⟨rfl, rfl⟩ | ⟨-, h⟩ := get?_insert_eq_some h
  · exact ⟨rfl, hcomplete⟩
  · exact hs.round h

/-- An observation of a round that is not finalized yet. -/
theorem Sound.recordNativeFinality {record : NativeFinalityRecord}
    (hround : state.completedRounds.get? record.roundId = some receipt)
    (hvalid : record.Observes receipt)
    (hopen : state.finalizedPrivateRounds.get? record.roundId = none) :
    Sound orders party policy { state with
      generation := g
      nativeFinalities := state.nativeFinalities.insert record.roundId
        (((state.nativeFinalities.get? record.roundId).getD .empty).insert record.slot
          record) } := by
  have hext : Extends state { state with
      generation := g
      nativeFinalities := state.nativeFinalities.insert record.roundId
        (((state.nativeFinalities.get? record.roundId).getD .empty).insert record.slot
          record) } := by
    refine ⟨hg, id, id, fun hfinalized h => ?_⟩
    exact (get?_insert_of_ne (ne_of_get? hfinalized hopen)).trans h
  refine { hs with
    native := fun {id records} h => ?_
    finalized := fun h => hext.checkFinalization h (hs.finalized h) }
  obtain ⟨rfl, rfl⟩ | ⟨-, h⟩ := get?_insert_eq_some h
  · simp only [StoreState.checkNativeFinality, ok_rules, forEach_eq_ok,
      NativeFinalityRecord.validate]
    refine ⟨receipt, hround, (), fun hempty => ?_, fun entry hmem => ?_⟩
    · have hmem := mem_entries_iff.mpr (get?_insert_self (k := record.slot)
        (v := record) (m := (state.nativeFinalities.get? record.roundId).getD .empty))
      rw [hempty] at hmem
      exact absurd hmem List.not_mem_nil
    · obtain ⟨slot, observed⟩ := entry
      obtain ⟨rfl, rfl⟩ | ⟨-, hget⟩ :=
        get?_insert_eq_some (mem_entries_iff.mp hmem)
      · exact ⟨(), rfl, hvalid⟩
      · cases hold : state.nativeFinalities.get? record.roundId with
        | none => exact absurd hget (by simp [hold])
        | some old =>
          rw [hold, Option.getD_some] at hget
          have hvalid := hs.native hold
          simp only [StoreState.checkNativeFinality, ok_rules, forEach_eq_ok,
            NativeFinalityRecord.validate] at hvalid
          obtain ⟨receipt', hround', -, -, hall⟩ := hvalid
          obtain rfl := Option.some.inj (hround.symm.trans hround')
          exact hall _ (mem_entries_iff.mpr hget)
  · exact hs.native h

/-- A new command: its digest was never ordered, since ordered commitments are orders or earlier
commands. -/
theorem Sound.registerLifecycle {command : LifecycleCommand} {manifest : EdgeOrderManifest}
    (hverify : command.verify manifest command.issuedAt = .ok ())
    (hnew : state.lifecycle.get? command.digest = none) (happart : command.digest ∉ orders) :
    Sound orders party policy { state with
      generation := g
      lifecycle := state.lifecycle.insert command.digest ⟨command, manifest, none, none⟩ } := by
  refine { hs with
    lifecycle := fun {id entry} h => ?_
    ordered := fun id hid => (hs.ordered id hid).imp_right fun hentry =>
      contains_eq_true.mp (contains_insert (contains_eq_true.mpr hentry))
    finalized := hs.finalized_mono hg }
  obtain ⟨rfl, rfl⟩ | ⟨-, h⟩ := get?_insert_eq_some h
  · refine ⟨hverify, ⟨rfl, iff_of_false (by simp) fun hmem => ?_, rfl, rfl⟩, happart⟩
    rcases hs.ordered _ hmem with hmem | ⟨entry, hentry⟩
    · exact happart hmem
    · exact absurd (hnew.symm.trans hentry) (by simp)
  · exact hs.lifecycle h

/-- A confirmed release: the target leaves the records and the heads together. -/
theorem Sound.confirmRelease {entry : StoredLifecycle} {finality : LifecycleFinality}
    (hentry : state.lifecycle.get? finality.command = some entry)
    (htarget : finality.target = entry.command.target)
    (hfinality : entry.certificate.isSome = true ∧ finality.height ≠ 0 ∧
      finality.releasedSequence ≠ 0 ∧ finality.statement ≠ 0 ∧ finality.beforeRoot ≠ 0 ∧
      finality.afterRoot ≠ 0 ∧ finality.beforeRoot ≠ finality.afterRoot ∧
      0 < finality.transactionId.utf8ByteSize ∧ 0 < finality.blockId.utf8ByteSize) :
    Sound orders party policy
      { afterRelease state finality with generation := g } := by
  -- the erased maps are still empty wherever they were
  have haway : ∀ id, state.records.get? id = none → state.privateHeads.get? id = none →
      (state.records.erase finality.target).get? id = none ∧
        (state.privateHeads.erase finality.target).get? id = none := by
    intro id hr hh
    simp [hr, hh]
  refine { hs with
    record := fun h => hs.record (get?_erase_eq_some h).2
    lifecycle := fun {id old} h => ?_
    ordered := fun id hid => (hs.ordered id hid).imp_right fun ⟨old, hold⟩ => ?_
    head := fun {c head} h => ?_
    finalized := hs.finalized_mono hg }
  · simp only [afterRelease, get?_alter] at h
    split at h
    · rename_i heq
      subst heq
      rw [hentry, Option.map_some] at h
      obtain rfl := Option.some.inj h
      obtain ⟨hverify, hvalid, happart⟩ := hs.lifecycle hentry
      obtain ⟨hid, hcertified, hcertificate, -⟩ := hvalid
      refine ⟨hverify, ⟨hid, hcertified, hcertificate, ?_⟩, happart⟩
      simp only [Option.all_some, decide_eq_true_eq]
      obtain ⟨hsigned, hheight, hreleased, hstatement, hbefore, hafter, hne, htx, hblock⟩ :=
        hfinality
      refine ⟨hsigned, rfl, htarget, hheight, hreleased, hstatement, hbefore, hafter, hne, htx,
        hblock, ?_, ?_⟩
      · simp [afterRelease, htarget]
      · simp [afterRelease, htarget]
    · exact hs.lifecycle_mono h Iff.rfl le_rfl fun _ hr hh => haway _ hr hh
  · obtain ⟨hne, h⟩ := get?_erase_eq_some h
    obtain ⟨record, hrecord⟩ := contains_eq_true.mp (hs.head h).1
    have hkept := (get?_erase _ finality.target c).trans ((if_neg hne).trans hrecord)
    exact ⟨contains_eq_true.mpr ⟨record, hkept⟩, (hs.head h).2⟩
  · simp only [afterRelease, get?_alter]
    split
    · rename_i heq
      exact ⟨_, by rw [← heq, hold]; rfl⟩
    · exact ⟨old, hold⟩

/-- Removing records that have no private head. -/
theorem Sound.dropRecords {records : OrdMap Digest32 StoredRecord}
    (hsub : ∀ {c record}, records.get? c = some record → state.records.get? c = some record)
    (hkept : ∀ {c record}, state.records.get? c = some record →
      (∃ head, state.privateHeads.get? c = some head) → records.get? c = some record) :
    Sound orders party policy { state with generation := g, records } := by
  refine { hs with
    record := fun h => hs.record (hsub h)
    lifecycle := fun {id entry} h => ?_
    head := fun {c head} h => ?_
    finalized := hs.finalized_mono hg }
  · refine hs.lifecycle_mono h Iff.rfl le_rfl fun _ hgone hhead => ⟨?_, hhead⟩
    cases hrecord : records.get? entry.command.target with
    | none => rfl
    | some record => exact absurd (hgone.symm.trans (hsub hrecord)) (by simp)
  · obtain ⟨record, hrecord⟩ := contains_eq_true.mp (hs.head h).1
    exact ⟨contains_eq_true.mpr ⟨record, hkept hrecord ⟨head, h⟩⟩, (hs.head h).2⟩

/-- A finalized round: its heads belong to stored orders and point at it. -/
theorem Sound.finalizeRound {plan : RoundPlan} {finality : PrivateStateFinality}
    {heads : OrdMap Digest32 PrivateBookStateRef} {finalization : PrivateRoundFinalization}
    (hfilled : finality.Filled) (hround : finality.roundId = plan.roundId)
    (hfound : state.completedRounds.get? plan.roundId = some receipt)
    (hnew : state.finalizedPrivateRounds.get? plan.roundId = none)
    (hheads : ∀ {c head}, heads.get? c = some head → state.privateHeads.get? c = some head ∨
      (∃ record, state.records.get? c = some record) ∧ ∃ k ≤ maxMatchSlots,
        head = headAt plan receipt finality (k * privateOrderWires))
    (hbound : finalization.transitionDigest = finality.transitionDigest ∧
      finalization.canonicalReceiptDigest = finality.canonicalReceiptDigest ∧
      finalization.canonicalHeight = finality.canonicalHeight)
    (hfinalization : StoreState.checkFinalization { state with generation := g } party
      (plan.roundId, finalization) = .ok ()) :
    Sound orders party policy { state with
      generation := g
      privateHeads := heads
      finalizedPrivateRounds := state.finalizedPrivateRounds.insert plan.roundId
        finalization } := by
  have hext : Extends state { state with
      generation := g
      privateHeads := heads
      finalizedPrivateRounds := state.finalizedPrivateRounds.insert plan.roundId
        finalization } := by
    refine ⟨hg, id, fun h => ?_, fun _ => id⟩
    exact (get?_insert_of_ne (ne_of_get? h hnew)).trans h
  refine { hs with
    lifecycle := fun {id entry} h => ?_
    head := fun {c head} h => ?_
    finalized := fun {id old} h => ?_ }
  · refine hs.lifecycle_mono h Iff.rfl le_rfl fun _ hgone hhead => ⟨hgone, ?_⟩
    -- a released order has no record, so the round gives it no head
    cases hget : heads.get? entry.command.target with
    | none => rfl
    | some head =>
      rcases hheads hget with hold | ⟨⟨record, hrecord⟩, -⟩
      · exact absurd (hhead.symm.trans hold) (by simp)
      · exact absurd (hgone.symm.trans hrecord) (by simp)
  · rcases hheads h with hold | ⟨hrecord, k, hk, rfl⟩
    · exact hext.headValid (hs.head hold) (contains_eq_true.mp (hs.head hold).1)
    · obtain ⟨hzero, -, htransition, hreceipt, hheight⟩ := hfilled
      obtain ⟨-, hcomplete⟩ := hs.round hfound
      refine ⟨contains_eq_true.mpr hrecord, fun heq => hzero (hround.trans heq),
        hcomplete.2.2.2.2.2.2.1, Nat.mul_le_mul_right _ hk, Nat.mul_mod_left _ _, htransition,
        hreceipt, hheight, ?_, ?_⟩
      · simp [headAt, hfound]
      · simp [headAt, hbound]
  · obtain ⟨rfl, rfl⟩ | ⟨-, h⟩ := get?_insert_eq_some h
    · exact hfinalization
    · exact hext.checkFinalization h (hs.finalized h)

omit hg in
/-- The end of a finalization: the finalization it stores passes the check of `read_state`. -/
theorem Sound.finalizePrivateRound {plan : RoundPlan} {finality : PrivateStateFinality}
    {signingKey : Bytes} {candidate : PrivateRoundFinalization}
    {signed : NodePrivateStateReceipt} (hsign : SigningWorks)
    (hcheck : checkFinality state plan finality = .ok (receipt, candidate))
    (hnew : state.finalizedPrivateRounds.get? plan.roundId = none)
    (hshort : plan.resting.length ≤ maxMatchSlots)
    (hsigned : signedFinalization (arrivingHead plan receipt finality
      { state with
        privateHeads := restingHeads plan receipt finality 0 plan.resting state.privateHeads })
      plan receipt finality candidate signingKey = .ok (next, signed)) :
    Sound orders party policy next := by
  obtain ⟨hfilled, hround, hfound, houtput, hrecords, required, rfl, hnative⟩ :=
    checkFinality_ok hcheck hnew
  simp only [signedFinalization, ok_rules, Prod.mk.injEq] at hsigned
  obtain ⟨generation, hgeneration, receipt', hreceipt, rfl, rfl⟩ := hsigned
  obtain ⟨-, rfl⟩ := checkedAdd_eq_some.mp hgeneration
  obtain ⟨hid, -⟩ := hs.round hfound
  have hparty : state.party = party := hs.chain.1
  refine hs.finalizeRound (Nat.le_succ _) hfilled hround hfound hnew (fun {c head} h => ?_)
    ⟨rfl, rfl, rfl⟩ ?_
  · have hresting : (restingHeads plan receipt finality 0 plan.resting
        state.privateHeads).get? c = some head → state.privateHeads.get? c = some head ∨
        (∃ record, state.records.get? c = some record) ∧ ∃ k ≤ maxMatchSlots,
          head = headAt plan receipt finality (k * privateOrderWires) := by
      intro h
      refine (get?_restingHeads plan.resting 0 state.privateHeads h).imp_right ?_
      rintro ⟨hmem, k, hk, heq⟩
      exact ⟨hrecords c (List.mem_append_left _ hmem), k, by omega, heq⟩
    unfold arrivingHead at h
    dsimp only at h
    split at h
    · obtain ⟨rfl, rfl⟩ | ⟨-, h⟩ := get?_insert_eq_some h
      · exact Or.inr ⟨hrecords _ (List.mem_append_right _ List.mem_cons_self), maxMatchSlots,
          le_rfl, rfl⟩
      · exact hresting h
    · exact hresting (get?_erase_eq_some h).2
  · obtain ⟨hsigner, hgen, hverify⟩ := NodePrivateStateReceipt.sign_verify hsign hreceipt
    obtain ⟨-, hpublic, htransition, hcanonical, hheight⟩ := hfilled
    have hfinality : finalityOf receipt ⟨required, finality.publicOutputSha256,
        finality.transitionDigest, finality.canonicalReceiptDigest, finality.canonicalHeight,
        some receipt'⟩ = finality := by
      simp [finalityOf, ← hid, ← hround]
    simp only [StoreState.checkFinalization, ok_rules]
    refine ⟨receipt, hfound, (), ⟨hpublic, htransition, hcanonical, hheight, houtput⟩, receipt',
      rfl, (), hsigner, (), ?_, (), hgen.le, ?_⟩
    · rw [hfinality, ← hparty]
      exact hverify
    · rw [hfinality]
      split
      · rename_i hrequired
        simp only [ok_rules]
        exact hnative hrequired
      · rfl

end Edits

/-! ## Runs -/

/-- What keeps a call from leaving a state that `read_state` refuses: a removed order has no
private head, a vote does not expire at time zero, the generation is not exhausted where it is not
checked first, an admission carries a reservation, and a finalized plan has at most eight resting
orders. -/
def StoreOp.Reopenable (store : NodeShareStore) : StoreOp → Prop
  | .ingest _ _ sealedShare _ _ => store.state.generation + 1 < u64Bound ∧
    ∀ share admission, store.key.unsealShare sealedShare = .ok share →
      NodeCrypto.decodeAdmission share.reservationAdmission = some admission →
      admission.reservationNullifier ≠ 0
  | .recordOrderVote _ statement _ => statement.expiresAt ≠ 0
  | .recordCompletedRound _ _ => store.state.generation + 1 < u64Bound
  | .finalizePrivateRound _ _ plan _ _ => plan.resting.length ≤ maxMatchSlots
  | .removeTerminal _ commitment => store.state.generation + 1 < u64Bound ∧
    store.state.privateHeads.get? commitment = none
  | .pruneExpired _ now => store.state.generation + 1 < u64Bound ∧
    ∀ commitment record, store.state.records.get? commitment = some record →
      expiredRecord now record = true →
      store.state.privateHeads.get? commitment = none
  | _ => True

/-- The hashes a call stores are not zero. -/
def StoreOp.HashesNonzero : StoreOp → Prop
  | .ingest _ manifest _ _ _ => manifest.commitment ≠ 0
  | .recordOrderVote _ statement _ => voteDigest statement ≠ 0
  | .acceptOrderCertificate _ certificate _ _ _ => certificate.digest ≠ 0
  | _ => True

/-- The commitment of the order a call admits. -/
def StoreOp.admitted : StoreOp → Option Digest32
  | .ingest _ manifest _ _ _ => some manifest.commitment
  | _ => none

/-- The digest of the command a call registers. -/
def StoreOp.registered : StoreOp → Option Digest32
  | .registerLifecycle _ command _ => some command.digest
  | _ => none

/-- No call of the run is hit by a collision of `sha256`: stored hashes are not zero, and no
lifecycle command has the commitment of an order as its digest. -/
structure NoCollision (ops : List StoreOp) : Prop where
  nonzero : ∀ op ∈ ops, op.HashesNonzero
  apart : ∀ op ∈ ops, ∀ other ∈ ops, ∀ id, op.admitted = some id → other.registered ≠ some id

/-- **An edit keeps a state sound.** -/
theorem Sound.edit {op : StoreOp} {g : Nat} (hsign : SigningWorks)
    (hs : Sound orders party policy store.state) (hedit : Edit store op g next)
    (hg : store.state.generation ≤ g) (hcondition : op.Reopenable store)
    (hnonzero : op.HashesNonzero) (hadmitted : ∀ id, op.admitted = some id → id ∈ orders)
    (hregistered : ∀ id, op.registered = some id → id ∉ orders) :
    Sound orders party policy next := by
  have hparty : store.state.party = party := hs.chain.1
  cases hedit with
  | ingest g hcheck hnew =>
    obtain ⟨hblocks, hrecord, htag⟩ := checkIngest_ok hcheck
    refine hs.ingest hg (hparty ▸ hrecord) hblocks (hadmitted _ rfl) hnonzero fun nullifier h => ?_
    obtain ⟨share, admission, hunseal, hdecoded, rfl⟩ := htag nullifier h
    exact hcondition.2 share admission hunseal hdecoded
  | admissionReceipt receipt hrecord => exact hs.admissionReceipt hrecord receipt
  | recordOrderVote g hcheck hfree =>
    obtain ⟨hsequence, hbound⟩ := checkVote_ok hcheck
    exact hs.recordOrderVote hg hsequence hbound hnonzero hcondition
  | acceptOrderCertificate g hverify hnew hcheck =>
    obtain ⟨hsequence, hbound, hordered, hsource⟩ := checkCertificate_ok hcheck
    exact hs.acceptOrderCertificate hg hsequence hbound hordered hsource hnonzero
  | recordCompletedRound g hcomplete hnew =>
    exact hs.recordCompletedRound hg (hparty ▸ hcomplete) hnew
  | recordNativeFinality g hround hvalid hopen =>
    exact hs.recordNativeFinality hg hround hvalid hopen
  | finalizePrivateRound g hcheck hnew hsigned =>
    exact hs.finalizePrivateRound hsign hcheck hnew hcondition hsigned
  | registerLifecycle g hcheck hnew =>
    simp only [checkLifecycle, ok_rules] at hcheck
    obtain ⟨-, -, -, -, record, -, ⟨⟩, hverify, -, -, rfl⟩ := hcheck
    exact hs.registerLifecycle hg (LifecycleCommand.verify_issuedAt hverify) hnew
      (hregistered _ rfl)
  | confirmRelease g hcheck hnew =>
    obtain ⟨hentry, htarget, hfinality⟩ := checkRelease_ok hcheck
    exact hs.confirmRelease hg hentry htarget hfinality
  | removeTerminal g hrecord =>
    refine hs.dropRecords hg (fun {c record} h => ?_) fun {c record} h hhead => ?_
    · exact (get?_erase_eq_some h).2
    · obtain ⟨head, hhead⟩ := hhead
      have hne := ne_of_get? hhead hcondition.2
      exact (get?_erase _ _ _).trans ((if_neg hne).trans h)
  | @pruneExpired disk now g =>
    refine hs.dropRecords hg (fun {c record} h => ?_) fun {c record} h hhead => ?_
    · rw [get?_retain] at h
      exact (Option.filter_eq_some_iff.mp h).1
    · obtain ⟨head, hhead⟩ := hhead
      have hlive : expiredRecord now record = false := by
        cases hexpired : expiredRecord now record with
        | false => rfl
        | true =>
          exact absurd (hhead.symm.trans (hcondition.2 c record h hexpired)) (by simp)
      rw [get?_retain, h]
      simp [Option.filter, hlive]

/-- A store whose state is sound and stands in its file. -/
def Held (orders : Set Digest32) (party : Nat) (policy : Bytes) (store : NodeShareStore) : Prop :=
  Sound orders party policy store.state ∧ Persisted store store.state

theorem held_create {key : NodeDecryptionKey}
    (h : create key party policy .written = .ok store) :
    Held orders party policy store := by
  obtain ⟨hstate, hfile, hsize⟩ := create_ok h
  rw [← hstate] at hfile hsize
  exact ⟨hstate ▸ sound_emptyState, rfl, hfile, hsize⟩

/-- **One call keeps the store sound and its file current.** -/
theorem Held.apply {op : StoreOp} (hsign : SigningWorks)
    (hheld : Held orders party policy store) (hdisk : op.disk = .written)
    (hcondition : op.Reopenable store) (hnonzero : op.HashesNonzero)
    (hadmitted : ∀ id, op.admitted = some id → id ∈ orders)
    (hregistered : ∀ id, op.registered = some id → id ∉ orders) :
    Held orders party policy (op.apply store) := by
  obtain ⟨hsound, -, hfile, hfits⟩ := hheld
  cases op.effect store with
  | kept hstate hkept =>
    rw [Held, Persisted, hstate, hkept hdisk]
    exact ⟨hsound, rfl, hfile, hfits⟩
  | wrote g next hedit hg hout =>
    obtain ⟨rfl, hfile, hfits⟩ := hout
    exact ⟨hsound.edit hsign hedit hg hcondition hnonzero hadmitted hregistered, rfl, hfile, hfits⟩
  | exhausted next heager hg hedit hstate =>
    have hlt : store.state.generation + 1 < u64Bound := by
      cases hedit with
      | ingest => exact hcondition.1
      | recordCompletedRound => exact hcondition
      | removeTerminal => exact hcondition.1
      | pruneExpired => exact hcondition.1
      | _ => exact absurd heager (by simp [StoreOp.eager])
    omega
  | partialHeads disk files plan finality signingKey hop hlong heads hstate =>
    subst hop
    exact absurd hlong (not_lt.mpr hcondition)

/-- Every call of the run meets the condition in the state it finds. -/
def Careful : NodeShareStore → List StoreOp → Prop
  | _, [] => True
  | store, op :: rest => op.Reopenable store ∧ Careful (op.apply store) rest

theorem Held.run (hsign : SigningWorks) (ops : List StoreOp)
    (hheld : Held orders party policy store) (hdisk : ∀ op ∈ ops, op.disk = .written)
    (hcareful : Careful store ops) (hnonzero : ∀ op ∈ ops, op.HashesNonzero)
    (hadmitted : ∀ op ∈ ops, ∀ id, op.admitted = some id → id ∈ orders)
    (hregistered : ∀ op ∈ ops, ∀ id, op.registered = some id → id ∉ orders) :
    Held orders party policy (StoreOp.run ops store) := by
  induction ops generalizing store with
  | nil => exact hheld
  | cons op rest ih =>
    rw [List.forall_mem_cons] at hdisk hnonzero hadmitted hregistered
    exact ih (hheld.apply hsign hdisk.1 hcareful.1 hnonzero.1 hadmitted.1 hregistered.1) hdisk.2
      hcareful.2 hnonzero.2 hadmitted.2 hregistered.2

/-- **A store driven with care can be reopened.** After any run of calls from a fresh store whose
persists succeed and whose calls all meet `Reopenable`, `read_state` accepts the file and gives
back the state in memory. -/
theorem readState_run {key : NodeDecryptionKey} {store : NodeShareStore} {ops : List StoreOp}
    (hsign : SigningWorks) (hcreate : create key party policy .written = .ok store)
    (hdisk : ∀ op ∈ ops, op.disk = .written) (hcollision : NoCollision ops)
    (hcareful : Careful store ops) (hserde : RoundTrips (StoreOp.run ops store).state) :
    readState (StoreOp.run ops store).file party policy = .ok (StoreOp.run ops store).state := by
  have hheld : Held { id | ∃ op ∈ ops, op.admitted = some id } party policy
      (StoreOp.run ops store) := by
    refine Held.run hsign ops (held_create hcreate) hdisk hcareful hcollision.nonzero
      (fun op hop id h => ⟨op, hop, h⟩) fun op hop id h => ?_
    rintro ⟨other, hother, hadmitted⟩
    exact hcollision.apart other hother op hop id hadmitted h
  obtain ⟨hsound, -, hfile, hfits⟩ := hheld
  rw [hfile, readState_frame hserde hsound.version hfits, hsound.validate]
  rfl

end

/-! ## A sample run

One order without a reservation is admitted, executed with a remainder and finalized; then it is
removed. -/

section Sample

attribute [local instance] transparentNodeCrypto

/-- The key the node signs with. -/
def sampleSigningKey : Bytes := [7]

def sampleCommitment : Digest32 := (sampleManifest 1).commitment

/-- No slot matched and a quantity of 5 rests. -/
def sampleResult : MpcBatchResult := ⟨List.replicate 8 ⟨false, 0, 0⟩, 5, none⟩

def sampleUnsignedReceipt : NodeExecutionReceipt where
  version := executorVersion
  party := 0
  roundId := 21
  generation := 1
  roundCommitment := 22
  programSha256 := 23
  artifactSha256 := 24
  privateParentDigest := privateParentDigest (emptyState 0 []) [] sampleCommitment
  privateStateSha256 := 25
  publicOutputSha256 := publicOutputDigest sampleResult
  result := sampleResult
  depthAttestation := none
  executionMs := 1
  signer := verifyingKey sampleSigningKey
  signature := []

def sampleReceipt : NodeExecutionReceipt :=
  { sampleUnsignedReceipt with
    signature := (verifyingKey sampleSigningKey).bytes ++ sampleUnsignedReceipt.signatureBody }

def samplePlan : RoundPlan where
  version := 2
  marketId := "JGB10Y-JPY"
  sequence := 1
  orderingCertificate := ⟨⟨"JGB10Y-JPY", 1, sampleCommitment, 0, 100⟩, []⟩
  resting := []
  arriving := sampleCommitment
  issuedAt := 20
  expiresAt := 100
  coordinator := 17
  roundId := 21
  signature := []

def sampleFinality : PrivateStateFinality := ⟨21, publicOutputDigest sampleResult, 31, 32, 33⟩

def sampleUnsignedFinality : NodePrivateStateReceipt :=
  .unsigned 0 sampleReceipt sampleFinality 3 (sha256 (toBeBytes 8 3))
    (verifyingKey sampleSigningKey)

def sampleSignedFinality : NodePrivateStateReceipt :=
  { sampleUnsignedFinality with
    signature := (verifyingKey sampleSigningKey).bytes ++ sampleUnsignedFinality.signatureBody }

/-- The party-local state file of the round. -/
def sampleFiles : PrivateFiles := some fun _ => some ⟨100, 25, List.replicate persistenceWires 0⟩

/-! The states of the run. -/

def sampleAdmitted : StoreState :=
  bumped { emptyState 0 [] with
    records := (emptyState 0 []).records.insert sampleCommitment (sampleRecord 1 0 10) }

def sampleExecuted : StoreState :=
  bumped { sampleAdmitted with
    completedRounds := sampleAdmitted.completedRounds.insert sampleReceipt.roundId sampleReceipt }

def sampleFinalized : StoreState :=
  { sampleExecuted with
    generation := 3
    privateHeads := sampleExecuted.privateHeads.insert sampleCommitment
      (headAt samplePlan sampleReceipt sampleFinality 64)
    finalizedPrivateRounds := sampleExecuted.finalizedPrivateRounds.insert 21
      ⟨false, publicOutputDigest sampleResult, 31, 32, 33, some sampleSignedFinality⟩ }

/-- Removing the order empties the records and keeps its head. -/
def sampleRemoved : StoreState :=
  bumped { sampleFinalized with records := .empty }

@[reducible] def sampleCodec : Serde := sampleSerde [sampleFinalized, sampleRemoved]

attribute [local instance] sampleCodec

def sampleStore (state : StoreState) : NodeShareStore :=
  saved ⟨sampleDecryptionKey, emptyState 0 [], [], none⟩ state

def sampleOps : List StoreOp :=
  [.ingest .written (sampleManifest 1) (sampleSealedShare 1 0) (sampleSealedCapability 1 0) 10,
    .recordCompletedRound .written sampleReceipt,
    .finalizePrivateRound .written sampleFiles samplePlan sampleFinality sampleSigningKey]

theorem sample_admitted : (StoreOp.ingest .written (sampleManifest 1) (sampleSealedShare 1 0)
    (sampleSealedCapability 1 0) 10).apply (sampleStore (emptyState 0 [])) =
      sampleStore sampleAdmitted := by
  exact sample_ingest (sampleStore (emptyState 0 [])) 1 10 0 rfl rfl (by decide) rfl (by decide)
    (by decide) rfl (by decide)

theorem sample_executed :
    (StoreOp.recordCompletedRound .written sampleReceipt).apply (sampleStore sampleAdmitted) =
      sampleStore sampleExecuted := by
  have hcomplete : sampleReceipt.Complete 0 := by decide +kernel
  rw [StoreOp.apply, recordCompletedRound_written hcomplete rfl
    (sample_fits (by decide))]
  rfl

set_option maxRecDepth 100000 in
theorem sample_checks :
    checkFinality (sampleStore sampleExecuted).state samplePlan sampleFinality =
      .ok (sampleReceipt, ⟨false, publicOutputDigest sampleResult, 31, 32, 33, none⟩) ∧
    sampleReceipt.privateParentDigest = privateParentDigest
      (sampleStore sampleExecuted).state samplePlan.resting samplePlan.arriving ∧
    NodePrivateStateReceipt.sign 0 sampleReceipt sampleFinality 3 (sha256 (toBeBytes 8 3))
      sampleSigningKey = some sampleSignedFinality ∧
    verifyPrivateStateFile sampleFiles samplePlan.roundId
      sampleReceipt.privateStateSha256 = .ok ⟨100, 25, List.replicate persistenceWires 0⟩ := by
  decide +kernel

theorem sample_finalized : (StoreOp.finalizePrivateRound .written sampleFiles samplePlan
    sampleFinality sampleSigningKey).apply (sampleStore sampleExecuted) =
      sampleStore sampleFinalized := by
  obtain ⟨hcheck, hparent, hsign, hfile⟩ := sample_checks
  have hsigned : signedFinalization (arrivingHead samplePlan
      sampleReceipt sampleFinality { sampleExecuted with
        privateHeads := restingHeads samplePlan sampleReceipt sampleFinality 0 samplePlan.resting
          sampleExecuted.privateHeads }) samplePlan sampleReceipt sampleFinality
      ⟨false, publicOutputDigest sampleResult, 31, 32, 33, none⟩ sampleSigningKey =
      .ok (sampleFinalized, sampleSignedFinality) := by
    simp only [signedFinalization, ok_rules]
    exact ⟨3, rfl, sampleSignedFinality, hsign, rfl⟩
  rw [StoreOp.apply, finalizePrivateRound_written hcheck rfl hparent hfile
    (by decide) hsigned (sample_size _)]
  rfl

theorem sample_run : StoreOp.run sampleOps (sampleStore (emptyState 0 [])) =
    sampleStore sampleFinalized := by
  rw [sampleOps, StoreOp.run_cons, sample_admitted, StoreOp.run_cons, sample_executed,
    StoreOp.run_cons, sample_finalized, StoreOp.run_nil]

theorem transparent_signingWorks : SigningWorks where
  verifies {key body signature} h := by
    obtain rfl := Option.some.inj h
    exact beq_self_eq_true _
  nonzero key hzero := by
    have hlt : fromBeBytes key % 2 ^ 255 < 2 ^ 255 := Nat.mod_lt _ (by decide)
    have hval : (fromBeBytes key % 2 ^ 255 + 1) % 2 ^ 256 = 0 := congrArg Fin.val hzero
    rw [Nat.mod_eq_of_lt (by omega)] at hval
    exact absurd hval (Nat.succ_ne_zero _)

theorem sample_noCollision (rest : List StoreOp)
    (hrest : ∀ op ∈ rest, op.HashesNonzero ∧ op.admitted = none ∧ op.registered = none) :
    NoCollision (sampleOps ++ rest) := by
  have hcommitment : (sampleManifest 1).commitment ≠ 0 := by decide +kernel
  have hregistered : ∀ op ∈ sampleOps ++ rest, op.registered = none := by
    intro op hop
    rcases List.mem_append.mp hop with hop | hop
    · simp only [sampleOps, List.mem_cons, List.not_mem_nil, or_false] at hop
      rcases hop with rfl | rfl | rfl <;> rfl
    · exact (hrest op hop).2.2
  refine ⟨fun op hop => ?_, fun op _ other hother id _ h => ?_⟩
  · rcases List.mem_append.mp hop with hop | hop
    · simp only [sampleOps, List.mem_cons, List.not_mem_nil, or_false] at hop
      rcases hop with rfl | rfl | rfl
      · exact hcommitment
      · trivial
      · trivial
    · exact (hrest op hop).1
  · rw [hregistered other hother] at h
    exact absurd h (by simp)

/-- The run up to the finalization meets every condition, and its store is reopened. -/
theorem readState_run_sample : readState (sampleStore sampleFinalized).file 0 [] =
    .ok (sampleStore sampleFinalized).state := by
  have hcreate : create sampleDecryptionKey 0 [] .written =
      .ok (sampleStore (emptyState 0 [])) :=
    create_written (by decide) (sample_size _)
  have hcareful : Careful (sampleStore (emptyState 0 [])) sampleOps := by
    have hgeneration : (sampleStore sampleAdmitted).state.generation + 1 < u64Bound := by decide
    have hshort : samplePlan.resting.length ≤ maxMatchSlots := by decide
    refine ⟨⟨by decide, fun share admission _ h => absurd h (by simp)⟩, ?_⟩
    rw [sample_admitted]
    refine ⟨hgeneration, ?_⟩
    rw [sample_executed]
    exact ⟨hshort, trivial⟩
  have hserde : RoundTrips (StoreOp.run sampleOps (sampleStore (emptyState 0 []))).state := by
    rw [sample_run]
    exact ⟨rfl, rfl⟩
  have hdisk : ∀ op ∈ sampleOps, op.disk = .written := by
    simp [sampleOps, StoreOp.disk]
  rw [← sample_run]
  exact readState_run transparent_signingWorks hcreate hdisk
    (by simpa using sample_noCollision [] (by simp)) hcareful hserde

/-- **A removed order locks its store.** All persists of the run succeed, its hashes do not
collide and `serde_json` reads the state back, but `remove_terminal` left the private head of the
order it removed, and `read_state` refuses the file. -/
theorem removed_order_not_reopened :
    create sampleDecryptionKey 0 [] .written =
      .ok (sampleStore (emptyState 0 [])) ∧
    (∀ op ∈ sampleOps ++ [.removeTerminal .written sampleCommitment], op.disk = .written) ∧
    NoCollision (sampleOps ++ [.removeTerminal .written sampleCommitment]) ∧
    RoundTrips (StoreOp.run (sampleOps ++ [.removeTerminal .written sampleCommitment])
      (sampleStore (emptyState 0 []))).state ∧
    readState (StoreOp.run (sampleOps ++ [.removeTerminal .written sampleCommitment])
      (sampleStore (emptyState 0 []))).file 0 [] =
      .error (.state "node share store contains a misbound private-state head") := by
  have hremoved : (StoreOp.removeTerminal .written sampleCommitment).apply
      (sampleStore sampleFinalized) = sampleStore sampleRemoved := by
    have hrecord : (sampleStore sampleFinalized).state.records.get? sampleCommitment =
        some (sampleRecord 1 0 10) := get?_insert_self
    have hempty : (sampleStore sampleFinalized).state.records.erase sampleCommitment = .empty := by
      refine ext_get? fun k => ?_
      change ((empty.insert sampleCommitment (sampleRecord 1 0 10)).erase
        sampleCommitment).get? k = _
      simp
    rw [removeTerminal_written hrecord rfl (sample_fits (by decide)), hempty]
    rfl
  have hrun : StoreOp.run (sampleOps ++ [.removeTerminal .written sampleCommitment])
      (sampleStore (emptyState 0 [])) = sampleStore sampleRemoved := by
    rw [StoreOp.run_append, sample_run, StoreOp.run_cons, hremoved, StoreOp.run_nil]
  have hserde : RoundTrips sampleRemoved := ⟨rfl, rfl⟩
  have hvalidate : sampleRemoved.validate 0 [] =
      .error (.state "node share store contains a misbound private-state head") := by
    decide +kernel
  refine ⟨create_written (by decide) (sample_size _), by simp [sampleOps,
    StoreOp.disk], sample_noCollision _ (by simp [StoreOp.HashesNonzero, StoreOp.admitted,
    StoreOp.registered]), ?_, ?_⟩
  · rw [hrun]
    exact hserde
  · rw [hrun]
    change readState (frame (stateJson sampleRemoved)) 0 [] = _
    rw [readState_frame hserde rfl (sample_size _), hvalidate]
    rfl

end Sample

end Oclob.Node
