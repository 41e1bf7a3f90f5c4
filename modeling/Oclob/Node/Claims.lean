import Oclob.Node.Restart

/-!
# One reservation, one order

`reservation_claims` of `oclob-node/src/lib.rs` over the life of a store: every call of the store,
with its write succeeding, failing or failing after the rename, and every reopening of its file
with the same decryption key. Only `ingest` adds a claim, and it refuses a nullifier another order
holds; the file never holds fewer claims than the memory, so a reopening loses none.

* `one_order_per_reservation`: a claim made is there for ever and names the same order, and every
  stored order with a reservation has the claim of the reservation it was admitted with.
* `exhausted_ingest_loses_claim`: the exception. At generation `u64::MAX` `ingest` returns
  `NodeError::Generation` with record and claim left in memory (`record_order_vote` and the other
  calls that use `bump_generation` restore the state there), and the next reopening drops both.

A reopening reads a file some call wrote; that `serde_json` reads back what it has written is
assumed at each write (`RoundTrips`).
-/

namespace Oclob.Node

open Oclob.Core Oclob.Lib Oclob.Edge Oclob.Ordering NodeShareStore OrdMap

section

variable [NodeCrypto] [Serde]

/-! ## The key of a store -/

namespace NodeShareStore

variable (store : NodeShareStore) (disk : Disk)

theorem leaves_persistOr (previous : StoreState) :
    Leaves key (persistOr previous disk) store := by
  change (after (persistOr previous disk store)).key = store.key
  unfold persistOr
  rw [run_persist]
  by_cases hfits : (stateJson store.state).length ≤ maxStoreBytes
  · rw [if_pos hfits]
    cases disk <;> rfl
  · rw [if_neg hfits]
    rfl

theorem leaves_commit (next : StoreState) :
    Leaves key (commit disk next) store := by
  change (after (commit disk next store)).key = store.key
  unfold commit
  split
  · rfl
  · exact leaves_persistOr { store with state := _ } disk store.state

theorem leaves_commitEager (next : StoreState) :
    Leaves key (commitEager disk next) store := by
  change (after (commitEager disk next store)).key = store.key
  unfold commitEager
  split
  · rfl
  · exact leaves_persistOr { store with state := _ } disk store.state

omit [NodeCrypto] [Serde] in
theorem leaves_insertHeads (plan : RoundPlan) (receipt : NodeExecutionReceipt)
    (finality : PrivateStateFinality) (resting : List Digest32) :
    ∀ (slot : Nat) (store : NodeShareStore),
      Leaves key (insertHeads plan receipt finality slot resting) store := by
  induction resting with
  | nil => exact fun slot store => rfl
  | cons commitment rest ih =>
    intro slot store
    exact leaves_ensure_bind (ih (slot + 1) { store with state := _ })

theorem leaves_finalizePrivateRound (files : PrivateFiles) (plan : RoundPlan)
    (finality : PrivateStateFinality) (signingKey : Bytes) :
    Leaves key (finalizePrivateRound disk files plan finality signingKey) store := by
  refine leaves_get_bind (leaves_attempt_bind fun ⟨receipt, candidate⟩ _ => ?_)
  dsimp only
  split
  · exact leaves_attempt
  · refine leaves_ensure_bind (leaves_attempt_bind fun _ _ =>
      leaves_bind (leaves_insertHeads _ _ _ _ _ _) fun _ moved => leaves_get_bind ?_)
    split
    · rfl
    · exact leaves_set_bind rfl (leaves_bind (leaves_persistOr _ _ _) fun _ _ => rfl)

theorem leaves_confirmRelease (observation : ReleaseObservation) :
    Leaves key (confirmRelease disk observation) store := by
  refine leaves_get_bind (leaves_attempt_bind fun ⟨entry, finality⟩ _ => ?_)
  dsimp only
  split
  · exact leaves_ensure_bind rfl
  · have hcommit := leaves_commit store disk (afterRelease store.state finality)
    unfold Leaves at hcommit
    split
    · rename_i hrun
      rw [hrun] at hcommit
      exact leaves_set_bind hcommit rfl
    · rename_i hrun
      rw [hrun] at hcommit
      exact leaves_set_bind hcommit rfl

end NodeShareStore

open NodeShareStore in
/-- No call changes the decryption key. -/
theorem StoreOp.key_apply (op : StoreOp) (store : NodeShareStore) :
    (op.apply store).key = store.key := by
  cases op with
  | pinReservationTrust trust =>
    exact leaves_ensure_bind (leaves_get_bind (leaves_ensure_bind
      (leaves_attempt_bind fun _ _ => rfl)))
  | ingest disk manifest sealedShare sealedCapability now =>
    refine leaves_get_bind (leaves_attempt_bind fun tag _ => ?_)
    split
    · exact leaves_ensure_bind rfl
    · exact leaves_bind (leaves_commitEager _ _ _) fun _ _ => rfl
  | admissionReceipt disk manifest key =>
    refine leaves_get_bind (leaves_attempt_bind fun ⟨record, receipt⟩ _ => ?_)
    dsimp only
    split
    · rfl
    · exact leaves_set_bind rfl (leaves_bind (leaves_persistOr _ _ _) fun _ _ => rfl)
  | recordOrderVote disk statement now =>
    have hwrite : ∀ next, Leaves key (do
        commit disk next
        return voteDigest statement) store :=
      fun next => leaves_bind (leaves_commit _ _ _) fun _ _ => rfl
    refine leaves_get_bind (leaves_attempt_bind fun _ _ => ?_)
    dsimp only
    split
    · split
      · rfl
      · exact leaves_ensure_bind (hwrite _)
    · exact hwrite _
  | acceptOrderCertificate disk certificate policy keys now =>
    refine leaves_attempt_bind fun _ _ => leaves_get_bind ?_
    split
    · exact leaves_ensure_bind rfl
    · exact leaves_attempt_bind fun _ _ => leaves_bind (leaves_commit _ _ _) fun _ _ => rfl
  | recordCompletedRound disk receipt =>
    refine leaves_get_bind (leaves_ensure_bind ?_)
    split
    · exact leaves_ensure
    · exact leaves_commitEager _ _ _
  | recordNativeFinality disk record =>
    refine leaves_get_bind (leaves_attempt_bind fun _ _ => leaves_attempt_bind fun _ _ => ?_)
    dsimp only
    split
    · exact leaves_ensure
    · exact leaves_ensure_bind (leaves_commit _ _ _)
  | finalizePrivateRound disk files plan finality signingKey =>
    exact leaves_finalizePrivateRound store disk files plan finality signingKey
  | registerLifecycle disk command now =>
    refine leaves_get_bind ?_
    split
    · exact leaves_ensure_bind rfl
    · exact leaves_attempt_bind fun _ _ => leaves_bind (leaves_commit _ _ _) fun _ _ => rfl
  | confirmRelease disk observation => exact leaves_confirmRelease store disk observation
  | removeTerminal disk commitment =>
    refine leaves_get_bind ?_
    split
    · rfl
    · exact leaves_ensure_bind (leaves_bind (leaves_commitEager _ _ _) fun _ _ => rfl)
  | pruneExpired disk now =>
    refine leaves_get_bind ?_
    dsimp only
    split
    · rfl
    · exact leaves_bind (leaves_commitEager _ _ _) fun _ _ => rfl

end

/-! ## Claims -/

/-- What is in the first index is in the second one. -/
def Retains (claims later : OrdMap Digest32 Digest32) : Prop :=
  ∀ nullifier commitment, claims.get? nullifier = some commitment →
    later.get? nullifier = some commitment

theorem Retains.refl (claims : OrdMap Digest32 Digest32) : Retains claims claims :=
  fun _ _ h => h

theorem Retains.trans {first second third : OrdMap Digest32 Digest32} (h : Retains first second)
    (h' : Retains second third) : Retains first third :=
  fun nullifier commitment hget => h' nullifier commitment (h nullifier commitment hget)

section

variable [NodeCrypto]

/-- The reservation a record was admitted with: its share, opened with the node's key at the time
of admission, carries an admission of this nullifier that verifies under a trusted identity. -/
def StoredRecord.Reserves (record : StoredRecord) (key : NodeDecryptionKey) (party : Nat)
    (nullifier : Digest32) : Prop :=
  ∃ share admission, ∃ trust : ReservationTrust,
    record.sealedShare.open key record.manifest party record.admittedAt = .ok share ∧
    share.verifiedReservationAdmission record.manifest trust.venueId trust.defmiId trust.signer
      record.admittedAt = .ok admission ∧
    admission.reservationNullifier = nullifier

theorem StoredRecord.Reserves.unique {record : StoredRecord} {key : NodeDecryptionKey}
    {party : Nat} {nullifier other : Digest32} (h : record.Reserves key party nullifier)
    (h' : record.Reserves key party other) : nullifier = other := by
  obtain ⟨share, admission, trust, hopen, hverified, rfl⟩ := h
  obtain ⟨share', admission', trust', hopen', hverified', rfl⟩ := h'
  obtain rfl := Except.ok.inj (hopen.symm.trans hopen')
  simp only [PartyOrderShare.verifiedReservationAdmission, ok_rules] at hverified hverified'
  obtain ⟨-, -, decoded, hdecoded, -, -, -, -, -, -, rfl⟩ := hverified
  obtain ⟨-, -, decoded', hdecoded', -, -, -, -, -, -, rfl⟩ := hverified'
  rw [Option.some.inj (hdecoded.symm.trans hdecoded')]

/-- Every stored order with a reservation holds the claim of the reservation it was admitted
with. -/
def Backed (key : NodeDecryptionKey) (state : StoreState) : Prop :=
  ∀ commitment record, state.records.get? commitment = some record →
    record.manifest.commitment = commitment ∧
    (record.manifest.usesPretradeReservation = true → ∃ nullifier,
      record.Reserves key state.party nullifier ∧
      state.reservationClaims.get? nullifier = some commitment)

theorem backed_emptyState (key : NodeDecryptionKey) (party : Nat) (policy : Bytes) :
    Backed key (emptyState party policy) :=
  fun _ _ h => absurd h (by simp [emptyState])

/-- Dropping records, and changing what does not concern their reservation. -/
theorem Backed.of_records {key : NodeDecryptionKey} {state next : StoreState}
    (h : Backed key state) (hparty : next.party = state.party)
    (hclaims : Retains state.reservationClaims next.reservationClaims)
    (hrecords : ∀ commitment record, next.records.get? commitment = some record →
      ∃ old receipt, state.records.get? commitment = some old ∧
        record = { old with admissionReceipt := receipt }) :
    Backed key next := by
  intro commitment record hget
  obtain ⟨old, receipt, hold, rfl⟩ := hrecords commitment record hget
  obtain ⟨hcommitment, hclaim⟩ := h commitment old hold
  refine ⟨hcommitment, fun huses => ?_⟩
  obtain ⟨nullifier, hreserves, hget⟩ := hclaim huses
  rw [hparty]
  exact ⟨nullifier, hreserves, hclaims nullifier commitment hget⟩

/-- What `ingest` has checked of the reservation it is about to claim. -/
theorem checkIngest_tag {store : NodeShareStore} {manifest : EdgeOrderManifest}
    {sealedShare : SealedPartyShare} {sealedCapability : SealedCapabilityKeyShare} {now : Nat}
    {tag : Option Digest32}
    (h : store.checkIngest manifest sealedShare sealedCapability now = .ok tag) :
    (∀ nullifier, tag = some nullifier → ∀ other,
      store.state.reservationClaims.get? nullifier = some other → other = manifest.commitment) ∧
    (manifest.usesPretradeReservation = true → ∃ nullifier, tag = some nullifier ∧
      StoredRecord.Reserves ⟨manifest, sealedShare, some sealedCapability, now, none⟩ store.key
        store.state.party nullifier) := by
  simp only [checkIngest, ok_rules] at h
  obtain ⟨-, -, share, hopen, tag', htag, -, -, rfl⟩ := h
  simp only [reservationTag] at htag
  split at htag
  · simp only [ok_rules] at htag
    obtain ⟨trust, -, admission, hverified, -, hfree, rfl⟩ := htag
    refine ⟨?_, fun _ => ⟨_, rfl, share, admission, trust, hopen, hverified, rfl⟩⟩
    rintro nullifier ⟨⟩ other hget
    rw [hget] at hfree
    simpa using hfree
  · rename_i huses
    obtain rfl := Except.ok.inj htag
    exact ⟨fun _ h => absurd h (by simp), fun h => absurd h huses⟩

variable {store : NodeShareStore} {op : StoreOp} {g : Nat} {next : StoreState}

omit [NodeCrypto] in
theorem retains_claimed {claims : OrdMap Digest32 Digest32} {commitment : Digest32}
    {tag : Option Digest32} (h : ∀ nullifier, tag = some nullifier → ∀ other,
      claims.get? nullifier = some other → other = commitment) :
    Retains claims (claimed claims commitment tag) := by
  intro nullifier other hget
  cases tag with
  | none => exact hget
  | some claimedNullifier =>
    simp only [claimed, get?_insert]
    split
    · rename_i heq
      rw [h _ rfl other (heq ▸ hget)]
    · exact hget

variable [Serde]

theorem Edit.party (h : Edit store op g next) : next.party = store.state.party := by
  cases h with
  | finalizePrivateRound g hcheck hnew hsigned =>
    rw [signedFinalization_ok hsigned]
    rfl
  | _ => rfl

/-- Only an admission edits the claims. -/
theorem Edit.claims_eq (h : Edit store op g next)
    (hop : ∀ disk manifest sealedShare sealedCapability now,
      op ≠ .ingest disk manifest sealedShare sealedCapability now) :
    next.reservationClaims = store.state.reservationClaims := by
  cases h with
  | ingest g hcheck hnew => exact absurd rfl (hop _ _ _ _ _)
  | finalizePrivateRound g hcheck hnew hsigned =>
    rw [signedFinalization_ok hsigned]
    rfl
  | _ => rfl

/-- No edit removes or changes a claim. -/
theorem Edit.retains (h : Edit store op g next) :
    Retains store.state.reservationClaims next.reservationClaims := by
  cases h with
  | ingest g hcheck hnew => exact retains_claimed (checkIngest_tag hcheck).1
  | finalizePrivateRound g hcheck hnew hsigned =>
    rw [signedFinalization_ok hsigned]
    exact Retains.refl _
  | _ => exact Retains.refl _

/-- **An edit keeps every stored reservation claimed.** -/
theorem Edit.backed (hedit : Edit store op g next) (h : Backed store.key store.state) :
    Backed store.key next := by
  have hclaims := hedit.retains
  have hparty := hedit.party
  cases hedit with
  | ingest g hcheck hnew =>
    rename_i manifest sealedShare sealedCapability now tag
    intro commitment record hget
    simp only [get?_insert] at hget
    split at hget
    · rename_i heq
      obtain rfl := Option.some.inj hget
      refine ⟨heq.symm, fun huses => ?_⟩
      obtain ⟨nullifier, rfl, hreserves⟩ := (checkIngest_tag hcheck).2 huses
      exact ⟨nullifier, hreserves, by simp [claimed, heq]⟩
    · obtain ⟨hcommitment, hclaim⟩ := h commitment record hget
      refine ⟨hcommitment, fun huses => ?_⟩
      obtain ⟨nullifier, hreserves, hold⟩ := hclaim huses
      exact ⟨nullifier, hreserves, hclaims nullifier commitment hold⟩
  | admissionReceipt receipt hrecord =>
    refine h.of_records hparty hclaims fun commitment record hget => ?_
    simp only [get?_insert] at hget
    split at hget
    · rename_i heq
      exact ⟨_, some receipt, heq ▸ hrecord, (Option.some.inj hget).symm⟩
    · exact ⟨record, record.admissionReceipt, hget, rfl⟩
  | finalizePrivateRound g hcheck hnew hsigned =>
    refine h.of_records hparty hclaims fun commitment record hget => ?_
    rw [signedFinalization_ok hsigned] at hget
    exact ⟨record, record.admissionReceipt, hget, rfl⟩
  | confirmRelease g hcheck hnew =>
    refine h.of_records hparty hclaims fun commitment record hget => ?_
    simp only [afterRelease, get?_erase] at hget
    split at hget
    · exact absurd hget (by simp)
    · exact ⟨record, record.admissionReceipt, hget, rfl⟩
  | removeTerminal g hrecord =>
    refine h.of_records hparty hclaims fun commitment record hget => ?_
    simp only [get?_erase] at hget
    split at hget
    · exact absurd hget (by simp)
    · exact ⟨record, record.admissionReceipt, hget, rfl⟩
  | pruneExpired g =>
    refine h.of_records hparty hclaims fun commitment record hget => ?_
    simp only [get?_retain] at hget
    exact ⟨record, record.admissionReceipt, (Option.filter_eq_some_iff.mp hget).1, rfl⟩
  | _ =>
    exact h.of_records hparty hclaims fun commitment record hget =>
      ⟨record, record.admissionReceipt, hget, rfl⟩

end

/-! ## The life of a store -/

open NodeShareStore

section

variable [NodeCrypto] [Serde]

/-- `Life key allowed start store`: the store after calls that `allowed` admits in the store they
find, and reopenings of its file with the same key. What a call writes `serde_json` reads back. -/
inductive Life (key : NodeDecryptionKey) (allowed : NodeShareStore → StoreOp → Prop)
    (start : NodeShareStore) : NodeShareStore → Prop
  | refl : Life key allowed start start
  | call {store : NodeShareStore} (h : Life key allowed start store) (op : StoreOp)
      (hallowed : allowed store op)
      (hserde : ∀ g next, Edit store op g next →
        (op.apply store).file = frame (stateJson next) → RoundTrips next) :
      Life key allowed start (op.apply store)
  | reopen {store : NodeShareStore} (h : Life key allowed start store) (party : Nat)
      (policy : Bytes) (state : StoreState)
      (hread : readState store.file party policy = .ok state) :
      Life key allowed start ⟨key, state, store.file, none⟩

/-- An admission finds a generation it can still count up. -/
def HasGeneration (store : NodeShareStore) : StoreOp → Prop
  | .ingest .. => store.state.generation + 1 < u64Bound
  | _ => True

/-- The file holds a state with at least the given claims, each stored order with its own. -/
def Filed (key : NodeDecryptionKey) (claims : OrdMap Digest32 Digest32) (file : Bytes) : Prop :=
  ∃ saved, file = frame (stateJson saved) ∧ (stateJson saved).length ≤ maxStoreBytes ∧
    RoundTrips saved ∧ saved.version = storeVersion ∧ Backed key saved ∧
    Retains claims saved.reservationClaims

/-- The claims of a store and of its file. -/
structure Guarded (key : NodeDecryptionKey) (store : NodeShareStore) : Prop where
  key_eq : store.key = key
  version : store.state.version = storeVersion
  backed : Backed key store.state
  filed : Filed key store.state.reservationClaims store.file

theorem guarded_create {key : NodeDecryptionKey} {party : Nat} {policy : Bytes} {disk : Disk}
    {store : NodeShareStore} (h : create key party policy disk = .ok store)
    (hserde : RoundTrips (emptyState party policy)) : Guarded key store := by
  have hkey : store.key = key := by
    simp only [create, ok_rules] at h
    obtain ⟨-, -, ⟨⟨⟩, fresh⟩, hstage, rfl⟩ := h
    have hrun := stage_eq_ok.mp hstage
    rw [run_persist] at hrun
    split at hrun
    · cases disk with
      | written => exact (EStateM.Result.ok.inj hrun).2 ▸ rfl
      | failed => exact absurd hrun (by simp)
      | failedAfterRename => exact absurd hrun (by simp)
    · exact absurd hrun (by simp)
  obtain ⟨hstate, hfile, hsize⟩ := create_ok h
  exact ⟨hkey, hstate ▸ rfl, hstate ▸ backed_emptyState key party policy, _, hfile, hsize, hserde,
    rfl, backed_emptyState key party policy, hstate ▸ Retains.refl _⟩

variable {key : NodeDecryptionKey} {store : NodeShareStore} {op : StoreOp}

/-- A call writes an edit of the state, or leaves the claims in memory as they are. -/
theorem StoreOp.claims_apply (hroom : HasGeneration store op) :
    (∃ g next, Edit store op g next ∧ Persisted (op.apply store) next) ∨
      (op.apply store).state.reservationClaims = store.state.reservationClaims := by
  cases op.effect store with
  | kept hstate hfile => exact Or.inr (by rw [hstate])
  | wrote g next hedit hg hout => exact Or.inl ⟨g, next, hedit, hout⟩
  | exhausted next heager hfull hedit hstate =>
    refine Or.inr (hstate ▸ hedit.claims_eq ?_)
    rintro disk manifest sealedShare sealedCapability now rfl
    exact absurd hroom (not_lt.mpr hfull)
  | partialHeads disk files plan finality signingKey hop hlong heads hstate =>
    exact Or.inr (by rw [hstate])

/-- **One call keeps the claims**, in memory and in the file. -/
theorem Guarded.apply (h : Guarded key store) (hroom : HasGeneration store op)
    (hserde : ∀ g next, Edit store op g next →
      (op.apply store).file = frame (stateJson next) → RoundTrips next) :
    Guarded key (op.apply store) ∧
      Retains store.state.reservationClaims (op.apply store).state.reservationClaims := by
  have hkey := (op.key_apply store).trans h.key_eq
  have hbacked : ∀ g next, Edit store op g next → Backed key next := fun g next hedit =>
    h.key_eq ▸ hedit.backed (h.key_eq.symm ▸ h.backed)
  have hversion : (op.apply store).state.version = storeVersion :=
    (op.effect store).preserves (fun _ => h.version)
      fun g next hedit => hedit.version.trans h.version
  have hmemory : Backed key (op.apply store).state :=
    (op.effect store).preserves (fun _ => h.backed) hbacked
  rcases StoreOp.claims_apply hroom with ⟨g, next, hedit, hstate, hfile, hsize⟩ | hsame
  · refine ⟨⟨hkey, hversion, hmemory, next, hfile, hsize, hserde g next hedit hfile,
      hedit.version.trans h.version, hbacked g next hedit, ?_⟩, ?_⟩
    · exact hstate ▸ Retains.refl _
    · exact hstate ▸ hedit.retains
  · refine ⟨⟨hkey, hversion, hmemory, ?_⟩, hsame ▸ Retains.refl _⟩
    rw [hsame]
    rcases (op.outcome store).writes with hfile | ⟨g, next, hedit, hfile, hsize⟩
    · exact hfile ▸ h.filed
    · exact ⟨next, hfile, hsize, hserde g next hedit hfile, hedit.version.trans h.version,
        hbacked g next hedit, hedit.retains⟩

/-- **Reopening the file loses no claim.** -/
theorem Guarded.reopen (h : Guarded key store) {party : Nat} {policy : Bytes}
    {state : StoreState} (hread : readState store.file party policy = .ok state) :
    Guarded key ⟨key, state, store.file, none⟩ ∧
      Retains store.state.reservationClaims state.reservationClaims := by
  obtain ⟨saved, hfile, hsize, hserde, hversion, hbacked, hretains⟩ := h.filed
  obtain rfl := eq_of_readState_frame hserde hversion hsize (hfile ▸ hread)
  exact ⟨⟨rfl, hversion, hbacked, _, hfile, hsize, hserde, hversion, hbacked, Retains.refl _⟩,
    hretains⟩

theorem Life.guarded {start : NodeShareStore} (h : Life key HasGeneration start store)
    (hstart : Guarded key start) :
    Guarded key store ∧ Retains start.state.reservationClaims store.state.reservationClaims := by
  induction h with
  | refl => exact ⟨hstart, Retains.refl _⟩
  | call h op hroom hserde ih =>
    obtain ⟨hguarded, hretains⟩ := ih.1.apply hroom hserde
    exact ⟨hguarded, ih.2.trans hretains⟩
  | reopen h party policy state hread ih =>
    obtain ⟨hguarded, hretains⟩ := ih.1.reopen hread
    exact ⟨hguarded, ih.2.trans hretains⟩

/-- **One reservation authorizes one order for the lifetime of a store.** For any two moments of the
life of a store whose admissions all find a generation to count up: a claim of the earlier moment is
there at the later one and names the same order, every stored order with a reservation holds the
claim of that reservation, and two stored orders with one reservation are one order. -/
theorem one_order_per_reservation {party : Nat} {policy : Bytes} {disk : Disk}
    {fresh earlier later : NodeShareStore} (hcreate : create key party policy disk = .ok fresh)
    (hserde : RoundTrips (emptyState party policy))
    (hearlier : Life key HasGeneration fresh earlier)
    (hlater : Life key HasGeneration earlier later) :
    (∀ nullifier commitment,
      earlier.state.reservationClaims.get? nullifier = some commitment →
      later.state.reservationClaims.get? nullifier = some commitment) ∧
    (∀ nullifier first second,
      earlier.state.reservationClaims.get? nullifier = some first →
      later.state.reservationClaims.get? nullifier = some second → first = second) ∧
    (∀ commitment record, later.state.records.get? commitment = some record →
      record.manifest.usesPretradeReservation = true →
      record.manifest.commitment = commitment ∧ ∃ nullifier,
        record.Reserves key later.state.party nullifier ∧
        later.state.reservationClaims.get? nullifier = some commitment) ∧
    ∀ first second a b nullifier, earlier.state.records.get? first = some a →
      later.state.records.get? second = some b →
      a.manifest.usesPretradeReservation = true → b.manifest.usesPretradeReservation = true →
      a.Reserves key earlier.state.party nullifier → b.Reserves key later.state.party nullifier →
      first = second := by
  obtain ⟨hguarded, -⟩ := hearlier.guarded (guarded_create hcreate hserde)
  obtain ⟨hend, hretains⟩ := hlater.guarded hguarded
  have hunique : ∀ nullifier first second,
      earlier.state.reservationClaims.get? nullifier = some first →
      later.state.reservationClaims.get? nullifier = some second → first = second :=
    fun nullifier first second hfirst hsecond =>
      Option.some.inj ((hretains nullifier first hfirst).symm.trans hsecond)
  refine ⟨hretains, hunique, fun commitment record hget huses =>
    ⟨(hend.backed commitment record hget).1, (hend.backed commitment record hget).2 huses⟩, ?_⟩
  intro first second a b nullifier ha hb husesA husesB hreservesA hreservesB
  obtain ⟨held, hheld, hclaim⟩ := (hguarded.backed first a ha).2 husesA
  obtain ⟨held', hheld', hclaim'⟩ := (hend.backed second b hb).2 husesB
  obtain rfl := hheld.unique hreservesA
  obtain rfl := hheld'.unique hreservesB
  exact hunique _ first second hclaim hclaim'

end

/-! ## A reservation across a reopening, and at the last generation

An order with a reservation (`nativeManifest`, nullifier 72) and one without (`sampleManifest 5`)
are sent to one store. -/

section Sample

set_option maxRecDepth 100000

attribute [local instance] nativeCrypto

/-- The node's key: it opens the shares of both orders. -/
def bothKey : NodeDecryptionKey where
  fingerprint := 16
  unsealShare envelope :=
    if envelope.commitment = nativeManifest.commitment then nativeKey.unsealShare envelope
    else sampleDecryptionKey.unsealShare envelope
  unsealCapability envelope :=
    if envelope.orderCommitment = nativeManifest.commitment then
      nativeKey.unsealCapability envelope
    else sampleDecryptionKey.unsealCapability envelope

/-- A store of that key with the trust pinned. -/
def pinnedStore (file : Bytes) (state : StoreState) : NodeShareStore :=
  ⟨bothKey, state, file, some nativeTrust⟩

/-- Nothing stands in the way of the two orders: no command, no claim, party 0. -/
structure Vacant (state : StoreState) : Prop where
  party : state.party = 0
  lifecycle : state.lifecycle = .empty
  claims : state.reservationClaims = .empty

theorem Vacant.checkIngest {file : Bytes} {state : StoreState} (h : Vacant state) :
    (pinnedStore file state).checkIngest = (pinnedStore [] (emptyState 0 [])).checkIngest := by
  funext manifest sealedShare sealedCapability now
  simp only [NodeShareStore.checkIngest, reservationTag, StoreState.lifecycleBlocks, pinnedStore,
    h.party, h.lifecycle, h.claims]
  rfl

theorem vacant_checkIngest :
    let store := pinnedStore [] (emptyState 0 [])
    store.checkIngest nativeManifest nativeSealedShare nativeSealedCapability 10 = .ok (some 72) ∧
      store.checkIngest (sampleManifest 5) (sampleSealedShare 5 0) (sampleSealedCapability 5 0) 10 =
        .ok none := by
  constructor <;>
  · rw [checkIngest, SealedPartyShare.open_eq, SealedCapabilityKeyShare.open_eq]
    · decide +kernel
    · exact ⟨rfl, rfl, rfl, rfl, List.length_replicate, rfl, rfl⟩
    · exact ⟨rfl, rfl, rfl, List.length_replicate, rfl, rfl⟩

theorem native_checkIngest {file : Bytes} {state : StoreState} (h : Vacant state) :
    (pinnedStore file state).checkIngest nativeManifest nativeSealedShare nativeSealedCapability
      10 = .ok (some 72) := by
  rw [h.checkIngest]
  exact vacant_checkIngest.1

theorem sample_ne_native : (sampleManifest 5).commitment ≠ nativeManifest.commitment := by
  decide +kernel

/-- A state is written as the number of its claims and its generation, which is a `u64`, and read
back from a table. -/
@[reducible] def tableSerde (table : Nat → StoreState) : Serde :=
  { sampleSerde [] with
    stateJson := fun state => UInt8.ofNat state.reservationClaims.entries.length ::
      if state.generation < u64Bound then toBeBytes 8 state.generation else List.replicate 9 0
    parseVersion := fun bytes => some (some (table (fromBeBytes bytes.tail)).version)
    parseState := fun bytes => some (table (fromBeBytes bytes.tail)) }

section Table

variable {table : Nat → StoreState} {state : StoreState}

theorem table_stateJson (hlt : state.generation < u64Bound) :
    (tableSerde table).stateJson state =
      UInt8.ofNat state.reservationClaims.entries.length :: toBeBytes 8 state.generation :=
  congrArg _ (if_pos hlt)

theorem table_size (hlt : state.generation < u64Bound) :
    ((tableSerde table).stateJson state).length ≤ maxStoreBytes := by
  rw [table_stateJson hlt, List.length_cons, length_toBeBytes, maxStoreBytes]
  omega

theorem table_roundTrips (htable : table state.generation = state)
    (hlt : state.generation < u64Bound) :
    letI := tableSerde table
    RoundTrips state := by
  have hread : fromBeBytes (toBeBytes 8 state.generation) = state.generation := by
    rw [fromBeBytes_toBeBytes]
    exact Nat.mod_eq_of_lt hlt
  let _ := tableSerde table
  unfold RoundTrips
  rw [table_stateJson hlt]
  change some (table (fromBeBytes (toBeBytes 8 state.generation))) = _ ∧
    some (some (table (fromBeBytes (toBeBytes 8 state.generation))).version) = _
  rw [hread, htable]
  exact ⟨rfl, rfl⟩

/-- The text tells the generation and whether there are claims. -/
theorem table_text {other : StoreState} (hlt : state.generation < u64Bound)
    (h : (tableSerde table).stateJson state = (tableSerde table).stateJson other) :
    other.generation = state.generation ∧ UInt8.ofNat other.reservationClaims.entries.length =
      UInt8.ofNat state.reservationClaims.entries.length := by
  rw [table_stateJson hlt] at h
  obtain ⟨hclaims, htext⟩ := List.cons.inj h
  refine ⟨?_, hclaims.symm⟩
  by_cases hother : other.generation < u64Bound
  · have hnumber := congrArg fromBeBytes (htext.trans (if_pos hother))
    rw [fromBeBytes_toBeBytes, fromBeBytes_toBeBytes] at hnumber
    exact (Nat.mod_eq_of_lt hother).symm.trans (hnumber.symm.trans (Nat.mod_eq_of_lt hlt))
  · have hlength := congrArg List.length (htext.trans (if_neg hother))
    rw [length_toBeBytes, List.length_replicate] at hlength
    omega

/-- The store once `state` is in its file. -/
def filedStore (table : Nat → StoreState) (state : StoreState) : NodeShareStore :=
  letI := tableSerde table
  pinnedStore (frame (stateJson state)) state

/-- A call that has written a state of the table. -/
theorem Life.written {allowed : NodeShareStore → StoreOp → Prop} {start : NodeShareStore}
    {next : StoreState} (op : StoreOp) :
    letI := tableSerde table
    Life bothKey allowed start (filedStore table state) → allowed (filedStore table state) op →
    op.apply (filedStore table state) = filedStore table next →
    (∀ g other, Edit (filedStore table state) op g other → other.generation = next.generation →
      other = next) →
    table next.generation = next → next.generation < u64Bound →
    Life bothKey allowed start (filedStore table next) := by
  let _ := tableSerde table
  intro hlife hallowed happly hunique htable hlt
  rw [← happly]
  refine hlife.call op hallowed fun g other hedit hfile => ?_
  rw [happly] at hfile
  obtain ⟨hgeneration, -⟩ := table_text hlt (frame_injective hfile)
  rw [hunique g other hedit hgeneration]
  exact table_roundTrips htable hlt

end Table

/-! The calls. -/

variable {table : Nat → StoreState} {state : StoreState}

theorem both_create (hzero : table 0 = emptyState 0 []) :
    letI := tableSerde table
    create bothKey 0 [] .written = .ok ⟨bothKey, emptyState 0 [], (filedStore table
      (emptyState 0 [])).file, none⟩ ∧ RoundTrips (emptyState 0 []) := by
  let _ := tableSerde table
  have hlt : (emptyState 0 []).generation < u64Bound := by decide
  exact ⟨create_written (by decide) (table_size hlt), table_roundTrips hzero hlt⟩

theorem both_pin (file : Bytes) :
    letI := tableSerde table
    (StoreOp.pinReservationTrust nativeTrust).apply ⟨bothKey, emptyState 0 [], file, none⟩ =
      pinnedStore file (emptyState 0 []) := by
  let _ := tableSerde table
  exact pinReservationTrust_fresh nativeTrust_valid rfl rfl

/-- The life of a fresh store up to its trusted identity. -/
theorem life_pinned (allowed : NodeShareStore → StoreOp → Prop)
    (hallowed : ∀ store, allowed store (.pinReservationTrust nativeTrust)) :
    letI := tableSerde table
    Life bothKey allowed ⟨bothKey, emptyState 0 [], (filedStore table (emptyState 0 [])).file, none⟩
      (filedStore table (emptyState 0 [])) := by
  let _ := tableSerde table
  have hstart : Life bothKey allowed ⟨bothKey, emptyState 0 [], (filedStore table
      (emptyState 0 [])).file, none⟩ _ := .refl
  have hcall := hstart.call (.pinReservationTrust nativeTrust) (hallowed _)
    fun g next hedit => nomatch hedit
  rw [both_pin] at hcall
  exact hcall

/-- Two admissions of one order write the same state. -/
theorem ingest_unique {store : NodeShareStore} {manifest : EdgeOrderManifest}
    {sealedShare : SealedPartyShare} {sealedCapability : SealedCapabilityKeyShare} {now : Nat}
    {tag : Option Digest32} {next other : StoreState} {g : Nat} :
    letI := tableSerde table
    store.checkIngest manifest sealedShare sealedCapability now = .ok tag →
    Edit store (.ingest .written manifest sealedShare sealedCapability now) g other →
    other.generation = next.generation →
    next = { store.state with
      generation := next.generation
      reservationClaims := claimed store.state.reservationClaims manifest.commitment tag
      records := store.state.records.insert manifest.commitment
        ⟨manifest, sealedShare, some sealedCapability, now, none⟩ } → other = next := by
  intro hcheck hedit hgeneration hnext
  cases hedit with
  | ingest g hcheck' hnew =>
    obtain rfl := Except.ok.inj (hcheck'.symm.trans hcheck)
    rw [hnext, ← hgeneration]

/-! A claim survives a reopening. -/

/-- The states of the first run. -/
def firstTable (generation : Nat) : StoreState :=
  if generation = 0 then emptyState 0 [] else nativeAdmitted

theorem life_admitted :
    letI := tableSerde firstTable
    Life bothKey HasGeneration ⟨bothKey, emptyState 0 [], (filedStore firstTable
      (emptyState 0 [])).file, none⟩ (filedStore firstTable nativeAdmitted) := by
  let _ := tableSerde firstTable
  have hcheck : (filedStore firstTable (emptyState 0 [])).checkIngest nativeManifest
      nativeSealedShare nativeSealedCapability 10 = .ok (some 72) :=
    native_checkIngest ⟨rfl, rfl, rfl⟩
  refine Life.written (.ingest .written nativeManifest nativeSealedShare nativeSealedCapability 10)
    (life_pinned HasGeneration fun _ => trivial) (by decide : 0 + 1 < u64Bound) ?_ ?_
    rfl (by decide)
  · exact ingest_written hcheck rfl ⟨by decide, table_size (by decide)⟩
  · exact fun g other hedit hgeneration => ingest_unique hcheck hedit hgeneration rfl

theorem nativeAdmitted_valid :
    letI := tableSerde firstTable
    nativeAdmitted.validate 0 [] = .ok () := by
  decide +kernel

/-- Reading a state of the table back. -/
theorem table_readState (htable : table state.generation = state)
    (hlt : state.generation < u64Bound) (hversion : state.version = storeVersion) :
    letI := tableSerde table
    state.validate 0 [] = .ok () → readState (filedStore table state).file 0 [] = .ok state := by
  let _ := tableSerde table
  intro hvalid
  change readState (frame (stateJson state)) 0 [] = _
  rw [readState_frame (table_roundTrips htable hlt) hversion (table_size hlt), hvalid]
  rfl

theorem one_order_per_reservation_sample :
    letI := tableSerde firstTable
    ∃ fresh later, create bothKey 0 [] .written = .ok fresh ∧ RoundTrips (emptyState 0 []) ∧
      Life bothKey HasGeneration fresh (filedStore firstTable nativeAdmitted) ∧
      Life bothKey HasGeneration (filedStore firstTable nativeAdmitted) later ∧
      later.reservationTrust = none ∧
      later.state.reservationClaims.get? 72 = some nativeManifest.commitment := by
  let _ := tableSerde firstTable
  have hfresh := both_create (show firstTable 0 = emptyState 0 [] from rfl)
  have hread : readState (filedStore firstTable nativeAdmitted).file 0 [] = .ok nativeAdmitted :=
    table_readState rfl (by decide) rfl nativeAdmitted_valid
  have hreopen : Life bothKey HasGeneration (filedStore firstTable nativeAdmitted)
      ⟨bothKey, nativeAdmitted, (filedStore firstTable nativeAdmitted).file, none⟩ :=
    .reopen .refl 0 [] nativeAdmitted hread
  refine ⟨_, _, hfresh.1, hfresh.2, life_admitted, hreopen, rfl, ?_⟩
  refine (one_order_per_reservation hfresh.1 hfresh.2 life_admitted hreopen).1 72
    nativeManifest.commitment ?_
  exact get?_insert_self

/-! The last generation. -/

/-- The store without an order, and with the plain one. -/
def vacantState (generation : Nat) : StoreState := { emptyState 0 [] with generation }

def plainState (generation : Nat) : StoreState :=
  { vacantState generation with
    records := empty.insert (sampleManifest 5).commitment (sampleRecord 5 0 10) }

/-- The states of the second run. -/
def secondTable (generation : Nat) : StoreState :=
  if generation % 2 = 0 then vacantState generation else plainState generation

/-- The plain order is admitted, and removed again. -/
theorem life_cycle {allowed : NodeShareStore → StoreOp → Prop} {start : NodeShareStore}
    (hallowed : ∀ store op, allowed store op) (n : Nat) (hn : 2 * n + 1 < u64Bound) :
    letI := tableSerde secondTable
    Life bothKey allowed start (filedStore secondTable (vacantState 0)) →
    Life bothKey allowed start (filedStore secondTable (plainState (2 * n + 1))) := by
  let _ := tableSerde secondTable
  intro hstart
  -- admitting the order at an even generation
  have hadmit : ∀ m, 2 * m + 1 < u64Bound →
      Life bothKey allowed start (filedStore secondTable (vacantState (2 * m))) →
      Life bothKey allowed start (filedStore secondTable (plainState (2 * m + 1))) := by
    intro m hm hlife
    have hcheck : (filedStore secondTable (vacantState (2 * m))).checkIngest (sampleManifest 5)
        (sampleSealedShare 5 0) (sampleSealedCapability 5 0) 10 = .ok none := by
      rw [filedStore, Vacant.checkIngest ⟨rfl, rfl, rfl⟩]
      exact vacant_checkIngest.2
    have htable : secondTable (2 * m + 1) = plainState (2 * m + 1) := if_neg (by omega)
    refine Life.written (.ingest .written (sampleManifest 5) (sampleSealedShare 5 0)
      (sampleSealedCapability 5 0) 10) hlife (hallowed _ _) ?_ ?_ htable hm
    · exact ingest_written hcheck rfl ⟨hm, table_size hm⟩
    · exact fun g other hedit hgeneration => ingest_unique hcheck hedit hgeneration rfl
  induction n with
  | zero => exact hadmit 0 hn hstart
  | succ n ih =>
    refine hadmit (n + 1) hn ?_
    have hlt : 2 * n + 1 + 1 < u64Bound := by omega
    have herase : (plainState (2 * n + 1)).records.erase (sampleManifest 5).commitment = .empty :=
      ext_get? fun k => by
        rw [get?_erase, get?_empty, ite_eq_left_iff]
        intro hk
        exact (get?_insert _ _ _ _).trans (if_neg hk)
    have hnext : bumped { plainState (2 * n + 1) with
        records := (plainState (2 * n + 1)).records.erase (sampleManifest 5).commitment } =
        vacantState (2 * (n + 1)) := by
      rw [herase]
      rfl
    have htable : secondTable (2 * (n + 1)) = vacantState (2 * (n + 1)) := if_pos (by omega)
    refine Life.written (.removeTerminal .written (sampleManifest 5).commitment) (ih (by omega))
      (hallowed _ _) ?_ ?_ htable hlt
    · have hstored : (filedStore secondTable (plainState (2 * n + 1))).state.records.get?
          (sampleManifest 5).commitment = some (sampleRecord 5 0 10) :=
        get?_insert_self
      rw [← hnext]
      exact removeTerminal_written hstored rfl ⟨hlt, table_size hlt⟩
    · intro g other hedit hgeneration
      rw [← hnext] at hgeneration ⊢
      cases hedit with
      | removeTerminal g hrecord =>
        obtain rfl : g = 2 * n + 1 + 1 := hgeneration
        rfl

/-- `u64::MAX`. -/
def lastGeneration : Nat := 2 * 9223372036854775807 + 1

theorem plainState_valid :
    letI := tableSerde secondTable
    (plainState lastGeneration).validate 0 [] = .ok () := by
  decide +kernel

/-- **A claim made at the last generation is lost.** The plain order is admitted and removed until
the generation is `u64::MAX`. The order with the reservation is then admitted in memory by a call
that fails, and after a reopening its reservation is free again. -/
theorem exhausted_ingest_loses_claim :
    letI := tableSerde secondTable
    ∃ fresh earlier later, create bothKey 0 [] .written = .ok fresh ∧
      RoundTrips (emptyState 0 []) ∧ Life bothKey (fun _ _ => True) fresh earlier ∧
      Life bothKey (fun _ _ => True) earlier later ∧
      earlier.state.reservationClaims.get? 72 = some nativeManifest.commitment ∧
      later.state.reservationClaims.get? 72 = none := by
  let _ := tableSerde secondTable
  have hfresh := both_create (show secondTable 0 = emptyState 0 [] from rfl)
  have hlast : lastGeneration < u64Bound := by decide
  have hlife : Life bothKey (fun _ _ => True) ⟨bothKey, emptyState 0 [], (filedStore secondTable
      (emptyState 0 [])).file, none⟩ (filedStore secondTable (plainState lastGeneration)) :=
    life_cycle (fun _ _ => trivial) 9223372036854775807 hlast
      (life_pinned (fun _ _ => True) fun _ => trivial)
  have hcheck : (filedStore secondTable (plainState lastGeneration)).checkIngest nativeManifest
      nativeSealedShare nativeSealedCapability 10 = .ok (some 72) :=
    native_checkIngest ⟨rfl, rfl, rfl⟩
  have hnew : (plainState lastGeneration).records.get? nativeManifest.commitment = none :=
    (get?_insert _ _ _ _).trans (if_neg sample_ne_native.symm)
  have happly : (StoreOp.ingest .written nativeManifest nativeSealedShare nativeSealedCapability
      10).apply (filedStore secondTable (plainState lastGeneration)) = _ :=
    ingest_exhausted hcheck hnew (by decide)
  have hcall := hlife.call (.ingest .written nativeManifest nativeSealedShare
    nativeSealedCapability 10) trivial fun g next hedit hfile => by
    rw [happly] at hfile
    obtain ⟨-, hclaims⟩ := table_text hlast (frame_injective hfile)
    cases hedit with
    | ingest g hcheck' hnew' =>
      obtain rfl := Except.ok.inj (hcheck'.symm.trans hcheck)
      exact absurd hclaims (by decide : UInt8.ofNat 1 ≠ UInt8.ofNat 0)
  rw [happly] at hcall
  have hread : readState (filedStore secondTable (plainState lastGeneration)).file 0 [] =
      .ok (plainState lastGeneration) := table_readState rfl hlast rfl plainState_valid
  exact ⟨_, _, _, hfresh.1, hfresh.2, hcall, .reopen .refl 0 [] _ hread,
    get?_insert_self, rfl⟩

end Sample

end Oclob.Node
