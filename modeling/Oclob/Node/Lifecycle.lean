import Oclob.Node.Rounds

/-!
# Lifecycle commands

A native order ends by a cancellation or an expiry: the command is registered
(`register_lifecycle`), ordered like an order, and final once the node has observed its release
(`confirm_release`). `Edit.entry` says what a call does to a stored command: it is registered,
certified or released, and never removed.

* `one_command_per_target`: at most one command of an order is certified. Registration refuses a
  second command only once one is certified, and certification does not look at the target again,
  so this needs a condition on the certificates; without it a second command is certified after the
  release of the first and holds the lifecycle barrier (`two_commands_certified`).
-/

namespace Oclob.Node

open Oclob.Core Oclob.Lib Oclob.Edge Oclob.Ordering

theorem StoreState.lifecycleBlocks_eq_true {state : StoreState} {target : Digest32} :
    state.lifecycleBlocks target = true ↔ ∃ id entry, state.lifecycle.get? id = some entry ∧
      entry.command.target = target ∧ entry.certificate.isSome = true := by
  simp only [lifecycleBlocks, List.any_eq_true, OrdMap.mem_values, Bool.and_eq_true,
    decide_eq_true_eq]
  constructor
  · rintro ⟨entry, ⟨id, hentry⟩, hrest⟩
    exact ⟨id, entry, hentry, hrest⟩
  · rintro ⟨id, entry, hentry, hrest⟩
    exact ⟨entry, ⟨id, hentry⟩, hrest⟩

section

variable [NodeCrypto] [Serde]

/-! ## What a call does to a command -/

/-- What the edit of a call does to the command under `id`. -/
inductive EntryEdit (store : NodeShareStore) (op : StoreOp) (next : StoreState) (id : Digest32) :
    Option StoredLifecycle → Option StoredLifecycle → Prop
  | same (entry : Option StoredLifecycle) : EntryEdit store op next id entry entry
  | registered {command : LifecycleCommand} {now : Nat} {manifest : EdgeOrderManifest}
      (hcheck : NodeShareStore.checkLifecycle store.state command now = .ok manifest) :
      EntryEdit store op next id none (some ⟨command, manifest, none, none⟩)
  | certified {disk : Disk} {certificate : OrderCertificate} {policy : CommitteePolicy}
      {keys : NodeKeys} {now : Nat} {entry : StoredLifecycle}
      (hop : op = .acceptOrderCertificate disk certificate policy keys now)
      (hid : id = certificate.commitment)
      (hnew : certificate.sequence ≠ store.state.orderingSequence)
      (hmoved : next.orderingSequence = certificate.sequence) :
      EntryEdit store op next id (some entry) (some { entry with certificate := some certificate })
  | released {entry : StoredLifecycle} {finality : LifecycleFinality}
      (hcertified : entry.certificate.isSome = true)
      (hrecord : next.records.get? entry.command.target = none)
      (hhead : next.privateHeads.get? entry.command.target = none) :
      EntryEdit store op next id (some entry) (some { entry with finality := some finality })

variable {store : NodeShareStore} {op : StoreOp} {g : Nat} {next : StoreState}

/-- **What a call does to a lifecycle command.** -/
theorem Edit.entry
    (h : Edit store op g next) (id : Digest32) :
    EntryEdit store op next id (store.state.lifecycle.get? id) (next.lifecycle.get? id) := by
  cases h with
  | acceptOrderCertificate g hverify hnew hcheck =>
    rename_i certificate policy keys now
    simp only [NodeShareStore.afterCertificate, OrdMap.get?_alter]
    split
    · rename_i hid
      rw [hid]
      cases store.state.lifecycle.get? certificate.commitment with
      | none => exact .same none
      | some entry => exact .certified rfl rfl hnew rfl
    · exact .same _
  | finalizePrivateRound g hcheck hnew hsigned =>
    rw [NodeShareStore.signedFinalization_ok hsigned]
    exact .same _
  | registerLifecycle g hcheck hnew =>
    rename_i command now manifest
    simp only [OrdMap.get?_insert]
    split
    · rename_i hid
      rw [hid, hnew]
      exact .registered hcheck
    · exact .same _
  | confirmRelease g hcheck hnew =>
    rename_i entry finality
    obtain ⟨hentry, htarget, hcertified, -⟩ := checkRelease_ok hcheck
    simp only [NodeShareStore.afterRelease, OrdMap.get?_alter]
    split
    · rename_i hid
      rw [hid, hentry]
      exact .released hcertified (by rw [OrdMap.get?_erase, if_pos htarget.symm])
        (by rw [OrdMap.get?_erase, if_pos htarget.symm])
    · exact .same _
  | _ => exact .same _

/-! ## One command of a target -/

/-- At most one command of an order is certified, and a final command is certified. -/
structure OneCommand (state : StoreState) : Prop where
  unique : ∀ i j a b, state.lifecycle.get? i = some a → state.lifecycle.get? j = some b →
    a.certificate.isSome = true → b.certificate.isSome = true →
    a.command.target = b.command.target → i = j
  final : ∀ i a, state.lifecycle.get? i = some a → a.finality.isSome = true →
    a.certificate.isSome = true

/-- A certificate that extends the chain for a stored command is for an order without a certified
command. -/
def FreshTarget (store : NodeShareStore) : StoreOp → Prop
  | .acceptOrderCertificate _ certificate _ _ _ =>
    certificate.sequence ≠ store.state.orderingSequence →
    ∀ entry, store.state.lifecycle.get? certificate.commitment = some entry →
      store.state.lifecycleBlocks entry.command.target = false
  | _ => True

/-- A condition on every call of a run, in the store before it. -/
def StoreOp.Along (P : NodeShareStore → StoreOp → Prop) :
    NodeShareStore → List StoreOp → Prop
  | _, [] => True
  | store, op :: rest => P store op ∧ StoreOp.Along P (op.apply store) rest

/-- A command that is certified was so before, or the call certified it. -/
theorem Edit.certified
    (h : Edit store op g next) {id : Digest32} {entry : StoredLifecycle}
    (hentry : next.lifecycle.get? id = some entry) (hcertified : entry.certificate.isSome = true) :
    ∃ before, store.state.lifecycle.get? id = some before ∧ before.command = entry.command ∧
      (before.certificate.isSome = true ∨ ∃ disk certificate policy keys now,
        op = .acceptOrderCertificate disk certificate policy keys now ∧
        id = certificate.commitment ∧ certificate.sequence ≠ store.state.orderingSequence ∧
        next.orderingSequence = certificate.sequence) := by
  have hedit := h.entry id
  rw [hentry] at hedit
  generalize hbefore : store.state.lifecycle.get? id = before at hedit
  cases hedit with
  | same => exact ⟨entry, rfl, rfl, Or.inl hcertified⟩
  | registered hcheck => exact absurd hcertified (by simp)
  | certified hop hid hnew hmoved =>
    exact ⟨_, rfl, rfl, Or.inr ⟨_, _, _, _, _, hop, hid, hnew, hmoved⟩⟩
  | released hwas hrecord hhead => exact ⟨_, rfl, rfl, Or.inl hwas⟩

theorem OneCommand.edit
    (h : OneCommand store.state) (hfresh : FreshTarget store op) (hedit : Edit store op g next) :
    OneCommand next := by
  -- the call certified `j`, so no other command of its target was certified before
  have hnow : ∀ i j a b, store.state.lifecycle.get? i = some a →
      store.state.lifecycle.get? j = some b → a.certificate.isSome = true →
      a.command.target = b.command.target →
      ¬ ∃ disk certificate policy keys now,
        op = .acceptOrderCertificate disk certificate policy keys now ∧
        j = certificate.commitment ∧ certificate.sequence ≠ store.state.orderingSequence ∧
        next.orderingSequence = certificate.sequence := by
    rintro i j a b ha hb hcertified htarget
      ⟨disk, certificate, policy, keys, now, rfl, rfl, hnew, -⟩
    have hblocks := StoreState.lifecycleBlocks_eq_true.mpr ⟨i, a, ha, htarget, hcertified⟩
    exact absurd (hfresh hnew b hb) (by simp [hblocks])
  constructor
  · intro i j a b ha hb hacert hbcert htarget
    obtain ⟨a', ha', hacommand, hacase⟩ := hedit.certified ha hacert
    obtain ⟨b', hb', hbcommand, hbcase⟩ := hedit.certified hb hbcert
    rw [← hacommand, ← hbcommand] at htarget
    rcases hacase with hacase | haop <;> rcases hbcase with hbcase | hbop
    · exact h.unique i j a' b' ha' hb' hacase hbcase htarget
    · exact absurd hbop (hnow i j a' b' ha' hb' hacase htarget)
    · exact absurd haop (hnow j i b' a' hb' ha' hbcase htarget.symm)
    · obtain ⟨_, c, _, _, _, rfl, rfl, -⟩ := haop
      obtain ⟨_, d, _, _, _, hop, rfl, -⟩ := hbop
      cases hop
      rfl
  · intro i a ha hfinal
    have hentry := hedit.entry i
    rw [ha] at hentry
    generalize hbefore : store.state.lifecycle.get? i = before at hentry
    cases hentry with
    | same => exact h.final i a hbefore hfinal
    | registered hcheck => exact absurd hfinal (by simp)
    | certified hop hid hnew hmoved => rfl
    | released hcertified hrecord hhead => exact hcertified

theorem OneCommand.apply (h : OneCommand store.state)
    (hfresh : FreshTarget store op) : OneCommand (op.apply store).state :=
  (op.effect store).preserves (fun _ => ⟨h.unique, h.final⟩) fun _ _ hedit => h.edit hfresh hedit

theorem OneCommand.run (ops : List StoreOp) (h : OneCommand store.state)
    (hops : StoreOp.Along FreshTarget store ops) : OneCommand (StoreOp.run ops store).state := by
  induction ops generalizing store with
  | nil => exact h
  | cons op rest ih =>
    rw [StoreOp.run_cons]
    exact ih (h.apply hops.1) hops.2

/-- **At most one lifecycle command of an order is certified**, if no certificate extends the chain
for a command whose target has a certified one already. So once the release of the order is final,
no certified command of it holds the lifecycle barrier. -/
theorem one_command_per_target {store : NodeShareStore} (hempty : store.state.lifecycle = .empty)
    (ops : List StoreOp) (hops : StoreOp.Along FreshTarget store ops) :
    let commands := (StoreOp.run ops store).state.lifecycle
    (∀ i j a b, commands.get? i = some a → commands.get? j = some b →
      a.command.target = b.command.target → a.certificate.isSome = true →
      b.certificate.isSome = true → i = j) ∧
    ∀ i j a b, commands.get? i = some a → commands.get? j = some b →
      a.command.target = b.command.target → a.finality.isSome = true →
      b.certificate.isSome = true → b.finality.isSome = true := by
  have hstart : OneCommand store.state := by
    refine ⟨fun i j a b ha => ?_, fun i a ha => ?_⟩
    all_goals
      rw [hempty] at ha
      exact absurd ha (by simp)
  have hrun := hstart.run ops hops
  refine ⟨fun i j a b ha hb htarget hacert hbcert =>
      hrun.unique i j a b ha hb hacert hbcert htarget,
    fun i j a b ha hb htarget hfinal hbcert => ?_⟩
  obtain rfl := hrun.unique i j a b ha hb (hrun.final i a ha hfinal) hbcert htarget
  obtain rfl := Option.some.inj (ha.symm.trans hb)
  exact hfinal

end

/-! ## Two cancellations of one order

A native order is admitted and ordered, and its owner signs two cancellations of it. -/

section Sample

set_option maxRecDepth 100000

open NodeShareStore Cluster

/-- The admission of the sample order. -/
def nativeAdmission : ReservationAdmission := ⟨71, 72, 3, 14, 14, 14, 2000⟩

/-- The transparent instance, with this admission in every share. -/
@[reducible] def nativeCrypto : NodeCrypto :=
  { transparentNodeCrypto with decodeAdmission := fun _ => some nativeAdmission }

attribute [local instance] nativeCrypto

def nativeDraft : EdgeOrderManifest :=
  { sampleDraft 3 with
    reservationAdmissionDigest := 3
    settlementCapabilityCommitment := preauthorizedSettlementCommitment 3
    settlementProofEnabled := true
    settlementFieldCommitments := List.replicate 2 [14, 14, 14] }

/-- An order with a reservation. -/
def nativeManifest : EdgeOrderManifest :=
  { nativeDraft with
    commitment := nativeDraft.derivedCommitment
    signature := (15 : Digest32).bytes ++ (asBytes "OCLOB:EDGE-MANIFEST-SIGNATURE:v2" ++
      nativeDraft.derivedCommitment.bytes) }

def nativeShare : PartyOrderShare :=
  let share := { sampleUnsignedShare 3 0 with
    commitment := nativeManifest.commitment
    reservationAdmission := [1] }
  { share with signature := (15 : Digest32).bytes ++ share.signatureBody }

def nativeCapability : CapabilityKeyShare :=
  let share := { sampleUnsignedCapability 3 0 with
    orderCommitment := nativeManifest.commitment
    capabilityCommitment := nativeManifest.settlementCapabilityCommitment }
  { share with signature := (15 : Digest32).bytes ++ share.signatureBody }

def nativeSealedShare : SealedPartyShare :=
  { sampleSealedShare 3 0 with commitment := nativeManifest.commitment }

def nativeSealedCapability : SealedCapabilityKeyShare :=
  { sampleSealedCapability 3 0 with
    orderCommitment := nativeManifest.commitment
    capabilityCommitment := nativeManifest.settlementCapabilityCommitment }

def nativeKey : NodeDecryptionKey := ⟨16, fun _ => .ok nativeShare, fun _ => .ok nativeCapability⟩

def nativeTrust : ReservationTrust := ⟨71, 73, List.replicate 1984 0⟩

def nativeRecord : StoredRecord :=
  ⟨nativeManifest, nativeSealedShare, some nativeSealedCapability, 10, none⟩

/-! The commands. -/

/-- The digest of the cancellation with a nonce. -/
def cancelDigest (nonce : Digest32) : Digest32 :=
  sha256 (asBytes "OCLOB:NATIVE-LIFECYCLE:v2" ++ (nativeManifest.commitment.bytes ++ nonce.bytes))

def cancel (nonce : Digest32) : LifecycleCommand where
  version := 2
  marketId := "JGB10Y-JPY"
  target := nativeManifest.commitment
  reason := .cancelled
  issuedAt := 50
  expiresAt := 100
  nonce
  signature := (15 : Digest32).bytes ++ (cancelDigest nonce).bytes

def orderCertificate : OrderCertificate :=
  votedCertificate ⟨"JGB10Y-JPY", 1, nativeManifest.commitment, 0, 100⟩ [1, 2, 3, 4, 5]

/-- The certificates of the two cancellations. -/
def firstCancelled : OrderCertificate :=
  votedCertificate ⟨"JGB10Y-JPY", 2, cancelDigest 1, orderCertificate.digest, 100⟩ [1, 2, 3, 4, 5]

def secondCancelled : OrderCertificate :=
  votedCertificate ⟨"JGB10Y-JPY", 3, cancelDigest 2, firstCancelled.digest, 100⟩ [1, 2, 3, 4, 5]

def releaseFinality : LifecycleFinality where
  command := cancelDigest 1
  target := nativeManifest.commitment
  transactionId := "tx"
  blockId := "block"
  height := 1
  statement := 81
  beforeRoot := 82
  afterRoot := 83
  releasedSequence := 2

def nativeScope : Settlement.ApplicationReserveScope := ⟨1, 71, 73, 1, 64⟩

/-- What the node reads of DeFMI about the release. -/
def releaseObservation : ReleaseObservation where
  request := ⟨cancelDigest 1, nativeScope, 82, cancelDigest 1, 84, 1, .cancelled,
    ⟨nativeAdmission, ⟨84, 14, 85, 1, 1, true, 71, 14, 86⟩, 1, [], 15⟩⟩
  transactionId := "tx"
  trust := nativeTrust
  accepted := ⟨"tx", 81, 82, 83, 1, "block"⟩
  head := ⟨83, nativeScope, 84, 1, 1, 2, 81, 1, none, "released", 1, 14, 85,
    nativeManifest.retentionDeadline, 86⟩
  evidence := .ok ()
  statement := .ok 81

/-! The states. -/

def nativeAdmitted : StoreState :=
  bumped { emptyState 0 [] with
    reservationClaims := OrdMap.empty.insert 72 nativeManifest.commitment
    records := OrdMap.empty.insert nativeManifest.commitment nativeRecord }

def nativeOrdered : StoreState := bumped (afterCertificate nativeAdmitted orderCertificate)

def registeredState (state : StoreState) (nonce : Digest32) : StoreState :=
  bumped { state with
    lifecycle := state.lifecycle.insert (cancelDigest nonce)
      ⟨cancel nonce, nativeManifest, none, none⟩ }

def bothRegistered : StoreState := registeredState (registeredState nativeOrdered 1) 2

def firstCertified : StoreState := bumped (afterCertificate bothRegistered firstCancelled)

/-- The files of the sample store; one of them can be read back. -/
@[reducible] def nativeSerde : Serde := sampleSerde [firstCertified]

attribute [local instance] nativeSerde

theorem native_checks :
    (orderCertificate.verify .sevenNode sampleKeys 20 = .ok () ∧
      checkCertificate nativeAdmitted orderCertificate 20 = .ok ()) ∧
    (checkLifecycle nativeOrdered (cancel 1) 60 = .ok nativeManifest ∧
      checkLifecycle (registeredState nativeOrdered 1) (cancel 2) 60 = .ok nativeManifest ∧
      (registeredState nativeOrdered 1).lifecycle.get? (cancelDigest 2) = none) ∧
    firstCancelled.verify .sevenNode sampleKeys 70 = .ok () ∧
      checkCertificate bothRegistered firstCancelled 70 = .ok () := by
  decide +kernel

/-! The calls. -/

def nativeStart : NodeShareStore := saved ⟨nativeKey, emptyState 0 [], [], none⟩ (emptyState 0 [])

def nativeStore (state : StoreState) : NodeShareStore :=
  saved ⟨nativeKey, emptyState 0 [], [], some nativeTrust⟩ state

/-- A certificate presented to the store. -/
abbrev nativeAccept (certificate : OrderCertificate) (now : Nat) : StoreOp :=
  .acceptOrderCertificate .written certificate .sevenNode sampleKeys now

theorem nativeTrust_valid : nativeTrust.venueId ≠ 0 ∧ nativeTrust.defmiId ≠ 0 ∧
    nativeTrust.signer.length = 1984 :=
  ⟨(by decide : (71 : Digest32) ≠ 0), (by decide : (73 : Digest32) ≠ 0), List.length_replicate⟩

theorem native_pin : (StoreOp.pinReservationTrust nativeTrust).apply nativeStart =
    nativeStore (emptyState 0 []) := pinReservationTrust_fresh nativeTrust_valid rfl rfl

theorem native_ingest :
    (StoreOp.ingest .written nativeManifest nativeSealedShare nativeSealedCapability 10).apply
      (nativeStore (emptyState 0 [])) = nativeStore nativeAdmitted := by
  have hcheck : (nativeStore (emptyState 0 [])).checkIngest nativeManifest nativeSealedShare
      nativeSealedCapability 10 = .ok (some 72) := by
    rw [checkIngest, SealedPartyShare.open_eq, SealedCapabilityKeyShare.open_eq]
    · decide +kernel
    · exact ⟨rfl, rfl, rfl, rfl, List.length_replicate, rfl, rfl⟩
    · exact ⟨rfl, rfl, rfl, List.length_replicate, rfl, rfl⟩
  exact ingest_written hcheck rfl (sample_fits (by decide : (0 : Nat) + 1 < u64Bound))

theorem native_order : (nativeAccept orderCertificate 20).apply (nativeStore nativeAdmitted) =
    nativeStore nativeOrdered := by
  obtain ⟨⟨hverify, hcheck⟩, -⟩ := native_checks
  have hrun : (acceptOrderCertificate .written orderCertificate .sevenNode sampleKeys 20).run
      (nativeStore nativeAdmitted) = .ok 2 (nativeStore nativeOrdered) :=
    acceptOrderCertificate_written hverify (by decide) hcheck (sample_fits (by decide))
  rw [StoreOp.apply, hrun]
  rfl

/-- Registering a command that passes the checks. -/
theorem native_register {state : StoreState} {nonce : Digest32}
    (hnew : state.lifecycle.get? (cancelDigest nonce) = none)
    (hcheck : checkLifecycle state (cancel nonce) 60 = .ok nativeManifest)
    (hgeneration : state.generation + 1 < u64Bound) :
    (StoreOp.registerLifecycle .written (cancel nonce) 60).apply (nativeStore state) =
      nativeStore (registeredState state nonce) := by
  have hrun : (registerLifecycle .written (cancel nonce) 60).run (nativeStore state) =
      .ok _ ((nativeStore state).saved _) :=
    registerLifecycle_written hnew hcheck (sample_fits hgeneration)
  rw [StoreOp.apply, hrun]
  rfl

theorem accept_firstCancelled :
    (acceptOrderCertificate .written firstCancelled .sevenNode sampleKeys 70).run
      (nativeStore bothRegistered) = .ok 5 (nativeStore firstCertified) := by
  obtain ⟨-, -, hverify, hcheck⟩ := native_checks
  exact acceptOrderCertificate_written hverify (by decide) hcheck (sample_fits (by decide))

/-- The calls before the first cancellation is ordered. -/
def beforeCancelled : List StoreOp :=
  [.pinReservationTrust nativeTrust,
    .ingest .written nativeManifest nativeSealedShare nativeSealedCapability 10,
    nativeAccept orderCertificate 20, .registerLifecycle .written (cancel 1) 60,
    .registerLifecycle .written (cancel 2) 60]

theorem run_beforeCancelled :
    StoreOp.run beforeCancelled nativeStart = nativeStore bothRegistered := by
  obtain ⟨-, ⟨hfirst, hsecond, hnew⟩, -⟩ := native_checks
  rw [beforeCancelled, StoreOp.run_cons, native_pin, StoreOp.run_cons, native_ingest,
    StoreOp.run_cons, native_order, StoreOp.run_cons, native_register rfl hfirst (by decide),
    StoreOp.run_cons, native_register hnew hsecond (by decide), StoreOp.run_nil, bothRegistered]

/-- The calls up to the release of the order. -/
def cancelledOnce : List StoreOp :=
  beforeCancelled ++
    [nativeAccept firstCancelled 70, .confirmRelease .written releaseObservation]

/-- The first command, at its finality. -/
def releasedEntry : StoredLifecycle :=
  ⟨cancel 1, nativeManifest, some firstCancelled, some releaseFinality⟩

theorem cancelledOnce_fresh : StoreOp.Along FreshTarget nativeStart cancelledOnce := by
  obtain ⟨-, ⟨hfirst, hsecond, hnew⟩, -⟩ := native_checks
  have hcancelled : bothRegistered.lifecycleBlocks nativeManifest.commitment = false ∧
      bothRegistered.lifecycle.get? firstCancelled.commitment =
        some ⟨cancel 1, nativeManifest, none, none⟩ := by
    decide +kernel
  rw [cancelledOnce, beforeCancelled]
  simp only [List.cons_append, List.nil_append, StoreOp.Along, native_pin, native_ingest,
    native_order, native_register rfl hfirst (by decide),
    native_register hnew hsecond (by decide)]
  refine ⟨trivial, trivial, fun _ entry hentry => (nomatch hentry), trivial, trivial,
    fun _ entry hentry => ?_, trivial, trivial⟩
  obtain rfl := Option.some.inj (hcancelled.2.symm.trans hentry)
  exact hcancelled.1

theorem one_command_per_target_sample :
    nativeStart.state.lifecycle = .empty ∧ StoreOp.Along FreshTarget nativeStart cancelledOnce ∧
      (StoreOp.run cancelledOnce nativeStart).state.lifecycle.get? (cancelDigest 1) =
        some releasedEntry ∧
      ∀ j b, (StoreOp.run cancelledOnce nativeStart).state.lifecycle.get? j = some b →
        b.command.target = nativeManifest.commitment → b.certificate.isSome = true →
        b.finality.isSome = true := by
  have hfirst : (StoreOp.run cancelledOnce nativeStart).state.lifecycle.get? (cancelDigest 1) =
      some releasedEntry := by
    rw [cancelledOnce, StoreOp.run_append, run_beforeCancelled]
    decide +kernel
  have hempty : nativeStart.state.lifecycle = .empty := rfl
  have h := one_command_per_target hempty cancelledOnce cancelledOnce_fresh
  exact ⟨hempty, cancelledOnce_fresh, hfirst, fun j b hb htarget hcertified =>
    h.2 (cancelDigest 1) j releasedEntry b hfirst hb htarget.symm rfl hcertified⟩

/-- After the release of the order its second cancellation is certified: two commands of one order
have a certificate, and the barrier waits for a release that cannot come any more. -/
theorem two_commands_certified :
    let last := (StoreOp.run (cancelledOnce ++ [nativeAccept secondCancelled 90]) nativeStart).state
    last.lifecycle.get? (cancelDigest 1) = some releasedEntry ∧
      last.lifecycle.get? (cancelDigest 2) =
        some ⟨cancel 2, nativeManifest, some secondCancelled, none⟩ ∧
      (cancel 1).target = (cancel 2).target ∧ cancelDigest 1 ≠ cancelDigest 2 ∧ ¬ last.Settled := by
  rw [cancelledOnce, StoreOp.run_append, StoreOp.run_append, run_beforeCancelled]
  decide +kernel

end Sample

end Oclob.Node
