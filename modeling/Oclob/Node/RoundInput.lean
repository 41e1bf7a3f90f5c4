import Oclob.Node.Calls

/-!
# The input of a round

What `prepare_round` asks of the orders it is given. The arriving order is opened from its sealed
share, which checks its market, its deadline and that no certified lifecycle command ends it. A
resting order without a private head is opened the same way; one with a private head is read from
the state file of the round that left it there, and none of the three is checked again.

`prepareRound_isOk` says exactly when the input is prepared, and `prepareRound_valid_iff` what is
missing: every order of a prepared round is valid exactly if those read from a private head are.
-/

namespace Oclob.Node

open Oclob.Core Oclob.Lib Oclob.Edge Oclob.Ordering

/-- The order can take part in a round of `market` at `now`: it is stored, for that market, before
its deadline, and not ended by a certified lifecycle command. -/
def StoreState.ValidOrder (state : StoreState) (market : String) (now : Nat)
    (commitment : Digest32) : Prop :=
  (∃ record, state.records.get? commitment = some record ∧ record.manifest.marketId = market ∧
    now ≤ record.manifest.retentionDeadline) ∧
  state.lifecycleBlocks commitment = false

namespace NodeShareStore

variable [NodeCrypto] {store : NodeShareStore} {files : PrivateFiles} {market : String}
  {now : Nat} {commitment arriving : Digest32} {resting : List Digest32}

/-! ## One order -/

theorem openRecord_ok {record : StoredRecord} {share : PartyOrderShare}
    (h : store.openRecord commitment market now = .ok (record, share)) :
    store.state.ValidOrder market now commitment := by
  simp only [openRecord, ok_rules, Prod.mk.injEq] at h
  obtain ⟨-, hblocks, found, hfound, -, hmarket, opened, hopen, -, -⟩ := h
  obtain ⟨-, -, -, hdeadline, -⟩ := (SealedPartyShare.open_ok hopen).2.2
  exact ⟨⟨found, hfound, hmarket, hdeadline⟩, hblocks⟩

/-- The original fields of an order are those of its opened share. -/
theorem originalPrivateFields_isOk :
    (∃ fields, store.originalPrivateFields commitment market now = .ok fields) ↔
      ∃ opened, store.openRecord commitment market now = .ok opened := by
  constructor
  · rintro ⟨fields, h⟩
    obtain ⟨opened, hopened, -⟩ := except_bind_eq_ok.mp h
    exact ⟨opened, hopened⟩
  · rintro ⟨⟨record, share⟩, h⟩
    exact ⟨_, except_bind_eq_ok.mpr ⟨_, h, rfl⟩⟩

/-- A resting order without a private head is checked like the arriving one. -/
theorem privateOrderFields_valid {fields : List String}
    (h : store.privateOrderFields files commitment market now = .ok fields)
    (hhead : store.state.privateHeads.get? commitment = none) :
    store.state.ValidOrder market now commitment := by
  rw [privateOrderFields, hhead] at h
  obtain ⟨⟨record, share⟩, hopened⟩ := originalPrivateFields_isOk.mp ⟨fields, h⟩
  exact openRecord_ok hopened

/-! ## The slots -/

/-- The slots are filled if every resting order in them can be read. -/
theorem slotFields_isOk (slots : Nat) :
    (∃ fields, store.slotFields files market now resting slots = .ok fields) ↔
      ∀ slot < slots, ∀ commitment, resting[slot]? = some commitment →
        ∃ fields, store.privateOrderFields files commitment market now = .ok fields := by
  induction slots with
  | zero =>
    refine iff_of_true ⟨_, rfl⟩ fun slot hslot => ?_
    exact absurd hslot (Nat.not_lt_zero slot)
  | succ slots ih =>
    constructor
    · rintro ⟨fields, h⟩
      rw [slotFields] at h
      obtain ⟨before, hbefore, hlast⟩ := except_bind_eq_ok.mp h
      intro slot hslot commitment hcommitment
      rcases Nat.lt_succ_iff_lt_or_eq.mp hslot with hlt | rfl
      · exact ih.mp ⟨before, hbefore⟩ slot hlt commitment hcommitment
      · rw [hcommitment] at hlast
        obtain ⟨last, hlast, -⟩ := except_bind_eq_ok.mp hlast
        exact ⟨last, hlast⟩
    · intro h
      obtain ⟨before, hbefore⟩ := ih.mpr fun slot hslot => h slot (Nat.lt_succ_of_lt hslot)
      rw [slotFields, hbefore]
      cases hslot : resting[slots]? with
      | none => exact ⟨_, rfl⟩
      | some commitment =>
        obtain ⟨fields, hfields⟩ := h slots (Nat.lt_succ_self slots) commitment hslot
        refine ⟨before ++ fields, ?_⟩
        simp only [bind, Except.bind, hfields]
        rfl

omit [NodeCrypto] in
theorem manifestsOf_isOk {state : StoreState} :
    (∃ manifests, manifestsOf state resting = .ok manifests) ↔
      ∀ commitment ∈ resting, ∃ record, state.records.get? commitment = some record := by
  induction resting with
  | nil => simp [manifestsOf]
  | cons commitment rest ih =>
    rw [List.forall_mem_cons, ← ih]
    constructor
    · rintro ⟨manifests, h⟩
      simp only [manifestsOf, ok_rules] at h
      obtain ⟨record, hrecord, others, hothers, -⟩ := h
      exact ⟨⟨record, hrecord⟩, others, hothers⟩
    · rintro ⟨⟨record, hrecord⟩, others, hothers⟩
      refine ⟨record.manifest :: others, ?_⟩
      simp only [manifestsOf, ok_rules]
      exact ⟨record, hrecord, others, hothers, rfl⟩

/-! ## The round -/

/-- The input of a round whose orders can be read. -/
theorem prepareRound_eq {opened : StoredRecord × PartyOrderShare} {record : StoredRecord}
    {original fields : List String} {manifests : List EdgeOrderManifest}
    (hsettled : store.state.Settled)
    (hshape : 0 < market.utf8ByteSize ∧ market.utf8ByteSize ≤ 64 ∧
      resting.length ≤ maxMatchSlots ∧ arriving ∉ resting ∧ resting.Nodup)
    (hopened : store.openRecord arriving market now = .ok opened)
    (horiginal : store.originalPrivateFields arriving market now = .ok original)
    (hfields : store.slotFields files market now resting maxMatchSlots = .ok fields)
    (hrecord : store.state.records.get? arriving = some record)
    (hmanifests : manifestsOf store.state resting = .ok manifests) :
    let contents := asBytes (" ".intercalate (fields ++ [original.getD 1 "", original.getD 2 "",
      original.getD 3 "", scalarDecimal (opened.2.valueShares.getD 5 0), original.getD 4 "",
      original.getD 5 "", original.getD 6 "", original.getD 7 ""])) ++ [10]
    store.prepareRound files market resting arriving now = .ok {
      party := store.state.party
      generation := store.state.generation
      roundCommitment := roundCommitment store.state.party store.state.generation resting arriving
        contents
      privateParentDigest := privateParentDigest store.state resting arriving
      contents
      arrivingManifest := record.manifest
      restingManifests := manifests } := by
  simp only [prepareRound, StoreState.requireLifecycleBarrier, require, if_pos hsettled,
    if_pos hshape, hopened, horiginal, hfields, hrecord, hmanifests, okOr, bind, Except.bind]
  rfl

/-- **When the input of a round is prepared.** -/
theorem prepareRound_isOk :
    (∃ prepared, store.prepareRound files market resting arriving now = .ok prepared) ↔
      store.state.Settled ∧ (0 < market.utf8ByteSize ∧ market.utf8ByteSize ≤ 64 ∧
        resting.length ≤ maxMatchSlots ∧ arriving ∉ resting ∧ resting.Nodup) ∧
      (∃ opened, store.openRecord arriving market now = .ok opened) ∧
      ∀ commitment ∈ resting,
        (∃ fields, store.privateOrderFields files commitment market now = .ok fields) ∧
        ∃ record, store.state.records.get? commitment = some record := by
  constructor
  · rintro ⟨prepared, h⟩
    simp only [prepareRound, StoreState.requireLifecycleBarrier, ok_rules] at h
    obtain ⟨-, hsettled, -, hshape, opened, hopened, -, -, fields, hfields, -, -, manifests,
      hmanifests, -⟩ := h
    refine ⟨hsettled, hshape, ⟨opened, hopened⟩, fun commitment hmem => ⟨?_, ?_⟩⟩
    · obtain ⟨slot, hslot, hget⟩ := List.getElem_of_mem hmem
      exact (slotFields_isOk maxMatchSlots).mp ⟨fields, hfields⟩ slot
        (hslot.trans_le hshape.2.2.1) commitment (List.getElem?_eq_some_iff.mpr ⟨hslot, hget⟩)
    · exact manifestsOf_isOk.mp ⟨manifests, hmanifests⟩ commitment hmem
  · rintro ⟨hsettled, hshape, ⟨⟨stored, share⟩, hopened⟩, hresting⟩
    obtain ⟨original, horiginal⟩ := originalPrivateFields_isOk.mpr ⟨(stored, share), hopened⟩
    obtain ⟨⟨record, hrecord, -⟩, -⟩ := openRecord_ok hopened
    obtain ⟨manifests, hmanifests⟩ := manifestsOf_isOk.mpr fun commitment hmem =>
      (hresting commitment hmem).2
    obtain ⟨fields, hfields⟩ : ∃ fields, store.slotFields files market now resting maxMatchSlots =
        .ok fields := by
      refine (slotFields_isOk maxMatchSlots).mpr fun slot _ commitment hget => ?_
      exact (hresting commitment (List.mem_of_getElem? hget)).1
    exact ⟨_, prepareRound_eq hsettled hshape hopened horiginal hfields hrecord hmanifests⟩

/-- What the parent digest hashes of an order: its commitment and the head it has. -/
def parentBytes (heads : OrdMap Digest32 PrivateBookStateRef) (commitment : Digest32) : Bytes :=
  commitment.bytes ++
    match heads.get? commitment with
    | some head => 1 :: head.roundId.bytes ++ head.privateStateSha256.bytes ++
        toBeBytes 2 head.wireOffset
    | none => [0]

/-- What `private_parent_digest` hashes. -/
def parentText (heads : OrdMap Digest32 PrivateBookStateRef) (resting : List Digest32)
    (arriving : Digest32) : Bytes :=
  asBytes "OCLOB:PRIVATE-BOOK-PARENTS:v1" ++ toBeBytes 8 resting.length ++
    resting.flatMap (parentBytes heads) ++ arriving.bytes

/-- The parents of a prepared round are the private heads of its resting orders. -/
theorem prepareRound_parent {prepared : PreparedPartyInput}
    (h : store.prepareRound files market resting arriving now = .ok prepared) :
    prepared.privateParentDigest =
      sha256 (parentText store.state.privateHeads resting arriving) := by
  simp only [prepareRound, ok_rules] at h
  obtain ⟨-, -, -, -, -, -, -, -, -, -, -, -, -, -, rfl⟩ := h
  rfl

/-- **The orders of a prepared round are valid** exactly if the resting orders that are read from a
private head are. -/
theorem prepareRound_valid_iff {prepared : PreparedPartyInput}
    (h : store.prepareRound files market resting arriving now = .ok prepared) :
    ((∀ commitment ∈ arriving :: resting, store.state.ValidOrder market now commitment) ∧
        (arriving :: resting).Nodup) ↔
      ∀ commitment ∈ resting, ∀ record, store.state.records.get? commitment = some record →
        (store.state.privateHeads.get? commitment).isSome →
        record.manifest.marketId = market ∧ now ≤ record.manifest.retentionDeadline ∧
          store.state.lifecycleBlocks commitment = false := by
  obtain ⟨-, hshape, ⟨⟨record, share⟩, hopened⟩, hresting⟩ := prepareRound_isOk.mp ⟨prepared, h⟩
  have hnodup : (arriving :: resting).Nodup :=
    List.nodup_cons.mpr ⟨hshape.2.2.2.1, hshape.2.2.2.2⟩
  constructor
  · rintro ⟨hvalid, -⟩ commitment hmem record hrecord -
    obtain ⟨⟨found, hfound, hmarket, hdeadline⟩, hblocks⟩ :=
      hvalid commitment (List.mem_cons_of_mem _ hmem)
    obtain rfl := Option.some.inj (hrecord.symm.trans hfound)
    exact ⟨hmarket, hdeadline, hblocks⟩
  · intro hheads
    refine ⟨List.forall_mem_cons.mpr ⟨openRecord_ok hopened, fun commitment hmem => ?_⟩, hnodup⟩
    obtain ⟨⟨fields, hfields⟩, found, hfound⟩ := hresting commitment hmem
    cases hhead : store.state.privateHeads.get? commitment with
    | none => exact privateOrderFields_valid hfields hhead
    | some head =>
      obtain ⟨hmarket, hdeadline, hblocks⟩ :=
        hheads commitment hmem found hfound (by rw [hhead]; rfl)
      exact ⟨⟨found, hfound, hmarket, hdeadline⟩, hblocks⟩

end NodeShareStore

section Sample

attribute [local instance] transparentNodeCrypto

open NodeShareStore

/-! An order that rests with a private head, its deadline as given, and the sample order arriving
at time 50. -/

def restingManifest (deadline : Nat) : EdgeOrderManifest :=
  let draft := { sampleDraft 2 with retentionDeadline := deadline }
  { draft with
    commitment := draft.derivedCommitment
    signature := (15 : Digest32).bytes ++
      (asBytes "OCLOB:EDGE-MANIFEST-SIGNATURE:v2" ++ draft.derivedCommitment.bytes) }

def restingStore (deadline : Nat) : NodeShareStore where
  key := sampleDecryptionKey
  state := { emptyState 0 [] with
    records := (OrdMap.empty.insert (sampleManifest 1).commitment (sampleRecord 1 0 10)).insert
      (restingManifest deadline).commitment ⟨restingManifest deadline, sampleSealedShare 2 0,
        some (sampleSealedCapability 2 0), 10, none⟩
    privateHeads := OrdMap.empty.insert (restingManifest deadline).commitment
      ⟨21, 9, 0, 31, 32, 7⟩ }
  file := []
  reservationTrust := none

def headFiles : PrivateFiles := some fun _ => some ⟨1, 9, List.replicate persistenceWires 0⟩

theorem restingStore_record (deadline : Nat) :
    (restingStore deadline).state.records.get? (restingManifest deadline).commitment =
      some ⟨restingManifest deadline, sampleSealedShare 2 0, some (sampleSealedCapability 2 0), 10,
        none⟩ :=
  OrdMap.get?_insert_self

/-- The round is prepared whatever the deadline of the resting order is. -/
theorem restingStore_prepareRound {deadline : Nat}
    (hne : (sampleManifest 1).commitment ≠ (restingManifest deadline).commitment) :
    ∃ prepared, (restingStore deadline).prepareRound headFiles "JGB10Y-JPY"
      [(restingManifest deadline).commitment] (sampleManifest 1).commitment 50 = .ok prepared := by
  have hname : 0 < "JGB10Y-JPY".utf8ByteSize ∧ "JGB10Y-JPY".utf8ByteSize ≤ 64 := by decide
  have hrecord : (restingStore deadline).state.records.get? (sampleManifest 1).commitment =
      some (sampleRecord 1 0 10) := by
    refine (OrdMap.get?_insert _ _ _ _).trans ((if_neg hne).trans ?_)
    exact OrdMap.get?_insert_self
  have hhead : (restingStore deadline).state.privateHeads.get?
      (restingManifest deadline).commitment = some ⟨21, 9, 0, 31, 32, 7⟩ :=
    OrdMap.get?_insert_self
  have hsettled : (restingStore deadline).state.Settled :=
    ⟨fun entry hentry => absurd hentry List.not_mem_nil,
      fun round hround => absurd hround List.not_mem_nil⟩
  have hshares : (sampleSealedShare 1 0).open sampleDecryptionKey (sampleManifest 1) 0 50 =
      .ok (sampleShare 1 0) := sampleSealedShare_open (by decide) (by decide) (by decide)
  have hfile : verifyPrivateStateFile headFiles 21 9 =
      .ok ⟨1, 9, List.replicate persistenceWires 0⟩ := by
    simp only [verifyPrivateStateFile, ok_rules]
    exact ⟨_, rfl, _, rfl, (), by decide, (), rfl, (), List.length_replicate, rfl⟩
  refine prepareRound_isOk.mpr ⟨hsettled,
    ⟨hname.1, hname.2, (by decide : 1 ≤ 8), ?_, List.nodup_singleton _⟩,
    ⟨(sampleRecord 1 0 10, sampleShare 1 0), ?_⟩, fun commitment hmem => ?_⟩
  · rwa [List.mem_singleton]
  · simp only [openRecord, hrecord, ok_rules]
    exact ⟨(), rfl, _, rfl, (), rfl, _, hshares, rfl⟩
  · obtain rfl := List.mem_singleton.mp hmem
    refine ⟨⟨((List.replicate persistenceWires 0).take privateOrderWires).map toString, ?_⟩, _,
      restingStore_record deadline⟩
    rw [privateOrderFields, hhead]
    simp only [hfile, ok_rules]
    exact ⟨_, rfl, (), by rw [List.length_replicate]; decide, rfl⟩

/-- Before its deadline the resting order is valid. -/
theorem prepareRound_valid_sample :
    (restingStore 2000).state.ValidOrder "JGB10Y-JPY" 50 (restingManifest 2000).commitment := by
  obtain ⟨prepared, hprepared⟩ := restingStore_prepareRound
    (by decide +kernel : (sampleManifest 1).commitment ≠ (restingManifest 2000).commitment)
  refine ((prepareRound_valid_iff hprepared).mpr fun commitment hmem record hrecord _ => ?_).1 _
    (List.mem_cons_of_mem _ List.mem_cons_self)
  obtain rfl := List.mem_singleton.mp hmem
  obtain rfl := Option.some.inj ((restingStore_record 2000).symm.trans hrecord)
  exact ⟨rfl, by decide, rfl⟩

/-- **An expired order enters a round.** The resting order's deadline is 40; it has a private head,
so the round at time 50 is prepared with it. -/
theorem expired_resting_order_prepared :
    (∃ prepared, (restingStore 40).prepareRound headFiles "JGB10Y-JPY"
      [(restingManifest 40).commitment] (sampleManifest 1).commitment 50 = .ok prepared) ∧
    ¬ (restingStore 40).state.ValidOrder "JGB10Y-JPY" 50 (restingManifest 40).commitment := by
  refine ⟨restingStore_prepareRound (by decide +kernel), ?_⟩
  rintro ⟨⟨record, hrecord, -, hdeadline⟩, -⟩
  obtain rfl := Option.some.inj ((restingStore_record 40).symm.trans hrecord)
  exact absurd hdeadline (by decide)

end Sample

end Oclob.Node
