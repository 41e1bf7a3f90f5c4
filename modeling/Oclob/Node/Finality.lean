import Oclob.Node.Lifecycle

/-!
# Private heads and the finality of rounds

`finalize_private_round` moves the private heads of a round's orders once the settlement of the
round is final. A round is executed, its fills are observed and it is finalized in separate calls,
with other calls and other rounds between them. `private_heads_follow_finality` says, for every run
of a node, when an event moves a private head: a release drops the head of its order, and a
finalization has

* for a native round, an observed record for each matched slot, of the pair of orders in that slot,
  with the finality it was given as their aggregate (`ObservedFinality`);
* the parents that were hashed when the round was executed (`Parented`, `parentText_inj`).

A round that is finalized stays so, and finalizing it again gives the stored receipt or fails.
-/

namespace Oclob.Node

open Oclob.Core Oclob.Lib Oclob.Edge Oclob.Ordering NodeShareStore OrdMap
open NodeShareStore (parentBytes parentText)

/-! ## What a parent digest stands for -/

/-- What `private_parent_digest` hashes of a head. -/
def hashedHead (head : PrivateBookStateRef) : Digest32 × Digest32 × Nat :=
  (head.roundId, head.privateStateSha256, head.wireOffset)

/-- The wire offsets of the heads fit `u16`. -/
def OffsetsFit (heads : PrivateHeads) : Prop :=
  ∀ commitment head, heads.get? commitment = some head → head.wireOffset < 2 ^ 16

/-- What is hashed of an order and its head. -/
def parentCode : Digest32 × Option (Digest32 × Digest32 × Nat) → Bytes
  | (commitment, none) => commitment.bytes ++ [0]
  | (commitment, some (roundId, state, offset)) =>
    commitment.bytes ++ 1 :: roundId.bytes ++ state.bytes ++ toBeBytes 2 offset

theorem parentBytes_eq (heads : PrivateHeads) (commitment : Digest32) :
    parentBytes heads commitment =
      parentCode (commitment, (heads.get? commitment).map hashedHead) := by
  rw [parentBytes]
  cases heads.get? commitment with
  | none => rfl
  | some head => simp [parentCode, hashedHead]

theorem selfDelimiting_parentCode : SelfDelimiting parentCode fun parent =>
    ∀ head, parent.2 = some head → head.2.2 < 256 ^ 2 := by
  rintro ⟨a, u⟩ ⟨b, v⟩ ha hb x y h
  cases u with
  | none =>
    cases v with
    | none =>
      simp only [parentCode, List.append_assoc] at h
      obtain ⟨hcommitment, h⟩ := selfDelimiting_digest _ _ trivial trivial _ _ h
      rw [hcommitment]
      exact ⟨rfl, (List.cons.inj h).2⟩
    | some head =>
      simp only [parentCode, List.append_assoc] at h
      obtain ⟨-, h⟩ := selfDelimiting_digest _ _ trivial trivial _ _ h
      exact absurd (List.cons.inj h).1 (by decide)
  | some first =>
    cases v with
    | none =>
      simp only [parentCode, List.append_assoc] at h
      obtain ⟨-, h⟩ := selfDelimiting_digest _ _ trivial trivial _ _ h
      exact absurd (List.cons.inj h).1 (by decide)
    | some second =>
      obtain ⟨roundA, stateA, offsetA⟩ := first
      obtain ⟨roundB, stateB, offsetB⟩ := second
      simp only [parentCode, List.append_assoc, List.cons_append] at h
      have hboundA : offsetA < 256 ^ 2 := ha _ rfl
      have hboundB : offsetB < 256 ^ 2 := hb _ rfl
      obtain ⟨hcommitment, h⟩ := selfDelimiting_digest _ _ trivial trivial _ _ h
      obtain ⟨hround, h⟩ := selfDelimiting_digest _ _ trivial trivial _ _ (List.cons.inj h).2
      obtain ⟨hstate, h⟩ := selfDelimiting_digest _ _ trivial trivial _ _ h
      obtain ⟨hoffset, h⟩ := selfDelimiting_toBeBytes 2 _ _ hboundA hboundB _ _ h
      rw [hcommitment, hround, hstate, hoffset]
      exact ⟨rfl, h⟩

theorem length_parentBytes (heads : PrivateHeads) (commitment : Digest32) :
    33 ≤ (parentBytes heads commitment).length ∧ (parentBytes heads commitment).length ≤ 99 := by
  rw [parentBytes]
  cases heads.get? commitment <;> simp [Digest32.bytes]

theorem length_parents (heads : PrivateHeads) (resting : List Digest32) :
    33 * resting.length ≤ (resting.flatMap (parentBytes heads)).length ∧
      (resting.flatMap (parentBytes heads)).length ≤ 99 * resting.length := by
  induction resting with
  | nil => exact ⟨Nat.le_refl _, Nat.le_refl _⟩
  | cons commitment rest ih =>
    have hone := length_parentBytes heads commitment
    rw [List.flatMap_cons, List.length_append, List.length_cons]
    omega

/-- **A parent text determines its orders and what is hashed of their heads.** -/
theorem parentText_inj {heads heads' : PrivateHeads} {resting resting' : List Digest32}
    {arriving arriving' : Digest32} (hfit : OffsetsFit heads) (hfit' : OffsetsFit heads')
    (hshort : resting.length ≤ maxMatchSlots)
    (h : parentText heads resting arriving = parentText heads' resting' arriving') :
    resting = resting' ∧ arriving = arriving' ∧ ∀ commitment ∈ resting,
      (heads.get? commitment).map hashedHead = (heads'.get? commitment).map hashedHead := by
  have htotal := congrArg List.length h
  have hbounds := length_parents heads resting
  have hbounds' := length_parents heads' resting'
  simp only [parentText, List.append_assoc] at h
  have h := List.append_cancel_left h
  simp only [parentText, List.length_append, length_toBeBytes, Digest32.bytes] at htotal
  rw [maxMatchSlots] at hshort
  obtain ⟨hlength, h⟩ := selfDelimiting_toBeBytes 8 _ _ (by omega) (by omega) _ _ h
  have hmap : ∀ (heads : PrivateHeads) (l : List Digest32), l.flatMap (parentBytes heads) =
      (l.map fun commitment => (commitment, (heads.get? commitment).map hashedHead)).flatMap
        parentCode := by
    intro heads l
    rw [List.flatMap_map]
    exact congrArg (List.flatMap · l) (funext fun commitment => parentBytes_eq heads commitment)
  rw [hmap heads, hmap heads'] at h
  have hoffset : ∀ {heads : PrivateHeads}, OffsetsFit heads → ∀ (l : List Digest32),
      ∀ parent ∈ l.map fun commitment => (commitment, (heads.get? commitment).map hashedHead),
        ∀ head, parent.2 = some head → head.2.2 < 256 ^ 2 := by
    intro heads hfit l parent hparent head hhead
    obtain ⟨commitment, -, rfl⟩ := List.mem_map.mp hparent
    obtain ⟨found, hfound, rfl⟩ := Option.map_eq_some_iff.mp hhead
    exact hfit commitment found hfound
  obtain ⟨hparents, harriving⟩ := selfDelimiting_parentCode.flatMap_append (hoffset hfit resting)
    (hoffset hfit' resting') (by rw [List.length_map, List.length_map, hlength]) h
  have hresting : resting = resting' := by
    have hcommitments := congrArg (List.map Prod.fst) hparents
    simpa only [List.map_map, Function.comp_def, List.map_id'] using hcommitments
  subst hresting
  refine ⟨rfl, ?_, fun commitment hmem => ?_⟩
  · have harriving : arriving.bytes ++ [] = arriving'.bytes ++ [] := by
      rw [List.append_nil, List.append_nil, harriving]
    exact (selfDelimiting_digest _ _ trivial trivial _ _ harriving).1
  · exact congrArg Prod.snd (List.map_inj_left.mp hparents commitment hmem)

/-! ## What a complete observation is -/

theorem mem_matchedSlots {receipt : NodeExecutionReceipt} {slot : Nat} :
    slot ∈ matchedSlots receipt ↔
      (receipt.result.slots[slot]?).any MpcSlotResult.matched = true := by
  simp only [matchedSlots, List.mem_map, List.mem_filter, Prod.exists, List.mem_zipIdx_iff_getElem?,
    Option.any_eq_true]
  constructor
  · rintro ⟨result, index, ⟨hget, hmatched⟩, rfl⟩
    exact ⟨result, hget, hmatched⟩
  · rintro ⟨result, hget, hmatched⟩
    exact ⟨result, slot, ⟨hget, hmatched⟩, rfl⟩

section

variable [NodeCrypto] [Serde]

variable {finality : PrivateStateFinality} {store : NodeShareStore}

omit [NodeCrypto] in
/-- The records that are aggregated stand under their slots. -/
theorem aggregateFinality_slot [Crypto] {records : SlotRecords}
    (h : aggregateFinality records = .ok finality) {slot : Nat} {record : NativeFinalityRecord}
    (hrecord : records.get? slot = some record) : record.slot = slot := by
  have hmem := mem_entries_iff.mpr hrecord
  unfold aggregateFinality at h
  split at h
  · exact absurd h (by simp)
  · split at h
    · obtain ⟨⟨⟩, hgroup, -⟩ := except_bind_eq_ok.mp h
      have hall := (Bool.and_eq_true_iff.mp (require_eq_ok.mp hgroup)).1
      exact (of_decide_eq_true (List.all_eq_true.mp hall _ hmem)).1.symm
    · obtain ⟨⟨⟩, hfills, -⟩ := except_bind_eq_ok.mp h
      have hall := (Bool.and_eq_true_iff.mp (require_eq_ok.mp hfills)).1
      exact (of_decide_eq_true (List.all_eq_true.mp hall _ hmem)).1.symm

/-- One of the orders of a round holds a reservation. -/
def NativeRound (state : StoreState) (plan : RoundPlan) : Prop :=
  ∃ commitment ∈ plan.resting ++ [plan.arriving], ∃ record,
    state.records.get? commitment = some record ∧
      record.manifest.usesPretradeReservation = true

/-- The node has observed one record for each matched slot of a round and no other, each of the two
orders that met in the slot, and `finality` is their aggregate. -/
def ObservedFinality (state : StoreState) (plan : RoundPlan) (finality : PrivateStateFinality) :
    Prop :=
  ∃ receipt records, state.completedRounds.get? plan.roundId = some receipt ∧
    state.nativeFinalities.get? plan.roundId = some records ∧
    (∀ slot, (∃ record, records.get? slot = some record) ↔
      (receipt.result.slots[slot]?).any MpcSlotResult.matched = true) ∧
    (∀ slot record, records.get? slot = some record →
      plan.resting[slot]? = some record.makerOrder ∧ record.takerOrder = plan.arriving) ∧
    aggregateFinality records = .ok finality

theorem checkObserved_ok {state : StoreState} {plan : RoundPlan} {receipt : NodeExecutionReceipt}
    (hround : state.completedRounds.get? plan.roundId = some receipt)
    (h : checkObserved state plan receipt finality = .ok ()) :
    ObservedFinality state plan finality := by
  simp only [checkObserved, requireComplete, ok_rules] at h
  obtain ⟨records, hrecords, ⟨⟩, ⟨⟨⟩, ⟨-, hkeys⟩, ⟨⟩, -, aggregate, haggregate, rfl⟩, hpairs⟩ := h
  refine ⟨receipt, records, hround, hrecords, fun slot => ?_, fun slot record hrecord => ?_,
    haggregate⟩
  · rw [← mem_keys, hkeys, mem_matchedSlots]
  · obtain ⟨hmaker, htaker⟩ := hpairs record (mem_values.mpr ⟨slot, hrecord⟩)
    rw [aggregateFinality_slot haggregate hrecord] at hmaker
    exact ⟨hmaker, htaker.symm⟩

/-- A native round passes the checks only with a complete observation. -/
theorem checkFinality_native {state : StoreState} {plan : RoundPlan}
    {receipt : NodeExecutionReceipt}
    {candidate : PrivateRoundFinalization}
    (h : checkFinality state plan finality = .ok (receipt, candidate))
    (hnew : state.finalizedPrivateRounds.get? plan.roundId = none)
    (hnative : NativeRound state plan) : ObservedFinality state plan finality := by
  simp only [checkFinality, ok_rules] at h
  obtain ⟨⟨⟩, -, ⟨⟩, -, found, hfound, ⟨⟩, -, required, hrequired, h⟩ := h
  have htrue : required = true := by
    simp only [nativeFinalityRequired, hnew, ok_rules] at hrequired
    obtain ⟨records, hrecords, rfl⟩ := hrequired
    obtain ⟨commitment, hmem, record, hrecord, huses⟩ := hnative
    obtain ⟨found, hfound, hlookup⟩ := exists_of_mapM_eq_some hrecords commitment hmem
    obtain rfl := Option.some.inj (hrecord.symm.trans hlookup)
    exact List.any_eq_true.mpr ⟨record, hfound, huses⟩
  rw [htrue, if_pos rfl] at h
  simp only [ok_rules, Prod.mk.injEq] at h
  obtain ⟨⟨⟩, hobserved, rfl, -⟩ := h
  exact checkObserved_ok hfound hobserved

/-! ## What a call does to the heads and to finalized rounds -/

/-- Only a release and a finalization move private heads. -/
theorem StoreOp.privateHeads_apply (op : StoreOp) (store : NodeShareStore) :
    (op.apply store).state.privateHeads = store.state.privateHeads ∨
      (∃ disk observation target, op = .confirmRelease disk observation ∧
        (op.apply store).state.privateHeads = store.state.privateHeads.erase target) ∨
      ∃ disk files plan finality key, op = .finalizePrivateRound disk files plan finality key := by
  by_cases hop : ∃ disk files plan finality key,
      op = .finalizePrivateRound disk files plan finality key
  · exact Or.inr (Or.inr hop)
  have hedit : ∀ g next, Edit store op g next → next.privateHeads = store.state.privateHeads ∨
      ∃ disk observation target, op = .confirmRelease disk observation ∧
        next.privateHeads = store.state.privateHeads.erase target := by
    intro g next hedit
    cases hedit with
    | finalizePrivateRound g hcheck hnew hsigned => exact absurd ⟨_, _, _, _, _, rfl⟩ hop
    | confirmRelease g hcheck hnew => exact Or.inr ⟨_, _, _, rfl, rfl⟩
    | _ => exact Or.inl rfl
  cases op.effect store with
  | kept hstate hfile => exact Or.inl (congrArg StoreState.privateHeads hstate)
  | wrote g next hwrote hg hout =>
    rw [hout.1]
    exact (hedit g next hwrote).imp_right Or.inl
  | exhausted next heager hg hwrote hstate =>
    rw [hstate]
    exact (hedit _ next hwrote).imp_right Or.inl
  | partialHeads disk files plan finality key hfinalize hlong heads hstate =>
    exact absurd ⟨_, _, _, _, _, hfinalize⟩ hop

theorem StoreOp.offsetsFit_apply (op : StoreOp)
    (h : OffsetsFit store.state.privateHeads) :
    OffsetsFit (op.apply store).state.privateHeads := by
  rcases op.privateHeads_apply store with
    hsame | ⟨disk, observation, target, -, herased⟩ | ⟨disk, files, plan, finality, key, rfl⟩
  · rwa [hsame]
  · intro commitment head hget
    rw [herased, get?_erase] at hget
    split at hget
    · exact absurd hget (by simp)
    · exact h commitment head hget
  · rcases finalizePrivateRound_heads disk files plan finality key store with
      hsame | ⟨receipt, candidate, -, -, -, hheads⟩
    · rwa [hsame]
    · intro commitment head hget
      rcases hheads commitment with hsame | ⟨-, hnone | ⟨offset, hoffset, hhead⟩⟩
      · exact h commitment head (hsame.symm.trans hget)
      · exact absurd (hnone.symm.trans hget) (by simp)
      · obtain rfl := Option.some.inj (hhead.symm.trans hget)
        exact hoffset

/-- A finalized round stays as it is. -/
theorem Edit.finalized {op : StoreOp} {g : Nat} {next : StoreState}
    (h : Edit store op g next) {id : Digest32} {entry : PrivateRoundFinalization}
    (hentry : store.state.finalizedPrivateRounds.get? id = some entry) :
    next.finalizedPrivateRounds.get? id = some entry := by
  cases h with
  | @finalizePrivateRound disk files plan finality key receipt candidate next signed g hcheck hnew
      hsigned =>
    rw [signedFinalization_ok hsigned]
    have hne : id ≠ plan.roundId := by
      rintro rfl
      exact absurd (hnew.symm.trans hentry) (by simp)
    exact (get?_insert _ _ _ _).trans ((if_neg hne).trans hentry)
  | _ => exact hentry

theorem StoreOp.finalized_apply (op : StoreOp) {id : Digest32}
    {entry : PrivateRoundFinalization}
    (h : store.state.finalizedPrivateRounds.get? id = some entry) :
    (op.apply store).state.finalizedPrivateRounds.get? id = some entry :=
  (op.effect store).preserves (P := fun state => state.finalizedPrivateRounds.get? id = some entry)
    (fun _ => h) fun _ _ hedit => hedit.finalized h

namespace NodeShareStore

/-- A finalization that succeeds returns the stored receipt, or the one it stores. -/
theorem finalizePrivateRound_ok {disk : Disk} {files : PrivateFiles} {plan : RoundPlan}
    {finality : PrivateStateFinality} {key : Bytes} {store out : NodeShareStore}
    {signed : NodePrivateStateReceipt}
    (h : (finalizePrivateRound disk files plan finality key).run store = .ok signed out) :
    ∃ entry, out.state.finalizedPrivateRounds.get? plan.roundId = some entry ∧
      entry.privateStateReceipt = some signed := by
  rw [finalizePrivateRound, run_get_bind] at h
  obtain ⟨⟨receipt, candidate⟩, current, hattempt, h⟩ := run_bind_eq_ok.mp h
  obtain ⟨-, rfl⟩ := run_attempt_eq_ok.mp hattempt
  dsimp only at h
  split at h
  · rename_i existing hexisting
    obtain ⟨hstored, rfl⟩ := run_attempt_eq_ok.mp h
    simp only [finalizedReceipt, ok_rules] at hstored
    obtain ⟨-, -, found, hfound, -, -, -, -, rfl⟩ := hstored
    exact ⟨existing, hexisting, hfound⟩
  · obtain ⟨⟨⟩, _, hparent, h⟩ := run_bind_eq_ok.mp h
    obtain ⟨-, rfl⟩ := run_ensure_eq_ok.mp hparent
    obtain ⟨file, _, hfile, h⟩ := run_bind_eq_ok.mp h
    obtain ⟨-, rfl⟩ := run_attempt_eq_ok.mp hfile
    obtain ⟨⟨⟩, moved, hheads, h⟩ := run_bind_eq_ok.mp h
    rw [run_get_bind] at h
    split at h
    · rename_i e hsigned
      obtain ⟨⟨⟩, previous, -, hthrow⟩ := run_bind_eq_ok.mp h
      exact absurd (show EStateM.Result.error e previous = .ok signed out from hthrow) (by simp)
    · rename_i next receipt' hsigned
      rw [run_set_bind] at h
      obtain ⟨⟨⟩, _, hpersist, hreturn⟩ := run_bind_eq_ok.mp h
      obtain ⟨rfl, rfl⟩ := run_pure_eq_ok.mp hreturn
      rw [(persistOr_ok hpersist).1, signedFinalization_ok hsigned]
      exact ⟨_, get?_insert_self, rfl⟩

/-- Finalizing a round again changes nothing and gives the stored receipt, if any. -/
theorem finalizePrivateRound_again {disk : Disk} {files : PrivateFiles} {plan : RoundPlan}
    {finality : PrivateStateFinality} {key : Bytes} {store : NodeShareStore}
    {entry : PrivateRoundFinalization}
    (h : store.state.finalizedPrivateRounds.get? plan.roundId = some entry) :
    let result := (finalizePrivateRound disk files plan finality key).run store
    after result = store ∧ ∀ signed out, result = .ok signed out →
      entry.privateStateReceipt = some signed := by
  have hsame : after ((finalizePrivateRound disk files plan finality key).run store) = store := by
    rcases finalizePrivateRound_cases disk files plan finality key store with
      hsame | ⟨receipt, candidate, -, hnew, -⟩
    · exact hsame
    · exact absurd (hnew.symm.trans h) (by simp)
  refine ⟨hsame, fun signed out hok => ?_⟩
  obtain ⟨found, hfound, hreceipt⟩ := finalizePrivateRound_ok hok
  rw [hok] at hsame
  obtain rfl : out = store := hsame
  obtain rfl := Option.some.inj (h.symm.trans hfound)
  exact hreceipt

end NodeShareStore

namespace DrivenNode

/-! ## Runs -/

/-- An event leaves the store alone or makes one call on it: its own, or that of a section of a
request. -/
theorem step_store (runtime : NodeRuntime) (node : DrivenNode) (event : NodeEvent) :
    (step runtime node event).store = node.store ∨ ∃ op : StoreOp,
      (step runtime node event).store = op.apply node.store ∧
        (event = .call op ∨ (∃ disk certificate policy keys now,
          op = .acceptOrderCertificate disk certificate policy keys now) ∨
          ∃ disk receipt, op = .recordCompletedRound disk receipt) := by
  cases event with
  | call op =>
    simp only [DrivenNode.step]
    split
    · exact Or.inl rfl
    · exact Or.inr ⟨op, rfl, Or.inl rfl⟩
  | beginRound disk request =>
    simp only [DrivenNode.step]
    split
    · exact Or.inl rfl
    · rcases request.beginRound_cases runtime disk node.store with ⟨hsame, -⟩ | ⟨hcall, -⟩
      · exact Or.inl hsame
      · exact Or.inr ⟨_, hcall, Or.inr (Or.inl ⟨_, _, _, _, _, rfl⟩)⟩
  | prepareInput files =>
    simp only [DrivenNode.step]
    split
    · split <;> exact Or.inl rfl
    · exact Or.inl rfl
  | finishRound disk outcome =>
    simp only [DrivenNode.step]
    split
    · rename_i request prepared heads hrunning
      rcases request.finishRound_cases runtime disk outcome prepared node.store with
        hsame | ⟨receipt, hcall, -⟩
      · exact Or.inl hsame
      · exact Or.inr ⟨_, hcall, Or.inr (Or.inr ⟨_, _, rfl⟩)⟩
    · exact Or.inl rfl

variable {node : DrivenNode}

theorem finalized_run (runtime : NodeRuntime) (events : List NodeEvent)
    {id : Digest32} {entry : PrivateRoundFinalization}
    (h : node.store.state.finalizedPrivateRounds.get? id = some entry) :
    (run runtime events node).store.state.finalizedPrivateRounds.get? id = some entry := by
  induction events generalizing node with
  | nil => exact h
  | cons event rest ih =>
    rw [run_cons]
    refine ih ?_
    rcases step_store runtime node event with hsame | ⟨op, hcall, -⟩
    · rwa [hsame]
    · rw [hcall]
      exact op.finalized_apply h

/-- The parent digest of a plan, over the heads it was computed from. -/
def HashedFrom (digest : Digest32) (plan : RoundPlan) (heads : PrivateHeads) : Prop :=
  OffsetsFit heads ∧ plan.resting.length ≤ maxMatchSlots ∧
    digest = sha256 (parentText heads plan.resting plan.arriving)

/-- The parent digests a node holds are those of the heads in its history. -/
structure Parented (node : DrivenNode) : Prop where
  heads : OffsetsFit node.store.state.privateHeads
  running : ∀ request prepared heads, node.running = some ⟨request, some (prepared, heads)⟩ →
    HashedFrom prepared.privateParentDigest request.plan heads
  rounds : ∀ id receipt, node.store.state.completedRounds.get? id = some receipt →
    ∃ execution ∈ node.executed, execution.plan.roundId = id ∧ execution.receipt = receipt ∧
      HashedFrom receipt.privateParentDigest execution.plan execution.heads

omit [Serde] in
theorem parented_start {store : NodeShareStore} (hheads : store.state.privateHeads = .empty)
    (hrounds : store.state.completedRounds = .empty) : Parented (start store) where
  heads commitment head h := by
    rw [start, hheads] at h
    exact absurd h (by simp)
  running request prepared heads h := absurd h (by simp [start])
  rounds id receipt h := by
    rw [start, hrounds] at h
    exact absurd h (by simp)

theorem Parented.call (h : Parented node) (runtime : NodeRuntime)
    (op : StoreOp) : Parented (step runtime node (.call op)) := by
  simp only [DrivenNode.step]
  split
  · exact h
  · rename_i hfree
    simp only [Bool.or_eq_true, not_or, Bool.not_eq_true] at hfree
    exact ⟨op.offsetsFit_apply h.heads, h.running,
      StoreOp.completedRounds_apply hfree.1 node.store ▸ h.rounds⟩

theorem Parented.beginRound (h : Parented node) (runtime : NodeRuntime)
    (disk : Disk) (request : ExecuteRequest) :
    Parented (step runtime node (.beginRound disk request)) := by
  simp only [DrivenNode.step]
  split
  · exact h
  · have hidle : ∀ started other prepared heads,
        (if started = true then some (⟨request, none⟩ : Running) else none) ≠
          some ⟨other, some (prepared, heads)⟩ := by
      intro started other prepared heads
      cases started <;> simp
    rcases request.beginRound_cases runtime disk node.store with ⟨hsame, -⟩ | ⟨hcall, -⟩
    · rw [hsame]
      exact ⟨h.heads, fun _ _ _ hrunning => absurd hrunning (hidle _ _ _ _), h.rounds⟩
    · rw [hcall]
      have hrounds := StoreOp.completedRounds_apply
        (show (request.accept runtime disk).records = false from rfl) node.store
      exact ⟨StoreOp.offsetsFit_apply _ h.heads,
        fun _ _ _ hrunning => absurd hrunning (hidle _ _ _ _), hrounds ▸ h.rounds⟩

theorem Parented.prepareInput (h : Parented node) (runtime : NodeRuntime)
    (files : PrivateFiles) : Parented (step runtime node (.prepareInput files)) := by
  simp only [DrivenNode.step]
  split
  · rename_i request hrunning
    split
    · rename_i prepared hprepared
      refine ⟨h.heads, fun other input heads hother => ?_, h.rounds⟩
      obtain ⟨rfl, rfl, rfl⟩ : request = other ∧ prepared = input ∧
          node.store.state.privateHeads = heads := by
        simpa using hother
      obtain ⟨-, hround⟩ := ExecuteRequest.prepareInput_ok hprepared
      obtain ⟨-, hshape, -⟩ := prepareRound_isOk.mp ⟨prepared, hround⟩
      exact ⟨h.heads, hshape.2.2.1, prepareRound_parent hround⟩
    · exact ⟨h.heads, fun _ _ _ hnone => absurd hnone (by simp), h.rounds⟩
  · exact h

theorem Parented.finishRound (h : Parented node) (runtime : NodeRuntime)
    (disk : Disk) (outcome : Except PartyExecutionError PartyRun) :
    Parented (step runtime node (.finishRound disk outcome)) := by
  simp only [DrivenNode.step]
  split
  · rename_i request prepared heads hrunning
    have hhashed := h.running request prepared heads hrunning
    have hnone : ∀ other input found, (none : Option Running) ≠ some ⟨other, some (input, found)⟩ :=
      fun _ _ _ => by simp
    rcases request.finishRound_cases runtime disk outcome prepared node.store with
      hsame | ⟨receipt, hcall, hround, hparent⟩
    · rw [hsame, completed_of_eq rfl]
      exact ⟨h.heads, fun _ _ _ hrunning => absurd hrunning (hnone _ _ _), h.rounds⟩
    · rw [hcall]
      refine ⟨StoreOp.offsetsFit_apply _ h.heads,
        fun _ _ _ hrunning => absurd hrunning (hnone _ _ _), fun id found hfound => ?_⟩
      rcases recordCompletedRound_rounds disk receipt node.store with hkept | ⟨hnew, hinserted⟩
      · rw [completed_of_eq hkept]
        exact h.rounds id found (hkept ▸ hfound)
      · rw [hround] at hnew hinserted
        rw [completed_of_insert hnew hinserted]
        simp only at hfound
        rw [hinserted, get?_insert] at hfound
        split at hfound
        · rename_i hid
          obtain rfl := Option.some.inj hfound
          exact ⟨_, List.mem_cons_self, hid.symm, rfl, hparent ▸ hhashed⟩
        · obtain ⟨execution, hmem, hrest⟩ := h.rounds id found hfound
          exact ⟨execution, List.mem_cons_of_mem _ hmem, hrest⟩
  · exact h

theorem Parented.run (h : Parented node) (runtime : NodeRuntime)
    (events : List NodeEvent) : Parented (run runtime events node) := by
  induction events generalizing node with
  | nil => exact h
  | cons event rest ih =>
    rw [run_cons]
    cases event with
    | call op => exact ih (h.call runtime op)
    | beginRound disk request => exact ih (h.beginRound runtime disk request)
    | prepareInput files => exact ih (h.prepareInput runtime files)
    | finishRound disk outcome => exact ih (h.finishRound runtime disk outcome)

/-- The parents of `plan` now do not collide with those hashed for a completed round. -/
def ParentsDistinct (node : DrivenNode) (plan : RoundPlan) : Prop :=
  ∀ execution ∈ node.executed,
    sha256 (parentText execution.heads execution.plan.resting execution.plan.arriving) =
      sha256 (parentText node.store.state.privateHeads plan.resting plan.arriving) →
    parentText execution.heads execution.plan.resting execution.plan.arriving =
      parentText node.store.state.privateHeads plan.resting plan.arriving

/-- The completed round of `plan` was executed with its resting orders, from the heads they have
now. -/
def ParentsKept (node : DrivenNode) (plan : RoundPlan) : Prop :=
  ∃ execution ∈ node.executed, execution.plan.roundId = plan.roundId ∧
    node.store.state.completedRounds.get? plan.roundId = some execution.receipt ∧
    execution.receipt.privateParentDigest =
      sha256 (parentText execution.heads plan.resting plan.arriving) ∧
    execution.plan.resting = plan.resting ∧ ∀ commitment ∈ plan.resting,
      (execution.heads.get? commitment).map hashedHead =
        (node.store.state.privateHeads.get? commitment).map hashedHead

omit [Serde] in
theorem Parented.kept (h : Parented node) {plan : RoundPlan}
    {receipt : NodeExecutionReceipt} (hinj : ParentsDistinct node plan)
    (hround : node.store.state.completedRounds.get? plan.roundId = some receipt)
    (hparent : receipt.privateParentDigest =
      privateParentDigest node.store.state plan.resting plan.arriving) :
    ParentsKept node plan := by
  obtain ⟨execution, hmem, hid, rfl, hfit, hshort, hdigest⟩ := h.rounds _ _ hround
  have htext := hinj execution hmem (hdigest.symm.trans hparent)
  obtain ⟨hresting, harriving, hheads⟩ := parentText_inj hfit h.heads hshort htext
  rw [hresting, harriving] at hdigest
  exact ⟨execution, hmem, hid, hround, hdigest, hresting, hresting ▸ hheads⟩

/-- **Private heads follow the finality of rounds.** In every run of a node that starts without
rounds and heads, an event moves private heads only if it is a release, or a finalization whose
round is observed completely, if it is native, and whose parents are those of its execution. And
once a round is finalized, finalizing it again later, after whatever events, changes nothing and
returns the same receipt or fails. -/
theorem private_heads_follow_finality (runtime : NodeRuntime) {store : NodeShareStore}
    (hheads : store.state.privateHeads = .empty) (hrounds : store.state.completedRounds = .empty)
    (events : List NodeEvent) :
    let node := run runtime events (start store)
    (∀ event, (step runtime node event).store.state.privateHeads ≠ node.store.state.privateHeads →
      (∃ disk observation, event = .call (.confirmRelease disk observation)) ∨
      ∃ disk files plan finality key,
        event = .call (.finalizePrivateRound disk files plan finality key) ∧
          (NativeRound node.store.state plan → ObservedFinality node.store.state plan finality) ∧
          (ParentsDistinct node plan → ParentsKept node plan)) ∧
    ∀ disk files plan finality key signed out,
      (finalizePrivateRound disk files plan finality key).run node.store =
        .ok signed out →
      ∀ later disk files again finality key, again.roundId = plan.roundId →
        let last := run runtime later { node with store := out }
        let result := (finalizePrivateRound disk files again finality key).run
          last.store
        after result = last.store ∧
          ∀ receipt final, result = .ok receipt final → receipt = signed := by
  intro node
  have hnode : Parented node := (parented_start hheads hrounds).run runtime events
  refine ⟨fun event hmoved => ?_, ?_⟩
  · rcases step_store runtime node event with hsame | ⟨op, hcall, hop⟩
    · exact absurd (congrArg (fun s : NodeShareStore => s.state.privateHeads) hsame) hmoved
    rw [hcall] at hmoved
    rcases op.privateHeads_apply node.store with
      hsame | ⟨disk, observation, target, rfl, -⟩ | ⟨disk, files, plan, finality, key, rfl⟩
    · exact absurd hsame hmoved
    · rcases hop with rfl | ⟨_, _, _, _, _, hop⟩ | ⟨_, _, hop⟩
      · exact Or.inl ⟨disk, observation, rfl⟩
      · exact absurd hop (by simp)
      · exact absurd hop (by simp)
    · rcases hop with rfl | ⟨_, _, _, _, _, hop⟩ | ⟨_, _, hop⟩
      · rcases finalizePrivateRound_heads disk files plan finality key node.store with
          hsame | ⟨receipt, candidate, hcheck, hnew, hparent, -⟩
        · exact absurd hsame hmoved
        · obtain ⟨-, -, hround, -⟩ := checkFinality_ok hcheck hnew
          exact Or.inr ⟨disk, files, plan, finality, key, rfl, checkFinality_native hcheck hnew,
            fun hinj => hnode.kept hinj hround hparent⟩
      · exact absurd hop (by simp)
      · exact absurd hop (by simp)
  · intro disk files plan finality key signed out hok later disk' files' again finality' key' hid
    obtain ⟨entry, hentry, hsigned⟩ := finalizePrivateRound_ok hok
    have hlast :
        (run runtime later { node with store := out }).store.state.finalizedPrivateRounds.get?
        again.roundId = some entry := by
      rw [hid]
      exact finalized_run runtime later hentry
    obtain ⟨hsame, hreceipt⟩ := finalizePrivateRound_again hlast
    exact ⟨hsame, fun receipt final hfinal =>
      Option.some.inj ((hreceipt receipt final hfinal).symm.trans hsigned)⟩

end DrivenNode

end

/-! ## A native round

The order of source 1 meets a resting order with a reservation; the fill is observed and the round
finalized. -/

section Sample

set_option maxRecDepth 100000

attribute [local instance] transparentNodeCrypto clusterSerde

namespace DrivenNode

open Cluster NodeShareStore

/-- A key that opens the shares of both orders. -/
def pairKey : NodeDecryptionKey where
  fingerprint := 16
  unsealShare envelope :=
    if envelope.commitment = nativeManifest.commitment then .ok nativeShare
    else sampleDecryptionKey.unsealShare envelope
  unsealCapability envelope := sampleDecryptionKey.unsealCapability envelope

def pairState : StoreState :=
  { emptyState 0 [] with
    generation := 2
    records := (empty.insert (sampleManifest 1).commitment (sampleRecord 1 0 10)).insert
      nativeManifest.commitment nativeRecord }

def pairStore (state : StoreState) : NodeShareStore :=
  saved ⟨pairKey, emptyState 0 [], [], none⟩ state

/-- The order of source 1 against the native order. -/
def pairPlan : RoundPlan := signedPlan firstCertificate [nativeManifest.commitment] 56

/-- The fields of the native order. -/
def nativeFields : List String :=
  let one := scalarDecimal 1
  let zero := scalarDecimal 0
  ["1", one, one, one, one, zero, zero, zero]

def pairInput : PreparedPartyInput :=
  sampleInput 3 1 [nativeManifest.commitment] (nativeFields ++ List.replicate 56 "0")
    [nativeManifest]

def pairReceipt : NodeExecutionReceipt := receiptOf pairPlan pairInput tradesResult []

def pairCertified : StoreState := bumped (afterCertificate pairState firstCertificate)

def pairRecorded : StoreState := recordedState pairCertified pairReceipt

/-- The fill of the first slot, as observed. -/
def pairFill : NativeFinalityRecord where
  roundId := pairPlan.roundId
  slot := 0
  publicOutputSha256 := pairReceipt.publicOutputSha256
  makerOrder := nativeManifest.commitment
  takerOrder := (sampleManifest 1).commitment
  transactionId := "tx"
  blockId := "block"
  height := 1
  statement := 81
  batchStatement := none
  beforeRoot := 82
  afterRoot := 83

def pairObserved : StoreState :=
  bumped { pairRecorded with
    nativeFinalities := empty.insert pairPlan.roundId (empty.insert 0 pairFill) }

def pairFinality : PrivateStateFinality :=
  ⟨pairPlan.roundId, pairReceipt.publicOutputSha256, 81, 81, 1⟩

/-- The state file of the round. -/
def pairFiles : PrivateFiles :=
  some fun id => if id = pairPlan.roundId then
    some ⟨1, pairReceipt.privateStateSha256, List.replicate persistenceWires 0⟩ else none

def pairCandidate : PrivateRoundFinalization :=
  ⟨true, pairReceipt.publicOutputSha256, 81, 81, 1, none⟩

def pairSigned : NodePrivateStateReceipt :=
  let receipt := NodePrivateStateReceipt.unsigned 0 pairReceipt pairFinality 6
    (sha256 (toBeBytes 8 6)) (verifyingKey [7])
  { receipt with signature := (verifyingKey [7]).bytes ++ receipt.signatureBody }

theorem pair_checks :
    nativeManifest.commitment ≠ (sampleManifest 1).commitment ∧
      pairPlan.verifyOrdering .sevenNode sampleKeys 60 = .ok () ∧
      checkCertificate pairState firstCertificate 60 = .ok () ∧
      (sampleExecutor.execute (.ok ⟨tradesResult, 61, 1⟩) pairInput pairPlan = .ok pairReceipt ∧
        pairReceipt.Complete 0) ∧
      pairFill.Observes pairReceipt ∧
      checkFinality pairObserved pairPlan pairFinality = .ok (pairReceipt, pairCandidate) ∧
      NodePrivateStateReceipt.sign 0 pairReceipt pairFinality 6 (sha256 (toBeBytes 8 6)) [7] =
        some pairSigned ∧
      verifyPrivateStateFile pairFiles pairPlan.roundId pairReceipt.privateStateSha256 =
        .ok ⟨1, pairReceipt.privateStateSha256, List.replicate persistenceWires 0⟩ := by
  decide +kernel

/-- The key opens both envelopes; their form is checked without evaluating them. -/
theorem pair_opens :
    (sampleSealedShare 1 0).open pairKey (sampleManifest 1) 0 60 = .ok (sampleShare 1 0) ∧
      nativeSealedShare.open pairKey nativeManifest 0 60 = .ok nativeShare := by
  constructor <;>
    refine (SealedPartyShare.open_eq ⟨rfl, rfl, rfl, List.length_replicate, rfl, rfl⟩).trans ?_ <;>
    decide +kernel

theorem pair_prepareRound : (pairStore pairCertified).prepareRound none "JGB10Y-JPY"
    [nativeManifest.commitment] (sampleManifest 1).commitment 60 = .ok pairInput := by
  have hnative : (pairStore pairCertified).originalPrivateFields nativeManifest.commitment
      "JGB10Y-JPY" 60 = .ok nativeFields := by
    simp only [originalPrivateFields, openRecord, ok_rules]
    exact ⟨_, ⟨(), rfl, _, get?_insert_self, (), rfl, _, pair_opens.2, rfl⟩, rfl⟩
  have hrecord : pairCertified.records.get? (sampleManifest 1).commitment =
      some (sampleRecord 1 0 10) :=
    (get?_insert _ _ _ _).trans
      ((if_neg pair_checks.1.symm).trans get?_insert_self)
  have hready : Ready (pairStore pairCertified) 1 := by
    refine ⟨⟨fun _ h => absurd h List.not_mem_nil, fun _ h => absurd h List.not_mem_nil⟩, rfl, rfl,
      hrecord, ?_⟩
    simp only [openRecord, ok_rules]
    exact ⟨(), rfl, _, hrecord, (), rfl, _, pair_opens.1, rfl⟩
  exact hready.prepareRound
    ⟨(by decide : 1 ≤ 8), mt List.mem_singleton.mp pair_checks.1.symm, List.nodup_singleton _⟩
    (slotFields_single rfl hnative) rfl

/-! The run. -/

def pairEvents : List NodeEvent :=
  requestEvents pairPlan tradesResult ++ [.call (.recordNativeFinality .written pairFill)]

/-- The node once the fill is observed. -/
def afterFill : DrivenNode where
  store := pairStore pairObserved
  running := none
  chain := [firstCertificate]
  executed := [⟨pairPlan, pairReceipt, .empty⟩]

theorem run_pairEvents :
    run sampleRuntime pairEvents (start (pairStore pairState)) = afterFill := by
  obtain ⟨-, hverify, hcertificate, ⟨hreceipt, hcomplete⟩, hobserves, -⟩ := pair_checks
  have haccept : (acceptOrderCertificate .written firstCertificate .sevenNode sampleKeys 60).run
      (pairStore pairState) = .ok 3 (pairStore pairCertified) :=
    acceptOrderCertificate_written sample_quorums.1 (by decide : 1 ≠ 0) hcertificate
      (sample_fits (by decide : 2 + 1 < u64Bound))
  have hexecuted : run sampleRuntime (requestEvents pairPlan tradesResult)
      (start (pairStore pairState)) = ⟨pairStore pairRecorded, none, [firstCertificate],
        [⟨pairPlan, pairReceipt, .empty⟩]⟩ :=
    run_request sampleRuntime (start (pairStore pairState)) (requestOf pairPlan) rfl rfl hverify
      rfl haccept rfl pair_prepareRound rfl hreceipt hcomplete
      (sample_fits (by decide : 3 + 1 < u64Bound))
  have hcompleted : pairRecorded.completedRounds.get? pairFill.roundId = some pairReceipt :=
    get?_insert_self
  have hobserved : (StoreOp.recordNativeFinality .written pairFill).apply (pairStore pairRecorded) =
      pairStore pairObserved := by
    have hrun : (recordNativeFinality .written pairFill).run (pairStore pairRecorded) =
        .ok () ((pairStore pairRecorded).saved _) :=
      recordNativeFinality_written hcompleted hobserves rfl rfl
        (sample_fits (by decide : 4 + 1 < u64Bound))
    rw [StoreOp.apply, hrun]
    rfl
  rw [pairEvents, run_append, hexecuted, run_cons, run_nil]
  simp only [step, StoreOp.records, StoreOp.locks, Bool.false_and, Bool.or_self,
    Bool.false_eq_true, if_false, hobserved]
  rfl

def pairFinalized : StoreState :=
  { pairObserved with
    generation := 6
    privateHeads := (empty.insert nativeManifest.commitment
      (headAt pairPlan pairReceipt pairFinality 0)).erase (sampleManifest 1).commitment
    finalizedPrivateRounds := empty.insert pairPlan.roundId
      { pairCandidate with privateStateReceipt := some pairSigned } }

theorem run_pairFinality :
    (finalizePrivateRound .written pairFiles pairPlan pairFinality [7]).run
      (pairStore pairObserved) = .ok pairSigned (pairStore pairFinalized) := by
  obtain ⟨-, -, -, -, -, hcheck, hsign, hfile⟩ := pair_checks
  have hsigned : signedFinalization (arrivingHead pairPlan pairReceipt pairFinality
      { pairObserved with
        privateHeads := restingHeads pairPlan pairReceipt pairFinality 0 pairPlan.resting
          pairObserved.privateHeads }) pairPlan pairReceipt pairFinality pairCandidate [7] =
      .ok (pairFinalized, pairSigned) := by
    simp only [signedFinalization, ok_rules]
    exact ⟨6, rfl, pairSigned, hsign, rfl⟩
  exact finalizePrivateRound_written hcheck rfl rfl hfile (by decide : 1 ≤ 8) hsigned
    (sample_size _)

/-- The finalization of the round. -/
def pairFinalize : StoreOp :=
  .finalizePrivateRound .written pairFiles pairPlan pairFinality [7]

theorem step_pairFinalize :
    (step sampleRuntime afterFill (.call pairFinalize)).store = pairStore pairFinalized := by
  have happly : pairFinalize.apply (pairStore pairObserved) = pairStore pairFinalized := by
    rw [pairFinalize, StoreOp.apply, run_pairFinality]
    rfl
  have hfree : (pairFinalize.records || pairFinalize.locks && afterFill.running.isSome) = false :=
    rfl
  simp only [step, hfree, Bool.false_eq_true, if_false]
  exact happly

theorem pairFinalized_heads : pairFinalized.privateHeads ≠ .empty := by
  have hhead : pairFinalized.privateHeads.get? nativeManifest.commitment =
      some (headAt pairPlan pairReceipt pairFinality 0) :=
    (get?_erase _ _ _).trans ((if_neg pair_checks.1).trans
      (get?_insert_self))
  intro h
  rw [h, get?_empty] at hhead
  exact absurd hhead (by simp)

theorem private_heads_follow_finality_sample :
    (pairStore pairState).state.privateHeads = .empty ∧
      (pairStore pairState).state.completedRounds = .empty ∧
      NativeRound pairObserved pairPlan ∧ ObservedFinality pairObserved pairPlan pairFinality ∧
      ParentsKept afterFill pairPlan ∧
      ∀ later disk files finality key receipt final,
        (finalizePrivateRound disk files pairPlan finality key).run
          (run sampleRuntime later { afterFill with store := pairStore pairFinalized }).store =
            .ok receipt final → receipt = pairSigned := by
  have hheads : (pairStore pairState).state.privateHeads = .empty := rfl
  have hrounds : (pairStore pairState).state.completedRounds = .empty := rfl
  have hnative : NativeRound pairObserved pairPlan :=
    ⟨nativeManifest.commitment, List.mem_cons_self, nativeRecord, get?_insert_self, rfl⟩
  have h := private_heads_follow_finality sampleRuntime hheads hrounds pairEvents
  rw [run_pairEvents] at h
  obtain ⟨hmoves, hagain⟩ := h
  have hdistinct : ParentsDistinct afterFill pairPlan := by
    intro execution hmem _
    obtain rfl := List.mem_singleton.mp hmem
    rfl
  have hmoved : (step sampleRuntime afterFill (.call pairFinalize)).store.state.privateHeads ≠
      afterFill.store.state.privateHeads := by
    rw [step_pairFinalize]
    exact pairFinalized_heads
  rcases hmoves _ hmoved with
    ⟨disk, observation, hevent⟩ | ⟨disk, files, plan, finality, key, hevent, hobserved, hkept⟩
  · exact absurd (NodeEvent.call.inj hevent) (by simp [pairFinalize])
  · obtain ⟨-, -, rfl, rfl, -⟩ := StoreOp.finalizePrivateRound.inj (NodeEvent.call.inj hevent)
    refine ⟨hheads, hrounds, hnative, hobserved hnative, hkept hdistinct, ?_⟩
    intro later disk files finality key receipt final hok
    exact (hagain _ _ _ _ _ _ _ run_pairFinality later disk files pairPlan finality key rfl).2
      receipt final hok

end DrivenNode

end Sample

end Oclob.Node
