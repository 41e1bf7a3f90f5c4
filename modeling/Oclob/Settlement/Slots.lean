import Oclob.Mpc.Batch
import Oclob.Settlement.Delivery

/-!
# Proofs and circuit slots

`settle_batch_collaborative` of `oclob-settlement/src/lib.rs` numbers the proofs of a batch by the
position of their fill, while the proof parties number them by the slot of the circuit
(`collaborative_job_id` of `collaborative.rs` takes either). The two agree because the orders of
`private_match_batch` are on the other side, positive and best price first: once a slot does not
match, no later one does (`matched_prefix`), so the fills are the first slots in order
(`slotFills_eq_take`).

The loop checks a proof against the reserve commitments of the staged book and then writes the
remainders into it (`BoundFill`); `settleFillsCollaborative_bound` follows the staged books through
the loop.
-/

namespace Oclob.Settlement

open Oclob.Core Oclob.Lib Oclob.Mpc PrivateBook
open PrivateBook (slotFills)

/-! ## The matched slots of a batch -/

section

variable {side : Side} {price Q : Nat} {inputs : List PrivateRestingInput}

/-- Nothing matches once the arriving order is used up or the prices no longer cross. -/
theorem unmatched_of_offers (h : ∀ resting ∈ inputs, min Q (offer side price resting) = 0) :
    (matchSlots side price Q inputs).1.map MpcSlotResult.matched =
      List.replicate inputs.length false := by
  refine List.eq_replicate_iff.mpr ⟨by rw [List.length_map, length_matchSlots], fun b hb => ?_⟩
  rw [← map_snd_zip_matchSlots, List.map_map] at hb
  obtain ⟨pair, hpair, rfl⟩ := List.mem_map.mp hb
  obtain ⟨hmem, left, hle, heq⟩ := mem_zip_matchSlots hpair
  have hzero := h pair.1 hmem
  simp only [Function.comp, heq, matchSlot, decide_eq_false_iff_not]
  omega

/-- **The matched slots come first**, for positive orders of the other side with the best price
first. -/
theorem matched_prefix (price Q : Nat)
    (hopposite : ∀ resting ∈ inputs, resting.side ≠ side ∧ 0 < resting.quantity)
    (hsorted : inputs.Pairwise fun a b => noWorse side a.price b.price = true) :
    ∃ k ≤ inputs.length, (matchSlots side price Q inputs).1.map MpcSlotResult.matched =
      List.replicate k true ++ List.replicate (inputs.length - k) false := by
  induction inputs generalizing Q with
  | nil => exact ⟨0, le_rfl, rfl⟩
  | cons resting inputs ih =>
    obtain ⟨⟨hside, hpos⟩, htail⟩ := List.forall_mem_cons.mp hopposite
    obtain ⟨hbest, hrest⟩ := List.pairwise_cons.mp hsorted
    by_cases hfirst : min Q (offer side price resting) = 0
    · -- The first slot does not match: no quantity is left, or no later price crosses either.
      refine ⟨0, Nat.zero_le _, ?_⟩
      rw [List.replicate_zero, List.nil_append, Nat.sub_zero]
      refine unmatched_of_offers (List.forall_mem_cons.mpr ⟨hfirst, fun later hlater => ?_⟩)
      rcases Nat.eq_zero_or_pos Q with rfl | hQ
      · exact Nat.zero_min _
      have hnone : side.crosses price resting.price = false := by
        by_contra hcross
        rw [offer, if_pos ⟨hside, by simpa using hcross⟩] at hfirst
        omega
      have hworse := hbest later hlater
      have hlater : side.crosses price later.price = false := by
        cases side <;> simp only [Side.crosses, noWorse, decide_eq_false_iff_not,
          decide_eq_true_eq] at * <;> omega
      rw [offer, if_neg (by simp [hlater]), Nat.min_zero]
    · obtain ⟨k, hk, hflags⟩ := ih _ htail hrest
      refine ⟨k + 1, Nat.succ_le_succ hk, ?_⟩
      rw [matchSlots_cons, List.map_cons, hflags, List.replicate_succ, List.cons_append,
        List.length_cons, Nat.add_sub_add_right]
      exact congrArg (· :: _) (decide_eq_true (Nat.pos_of_ne_zero hfirst))

end

/-- The fills of slots that match up to `k` are those of the first `k` slots. -/
theorem slotFills_eq_take {taker : Digest32} {pairs : List (PrivateRestingInput × MpcSlotResult)}
    {k m : Nat} (h : pairs.map (·.2.matched) = List.replicate k true ++ List.replicate m false) :
    slotFills taker pairs = (pairs.take k).map fun pair =>
      ⟨pair.1.commitment, taker, pair.2.tradePrice, pair.2.tradeQuantity⟩ := by
  induction pairs generalizing k with
  | nil => simp [slotFills]
  | cons pair pairs ih =>
    cases k with
    | zero =>
      refine List.filterMap_eq_nil_iff.mpr fun p hp => if_neg fun hmatched => ?_
      have hfalse := List.eq_of_mem_replicate (h ▸ List.mem_map_of_mem hp)
      exact Bool.false_ne_true (hfalse.symm.trans hmatched)
    | succ k =>
      rw [List.map_cons, List.replicate_succ, List.cons_append, List.cons.injEq] at h
      have htail : slotFills taker pairs = _ := ih h.2
      rw [List.take_succ_cons, List.map_cons, ← htail]
      exact List.filterMap_cons_some (if_pos h.1)

/-- The opposite orders of a batch are positive. -/
theorem opposite_of_inv [Crypto] {book : PrivateBook} (hinv : book.Inv) (arriving : SecretOrder)
    (now : Nat) : ∀ resting ∈ (book.batchOf arriving now).resting,
      resting.side ≠ arriving.side ∧ 0 < resting.quantity := by
  intro resting hresting
  obtain ⟨o, ho, rfl⟩ := List.mem_map.mp hresting
  have hlevel := (mem_live.mp (List.mem_of_mem_take ho)).1
  exact ⟨Side.ne_iff_eq_opposite.mpr (hinv.side_of_mem hlevel),
    hinv.pos (mem_levels hlevel)⟩

/-- In a batch of a book the fills are those of the first `k` slots, which are the matched ones. -/
theorem fills_of_inv [Crypto] {book : PrivateBook} (hinv : book.Inv) (arriving : SecretOrder)
    {time : Nat} (hbest : BestFirst (book.batchOf arriving time)) :
    ∃ k ≤ (book.batchOf arriving time).resting.length,
      (∀ i, (expectedBatch (book.batchOf arriving time)).slots[i]?.map MpcSlotResult.matched =
        some true ↔ i < k) ∧
      ∀ taker, slotFills taker (book.slotPairs arriving time) =
        ((book.slotPairs arriving time).take k).map fun pair =>
          ⟨pair.1.commitment, taker, pair.2.tradePrice, pair.2.tradeQuantity⟩ := by
  obtain ⟨k, hk, hflags⟩ := matched_prefix arriving.limitPrice arriving.quantity
    (opposite_of_inv hinv arriving time) hbest.sorted
  change (expectedBatch (book.batchOf arriving time)).slots.map MpcSlotResult.matched = _ at hflags
  have hpairs : (book.slotPairs arriving time).map Prod.snd =
      (expectedBatch (book.batchOf arriving time)).slots := map_snd_zip_matchSlots
  refine ⟨k, hk, fun i => ?_, fun taker => slotFills_eq_take (.trans ?_ hflags)⟩
  · rw [← List.getElem?_map, hflags, List.getElem?_append, List.length_replicate,
      List.getElem?_replicate, List.getElem?_replicate]
    split <;> simp_all
  · rw [← hpairs, List.map_map]
    rfl

/-! ## The reserve commitments along the loop -/

/-- The proof of a fill was checked under the number of `slot`, against the reserve commitments
that `before` has for the two orders, and `after` has the verified remainders in their place. -/
def BoundFill (backend : CollaborativeBackend) (roundId : Digest32) (now slot : Nat)
    (fill : PublicFill) (proof : CollaborativeFillProof) (before after : ReservationBook) : Prop :=
  ∃ maker taker context package,
    before.recordFor fill.makerOrder = some maker ∧ before.recordFor fill.takerOrder = some taker ∧
    collaborativeJobId backend.sha256 roundId slot backend.mpcOutputDigest =
      .ok context.expectedJobId ∧
    context.makerReserve = maker.reserveCommitment ∧
    context.takerReserve = taker.reserveCommitment ∧ context.now = now ∧
    backend.verifyForSettlement proof context = .ok package ∧
    (after.recordFor fill.makerOrder).map ReservationRecord.reserveCommitment =
      some proof.makerPoolRemainder ∧
    (after.recordFor fill.takerOrder).map ReservationRecord.reserveCommitment =
      some (if maker.kind = .securities then package.cashRemainder
        else package.securitiesRemainder) ∧
    ∀ c, c ≠ fill.makerOrder → c ≠ fill.takerOrder → after.recordFor c = before.recordFor c

variable {backend : CollaborativeBackend} {roundId : Digest32} {marketId : String}
  {now index : Nat} {fill : PublicFill} {proof : CollaborativeFillProof}
  {staged staged' : StagedBatch}

theorem settleFillCollaborative_bound
    (h : settleFillCollaborative backend roundId marketId now index fill proof staged =
      .ok staged') :
    BoundFill backend roundId now index fill proof staged.reservations staged'.reservations := by
  unfold settleFillCollaborative at h
  simp only [ok_rules] at h
  obtain ⟨⟨consumed, consumedBook⟩, hconsume, -, -, seller, -, buyer, -, -, -, jobId, hjob,
    package, hverify, ⟨⟨⟩, reservations⟩, happly, -, -, cash, -, sellerSecurities, -, buyerCash, -,
    sellerCash, -, buyerSecurities, -, -, -, rfl⟩ := h
  obtain ⟨maker, taker, makerAfter, takerAfter, htaken, hmid, htid, -, hkind⟩ :=
    ReservationBook.consumeFill_taken (stage_eq_ok.mp hconsume)
  obtain rfl := htaken.recommits hmid htid (stage_eq_ok.mp happly)
  have hreserve : ∀ {c : Digest32} {record : ReservationRecord},
      staged.reservations.recordFor c = some record →
      staged.reservations.reserveCommitmentOf record.reservationId = record.reserveCommitment :=
    fun hrecord => by
      rw [ReservationBook.reserveCommitmentOf, (ReservationBook.recordFor_eq_some.mp hrecord).1]
      rfl
  refine ⟨maker, taker, _, package, htaken.maker_eq, htaken.taker_eq, hjob, ?_, ?_, rfl, hverify,
    ?_, ?_, fun c hmaker htaker => ?_⟩
  · exact hmid ▸ hreserve htaken.maker_eq
  · exact htid ▸ hreserve htaken.taker_eq
  · rw [(htaken.recommitted _ _).after_eq.1]
    rfl
  · rw [(htaken.recommitted _ _).after_eq.2, hkind]
    cases maker.kind <;> rfl
  · rw [(htaken.recommitted _ _).recordFor_eq, if_neg htaker, if_neg hmaker]

/-- **The loop** checks the proofs in turn, each against what the ones before it left. -/
theorem settleFillsCollaborative_bound {pairs : List (PublicFill × CollaborativeFillProof)}
    (h : settleFillsCollaborative backend roundId marketId now index pairs staged = .ok staged') :
    ∃ stages : Nat → ReservationBook, stages 0 = staged.reservations ∧
      ∀ i pair, pairs[i]? = some pair →
        BoundFill backend roundId now (index + i) pair.1 pair.2 (stages i) (stages (i + 1)) := by
  induction pairs generalizing index staged with
  | nil => exact ⟨fun _ => staged.reservations, rfl, fun i pair hpair => by simp at hpair⟩
  | cons pair pairs ih =>
    obtain ⟨mid, hfill, hrest⟩ := except_bind_eq_ok.mp h
    obtain ⟨stages, hzero, hstages⟩ := ih hrest
    refine ⟨fun i => Nat.casesOn i staged.reservations stages, rfl, fun i next hnext => ?_⟩
    cases i with
    | zero =>
      obtain rfl := Option.some.inj hnext
      change BoundFill backend roundId now index pair.1 pair.2 staged.reservations (stages 0)
      rw [hzero]
      exact settleFillCollaborative_bound hfill
    | succ i =>
      have hbound := hstages i next hnext
      rwa [Nat.add_assoc, Nat.add_comm 1] at hbound

/-- **A proof is bound to the circuit slot of its fill.** In a batch of any book that a run
reaches, the matched slots are the first `k`, and the fills are theirs in order, slot `i` holding
the order of fill `i`. When the fills settle, proof `i` is checked under the number `i`, against
the reserve commitments that the fills before it left for its maker and its taker. -/
theorem proofs_bound_to_slots [Crypto] {marketId : String} {start : PrivateBook}
    (hnew : new marketId = .ok start) (ops : List PrivateBook.BookOp)
    {arriving : SecretOrder} {time : Nat} {batch : PrivateMatchBatch}
    (hbatch : (run ops start).privateMatchBatch arriving time = .ok batch) :
    ∃ k ≤ batch.resting.length, k ≤ maxMatchSlots ∧
      (∀ i, (expectedBatch batch).slots[i]?.map MpcSlotResult.matched = some true ↔ i < k) ∧
      ∀ authority seq result tr book',
        (applyMpcBatchResult arriving authority seq time result).run
          (run ops start) = .ok tr book' →
        tr.fills.length = k ∧
        (∀ i fill, tr.fills[i]? = some fill → ∃ resting slot, batch.resting[i]? = some resting ∧
          result.slots[i]? = some slot ∧
          fill = ⟨resting.commitment, authority.commitment, slot.tradePrice, slot.tradeQuantity⟩ ∧
          ∀ h : i < maxMatchSlots,
            slotsOf batch ⟨i, h⟩ = ⟨true, resting.side, resting.price, resting.quantity⟩) ∧
        ∀ backend proofs roundId taker remaining now engine engine' u,
          (SettlementEngine.settleBatchCollaborative backend tr.fills proofs roundId taker
            remaining now).run engine = .ok u engine' →
          ∃ stages : Nat → ReservationBook, stages 0 = engine.reservations ∧
            ∀ i < k, ∃ fill proof, tr.fills[i]? = some fill ∧ proofs[i]? = some proof ∧
              BoundFill backend roundId now i fill proof (stages i) (stages (i + 1)) := by
  have hinv := (inv_new hnew).run ops
  have hbest := bestFirst_of_inv hinv hbatch
  obtain ⟨-, rfl⟩ := privateMatchBatch_eq_ok.mp hbatch
  obtain ⟨k, hk, hmatched, hfills⟩ := fills_of_inv hinv arriving hbest
  refine ⟨k, hk, hk.trans hbest.length, hmatched, ?_⟩
  intro authority seq result tr book' happly
  obtain ⟨-, rfl, -, htr⟩ :=
    (applyMpcBatchResult_ok hinv.tidy fun o ho => hinv.pos ho).mp happly
  have htaken : tr.fills = _ := (congrArg BookTransition.fills htr).trans (hfills _)
  have hlength : tr.fills.length = k := by
    rw [htaken, List.length_map, List.length_take]
    refine Nat.min_eq_left (hk.trans (le_of_eq ?_))
    exact (congrArg List.length map_fst_zip_matchSlots).symm.trans (List.length_map _)
  refine ⟨hlength, fun i fill hfill => ?_, ?_⟩
  · rw [htaken, List.getElem?_map, Option.map_eq_some_iff] at hfill
    obtain ⟨⟨resting, slot⟩, hpair, rfl⟩ := hfill
    rw [List.getElem?_take, Option.ite_none_right_eq_some] at hpair
    obtain ⟨hresting, hslot⟩ := List.getElem?_zip_eq_some.mp hpair.2
    exact ⟨resting, slot, hresting, hslot, rfl, fun h => slotsOf_some hresting⟩
  · intro backend proofs roundId taker remaining now engine engine' u hsettle
    obtain ⟨record, staged, -, -, hcheck, hloop, -⟩ :=
      SettlementEngine.settleBatchCollaborative_run hsettle
    obtain ⟨hproofs, -, -⟩ := SettlementEngine.checkCollaborativeBatch_ok hcheck
    obtain ⟨stages, hzero, hstages⟩ := settleFillsCollaborative_bound hloop
    refine ⟨stages, hzero, fun i hi => ?_⟩
    have hfill := List.getElem?_eq_getElem (hi.trans_eq hlength.symm)
    have hproof := List.getElem?_eq_getElem (hi.trans_eq (hlength.symm.trans hproofs))
    have hbound := hstages i (_, _) (List.getElem?_zip_eq_some.mpr ⟨hfill, hproof⟩)
    rw [Nat.zero_add] at hbound
    exact ⟨_, _, hfill, hproof, hbound⟩

section Sample

attribute [local instance] transparentCrypto

/-- A buy that takes both resting sells, and the proofs of the fills. -/
theorem proofs_bound_to_slots_sample :
    let book := run [.insertResting coveredSell (sampleAuthority coveredSell) 1 1000,
      .insertResting nextSell (sampleAuthority nextSell) 2 1000] sampleBook
    let batch := book.batchOf coveredBuy 1000
    (expectedBatch batch).slots.map MpcSlotResult.matched = [true, true] ∧
    ∃ stages : Nat → ReservationBook, stages 0 = twoSells.reservations ∧
      BoundFill acceptingBackend 5 1000 0 (coveredFill 100 3) (fillProof 0 coveredSell) (stages 0)
        (stages 1) ∧
      BoundFill acceptingBackend 5 1000 1 ⟨nextSell.commitment, coveredBuy.commitment, 101, 2⟩
        (fillProof 1 nextSell) (stages 1) (stages 2) := by
  intro book batch
  have hnew : new "JGB10Y-JPY" = .ok sampleBook := by decide
  have hbatch : book.privateMatchBatch coveredBuy 1000 = .ok batch :=
    privateMatchBatch_eq_ok.mpr ⟨by decide +kernel, rfl⟩
  have hinv : book.Inv := (inv_new hnew).run _
  have happly := (applyMpcBatchResult_ok hinv.tidy fun o ho => hinv.pos ho).mpr
    ⟨(by decide +kernel : PrivateBook.Admits book coveredBuy (sampleAuthority coveredBuy) 3 1000),
      rfl, rfl, rfl⟩
  have hfills : (book.batchTransition coveredBuy (sampleAuthority coveredBuy) 3 1000).fills =
      deliveredFills := by decide +kernel
  obtain ⟨k, -, -, -, hround⟩ := proofs_bound_to_slots hnew _ hbatch
  obtain ⟨hlength, -, hbound⟩ := hround _ _ _ _ _ happly
  rw [hfills] at hlength hbound
  obtain rfl : 2 = k := hlength
  obtain ⟨stages, hzero, hstages⟩ := hbound _ _ _ _ _ _ _ _ _ deliver_ok
  obtain ⟨_, _, hfill, hproof, hfirst⟩ := hstages 0 Nat.two_pos
  obtain ⟨_, _, hfill', hproof', hsecond⟩ := hstages 1 Nat.one_lt_two
  rw [← Option.some.inj hfill, ← Option.some.inj hproof] at hfirst
  rw [← Option.some.inj hfill', ← Option.some.inj hproof'] at hsecond
  exact ⟨by decide +kernel, stages, hzero, hfirst, hsecond⟩

end Sample

end Oclob.Settlement
