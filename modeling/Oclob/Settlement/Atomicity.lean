import Oclob.Settlement.Holdings

/-!
# A settlement that fails

`settle_batch` and `settle_batch_collaborative` stage the reservations, the accounts and the spent
instructions in copies, but write the height before the finality calls, which can still fail.

`settlement_all_or_nothing_iff`: a settlement changes nothing or everything, exactly unless its
batch is ready and finality is refused; then the height alone has advanced.
-/

namespace Oclob.Settlement

open Oclob.Core Oclob.Lib SettlementEngine

/-- The end of a settlement of `n` fills: an error changes nothing, a success adds one to the
height and exactly `n` instruction nullifiers. -/
structure AllOrNothing (before : SettlementEngine) (n : Nat)
    (result : EStateM.Result SettlementError SettlementEngine Unit) : Prop where
  error : ∀ e engine, result = .error e engine → engine = before
  ok : ∀ u engine, result = .ok u engine → engine.height = before.height + 1 ∧
    before.spentInstructions ⊆ engine.spentInstructions ∧
    (engine.spentInstructions \ before.spentInstructions).card = n

/-- What both calls check of a staged batch before they ask for finality. -/
def Ready (self : SettlementEngine) (n : Nat) (conserved : Participants → Bool)
    (staged : StagedBatch) : Prop :=
  conserved staged.participants = true ∧
    staged.spent.card = self.spentInstructions.card + n ∧ self.height + 1 < u64Bound

variable {self : SettlementEngine} {n : Nat} {conserved : Participants → Bool}
  {staged staged' : StagedBatch} {reservations : ReservationBook}

theorem allOrNothing_error (e : SettlementError) : AllOrNothing self n (.error e self) where
  error _ _ h := (EStateM.Result.error.inj h).2.symm
  ok := nofun

theorem allOrNothing_attempt_bind {α : Type} {r : Except SettlementError α}
    {f : α → EStateM SettlementError SettlementEngine Unit} :
    AllOrNothing self n ((attempt r >>= f).run self) ↔
      ∀ a, r = .ok a → AllOrNothing self n ((f a).run self) :=
  ends_attempt_bind allOrNothing_error

theorem finish_allOrNothing {finality : Except SettlementError Unit}
    (hspent : self.spentInstructions ⊆ staged.spent) :
    AllOrNothing self n ((finish self n conserved finality staged reservations).run self) ↔
      (Ready self n conserved staged → finality = .ok ()) := by
  unfold finish Ready
  rw [ends_ensure_bind allOrNothing_error, ends_ensure_bind allOrNothing_error,
    allOrNothing_attempt_bind]
  simp only [okOr_eq_ok, checkedAdd_eq_some, and_imp]
  refine imp_congr_right fun _ => imp_congr_right fun hcard => ?_
  rw [forall_comm]
  refine imp_congr_right fun hroom => ?_
  rw [forall_eq]
  cases finality with
  | error e =>
    refine iff_of_false (fun h => ?_) (by simp)
    exact absurd (congrArg SettlementEngine.height (h.error _ _ rfl)) (Nat.succ_ne_self _)
  | ok u =>
    refine iff_of_true ⟨fun _ _ h => (by cases h), fun _ engine h => ?_⟩ rfl
    rw [← (EStateM.Result.ok.inj h).2]
    refine ⟨rfl, hspent, ?_⟩
    rw [Finset.card_sdiff_of_subset hspent, hcard, Nat.add_sub_cancel_left]

/-! ## The loops only add nullifiers -/

theorem settleFill_spent {backend : Backend} {marketId : String} {now index : Nat}
    {fill : PublicFill} (h : settleFill backend marketId now index fill staged = .ok staged') :
    staged.spent ⊆ staged'.spent := by
  unfold settleFill at h
  simp only [ok_rules] at h
  obtain ⟨_, -, -, -, _, -, _, -, -, -, -, -, -, -, -, -, -, -, package, -, -, -, -, -, _, -, _, -,
    _, -, -, -, rfl⟩ := h
  exact Finset.subset_insert _ _

theorem settleFills_spent {backend : Backend} {marketId : String} {now index : Nat}
    {fills : List PublicFill}
    (h : settleFills backend marketId now index fills staged = .ok staged') :
    staged.spent ⊆ staged'.spent := by
  induction fills generalizing index staged with
  | nil => exact Except.ok.inj h ▸ subset_rfl
  | cons fill fills ih =>
    obtain ⟨mid, hfill, hrest⟩ := except_bind_eq_ok.mp h
    exact (settleFill_spent hfill).trans (ih hrest)

section

variable {backend : CollaborativeBackend} {roundId : Digest32} {marketId : String}
  {now index : Nat}

theorem settleFillCollaborative_spent {fill : PublicFill} {proof : CollaborativeFillProof}
    (h : settleFillCollaborative backend roundId marketId now index fill proof staged =
      .ok staged') : staged.spent ⊆ staged'.spent := by
  unfold settleFillCollaborative at h
  simp only [ok_rules] at h
  obtain ⟨_, -, -, -, _, -, _, -, -, -, _, -, package, -, _, -, -, -, _, -, _, -, _, -, _, -, _, -,
    -, -, rfl⟩ := h
  exact Finset.subset_insert _ _

theorem settleFillsCollaborative_spent {pairs : List (PublicFill × CollaborativeFillProof)}
    (h : settleFillsCollaborative backend roundId marketId now index pairs staged = .ok staged') :
    staged.spent ⊆ staged'.spent := by
  induction pairs generalizing index staged with
  | nil => exact Except.ok.inj h ▸ subset_rfl
  | cons pair pairs ih =>
    obtain ⟨mid, hfill, hrest⟩ := except_bind_eq_ok.mp h
    exact (settleFillCollaborative_spent hfill).trans (ih hrest)

end

/-! ## Both calls -/

/-- The batch of a `settle_batch` is staged and ready for finality. -/
def ReadyBatch (backend : Backend) (self : SettlementEngine) (fills : List PublicFill)
    (arriving : SettlementOrderView) (arrivingRemaining now : Nat) : Prop :=
  checkBatch backend fills arriving arrivingRemaining now = .ok () ∧
    ∃ staged required reconciled reservations,
      settleFills backend arriving.marketId now 0 fills
        ⟨self.reservations, self.participants, self.spentInstructions⟩ = .ok staged ∧
      (ReservationBook.reconcileArriving arriving arrivingRemaining).run staged.reservations =
        .ok required reconciled ∧
      (refreshCapacities staged.participants.entries).run reconciled = .ok () reservations ∧
      Ready self fills.length backend.conserved staged

/-- The batch of a `settle_batch_collaborative` is staged and ready for finality. -/
def ReadyCollaborativeBatch (backend : CollaborativeBackend) (self : SettlementEngine)
    (fills : List PublicFill) (proofs : List CollaborativeFillProof) (roundId arriving : Digest32)
    (arrivingRemaining now : Nat) : Prop :=
  ∃ record, checkCollaborativeBatch backend self fills proofs roundId arriving arrivingRemaining
      now = .ok record ∧ ∃ staged required reconciled reservations,
    settleFillsCollaborative backend roundId record.marketId now 0 (fills.zip proofs)
      ⟨self.reservations, self.participants, self.spentInstructions⟩ = .ok staged ∧
    (ReservationBook.reconcileArrivingCollaborative arriving arrivingRemaining).run
      staged.reservations = .ok required reconciled ∧
    (refreshCapacities staged.participants.entries).run reconciled = .ok () reservations ∧
    Ready self fills.length backend.conserved staged

/-- **A settlement is all or nothing**, for every engine and all arguments, exactly unless its
batch is ready and the finality calls refuse it. -/
theorem settlement_all_or_nothing_iff (self : SettlementEngine) (fills : List PublicFill)
    (arrivingRemaining now : Nat) :
    (∀ backend arriving, AllOrNothing self fills.length
        ((settleBatch backend fills arriving arrivingRemaining now).run self) ↔
      (ReadyBatch backend self fills arriving arrivingRemaining now →
        backend.finality = .ok ())) ∧
    ∀ backend proofs roundId arriving, AllOrNothing self fills.length
        ((settleBatchCollaborative backend fills proofs roundId arriving arrivingRemaining
          now).run self) ↔
      (ReadyCollaborativeBatch backend self fills proofs roundId arriving arrivingRemaining now →
        backend.finality = .ok ()) := by
  refine ⟨fun backend arriving => ⟨?_, ?_⟩, fun backend proofs roundId arriving => ⟨?_, ?_⟩⟩
  · rintro h ⟨hcheck, staged, required, reconciled, reservations, hfills, hreconcile, hrefresh,
      hready⟩
    have hstaged := allOrNothing_attempt_bind.mp h () hcheck
    rw [run_get_bind, allOrNothing_attempt_bind] at hstaged
    have hrefreshed := allOrNothing_attempt_bind.mp (hstaged staged hfills) (required, reconciled)
      (stage_eq_ok.mpr hreconcile)
    have hend := allOrNothing_attempt_bind.mp hrefreshed ((), reservations)
      (stage_eq_ok.mpr hrefresh)
    exact (finish_allOrNothing (settleFills_spent hfills)).mp hend hready
  · intro h
    refine allOrNothing_attempt_bind.mpr fun _ hcheck => ?_
    rw [run_get_bind]
    refine allOrNothing_attempt_bind.mpr fun staged hfills => ?_
    refine allOrNothing_attempt_bind.mpr fun (required, reconciled) hreconcile => ?_
    refine allOrNothing_attempt_bind.mpr fun (_, reservations) hrefresh => ?_
    refine (finish_allOrNothing (settleFills_spent hfills)).mpr fun hready => ?_
    exact h ⟨hcheck, staged, required, reconciled, reservations, hfills,
      stage_eq_ok.mp hreconcile, stage_eq_ok.mp hrefresh, hready⟩
  · rintro h ⟨record, hcheck, staged, required, reconciled, reservations, hfills, hreconcile,
      hrefresh, hready⟩
    have hstaged := allOrNothing_attempt_bind.mp (allOrNothing_attempt_bind.mp h record hcheck)
      staged hfills
    have hrefreshed := allOrNothing_attempt_bind.mp hstaged (required, reconciled)
      (stage_eq_ok.mpr hreconcile)
    have hend := allOrNothing_attempt_bind.mp hrefreshed ((), reservations)
      (stage_eq_ok.mpr hrefresh)
    exact (finish_allOrNothing (settleFillsCollaborative_spent hfills)).mp hend hready
  · intro h
    refine allOrNothing_attempt_bind.mpr fun record hcheck => ?_
    refine allOrNothing_attempt_bind.mpr fun staged hfills => ?_
    refine allOrNothing_attempt_bind.mpr fun (required, reconciled) hreconcile => ?_
    refine allOrNothing_attempt_bind.mpr fun (_, reservations) hrefresh => ?_
    refine (finish_allOrNothing (settleFillsCollaborative_spent hfills)).mpr fun hready => ?_
    exact h ⟨record, hcheck, staged, required, reconciled, reservations, hfills,
      stage_eq_ok.mp hreconcile, stage_eq_ok.mp hrefresh, hready⟩

/-! ## A refused finality

The sample batch after its reservations, with finality calls that refuse it. -/

section Sample

attribute [local instance] transparentCrypto

/-- Both orders have reserved. -/
def reservedEngine : SettlementEngine := EngineCall.run (solventCalls.take 4) freshEngine

/-- The settlement of the sample, refused by the finality calls. -/
def refusedSettlement : EStateM.Result SettlementError SettlementEngine Unit :=
  (settleBatch { exactBackend with finality := .error (.finality "refused") } [coveredFill 100 3]
    (settlementView coveredBuy) 2 1000).run reservedEngine

/-- The settlement has failed, and the height has advanced. -/
theorem refused_finality_advances_height :
    failure? refusedSettlement = some (.finality "refused") ∧
      (after refusedSettlement).height = reservedEngine.height + 1 ∧
      ¬AllOrNothing reservedEngine 1 refusedSettlement := by
  have hfails : failure? refusedSettlement = some (.finality "refused") := by decide +kernel
  have hheight : (after refusedSettlement).height = reservedEngine.height + 1 := by decide +kernel
  refine ⟨hfails, hheight, fun h => ?_⟩
  have hsame : (after refusedSettlement).height = reservedEngine.height :=
    congrArg SettlementEngine.height (h.error _ _ (eq_error_after hfails))
  omega

end Sample

end Oclob.Settlement
