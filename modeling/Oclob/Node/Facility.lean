import Mathlib.Tactic.LinearCombination
import Oclob.Edge.Sharing

/-!
# Recovery of the private facility witness

Model of `recover_facility` and `apply_reserve_movement` in `oclob-node/src/native_wallet.rs`. A
corporate wallet knows the amounts of its credit facility only as a witness of three public
commitments. It rebuilds the witness from the recorded first one and the last canonical head of
each of its holds: one movement for each hold, whatever happened to the hold in between.

Above it stands the history that the canonical ledger went through (`Canonical`, `HoldEvent`): a
reserve takes an amount from available to held, a fill takes the delivered part from held to
outstanding, a close or a release returns the rest to available, and blindings move with the
values. An event that would take an amount out of `u64` does not happen.

* `Accounts` ties a canonical state to its holds: what is missing from available, what is held and
  what is outstanding are sums over the holds. Every event keeps it (`Accounts.step`).
* `replayHeads_ok`: a loop over heads whose sums fit never fails. The partial sums of any order of
  the heads stay between the first and the last state, so no intermediate step can underflow.
* `recovery_replays_history` puts both together.

The openings of a head are decrypted and checked elsewhere; `ReserveHead.opened` is what they give.
-/

namespace Oclob.Node

open Oclob.Core Oclob.Lib Oclob.Edge

/-! ## The witness -/

/-- One thing for each part of a facility: the entries 0, 1 and 2 of the source's arrays. -/
structure Balances (α : Type) where
  available : α
  held : α
  outstanding : α
deriving DecidableEq

/-- `FacilityWitness`. -/
structure FacilityWitness where
  facilityId : Digest32
  sequence : Nat
  values : Balances Nat
  blindings : Balances Digest32
deriving DecidableEq

/-- `scalar`. -/
def walletScalar (bytes : Digest32) : Except String Scalar :=
  (canonicalScalar bytes).mapError fun _ => "corporate scalar is not canonical"

@[simp] theorem walletScalar_scalarBytes (scalar : Scalar) :
    walletScalar (scalarBytes scalar) = .ok scalar := by
  rw [walletScalar, canonicalScalar_scalarBytes]
  rfl

section

-- `Pedersen::commit_u64` and its encoding
variable (commitU64 : Nat → Scalar → Digest32)

/-- `FacilityWitness::commitments`. -/
def FacilityWitness.commitments (witness : FacilityWitness) :
    Except String (Balances Digest32) := do
  let available ← walletScalar witness.blindings.available
  let held ← walletScalar witness.blindings.held
  let outstanding ← walletScalar witness.blindings.outstanding
  return ⟨commitU64 witness.values.available available, commitU64 witness.values.held held,
    commitU64 witness.values.outstanding outstanding⟩

/-- What `apply_reserve_movement` computes before it assigns the witness. -/
def movedWitness (witness : FacilityWitness) (original : Nat) (originalBlind : Scalar)
    (remaining : Nat) (remainingBlind : Scalar) (status : String) (sequence : Nat) :
    Except String FacilityWitness := do
  require (status = "active" ∨ status = "consumed" ∨ status = "released")
    "unknown canonical reserve status"
  let consumed ← okOr (checkedSub original remaining)
    "reserve remainder exceeds its original amount"
  let consumedBlind := originalBlind - remainingBlind
  let active := decide (status = "active")
  let unavailable ← okOr (checkedAdd consumed (if active then remaining else 0))
    "capacity overflow"
  let unavailableBlind := consumedBlind + if active then remainingBlind else 0
  let available ← okOr (checkedSub witness.values.available unavailable)
    "available capacity underflow"
  let availableBlind := (← walletScalar witness.blindings.available) - unavailableBlind
  let (held, heldBlinding) ←
    if active then do
      let held ← okOr (checkedAdd witness.values.held remaining) "held capacity overflow"
      let heldBlind := (← walletScalar witness.blindings.held) + remainingBlind
      pure (held, scalarBytes heldBlind)
    else pure (witness.values.held, witness.blindings.held)
  let outstanding ← okOr (checkedAdd witness.values.outstanding consumed)
    "outstanding capacity overflow"
  let outstandingBlind := (← walletScalar witness.blindings.outstanding) + consumedBlind
  let sequence ← okOr ((checkedAdd witness.sequence 1).bind fun s => checkedAdd s sequence)
    "facility sequence overflow"
  let next : FacilityWitness := {
    facilityId := witness.facilityId
    sequence
    values := ⟨available, held, outstanding⟩
    blindings := ⟨scalarBytes availableBlind, heldBlinding, scalarBytes outstandingBlind⟩ }
  let _ ← next.commitments commitU64
  return next

/-- `apply_reserve_movement`. -/
def applyReserveMovement (original : Nat) (originalBlind : Scalar) (remaining : Nat)
    (remainingBlind : Scalar) (status : String) (sequence : Nat) :
    EStateM String FacilityWitness Unit := do
  let witness ← get
  let next ← attempt (movedWitness commitU64 witness original originalBlind remaining
    remainingBlind status sequence)
  set next

/-- A failing movement leaves the witness alone. -/
theorem applyReserveMovement_error {original remaining sequence : Nat}
    {originalBlind remainingBlind : Scalar} {status : String} {witness after : FacilityWitness}
    {e : String}
    (h : (applyReserveMovement commitU64 original originalBlind remaining remainingBlind status
      sequence).run witness = .error e after) : after = witness := by
  simp only [applyReserveMovement, run_bind_eq_error, run_get_ne_error, run_rules,
    run_attempt_eq_error, run_set_ne_error, false_or, and_false, exists_false, or_false] at h
  obtain ⟨_, _, ⟨rfl, rfl⟩, -, rfl⟩ := h
  rfl

end

/-! ## The canonical history -/

/-- The status of a canonical head. -/
inductive HoldStatus where
  | active
  | consumed
  | released
deriving DecidableEq

def HoldStatus.text : HoldStatus → String
  | .active => "active"
  | .consumed => "consumed"
  | .released => "released"

/-- A hold: its reserve, and its canonical head. -/
structure Hold where
  original : Nat
  originalBlind : Scalar
  remaining : Nat
  remainingBlind : Scalar
  status : HoldStatus
  sequence : Nat

/-- The canonical facility. -/
structure CreditFacility where
  values : Balances Nat
  blindings : Balances Scalar
  sequence : Nat

/-- The canonical ledger of one facility, with its holds in the order of their reserves. -/
structure Canonical where
  facility : CreditFacility
  holds : List Hold

/-- An event of the ledger; a hold is named by its place among the reserves. -/
inductive HoldEvent where
  | reserve (amount : Nat) (blinding : Scalar)
  | fill (hold delivered : Nat) (deliveredBlind : Scalar) (close : Bool)
  | release (hold : Nat)

namespace CreditFacility

/-- An amount moves between available and held, or from held to outstanding. -/
def hold (self : CreditFacility) (amount : Nat) (blinding : Scalar) : Option CreditFacility := do
  let available ← checkedSub self.values.available amount
  let held ← checkedAdd self.values.held amount
  return { self with
    values := { self.values with available, held }
    blindings := { self.blindings with
      available := self.blindings.available - blinding
      held := self.blindings.held + blinding } }

def unhold (self : CreditFacility) (amount : Nat) (blinding : Scalar) : Option CreditFacility := do
  let held ← checkedSub self.values.held amount
  let available ← checkedAdd self.values.available amount
  return { self with
    values := { self.values with available, held }
    blindings := { self.blindings with
      available := self.blindings.available + blinding
      held := self.blindings.held - blinding } }

def deliver (self : CreditFacility) (amount : Nat) (blinding : Scalar) :
    Option CreditFacility := do
  let held ← checkedSub self.values.held amount
  let outstanding ← checkedAdd self.values.outstanding amount
  return { self with
    values := { self.values with held, outstanding }
    blindings := { self.blindings with
      held := self.blindings.held - blinding
      outstanding := self.blindings.outstanding + blinding } }

/-- Every event adds one to the sequence. -/
def count (self : CreditFacility) : Option CreditFacility := do
  let sequence ← checkedAdd self.sequence 1
  return { self with sequence }

end CreditFacility

namespace Canonical

/-- The hold after an event on it: the sequence of its head counts the events after the reserve. -/
def putHold (self : Canonical) (facility : CreditFacility) (index : Nat) (hold : Hold) :
    Canonical :=
  ⟨facility, self.holds.set index { hold with sequence := hold.sequence + 1 }⟩

/-- One event of the ledger. -/
def step (self : Canonical) : HoldEvent → Option Canonical
  | .reserve amount blinding => do
    let facility ← self.facility.hold amount blinding
    let facility ← facility.count
    return ⟨facility, self.holds ++ [⟨amount, blinding, amount, blinding, .active, 0⟩]⟩
  | .fill index delivered deliveredBlind close => do
    let hold ← self.holds[index]?
    guard (hold.status = .active)
    let remaining ← checkedSub hold.remaining delivered
    let remainingBlind := hold.remainingBlind - deliveredBlind
    let facility ← self.facility.deliver delivered deliveredBlind
    let facility ← facility.count
    if close then do
      let facility ← facility.unhold remaining remainingBlind
      return self.putHold facility index
        { hold with remaining, remainingBlind, status := .consumed }
    else
      return self.putHold facility index { hold with remaining, remainingBlind }
  | .release index => do
    let hold ← self.holds[index]?
    guard (hold.status = .active)
    let facility ← self.facility.unhold hold.remaining hold.remainingBlind
    let facility ← facility.count
    return self.putHold facility index { hold with status := .released }

/-- A history of the ledger. -/
def history (self : Canonical) (events : List HoldEvent) : Option Canonical :=
  events.foldlM step self

end Canonical

/-! ## What the holds account for -/

namespace Hold

variable (hold : Hold)

def consumed : Nat := hold.original - hold.remaining

/-- The part still held. -/
def heldPart : Nat := if hold.status = .active then hold.remaining else 0

def unavailable : Nat := hold.consumed + hold.heldPart

def consumedBlind : Scalar := hold.originalBlind - hold.remainingBlind

def heldBlind : Scalar := if hold.status = .active then hold.remainingBlind else 0

def unavailableBlind : Scalar := hold.consumedBlind + hold.heldBlind

/-- The events of a hold, its reserve included. -/
def events : Nat := 1 + hold.sequence

/-- The heads that a history leaves: a hold that was never filled still has its original amount. -/
structure Sound : Prop where
  fits : hold.original < u64Bound
  remaining_le : hold.remaining ≤ hold.original
  untouched : hold.sequence = 0 ∨ (hold.sequence = 1 ∧ hold.status = .released) →
    hold.remaining = hold.original ∧ hold.remainingBlind = hold.originalBlind

end Hold

/-- The facility after the movements of some holds. -/
def CreditFacility.moved (self : CreditFacility) (holds : List Hold) : CreditFacility where
  values := {
    available := self.values.available - (holds.map Hold.unavailable).sum
    held := self.values.held + (holds.map Hold.heldPart).sum
    outstanding := self.values.outstanding + (holds.map Hold.consumed).sum }
  blindings := {
    available := self.blindings.available - (holds.map Hold.unavailableBlind).sum
    held := self.blindings.held + (holds.map Hold.heldBlind).sum
    outstanding := self.blindings.outstanding + (holds.map Hold.consumedBlind).sum }
  sequence := self.sequence + (holds.map Hold.events).sum

/-- The canonical state is the first one moved by its holds, and its amounts are words. -/
structure Accounts (first : CreditFacility) (state : Canonical) : Prop where
  moved : state.facility = first.moved state.holds
  covered : (state.holds.map Hold.unavailable).sum ≤ first.values.available
  sound : ∀ hold ∈ state.holds, hold.Sound
  held_lt : state.facility.values.held < u64Bound
  outstanding_lt : state.facility.values.outstanding < u64Bound
  sequence_lt : state.facility.sequence < u64Bound

theorem sum_map_set {M : Type} [AddCommMonoid M] (f : Hold → M) {holds : List Hold} {index : Nat}
    {old : Hold} (h : holds[index]? = some old) (new : Hold) :
    ((holds.set index new).map f).sum + f old = (holds.map f).sum + f new := by
  induction holds generalizing index with
  | nil => exact absurd h (by simp)
  | cons first holds ih =>
    cases index with
    | zero =>
      obtain rfl := Option.some.inj h
      simp only [List.set_cons_zero, List.map_cons, List.sum_cons]
      rw [add_right_comm, add_comm (f new), add_right_comm]
    | succ index =>
      simp only [List.set_cons_succ, List.map_cons, List.sum_cons, add_assoc]
      rw [ih h]

/-- The facility of a changed hold, part by part. -/
structure Replaces (self next : CreditFacility) (old new : Hold) : Prop where
  available : next.values.available + new.unavailable = self.values.available + old.unavailable
  held : next.values.held + old.heldPart = self.values.held + new.heldPart
  outstanding : next.values.outstanding + old.consumed = self.values.outstanding + new.consumed
  availableBlind : next.blindings.available + new.unavailableBlind =
    self.blindings.available + old.unavailableBlind
  heldBlind : next.blindings.held + old.heldBlind = self.blindings.held + new.heldBlind
  outstandingBlind : next.blindings.outstanding + old.consumedBlind =
    self.blindings.outstanding + new.consumedBlind
  sequence : next.sequence + old.events = self.sequence + new.events

variable {first : CreditFacility} {state : Canonical}

/-- An event on one hold. -/
theorem Accounts.putHold {facility : CreditFacility} {self : Canonical} {index : Nat}
    {old new : Hold} (h : Accounts first self) (hold : self.holds[index]? = some old)
    (hnew : new.Sound) (hparts : Replaces self.facility facility old new)
    (hheld : facility.values.held < u64Bound) (hout : facility.values.outstanding < u64Bound)
    (hseq : facility.sequence < u64Bound) :
    Accounts first ⟨facility, self.holds.set index new⟩ := by
  have hunavailable := sum_map_set Hold.unavailable hold new
  have hheldPart := sum_map_set Hold.heldPart hold new
  have hconsumed := sum_map_set Hold.consumed hold new
  have hevents := sum_map_set Hold.events hold new
  have hunavailableBlind := sum_map_set Hold.unavailableBlind hold new
  have hheldBlind := sum_map_set Hold.heldBlind hold new
  have hconsumedBlind := sum_map_set Hold.consumedBlind hold new
  have hmoved := h.moved
  have hcovered := h.covered
  obtain ⟨facility', holds⟩ := self
  obtain rfl : facility' = first.moved holds := hmoved
  obtain ⟨h1, h2, h3, h4, h5, h6, h7⟩ := hparts
  simp only [CreditFacility.moved] at h1 h2 h3 h4 h5 h6 h7 hcovered hunavailable hheldPart hconsumed
  have hcovered' : ((holds.set index new).map Hold.unavailable).sum ≤ first.values.available := by
    omega
  refine ⟨?_, hcovered', ?_, hheld, hout, hseq⟩
  · obtain ⟨⟨a, b, c⟩, ⟨x, y, z⟩, n⟩ := facility
    simp only [CreditFacility.moved, CreditFacility.mk.injEq, Balances.mk.injEq] at *
    refine ⟨⟨by omega, by omega, by omega⟩, ⟨?_, ?_, ?_⟩, by omega⟩
    · linear_combination h4 + hunavailableBlind
    · linear_combination h5 - hheldBlind
    · linear_combination h6 - hconsumedBlind
  · intro hold' hmem
    rcases List.mem_or_eq_of_mem_set hmem with hmem | rfl
    · exact h.sound hold' hmem
    · exact hnew

/-- A new hold. -/
theorem Accounts.reserve {amount : Nat}
    {blinding : Scalar} (h : Accounts first state)
    (hle : amount ≤ state.facility.values.available)
    (hheld : state.facility.values.held + amount < u64Bound)
    (hseq : state.facility.sequence + 1 < u64Bound) :
    Accounts first ⟨⟨⟨state.facility.values.available - amount,
      state.facility.values.held + amount, state.facility.values.outstanding⟩,
      ⟨state.facility.blindings.available - blinding, state.facility.blindings.held + blinding,
        state.facility.blindings.outstanding⟩, state.facility.sequence + 1⟩,
      state.holds ++ [⟨amount, blinding, amount, blinding, .active, 0⟩]⟩ := by
  have hcovered := h.covered
  have hmoved := h.moved
  obtain ⟨facility, holds⟩ := state
  obtain rfl : facility = first.moved holds := hmoved
  simp only [CreditFacility.moved] at hle hcovered
  refine ⟨?_, ?_, ?_, hheld, h.outstanding_lt, hseq⟩
  · simp only [CreditFacility.moved, CreditFacility.mk.injEq, Balances.mk.injEq, List.map_append,
      List.map_cons, List.map_nil, List.sum_append, List.sum_cons, List.sum_nil,
      Hold.unavailable, Hold.consumed, Hold.heldPart, Hold.events, Hold.unavailableBlind,
      Hold.consumedBlind, Hold.heldBlind, if_true]
    refine ⟨⟨by omega, by omega, by omega⟩, ⟨by ring, by ring, by ring⟩, by omega⟩
  · simp only [List.map_append, List.map_cons, List.map_nil, List.sum_append, List.sum_cons,
      List.sum_nil, Hold.unavailable, Hold.consumed, Hold.heldPart, if_true]
    omega
  · intro hold hmem
    rcases List.mem_append.mp hmem with hmem | hmem
    · exact h.sound hold hmem
    · obtain rfl := List.mem_singleton.mp hmem
      exact ⟨(Nat.le_add_left amount _).trans_lt hheld, le_rfl, fun _ => ⟨rfl, rfl⟩⟩

/-- **Every event keeps the account.** -/
theorem Accounts.step {next : Canonical} {event : HoldEvent}
    (h : Accounts first state) (hstep : state.step event = some next) : Accounts first next := by
  have hheld := h.held_lt
  have hout := h.outstanding_lt
  cases event with
  | reserve amount blinding =>
    simp only [Canonical.step, CreditFacility.hold, CreditFacility.count, bind, pure,
      Option.bind_eq_some_iff, checkedSub_eq_some, checkedAdd_eq_some, Option.some.injEq] at hstep
    obtain ⟨facility, ⟨available, ⟨hle, rfl⟩, held, ⟨hheld', rfl⟩, rfl⟩, counted,
      ⟨sequence, ⟨hseq, rfl⟩, rfl⟩, rfl⟩ := hstep
    exact h.reserve hle hheld' hseq
  | fill index delivered deliveredBlind close =>
    simp only [Canonical.step, CreditFacility.deliver, CreditFacility.unhold, CreditFacility.count,
      bind, pure, Option.bind_eq_some_iff, checkedSub_eq_some, checkedAdd_eq_some,
      Option.some.injEq] at hstep
    obtain ⟨hold, hget, ⟨⟩, hactive, remaining, ⟨hle, rfl⟩, facility, ⟨held, ⟨hheld', rfl⟩,
      outstanding, ⟨hout', rfl⟩, rfl⟩, counted, ⟨sequence, ⟨hseq, rfl⟩, rfl⟩, hstep⟩ := hstep
    have hactive : hold.status = .active := by simpa [guard] using hactive
    have hsound := h.sound hold (List.mem_of_getElem? hget)
    have hremaining := hsound.remaining_le
    cases close with
    | false =>
      obtain rfl := Option.some.inj hstep
      refine h.putHold hget ⟨hsound.fits, ?_, ?_⟩ ?_ ?_ hout' hseq
      · simp only
        omega
      · simp [hactive]
      · constructor <;> simp only [Hold.unavailable, Hold.consumed, Hold.heldPart, Hold.events,
          Hold.unavailableBlind, Hold.consumedBlind, Hold.heldBlind, hactive, if_true]
        · omega
        · omega
        · omega
        · ring
        · ring
        · ring
        · omega
      · simp only
        omega
    | true =>
      simp only [if_true, Option.bind_eq_some_iff, checkedSub_eq_some, checkedAdd_eq_some,
        Option.some.injEq] at hstep
      obtain ⟨facility, ⟨held, ⟨hheld'', rfl⟩, available, ⟨havail, rfl⟩, rfl⟩, rfl⟩ := hstep
      refine h.putHold hget ⟨hsound.fits, ?_, ?_⟩ ?_ ?_ hout' hseq
      · simp only
        omega
      · simp
      · constructor <;> simp only [Hold.unavailable, Hold.consumed, Hold.heldPart, Hold.events,
          Hold.unavailableBlind, Hold.consumedBlind, Hold.heldBlind, hactive, if_true, reduceCtorEq,
          if_false] at *
        · omega
        · omega
        · omega
        · ring
        · ring
        · ring
        · omega
      · simp only
        omega
  | release index =>
    simp only [Canonical.step, CreditFacility.unhold, CreditFacility.count, bind, pure,
      Option.bind_eq_some_iff, checkedSub_eq_some, checkedAdd_eq_some, Option.some.injEq] at hstep
    obtain ⟨hold, hget, ⟨⟩, hactive, facility, ⟨held, ⟨hheld', rfl⟩, available, ⟨havail, rfl⟩, rfl⟩,
      counted, ⟨sequence, ⟨hseq, rfl⟩, rfl⟩, rfl⟩ := hstep
    have hactive : hold.status = .active := by simpa [guard] using hactive
    have hsound := h.sound hold (List.mem_of_getElem? hget)
    have hremaining := hsound.remaining_le
    refine h.putHold hget ⟨hsound.fits, hremaining, ?_⟩ ?_ ?_ hout hseq
    · rintro (hzero | ⟨hone, -⟩)
      · exact absurd hzero (Nat.succ_ne_zero _)
      · exact hsound.untouched (Or.inl (Nat.succ.inj hone))
    · constructor <;> simp only [Hold.unavailable, Hold.consumed, Hold.heldPart, Hold.events,
        Hold.unavailableBlind, Hold.consumedBlind, Hold.heldBlind, hactive, if_true, reduceCtorEq,
        if_false]
      · omega
      · omega
      · ring
      · ring
      · ring
    · simp only
      omega

theorem Accounts.history {last : Canonical}
    {events : List HoldEvent} (h : Accounts first state)
    (hrun : state.history events = some last) : Accounts first last := by
  induction events generalizing state with
  | nil =>
    obtain rfl := Option.some.inj hrun
    exact h
  | cons event events ih =>
    rw [Canonical.history, List.foldlM_cons] at hrun
    obtain ⟨next, hstep, hrest⟩ := Option.bind_eq_some_iff.mp hrun
    exact ih (h.step hstep) hrest

/-! ## Replaying the heads -/

/-- The witness of a facility. -/
def CreditFacility.witness (self : CreditFacility) (facilityId : Digest32) : FacilityWitness where
  facilityId
  sequence := self.sequence
  values := self.values
  blindings := ⟨scalarBytes self.blindings.available, scalarBytes self.blindings.held,
    scalarBytes self.blindings.outstanding⟩

/-- What `recover_facility` takes as the remainder of a head: the original reserve where no fill
can have changed it, else what the opening of the head or its refund decrypts to. -/
def Hold.opened (hold : Hold) : Nat × Scalar :=
  if hold.sequence = 0 ∨ (hold.sequence = 1 ∧ hold.status = .released) then
    (hold.original, hold.originalBlind)
  else (hold.remaining, hold.remainingBlind)

theorem Hold.Sound.opened {hold : Hold} (h : hold.Sound) :
    hold.opened = (hold.remaining, hold.remainingBlind) := by
  unfold Hold.opened
  split_ifs with huntouched
  · obtain ⟨hremaining, hblind⟩ := h.untouched huntouched
    rw [hremaining, hblind]
  · rfl

section

variable (commitU64 : Nat → Scalar → Digest32)

/-- The loop of `recover_facility`, over the holds that were reserved. -/
def replayHeads : List Hold → EStateM String FacilityWitness Unit
  | [] => pure ()
  | hold :: rest => do
    let (remaining, remainingBlind) := hold.opened
    ensure (commitU64 remaining remainingBlind = commitU64 hold.remaining hold.remainingBlind)
      "decrypted remainder differs from the canonical reserve"
    applyReserveMovement commitU64 hold.original hold.originalBlind remaining remainingBlind
      hold.status.text hold.sequence
    replayHeads rest

/-- The sums of some heads, added to a facility, are words. -/
structure Fits (facility : CreditFacility) (holds : List Hold) : Prop where
  available : (holds.map Hold.unavailable).sum ≤ facility.values.available
  held : facility.values.held + (holds.map Hold.heldPart).sum < u64Bound
  outstanding : facility.values.outstanding + (holds.map Hold.consumed).sum < u64Bound
  sequence : facility.sequence + (holds.map Hold.events).sum < u64Bound

variable {facility : CreditFacility} {holds : List Hold}

theorem fits_cons {hold : Hold} {rest : List Hold}
    (h : Fits facility (hold :: rest)) :
    Fits facility [hold] ∧ Fits (facility.moved [hold]) rest := by
  obtain ⟨havailable, hheld, hout, hseq⟩ := h
  simp only [List.map_cons, List.sum_cons] at havailable hheld hout hseq
  refine ⟨⟨?_, ?_, ?_, ?_⟩, ?_, ?_, ?_, ?_⟩
  all_goals
    simp only [CreditFacility.moved, List.map_cons, List.map_nil, List.sum_cons, List.sum_nil]
    omega

theorem moved_moved (facility : CreditFacility) (hold : Hold) (rest : List Hold) :
    (facility.moved [hold]).moved rest = facility.moved (hold :: rest) := by
  simp only [CreditFacility.moved, List.map_cons, List.map_nil, List.sum_cons, List.sum_nil,
    CreditFacility.mk.injEq, Balances.mk.injEq]
  refine ⟨⟨by omega, by omega, by omega⟩, ⟨by ring, by ring, by ring⟩, by omega⟩

/-- One movement, where its sums fit. -/
theorem movedWitness_ok {hold : Hold} (hsound : hold.Sound)
    (hfits : Fits facility [hold]) (facilityId : Digest32) :
    movedWitness commitU64 (facility.witness facilityId) hold.original hold.originalBlind
      hold.remaining hold.remainingBlind hold.status.text hold.sequence =
      .ok ((facility.moved [hold]).witness facilityId) := by
  obtain ⟨havailable, hheld, hout, hseq⟩ := hfits
  have hle := hsound.remaining_le
  have hword := hsound.fits
  simp only [List.map_cons, List.map_nil, List.sum_cons, List.sum_nil, Nat.add_zero,
    Hold.unavailable, Hold.consumed, Hold.heldPart, Hold.events] at havailable hheld hout hseq
  have hconsumed : checkedSub hold.original hold.remaining =
      some (hold.original - hold.remaining) := checkedSub_eq_some.mpr ⟨hle, rfl⟩
  have houtstanding : checkedAdd facility.values.outstanding (hold.original - hold.remaining) =
      some (facility.values.outstanding + (hold.original - hold.remaining)) :=
    checkedAdd_eq_some.mpr ⟨hout, rfl⟩
  have hone : checkedAdd facility.sequence 1 = some (facility.sequence + 1) :=
    checkedAdd_eq_some.mpr ⟨by omega, rfl⟩
  have hsequence : checkedAdd (facility.sequence + 1) hold.sequence =
      some (facility.sequence + (1 + hold.sequence)) :=
    checkedAdd_eq_some.mpr ⟨by omega, by omega⟩
  have hknown : require (hold.status.text = "active" ∨ hold.status.text = "consumed" ∨
      hold.status.text = "released") "unknown canonical reserve status" = .ok () := by
    cases hold.status <;> rfl
  by_cases hactive : hold.status = .active
  · have htext : hold.status.text = "active" := by rw [hactive]; rfl
    simp only [hactive, if_true] at havailable hheld
    have hunavailable : checkedAdd (hold.original - hold.remaining) hold.remaining =
        some (hold.original - hold.remaining + hold.remaining) :=
      checkedAdd_eq_some.mpr ⟨by omega, rfl⟩
    have hleft : checkedSub facility.values.available
        (hold.original - hold.remaining + hold.remaining) =
        some (facility.values.available - (hold.original - hold.remaining + hold.remaining)) :=
      checkedSub_eq_some.mpr ⟨havailable, rfl⟩
    have hheld : checkedAdd facility.values.held hold.remaining =
        some (facility.values.held + hold.remaining) := checkedAdd_eq_some.mpr ⟨hheld, rfl⟩
    have hpart : hold.heldPart = hold.remaining := if_pos hactive
    have hblind : hold.heldBlind = hold.remainingBlind := if_pos hactive
    simp only [movedWitness, hknown]
    simp [htext, CreditFacility.witness, hconsumed, hunavailable, hleft, hheld, houtstanding,
      hone, hsequence, okOr, FacilityWitness.commitments, CreditFacility.moved, bind, Except.bind,
      pure, Except.pure, Hold.unavailable, Hold.consumed, hpart, Hold.events,
      Hold.unavailableBlind, Hold.consumedBlind, hblind]
  · have htext : hold.status.text ≠ "active" := by
      cases hstatus : hold.status with
      | active => exact absurd hstatus hactive
      | consumed => decide
      | released => decide
    simp only [if_neg hactive, Nat.add_zero] at havailable
    have hunavailable : checkedAdd (hold.original - hold.remaining) 0 =
        some (hold.original - hold.remaining) := checkedAdd_eq_some.mpr ⟨by omega, rfl⟩
    have hleft : checkedSub facility.values.available (hold.original - hold.remaining) =
        some (facility.values.available - (hold.original - hold.remaining)) :=
      checkedSub_eq_some.mpr ⟨havailable, rfl⟩
    have hpart : hold.heldPart = 0 := if_neg hactive
    have hblind : hold.heldBlind = 0 := if_neg hactive
    simp only [movedWitness, hknown]
    simp [htext, CreditFacility.witness, hconsumed, hunavailable, hleft, houtstanding, hone,
      hsequence, okOr, FacilityWitness.commitments, CreditFacility.moved, bind, Except.bind, pure,
      Except.pure, Hold.unavailable, Hold.consumed, hpart, Hold.events, Hold.unavailableBlind,
      Hold.consumedBlind, hblind]

/-- **A loop over heads whose sums fit does not fail**, and moves the facility by their sums. -/
theorem replayHeads_ok
    (hsound : ∀ hold ∈ holds, hold.Sound) (hfits : Fits facility holds) (facilityId : Digest32) :
    (replayHeads commitU64 holds).run (facility.witness facilityId) =
      .ok () ((facility.moved holds).witness facilityId) := by
  induction holds generalizing facility with
  | nil =>
    simp only [CreditFacility.moved, List.map_nil, List.sum_nil, Nat.sub_zero, sub_zero,
      add_zero]
    rfl
  | cons hold rest ih =>
    have hhold := hsound hold List.mem_cons_self
    obtain ⟨hhead, htail⟩ := fits_cons hfits
    have hmove := movedWitness_ok commitU64 hhold hhead facilityId
    have hrest := ih (fun h hmem => hsound h (List.mem_cons_of_mem _ hmem)) htail
    rw [moved_moved] at hrest
    have hstep : (applyReserveMovement commitU64 hold.original hold.originalBlind hold.remaining
        hold.remainingBlind hold.status.text hold.sequence).run (facility.witness facilityId) =
        .ok ⟨⟩ ((facility.moved [hold]).witness facilityId) := by
      rw [applyReserveMovement, run_get_bind, hmove, run_attempt_ok_bind]
      rfl
    rw [replayHeads, hhold.opened, run_ensure_bind, if_pos rfl]
    exact run_bind_eq_ok.mpr ⟨_, _, hstep, hrest⟩

/-- The order of the heads does not matter. -/
theorem moved_perm (facility : CreditFacility) {holds' : List Hold}
    (h : holds.Perm holds') : facility.moved holds = facility.moved holds' := by
  simp only [CreditFacility.moved, (h.map Hold.unavailable).sum_eq, (h.map Hold.heldPart).sum_eq,
    (h.map Hold.consumed).sum_eq, (h.map Hold.events).sum_eq,
    (h.map Hold.unavailableBlind).sum_eq, (h.map Hold.heldBlind).sum_eq,
    (h.map Hold.consumedBlind).sum_eq]

/-- The three amounts together. -/
def Balances.total (balances : Balances Nat) : Nat :=
  balances.available + balances.held + balances.outstanding

theorem total_moved
    (h : (holds.map Hold.unavailable).sum ≤ facility.values.available) :
    (facility.moved holds).values.total = facility.values.total := by
  have hsplit : (holds.map Hold.unavailable).sum =
      (holds.map Hold.consumed).sum + (holds.map Hold.heldPart).sum :=
    List.sum_map_add
  simp only [Balances.total, CreditFacility.moved]
  omega

/-- The amounts and the sequence are words. -/
structure CreditFacility.Words (facility : CreditFacility) : Prop where
  available : facility.values.available < u64Bound
  held : facility.values.held < u64Bound
  outstanding : facility.values.outstanding < u64Bound
  sequence : facility.sequence < u64Bound

theorem accounts_start {first : CreditFacility} (h : first.Words) : Accounts first ⟨first, []⟩ where
  moved := by simp [CreditFacility.moved]
  covered := Nat.zero_le _
  sound hold hmem := absurd hmem List.not_mem_nil
  held_lt := h.held
  outstanding_lt := h.outstanding
  sequence_lt := h.sequence

/-- **Recovery replays the history.** Take any first facility and any interleaved history of
reserves, fills, closes and releases over any number of holds. The loop over the last heads of the
holds, in any order, does not fail and returns the witness of the canonical facility: its three
values, its three blindings and its sequence. The sum of the three values is the first one's, and a
movement that fails leaves the witness alone. -/
theorem recovery_replays_history {first : CreditFacility} {events : List HoldEvent}
    {last : Canonical} (hwords : first.Words)
    (hhistory : Canonical.history ⟨first, []⟩ events = some last) (facilityId : Digest32) :
    (∀ holds : List Hold, holds.Perm last.holds →
      (replayHeads commitU64 holds).run (first.witness facilityId) =
        .ok () (last.facility.witness facilityId)) ∧
    last.facility.values.total = first.values.total ∧
    (∀ (original remaining sequence : Nat) (originalBlind remainingBlind : Scalar)
      (status : String) (witness after : FacilityWitness) (e : String),
      (applyReserveMovement commitU64 original originalBlind remaining remainingBlind status
        sequence).run witness = .error e after → after = witness) := by
  have haccounts := (accounts_start hwords).history hhistory
  obtain ⟨hmoved, hcovered, hsound, hheld, hout, hseq⟩ := haccounts
  refine ⟨fun holds hperm => ?_, ?_, ?_⟩
  · have hlast : last.facility = first.moved holds := hmoved.trans (moved_perm first hperm.symm)
    rw [hlast] at hheld hout hseq
    have hsum : (holds.map Hold.unavailable).sum = (last.holds.map Hold.unavailable).sum :=
      (hperm.map Hold.unavailable).sum_eq
    have hfits : Fits first holds := ⟨hsum ▸ hcovered, hheld, hout, hseq⟩
    rw [hlast]
    exact replayHeads_ok commitU64 (fun hold hmem => hsound hold (hperm.mem_iff.mp hmem)) hfits
      facilityId
  · rw [hmoved]
    exact total_moved hcovered
  · intro original remaining sequence originalBlind remainingBlind status witness after e h
    exact applyReserveMovement_error commitU64 h

end

section Witness

/-- A commitment that repeats value and blinding. -/
def plainCommit (value : Nat) (blinding : Scalar) : Digest32 :=
  Fin.ofNat (2 ^ 256) (value * 2 ^ 128 + blinding.val % 2 ^ 128)

def sampleFacility : CreditFacility := ⟨⟨120, 0, 0⟩, ⟨9, 0, 0⟩, 0⟩

/-- Two holds: the first is filled in part and closed between the events of the second, which is
released unfilled; a third stays open. -/
def sampleHistory : List HoldEvent :=
  [.reserve 60 (3 : Nat), .reserve 40 (4 : Nat), .fill 0 30 1 false, .reserve 20 (5 : Nat),
    .fill 0 10 1 true, .release 1]

theorem recovery_replays_history_sample :
    ∃ last, Canonical.history ⟨sampleFacility, []⟩ sampleHistory = some last ∧
      last.facility.values = ⟨60, 20, 40⟩ ∧ last.facility.sequence = 6 ∧
      (replayHeads plainCommit last.holds.reverse).run (sampleFacility.witness 1) =
        .ok () (last.facility.witness 1) := by
  have hwords : sampleFacility.Words := ⟨by decide, by decide, by decide, by decide⟩
  have hsome : (Canonical.history ⟨sampleFacility, []⟩ sampleHistory).isSome = true := by
    decide +kernel
  obtain ⟨last, hlast⟩ := Option.isSome_iff_exists.mp hsome
  obtain ⟨hreplay, -, -⟩ := recovery_replays_history plainCommit hwords hlast 1
  have hvalues : (Canonical.history ⟨sampleFacility, []⟩ sampleHistory).map
      (fun c => (c.facility.values, c.facility.sequence)) = some (⟨60, 20, 40⟩, 6) := by
    decide +kernel
  rw [hlast] at hvalues
  obtain ⟨hv, hs⟩ := Prod.mk.inj (Option.some.inj hvalues)
  exact ⟨last, hlast, hv, hs, hreplay _ last.holds.reverse_perm⟩

end Witness

end Oclob.Node
