import Oclob.Market.Runtime

/-!
# One history of the market

What holds of one market journal in every interleaving of the worker with the intake, with crashes
between any two operations (`Oclob.Lib.Interleave`). Nothing below needs that only one worker runs.

Every record is written once, and each stage of a round is read back before it is used, so that the
stages of an order form a chain (`Fits`): the plan carries the journaled certificate, the execution
answers the journaled plan, and the completed round repeats the journaled certificate and result.
A worker reads the completed rounds once, at its start. What it has read can be overtaken only by a
completion of its own order; then all stages are already there and nothing it computes is written
(`PreviousOr`).

`market_worker_one_history` is the result: completed rounds are the accepted inputs in their order,
each certificate extends the one before, each plan lists the book before, and every call to nodes
and chain uses what is in the journal.
-/

namespace Oclob.Market

open Oclob.Core Oclob.Edge Oclob.Lib Oclob.Node Oclob.Ordering Oclob.Settlement WriteOnce

/-! ## The order of inputs and completions -/

/-- The order of an `input:` key. -/
def Key.inputOf : Key → Option Digest32
  | .stage .input c => some c
  | _ => none

/-- The order of a `done:` key. -/
def Key.doneOf : Key → Option Digest32
  | .stage .done c => some c
  | _ => none

theorem Key.inputOf_eq_some {key : Key} {c : Digest32} :
    key.inputOf = some c ↔ key = .stage .input c := by
  unfold Key.inputOf
  split <;> simp_all

theorem Key.doneOf_eq_some {key : Key} {c : Digest32} :
    key.doneOf = some c ↔ key = .stage .done c := by
  unfold Key.doneOf
  split <;> simp_all

namespace State

/-- The accepted inputs, oldest first. -/
def inputs (s : State) : List Digest32 := s.journal.keys.filterMap Key.inputOf

/-- The orders of the completed rounds, oldest first. -/
def dones (s : State) : List Digest32 := s.journal.keys.filterMap Key.doneOf

/-- The inputs accepted before `c`. -/
def before (s : State) (c : Digest32) : List Digest32 := s.inputs.takeWhile (· ≠ c)

/-- The record of a stage of an order. -/
abbrev record? (s : State) (stage : Stage) (c : Digest32) : Option Record :=
  s.journal.get? (.stage stage c)

/-- The completed round of an order. -/
def round? (s : State) (c : Digest32) : Option MarketCompletedRound :=
  (s.record? .done c).bind Kind.done.project

/-- The round of the input before `c`. -/
def previous (s : State) (c : Digest32) : Option MarketCompletedRound :=
  (s.before c).getLast?.bind s.round?

/-- The book before the round of `c`. -/
def previousBook (s : State) (c : Digest32) : List MarketBookEntry :=
  ((s.previous c).map (·.book)).getD []

end State

section

variable {s t : State} {c : Digest32} {key : Key} {previous : Option MarketCompletedRound}
  {i : Nat}

theorem mem_keys_mono (hle : s ≤ t) (h : key ∈ s.journal.keys) :
    key ∈ t.journal.keys := (keys_mono hle.1).subset h

theorem mem_inputs : c ∈ s.inputs ↔ .stage .input c ∈ s.journal.keys := by
  simp [State.inputs, List.mem_filterMap, Key.inputOf_eq_some]

theorem mem_dones : c ∈ s.dones ↔ .stage .done c ∈ s.journal.keys := by
  simp [State.dones, List.mem_filterMap, Key.doneOf_eq_some]

theorem nodup_inputs : s.inputs.Nodup := by
  refine List.Nodup.filterMap (fun a a' b ha ha' => ?_) s.journal.distinct
  rw [Key.inputOf_eq_some.mp ha, Key.inputOf_eq_some.mp ha']

theorem inputs_mono (hle : s ≤ t) : s.inputs <+: t.inputs :=
  (keys_mono hle.1).filterMap _

omit s t in
theorem takeWhile_ne {older newer : List Digest32} (h : c ∉ older) :
    (older ++ c :: newer).takeWhile (· ≠ c) = older := by
  rw [List.takeWhile_append_of_pos fun a ha => by simpa using ne_of_mem_of_not_mem ha h]
  simp

/-- The inputs up to `c`. -/
theorem inputs_split (hc : c ∈ s.inputs) :
    ∃ newer, s.inputs = s.before c ++ c :: newer ∧ c ∉ s.before c := by
  obtain ⟨older, newer, hsplit, hnot⟩ := List.eq_append_cons_of_mem hc
  have hbefore : s.before c = older := by
    rw [State.before, hsplit, takeWhile_ne hnot]
  exact ⟨newer, hbefore ▸ hsplit, hbefore ▸ hnot⟩

/-- What was accepted before an input does not change. -/
theorem before_of_le (hle : s ≤ t) (hc : c ∈ s.inputs) : t.before c = s.before c := by
  obtain ⟨newer, hsplit, hnot⟩ := inputs_split hc
  obtain ⟨more, hmore⟩ := inputs_mono hle
  rw [State.before, ← hmore, hsplit, List.append_assoc, List.cons_append, takeWhile_ne hnot]

theorem round?_mono {round : MarketCompletedRound} (hle : s ≤ t) (h : s.round? c = some round) :
    t.round? c = some round := by
  obtain ⟨record, hfound, hrecord⟩ := Option.bind_eq_some_iff.mp h
  exact Option.bind_eq_some_iff.mpr ⟨record, get?_mono hle.1 hfound, hrecord⟩

theorem round?_eq_some {round : MarketCompletedRound} :
    s.round? c = some round ↔ s.record? .done c = some (.done round) := by
  rw [State.round?, Option.bind_eq_some_iff]
  constructor
  · rintro ⟨record, hfound, hrecord⟩
    rw [hfound, Kind.done.project_eq.mp hrecord]
    rfl
  · exact fun hfound => ⟨_, hfound, Kind.done.project_eq.mpr rfl⟩

/-- The input is accepted, and the rounds of all inputs before it are completed. -/
structure Ready (s : State) (c : Digest32) : Prop where
  accepted : c ∈ s.inputs
  earlier : ∀ p ∈ s.before c, ∃ round, s.round? p = some round

theorem Ready.mono (hle : s ≤ t) (h : Ready s c) : Ready t c := by
  refine ⟨(inputs_mono hle).subset h.accepted, fun p hp => ?_⟩
  rw [before_of_le hle h.accepted] at hp
  obtain ⟨round, hround⟩ := h.earlier p hp
  exact ⟨round, round?_mono hle hround⟩

/-- The round before is fixed. -/
theorem Ready.previous_eq (h : Ready s c) (hle : s ≤ t) : t.previous c = s.previous c := by
  rw [State.previous, State.previous, before_of_le hle h.accepted]
  cases hlast : (s.before c).getLast? with
  | none => rfl
  | some p =>
    obtain ⟨round, hround⟩ := h.earlier p (List.mem_of_getLast? hlast)
    rw [Option.bind_some, Option.bind_some, hround, round?_mono hle hround]

theorem Ready.previousBook_eq (h : Ready s c) (hle : s ≤ t) :
    t.previousBook c = s.previousBook c := by
  rw [State.previousBook, State.previousBook, h.previous_eq hle]

/-- If completions follow the order of the inputs, the rounds before `c` are all but perhaps those
from `c` on. -/
theorem Ready.dones_eq (h : Ready s c) (horder : s.dones <+: s.inputs) :
    s.dones = s.before c ∨ c ∈ s.dones := by
  obtain ⟨newer, hsplit, hnot⟩ := inputs_split h.accepted
  have hearlier : ∀ p ∈ s.before c, p ∈ s.dones := fun p hp => by
    obtain ⟨round, hround⟩ := h.earlier p hp
    exact mem_dones.mpr (mem_keys.mpr ⟨_, round?_eq_some.mp hround⟩)
  have hbefore : s.before c <+: s.inputs := hsplit ▸ List.prefix_append _ _
  rcases List.prefix_or_prefix_of_prefix horder hbefore with ⟨rest, hrest⟩ | ⟨rest, hrest⟩
  · -- a round of `before c` that is missing would be completed
    cases rest with
    | nil => exact .inl (by simpa using hrest)
    | cons p rest =>
      have hnodup : (s.dones ++ p :: rest).Nodup := hrest ▸ (nodup_inputs.sublist hbefore.sublist)
      have hp : p ∈ s.dones := hearlier p (hrest ▸ by simp)
      exact absurd (List.mem_append_left _ hp) (List.nodup_middle.mp hnodup).notMem
  · cases rest with
    | nil => exact .inl (by simpa using hrest.symm)
    | cons q rest =>
      rw [← hrest, hsplit, List.prefix_append_right_inj, List.cons_prefix_cons] at horder
      exact .inr (hrest ▸ horder.1 ▸ by simp)

theorem before_of_getElem? (h : s.inputs[i]? = some c) :
    s.before c = s.inputs.take i := by
  obtain ⟨hi, hc⟩ := List.getElem?_eq_some_iff.mp h
  have hsplit : s.inputs.take i ++ c :: s.inputs.drop (i + 1) = s.inputs := by simp [← hc]
  have hnot : c ∉ s.inputs.take i := fun hmem =>
    absurd (List.mem_append_left _ hmem)
      (List.nodup_middle.mp (hsplit ▸ nodup_inputs (s := s))).notMem
  rw [State.before]
  nth_rewrite 1 [← hsplit]
  exact takeWhile_ne hnot

/-- The inputs before the key at which a loop over the keys is. -/
theorem before_of_keys {processed rest : List Key}
    (hkeys : s.journal.keys = processed ++ .stage .input c :: rest) :
    s.before c = processed.filterMap Key.inputOf := by
  have hnodup : (processed ++ .stage .input c :: rest).Nodup := hkeys ▸ s.journal.distinct
  rw [State.before, State.inputs, hkeys, List.filterMap_append,
    List.filterMap_cons_some (Key.inputOf_eq_some.mpr rfl)]
  refine takeWhile_ne fun hmem => ?_
  obtain ⟨key, hkey, hc⟩ := List.mem_filterMap.mp hmem
  rw [Key.inputOf_eq_some.mp hc] at hkey
  exact (List.nodup_middle.mp hnodup).notMem (List.mem_append_left _ hkey)

/-- The last of the rounds is the round of the last order. -/
theorem getLast?_rounds {orders : List Digest32} {rounds : List MarketCompletedRound}
    (h : List.Forall₂ (fun p round => s.round? p = some round) orders rounds) :
    rounds.getLast? = orders.getLast?.bind s.round? := by
  have hmap : orders.map s.round? = rounds.map some := by
    induction h with
    | nil => rfl
    | cons hround _ ih => rw [List.map_cons, List.map_cons, hround, ih]
  have hlast := congrArg List.getLast? hmap
  rw [List.getLast?_map, List.getLast?_map] at hlast
  cases horders : orders.getLast? <;> cases hrounds : rounds.getLast? <;> simp_all

/-- What a worker takes for the round before is that round, unless its own order is completed. -/
def PreviousOr (s : State) (c : Digest32) (previous : Option MarketCompletedRound) : Prop :=
  Ready s c ∧ (previous = s.previous c ∨ c ∈ s.dones)

theorem PreviousOr.mono (hle : s ≤ t) (h : PreviousOr s c previous) : PreviousOr t c previous := by
  refine ⟨h.1.mono hle, h.2.imp (fun heq => ?_) fun hdone => ?_⟩
  · rw [heq, h.1.previous_eq hle]
  · exact mem_dones.mpr (mem_keys_mono hle (mem_dones.mp hdone))

theorem filterMap_insert {β : Type} (record : Record) (f : Key → Option β)
    (hnew : key ∉ s.journal.keys) :
    (s.journal.insert key record).keys.filterMap f =
      s.journal.keys.filterMap f ++ (f key).toList := by
  rw [keys_insert record hnew, List.filterMap_append]
  cases h : f key <;> simp [h]

end

/-! ## The records of one round -/

/-- The public output of an execution. -/
def AgreedRoundExecution.output? (execution : AgreedRoundExecution) : Option Digest32 :=
  execution.receipts.head?.map (·.publicOutputSha256)

/-- The plan and the execution of a round are recorded. -/
structure Executed (s : State) (c : Digest32) (plan : RoundPlan)
    (execution : AgreedRoundExecution) : Prop where
  plan : s.record? .plan c = some (.plan plan)
  execution : s.record? .execution c = some (.execution execution)

/-- The signed set of a round is recorded, and answers the matched slots of its execution. -/
structure Signed (s : State) (c : Digest32) (requests : List NativeFillAuthorizationRequest) :
    Prop where
  signed : s.record? .signed c = some (.signed requests)
  fills : ∃ plan execution output, Executed s c plan execution ∧ execution.output? = some output ∧
    FillsMatch plan output (matchedSlotsOf execution.result) requests

/-- The chain was sent the signed set of a round and has accepted it. -/
def Accepted (s : State) (c : Digest32) (requests : List NativeFillAuthorizationRequest)
    (accepted : AcceptedTransition) : Prop :=
  (∃ fills, fillBatch requests = some fills ∧
    ⟨⟨c, .settleApplicationBatch fills⟩, .ok accepted⟩ ∈ s.log) ∨
  ∃ request, requests = [request] ∧ ⟨⟨c, .settleApplication request.fill⟩, .ok accepted⟩ ∈ s.log

/-- The signed set of a round and its settlement are recorded. -/
structure SettledSet (s : State) (c : Digest32) (requests : List NativeFillAuthorizationRequest)
    (settled : Settled) : Prop extends Signed s c requests where
  settled : s.record? .settled c = some (.settled settled)

section

variable {s t : State} {c : Digest32} {key : Key} {record : Record} {plan : RoundPlan}
  {execution : AgreedRoundExecution} {requests : List NativeFillAuthorizationRequest}
  {settled : Settled}

theorem get_mono (hle : s ≤ t) (h : s.journal.get? key = some record) :
    t.journal.get? key = some record := get?_mono hle.1 h

theorem Executed.mono (h : Executed s c plan execution) (hle : s ≤ t) :
    Executed t c plan execution := ⟨get_mono hle h.plan, get_mono hle h.execution⟩

theorem Signed.mono (h : Signed s c requests) (hle : s ≤ t) : Signed t c requests := by
  obtain ⟨hsigned, plan, execution, output, hround, hfills⟩ := h
  exact ⟨get_mono hle hsigned, plan, execution, output, hround.mono hle, hfills⟩

theorem Accepted.mono {accepted : AcceptedTransition} (h : Accepted s c requests accepted)
    (hle : s ≤ t) : Accepted t c requests accepted := by
  rcases h with ⟨fills, hfills, hmem⟩ | ⟨request, hrequest, hmem⟩
  · exact .inl ⟨fills, hfills, hle.2.subset hmem⟩
  · exact .inr ⟨request, hrequest, hle.2.subset hmem⟩

theorem SettledSet.mono (h : SettledSet s c requests settled) (hle : s ≤ t) :
    SettledSet t c requests settled := ⟨h.toSigned.mono hle, get_mono hle h.settled⟩

/-- A signed set without a batch, but with a first request, is that request. -/
theorem eq_singleton_of_fillBatch {first : NativeFillAuthorizationRequest}
    (hbatch : fillBatch requests = none) (hfirst : requests.head? = some first) :
    requests = [first] := by
  match requests, hfirst with
  | [_], rfl => rfl
  | _ :: _ :: _, _ => simp [fillBatch] at hbatch

/-- The terms of a settlement are those of the journaled execution. -/
structure TermsOf (s : State) (terms : SettlementTerms) : Prop where
  executed : Executed s terms.id terms.plan terms.execution
  slots : terms.slots = matchedSlotsOf terms.execution.result
  output : terms.execution.output? = some terms.output

theorem TermsOf.mono {terms : SettlementTerms} (h : TermsOf s terms) (hle : s ≤ t) :
    TermsOf t terms := ⟨h.executed.mono hle, h.slots, h.output⟩

end

/-! ## How the records of an order fit together -/

section

variable [MarketChecks] [Serde]

/-- A statement that extends the certificate of the round before. -/
def Follows (previous : Option MarketCompletedRound) (statement : OrderStatement) : Prop :=
  match previous with
  | none => statement.sequence = 1 ∧ statement.previousCertificate = 0
  | some round => statement.sequence = round.certificate.sequence + 1 ∧
      statement.previousCertificate = round.certificate.digest

/-- What a completed round says of its settlement: nothing without a match, and else what the
settled record of its order says. -/
structure Concludes (s : State) (c : Digest32) (plan : RoundPlan)
    (execution : AgreedRoundExecution) (round : MarketCompletedRound) : Prop where
  observations : round.finalityObservations = (matchedSlotsOf execution.result).length * 7
  unmatched : matchedSlotsOf execution.result = [] →
    round.transactionId = none ∧ round.canonicalRoot = none ∧
      (FinalizedPublicBook.fromExecution plan execution []).map some = .ok round.publicSnapshot
  matched : matchedSlotsOf execution.result ≠ [] → ∃ requests settled receipts,
    SettledSet s c requests settled ∧
    s.record? .depthFinality c = some (.depthFinality receipts) ∧
    round.transactionId = some settled.transactionId ∧
    round.canonicalRoot = some settled.afterRoot ∧
    (FinalizedPublicBook.fromExecution plan execution receipts).map some = .ok round.publicSnapshot

/-- What a record says about the other records of its order. -/
def Fits (s : State) : Key → Record → Prop
  | .stage .input c, .input input => input.commitment = c
  | .stage .certificate c, .certificate certificate =>
    Ready s c ∧ certificate.commitment = c ∧
      Follows (s.previous c) certificate.toOrderStatement
  | .stage .plan c, .plan plan => Ready s c ∧
    s.record? .certificate c = some (.certificate plan.orderingCertificate) ∧
      plan.arriving = c ∧ plan.resting = (s.previousBook c).map (·.commitment)
  | .stage .execution c, .execution execution => ∃ plan, s.record? .plan c = some (.plan plan) ∧
      ⟨⟨c, .execute plan⟩, .ok execution.receipts⟩ ∈ s.log ∧
      agreedExecution plan execution.receipts = .ok execution
  | .stage .signed c, .signed requests => ∃ plan execution, Executed s c plan execution ∧
      requests.map (·.slot) = matchedSlotsOf execution.result ∧
      ∀ request ∈ requests, request.roundId = plan.roundId
  | .stage .settled c, .settled settled | .stage .faultObservation c, .settled settled =>
    ∃ requests accepted, Signed s c requests ∧ Accepted s c requests accepted ∧
      settled = settledBy accepted
  | .stage .depthFinality c, .depthFinality receipts => ∃ requests settled plan execution finality,
      SettledSet s c requests settled ∧
      ⟨⟨c, .finalizePrivateState plan execution finality⟩, .ok receipts⟩ ∈ s.log
  | .stage .done c, .done round => Ready s c ∧
    s.record? .certificate c = some (.certificate round.certificate) ∧
    ∃ plan execution, Executed s c plan execution ∧ round.result = execution.result ∧
      bookAfter (s.previousBook c) round.result c = .ok round.book ∧
      Concludes s c plan execution round
  | .context, .other _ => True
  | .settings, .other _ => True
  | _, _ => False

/-- What a call at the order `c` carries is what the journal has for `c`. -/
def Uses (s : State) (c : Digest32) : External → Prop
  | .votes statement => statement.commitment = c ∧ Ready s c ∧ Follows (s.previous c) statement
  | .execute plan => s.record? .plan c = some (.plan plan)
  | .release plan execution commitment => Executed s c plan execution ∧
      (commitment = plan.arriving ∨ commitment ∈ plan.resting)
  | .loadFill roundId slot job output => ∃ plan execution, Executed s c plan execution ∧
      roundId = plan.roundId ∧ slot ∈ matchedSlotsOf execution.result ∧
      execution.output? = some output ∧
      collaborativeJobId Crypto.sha256 roundId slot output = .ok job
  | .certify request => ∃ plan execution, Executed s c plan execution ∧
      request.roundId = plan.roundId ∧ request.slot ∈ matchedSlotsOf execution.result
  | .settleApplication fill => ∃ request, Signed s c [request] ∧ fill = request.fill
  | .settleApplicationBatch fills => ∃ requests, Signed s c requests ∧
      fillBatch requests = some fills
  | .confirmFinality _ request transactionId batch => ∃ requests settled,
      SettledSet s c requests settled ∧ request ∈ requests ∧ batch = fillBatch requests ∧
        transactionId = settled.transactionId
  | .finalizePrivateState plan execution finality => Executed s c plan execution ∧
      ∃ requests settled output statement, SettledSet s c requests settled ∧
        execution.output? = some output ∧ fillStatement requests = .ok statement ∧
        finality = ⟨plan.roundId, output, statement, settled.statement, settled.height⟩
  | _ => True

/-- What every process keeps: records fit, calls use what is there, and completions follow the
order of the inputs. -/
abbrev Sound : State → Prop :=
  Outbox.Sound (fun key record s => Fits s key record) (fun c s => Uses s c.1.order c.1.call)
    fun s : State => s.dones <+: s.inputs

variable {key : Key} {record : Record} {previous : Option MarketCompletedRound} {i : Nat}

theorem Concludes.mono {s t : State} {c : Digest32} {plan : RoundPlan}
    {execution : AgreedRoundExecution} {round : MarketCompletedRound}
    (h : Concludes s c plan execution round) (hle : s ≤ t) :
    Concludes t c plan execution round := by
  refine ⟨h.observations, h.unmatched, fun hmatched => ?_⟩
  obtain ⟨requests, settled, receipts, hset, hreceipts, hsame⟩ := h.matched hmatched
  exact ⟨requests, settled, receipts, hset.mono hle, get_mono hle hreceipts, hsame⟩

theorem Fits.mono {s t : State} (hle : s ≤ t)
    (h : Fits s key record) : Fits t key record := by
  unfold Fits at h ⊢
  split at h
  · exact h
  · obtain ⟨hready, hcommitment, hfollows⟩ := h
    exact ⟨hready.mono hle, hcommitment, hready.previous_eq hle ▸ hfollows⟩
  · obtain ⟨hready, hcertificate, harriving, hresting⟩ := h
    exact ⟨hready.mono hle, get_mono hle hcertificate, harriving,
      hready.previousBook_eq hle ▸ hresting⟩
  · obtain ⟨plan, hplan, hmem, hagreed⟩ := h
    exact ⟨plan, get_mono hle hplan, hle.2.subset hmem, hagreed⟩
  · obtain ⟨plan, execution, hround, hslots⟩ := h
    exact ⟨plan, execution, hround.mono hle, hslots⟩
  · obtain ⟨requests, accepted, hsigned, haccepted, hsettled⟩ := h
    exact ⟨requests, accepted, hsigned.mono hle, haccepted.mono hle, hsettled⟩
  · obtain ⟨requests, accepted, hsigned, haccepted, hsettled⟩ := h
    exact ⟨requests, accepted, hsigned.mono hle, haccepted.mono hle, hsettled⟩
  · obtain ⟨requests, settled, plan, execution, finality, hset, hmem⟩ := h
    exact ⟨requests, settled, plan, execution, finality, hset.mono hle, hle.2.subset hmem⟩
  · obtain ⟨hready, hcertificate, plan, execution, hround, hresult, hbook, hend⟩ := h
    exact ⟨hready.mono hle, get_mono hle hcertificate, plan, execution, hround.mono hle, hresult,
      hready.previousBook_eq hle ▸ hbook, hend.mono hle⟩
  all_goals trivial

omit [Serde] in
theorem Uses.mono {s t : State} {c : Digest32} {call : External} (hle : s ≤ t)
    (h : Uses s c call) : Uses t c call := by
  unfold Uses at h ⊢
  split at h
  · obtain ⟨hcommitment, hready, hfollows⟩ := h
    exact ⟨hcommitment, hready.mono hle, hready.previous_eq hle ▸ hfollows⟩
  · exact get_mono hle h
  · exact ⟨h.1.mono hle, h.2⟩
  · obtain ⟨plan, execution, hround, hrest⟩ := h
    exact ⟨plan, execution, hround.mono hle, hrest⟩
  · obtain ⟨plan, execution, hround, hrest⟩ := h
    exact ⟨plan, execution, hround.mono hle, hrest⟩
  · obtain ⟨request, hsigned, hfill⟩ := h
    exact ⟨request, hsigned.mono hle, hfill⟩
  · obtain ⟨requests, hsigned, hfills⟩ := h
    exact ⟨requests, hsigned.mono hle, hfills⟩
  · obtain ⟨requests, settled, hset, hrest⟩ := h
    exact ⟨requests, settled, hset.mono hle, hrest⟩
  · obtain ⟨hround, requests, settled, output, statement, hset, hrest⟩ := h
    exact ⟨hround.mono hle, requests, settled, output, statement, hset.mono hle, hrest⟩
  · trivial

theorem steady : Outbox.Steady (fun _ _ => True) (fun key record s => Fits s key record)
    (fun c s => Uses s c.1.order c.1.call) fun s : State => s.dones <+: s.inputs where
  allowed_lasting _ _ _ _ hle h := h.mono hle
  called_lasting _ _ _ hle h := h.mono hle
  law_enqueue s key record h hnew hfits := by
    rw [State.dones, State.inputs, filterMap_insert record Key.doneOf hnew,
      filterMap_insert record Key.inputOf hnew]
    -- a completion comes when all rounds before are completed
    by_cases hkey : ∃ c, key = .stage .done c
    · obtain ⟨c, rfl⟩ := hkey
      have hready : Ready s c := by
        cases record with
        | done round => exact hfits.1
        | _ => exact hfits.elim
      have hbefore := (hready.dones_eq h.law).resolve_right (mt mem_dones.mp hnew)
      obtain ⟨newer, hsplit, -⟩ := inputs_split hready.accepted
      change State.dones s ++ [c] <+: State.inputs s ++ []
      rw [List.append_nil, hbefore, hsplit]
      exact ⟨newer, by simp⟩
    · have hnone : key.doneOf = none := by
        rw [Option.eq_none_iff_forall_ne_some]
        exact fun c hc => hkey ⟨c, Key.doneOf_eq_some.mp hc⟩
      rw [hnone]
      exact (List.append_nil _).symm ▸ h.law.trans (List.prefix_append _ _)
  law_ask _ _ _ h := h

/-! ## Reading and writing -/

variable {s : State} {α β : Type}

/-- A process keeps `Sound`, and `post` holds of its result. -/
abbrev Keeps (process : Process α) (post : α → State → Prop) (s : State) : Prop :=
  EnsuresOk exec Sound process post s

/-- A process keeps `Sound`; nothing is said of its result. -/
abbrev Safe (process : Process α) (s : State) : Prop := Keeps process (fun _ _ => True) s

/-- A call that uses what is in the journal may be made. -/
theorem keeps_ask {c : Digest32} (call : External) (huses : Uses s c call) :
    Keeps (ask c call) (fun a t => ⟨⟨c, call⟩, .ok a⟩ ∈ t.log) s :=
  Outbox.ensures_ask steady fun _ _ hle => huses.mono hle

theorem keeps_pure (a : α) : Safe (pure a : Process α) s := .pure trivial

theorem keeps_check (outcome : Except String α) :
    Keeps (check outcome) (fun a _ => outcome = .ok a) s := .check outcome

theorem keeps_demand (condition : Prop) [Decidable condition] (message : String) :
    Keeps (demand condition message) (fun _ _ => condition) s := .of_demand id

theorem keeps_demandSome (value : Option α) (message : String) :
    Keeps (demandSome value message) (fun a _ => value = some a) s := .demandSome _ _

/-- What is read is in the journal, and what is not found is not. -/
theorem keeps_get (kind : Kind α) (key : Key) :
    Keeps (get kind key) (fun found t => Sound t ∧ (found = none → key ∉ t.journal.keys) ∧
      ∀ value, found = some value → t.journal.get? key = some (kind.inject value)) s :=
  Outbox.ensures_read

/-- What is returned is in the journal, whichever process wrote it. -/
theorem keeps_put (kind : Kind α) (key : Key) (value : α)
    (hfits : ∀ t, s ≤ t → key ∉ t.journal.keys → Fits t key (kind.inject value)) :
    Keeps (put kind key value) (fun saved t =>
      t.journal.get? key = some (kind.inject saved)) s :=
  (Outbox.ensures_put steady hfits).weaken fun _ _ hsaved => hsaved.2

/-- A record that has to be there, and what follows. -/
theorem keeps_demandGet (kind : Kind α) {message : String} {next : α → Process β}
    {post : β → State → Prop}
    (hnext : ∀ value t, s ≤ t → t.journal.get? key = some (kind.inject value) →
      Keeps (next value) post t) :
    Keeps (do next (← demandSome (← get kind key) message)) post s := by
  refine (keeps_get kind key).andThen fun found t hst ht => ?_
  cases found with
  | none => exact .bind .throw
  | some value => exact .bind (.pure (hnext value t hst (ht.2.2 value rfl)))

theorem keeps_ingress (c : Digest32) : Safe (ingress c) s := by
  refine (keeps_get .input _).andThen fun found t _ _ => ?_
  cases found with
  | none => exact .throw
  | some _ => exact .pure trivial

theorem keeps_summaries :
    Keeps Outbox.summaries (fun keys t => Sound t ∧ keys = t.journal.keys) s :=
  Outbox.ensures_summaries

/-! ## The next input and the completed rounds -/

theorem keeps_nextOf {u : State} (hle : u ≤ s) {processed rest : List Key}
    (hkeys : u.journal.keys = processed ++ rest)
    (hdone : ∀ p, .stage .input p ∈ processed → ∃ round, s.round? p = some round) :
    Keeps (nextOf rest) (fun found t => ∀ input, found = some input →
      Ready t input.commitment) s := by
  induction rest generalizing processed s with
  | nil => exact .pure fun _ hnone => nomatch hnone
  | cons key rest ih =>
    have hkeys' : u.journal.keys = (processed ++ [key]) ++ rest := by simpa using hkeys
    by_cases hinput : ∃ c, key = .stage .input c
    · obtain ⟨c, rfl⟩ := hinput
      refine (keeps_get .done _).andThen fun found t hst ht => ?_
      cases found with
      | some round =>
        refine ih (hle.trans hst) hkeys' fun p hp => ?_
        rcases List.mem_append.mp hp with hp | hp
        · obtain ⟨earlier, hearlier⟩ := hdone p hp
          exact ⟨earlier, round?_mono hst hearlier⟩
        · obtain ⟨-, rfl⟩ := Key.stage.inj (List.mem_singleton.mp hp)
          exact ⟨round, round?_eq_some.mpr (ht.2.2 round rfl)⟩
      | none =>
        refine ((keeps_get .input _).le (Outbox.exec_grows _)).weaken
          fun found v hv input hsome => ?_
        obtain ⟨htv, hsound, -, hfound⟩ := hv
        have hcommitment : input.commitment = c := hsound.records _ _ (hfound input hsome)
        have huv : u ≤ v := hle.trans (hst.trans htv)
        have hc : c ∈ u.inputs := mem_inputs.mpr (hkeys ▸ by simp)
        refine hcommitment.symm ▸ ⟨(inputs_mono huv).subset hc, fun p hp => ?_⟩
        rw [before_of_le huv hc, before_of_keys hkeys] at hp
        obtain ⟨key, hkey, hp⟩ := List.mem_filterMap.mp hp
        obtain ⟨round, hround⟩ := hdone p (Key.inputOf_eq_some.mp hp ▸ hkey)
        exact ⟨round, round?_mono (hst.trans htv) hround⟩
    · have hskip : nextOf (key :: rest) = nextOf rest := by
        rw [nextOf]
        exact fun c hc => hinput ⟨c, hc⟩
      rw [hskip]
      refine ih hle hkeys' fun p hp => ?_
      rcases List.mem_append.mp hp with hp | hp
      · exact hdone p hp
      · exact absurd ⟨p, (List.mem_singleton.mp hp).symm⟩ hinput

/-- The input a worker takes is ready. -/
theorem keeps_next :
    Keeps next (fun found t => ∀ input, found = some input → Ready t input.commitment) s := by
  refine keeps_summaries.andThen fun keys t _ ht => ?_
  obtain ⟨-, rfl⟩ := ht
  exact keeps_nextOf le_rfl (List.nil_append _).symm fun _ hp => nomatch hp

theorem keeps_completedOf (rest : List Key) :
    Keeps (completedOf rest) (fun rounds t =>
      List.Forall₂ (fun p round => t.round? p = some round) (rest.filterMap Key.doneOf) rounds)
      s := by
  induction rest generalizing s with
  | nil => exact .pure .nil
  | cons key rest ih =>
    by_cases hdone : ∃ c, key = .stage .done c
    · obtain ⟨c, rfl⟩ := hdone
      rw [List.filterMap_cons_some (Key.doneOf_eq_some.mpr rfl)]
      refine keeps_demandGet .done fun round t _ hround => ih.andThen fun later u htu hlater => ?_
      exact .pure (.cons (round?_mono htu (round?_eq_some.mpr hround)) hlater)
    · have hskip : completedOf (key :: rest) = completedOf rest := by
        rw [completedOf]
        exact fun c hc => hdone ⟨c, hc⟩
      have hnone : key.doneOf = none := by
        rw [Option.eq_none_iff_forall_ne_some]
        exact fun c hc => hdone ⟨c, Key.doneOf_eq_some.mp hc⟩
      rw [hskip, List.filterMap_cons_none hnone]
      exact ih

theorem keeps_completed {c : Digest32} (hready : Ready s c) :
    Keeps completed (fun rounds t => PreviousOr t c rounds.getLast?) s := by
  refine keeps_summaries.andThen fun keys t hst ht => ?_
  obtain ⟨hsound, rfl⟩ := ht
  refine ((keeps_completedOf _).le (Outbox.exec_grows _)).weaken fun rounds u hu => ?_
  obtain ⟨htu, hrounds⟩ := hu
  have hready' := (hready.mono hst).mono htu
  refine ⟨hready', ((hready.mono hst).dones_eq hsound.law).imp (fun hdones => ?_) fun hdone => ?_⟩
  · rw [getLast?_rounds hrounds, State.previous, before_of_le htu (hready.mono hst).accepted,
      ← hdones]
    rfl
  · exact mem_dones.mpr (mem_keys_mono htu (mem_dones.mp hdone))

/-! ## Intake -/

theorem keeps_sameEnvelope (saved input : MarketIngress) : Safe (sameEnvelope saved input) s :=
  .of_demand fun _ => trivial

theorem keeps_accept (input : MarketIngress) (now : Nat) : Safe (accept input now) s := by
  refine keeps_summaries.andThen fun keys t _ _ => ?_
  split
  · exact keeps_demandGet .input fun _ _ _ _ => (keeps_sameEnvelope _ _).andThen
      fun _ _ _ _ => .pure trivial
  · refine (keeps_check _).andThen fun _ _ _ _ =>
      (keeps_put .input (.stage .input input.commitment) input fun _ _ _ => rfl).andThen
        fun _ _ _ _ => (keeps_sameEnvelope _ _).andThen fun _ _ _ _ => keeps_summaries.andThen
          fun _ _ _ _ => ?_
    exact (keeps_demandSome _ _).weaken fun _ _ _ => trivial

/-! ## Certificates, plans and executions -/

/-- A completed round has its stages. -/
theorem Sound.stages_of_done (h : Sound s) {c : Digest32} (hdone : c ∈ s.dones) :
    .stage .certificate c ∈ s.journal.keys ∧ .stage .plan c ∈ s.journal.keys := by
  obtain ⟨record, hrecord⟩ := mem_keys.mp (mem_dones.mp hdone)
  have hfits := h.records _ _ hrecord
  cases record with
  | done round =>
    obtain ⟨-, hcertificate, plan, execution, hround, -⟩ := hfits
    exact ⟨mem_keys.mpr ⟨_, hcertificate⟩, mem_keys.mpr ⟨_, hround.plan⟩⟩
  | _ => exact hfits.elim

omit [Serde] in
theorem follows_of_nextPlace {c digest : Digest32}
    {sequence expiresAt : Nat}
    (h : nextPlace (previous.map (·.certificate)) c = .ok (sequence, digest)) :
    Follows previous ⟨ClusterPublicConfig.marketId, sequence, c, digest, expiresAt⟩ := by
  cases previous with
  | none =>
    obtain ⟨rfl, rfl⟩ := Prod.mk.inj (Except.ok.inj h)
    exact ⟨rfl, rfl⟩
  | some round =>
    simp only [Option.map_some, nextPlace, except_bind_eq_ok, require_eq_ok, okOr_eq_ok] at h
    obtain ⟨-, -, next, hnext, hplace⟩ := h
    obtain ⟨rfl, rfl⟩ := Prod.mk.inj (Except.ok.inj hplace)
    exact ⟨(checkedAdd_eq_some.mp hnext).2, rfl⟩

theorem keeps_collectOrderCertificate {c : Digest32} (hready : Ready s c) (expiresAt : Nat) :
    Keeps (collectOrderCertificate ((s.previous c).map (·.certificate)) c expiresAt)
      (fun certificate t => certificate.commitment = c ∧
        Follows (t.previous c) certificate.toOrderStatement) s := by
  refine (keeps_check _).andThen fun _ t hst _ => (keeps_ask .now trivial).andThen
    fun (now : Nat) u htu _ => (keeps_demand _ _).andThen fun _ v huv _ =>
      (keeps_check _).andThen fun place w hvw hplace => ?_
  have hfollows := @follows_of_nextPlace _ _ _ _ _ expiresAt hplace
  have hle : s ≤ w := hst.trans (htu.trans (huv.trans hvw))
  rw [← hready.previous_eq hle] at hfollows
  refine (keeps_ask (.votes _) ⟨rfl, hready.mono hle, hfollows⟩).andThen
    fun (votes : List OrderVote) x hwx _ => (keeps_check _).andThen
      fun _ y hxy _ => .pure ⟨rfl, ?_⟩
  rw [(hready.mono hle).previous_eq (hwx.trans hxy)]
  exact hfollows

theorem keeps_certificateOf (input : MarketIngress)
    (hprevious : PreviousOr s input.commitment previous) :
    Keeps (certificateOf input previous) (fun certificate t =>
      t.record? .certificate input.commitment = some (.certificate certificate))
      s := by
  refine (keeps_get .certificate _).andThen fun found t hst ht => ?_
  cases found with
  | some saved => exact .pure (ht.2.2 saved rfl)
  | none =>
    -- without a certificate the round is not completed, so the round before was read
    have hprevious' := hprevious.mono hst
    have hsame := hprevious'.2.resolve_right fun hdone =>
      ht.2.1 rfl (ht.1.stages_of_done hdone).1
    subst hsame
    refine (keeps_ask .now trivial).andThen fun (now : Nat) u htu _ => (keeps_check _).andThen
      fun _ v huv _ => ?_
    have hready := hprevious'.1.mono (htu.trans huv)
    rw [← hprevious'.1.previous_eq (htu.trans huv)]
    refine (keeps_collectOrderCertificate hready _).andThen fun certificate w hvw hw =>
      keeps_put .certificate _ certificate fun x hwx _ => ?_
    refine ⟨hready.mono (hvw.trans hwx), hw.1, ?_⟩
    rw [(hready.mono hvw).previous_eq hwx]
    exact hw.2

omit [Serde] in
theorem signPlan_ok {certificate : OrderCertificate} {resting : List Digest32}
    {issuedAt expiresAt : Nat} {plan : RoundPlan}
    (h : signPlan certificate resting issuedAt expiresAt = .ok plan) :
    plan.orderingCertificate = certificate ∧ plan.resting = resting ∧
      plan.arriving = certificate.commitment := by
  simp only [signPlan, except_bind_eq_ok] at h
  obtain ⟨signature, -, _, -, hplan⟩ := h
  obtain rfl := Except.ok.inj hplan
  exact ⟨rfl, rfl, rfl⟩

theorem keeps_planDeadline (expiry : Nat) (book : List MarketBookEntry) :
    Safe (planDeadline expiry book) s := by
  induction book generalizing expiry s with
  | nil => exact .pure trivial
  | cons entry rest ih => exact (keeps_ingress _).andThen fun _ _ _ _ => ih _

theorem keeps_planOf (input : MarketIngress)
    {certificate : OrderCertificate} (hprevious : PreviousOr s input.commitment previous)
    (hcertificate : s.record? .certificate input.commitment =
      some (.certificate certificate)) :
    Keeps (planOf input certificate ((previous.map (·.book)).getD [])) (fun plan t =>
      t.record? .plan input.commitment = some (.plan plan)) s := by
  refine (keeps_get .plan _).andThen fun found t hst ht => ?_
  cases found with
  | some saved => exact .pure (ht.2.2 saved rfl)
  | none =>
    have hprevious' := hprevious.mono hst
    have hsame := hprevious'.2.resolve_right fun hdone =>
      ht.2.1 rfl (ht.1.stages_of_done hdone).2
    have hcertificate' := get_mono hst hcertificate
    have hcommitment := (ht.1.records _ _ hcertificate').2.1
    refine (keeps_ask .now trivial).andThen fun (now : Nat) u htu _ =>
      (keeps_planDeadline _ _).andThen fun _ v huv _ => (keeps_check _).andThen
        fun plan w hvw hplan => keeps_put .plan _ plan fun x hwx _ => ?_
    have hle : t ≤ x := htu.trans (huv.trans (hvw.trans hwx))
    obtain ⟨hordering, hresting, harriving⟩ := signPlan_ok hplan
    refine ⟨hprevious'.1.mono hle, ?_, harriving.trans hcommitment, ?_⟩
    · rw [hordering]
      exact get_mono hle hcertificate'
    · rw [hresting, hprevious'.1.previousBook_eq hle, hsame]
      rfl

theorem agreedExecution_receipts {plan : RoundPlan} {receipts : List NodeExecutionReceipt}
    {execution : AgreedRoundExecution} (h : agreedExecution plan receipts = .ok execution) :
    execution.receipts = receipts := by
  simp only [agreedExecution, ok_rules] at h
  obtain ⟨-, -, -, -, first, -, -, -, rfl⟩ := h
  rfl

theorem keeps_executeAgreedRound {c : Digest32} {plan : RoundPlan}
    (hplan : s.record? .plan c = some (.plan plan)) :
    Keeps (executeAgreedRound c plan) (fun execution t =>
      ⟨⟨c, .execute plan⟩, .ok execution.receipts⟩ ∈ t.log ∧
        agreedExecution plan execution.receipts = .ok execution) s := by
  refine (keeps_check _).andThen fun _ t hst _ => (keeps_ask .now trivial).andThen
    fun (_ : Nat) u htu _ => (keeps_check _).andThen fun _ v huv _ => (keeps_demand _ _).andThen
      fun _ w hvw _ => (keeps_ask (.execute plan)
        (get_mono (hst.trans (htu.trans (huv.trans hvw))) hplan)).andThen
          fun (receipts : List NodeExecutionReceipt) x _ hmem => ?_
  refine ((keeps_check _).le (Outbox.exec_grows _)).weaken fun execution y hy => ?_
  obtain rfl := agreedExecution_receipts hy.2
  exact ⟨hy.1.2.subset hmem, hy.2⟩

theorem keeps_executionOf (input : MarketIngress) {plan : RoundPlan}
    (hplan : s.record? .plan input.commitment = some (.plan plan)) :
    Keeps (executionOf input plan) (fun execution t =>
      Executed t input.commitment plan execution) s := by
  refine (keeps_get .execution _).andThen fun found t hst ht => ?_
  cases found with
  | some saved => exact .pure ⟨get_mono hst hplan, ht.2.2 saved rfl⟩
  | none =>
    refine (keeps_executeAgreedRound (get_mono hst hplan)).andThen fun execution u htu hagreed =>
      ((keeps_put .execution _ execution fun v huv _ => ?_).le (Outbox.exec_grows _)).weaken
        fun saved v hv => ⟨get_mono (hst.trans (htu.trans hv.1)) hplan, hv.2⟩
    exact ⟨plan, get_mono (hst.trans (htu.trans huv)) hplan, huv.2.subset hagreed.1, hagreed.2⟩

/-! ## Settlement -/

section

variable {c : Digest32} {plan : RoundPlan} {execution : AgreedRoundExecution}

theorem keeps_openAuthority (hround : Executed s c plan execution)
    (scope : ApplicationReserveScope) {commitment : Digest32}
    (horder : commitment = plan.arriving ∨ commitment ∈ plan.resting) :
    Safe (openAuthority c plan execution scope commitment) s :=
  (keeps_ingress commitment).andThen fun _ _ hst _ =>
    (keeps_ask (.release plan execution commitment) ⟨hround.mono hst, horder⟩).andThen
      fun (_ : Bytes) _ _ _ => (keeps_ask .now trivial).andThen fun (_ : Nat) _ _ _ =>
        (keeps_check _).weaken fun _ _ _ => trivial

theorem keeps_collectClaims (maker taker : NativeReservationAuthority)
    (issue : NativeClaimAuthorizationIssue) (priorFills : List ApplicationNoteFill) :
    Safe (collectClaims c maker taker issue priorFills) s :=
  (keeps_ask (.claimAuthorizations _ _ _ _ _) trivial).andThen
    fun (_ : NativeParticipantClaimAuthorizations) _ _ _ =>
      (keeps_ask (.claimAuthorizations _ _ _ _ _) trivial).andThen
        fun (_ : NativeParticipantClaimAuthorizations) _ _ _ => .pure trivial

theorem keeps_authorizeSlot {terms : SettlementTerms} (hterms : TermsOf s terms) (position : Nat)
    {slot : Nat} (hslot : slot ∈ terms.slots) (takerHead : CanonicalApplicationReservation)
    (requests : List NativeFillAuthorizationRequest) :
    Keeps (authorizeSlot terms position slot takerHead requests) (fun request _ =>
      request.slot = slot ∧ request.roundId = terms.plan.roundId) s := by
  rw [hterms.slots] at hslot
  refine (keeps_demandSome _ _).andThen fun makerCommitment t hst hmaker =>
    (keeps_openAuthority (hterms.mono hst).executed _ (.inr (List.mem_of_getElem? hmaker))).andThen
      fun maker u htu _ => (keeps_ingress _).andThen fun makerInput v huv _ =>
        (keeps_ask (.reservationSnapshot _) trivial).andThen
          fun (makerHead : CanonicalApplicationReservation) w hvw _ => ?_
  have hterms' := hterms.mono (hst.trans (htu.trans (huv.trans hvw)))
  refine (keeps_check _).andThen fun job t hst hjob => (keeps_ask (.loadFill _ _ _ _)
    ⟨_, _, (hterms'.mono hst).executed, rfl, hslot, hterms.output, hjob⟩).andThen
      fun (_ : Unit) u htu _ => (keeps_ask .now trivial).andThen fun (now : Nat) v huv _ =>
        (keeps_check _).andThen fun request w hvw _ =>
          (keeps_ask (.proveFill _) trivial).andThen
            fun (proof : CollaborativeFillProof) x hwx _ => ?_
  have hterms'' := hterms'.mono (hst.trans (htu.trans (huv.trans (hvw.trans hwx))))
  refine (keeps_ask (.complete _) trivial).andThen fun (_ : Unit) t hst _ =>
    (keeps_check _).andThen fun issue u htu _ =>
      (keeps_collectClaims _ _ _ _).andThen fun claims v huv _ =>
        (keeps_check _).andThen fun prepared w hvw _ =>
          (keeps_check _).andThen fun batch x hwx _ => ?_
  have hround := (hterms''.mono (hst.trans (htu.trans (huv.trans (hvw.trans hwx))))).executed
  exact (keeps_ask (.certify _) ⟨_, _, hround, rfl, hslot⟩).andThen
    fun (_ : Bytes) _ _ _ => .pure ⟨rfl, rfl⟩

/-- The requests of the loop are one for each slot, of the round of the plan. -/
theorem keeps_authorizeSlots {terms : SettlementTerms} (hterms : TermsOf s terms) (position : Nat)
    {slots : List Nat} (hslots : slots ⊆ terms.slots)
    (takerHead : CanonicalApplicationReservation)
    {requests : List NativeFillAuthorizationRequest}
    (hround : ∀ request ∈ requests, request.roundId = terms.plan.roundId) :
    Keeps (authorizeSlots terms position slots takerHead requests) (fun signed _ =>
      signed.map (·.slot) = requests.map (·.slot) ++ slots ∧
        ∀ request ∈ signed, request.roundId = terms.plan.roundId) s := by
  induction slots generalizing s position takerHead requests with
  | nil => exact .pure ⟨(List.append_nil _).symm, hround⟩
  | cons slot rest ih =>
    obtain ⟨hslot, hrest⟩ := List.cons_subset.mp hslots
    refine (keeps_authorizeSlot hterms _ hslot _ _).andThen fun request t hst hrequest => ?_
    have hnext {u : State} (hle : t ≤ u) (nextHead : CanonicalApplicationReservation) :
        Keeps (authorizeSlots terms (position + 1) rest nextHead (requests ++ [request]))
          (fun signed _ => signed.map (·.slot) = requests.map (·.slot) ++ slot :: rest ∧
            ∀ request ∈ signed, request.roundId = terms.plan.roundId) u := by
      refine (ih (hterms.mono (hst.trans hle)) _ hrest _ fun other hother => ?_).weaken
        fun signed v hv => ?_
      · rcases List.mem_append.mp hother with hother | hother
        · exact hround other hother
        · exact List.mem_singleton.mp hother ▸ hrequest.2
      · simpa [hrequest.1] using hv
    split
    · exact (keeps_ask .now trivial).andThen fun (now : Nat) u htu _ =>
        (keeps_check _).andThen fun nextHead v huv _ => hnext (htu.trans huv) nextHead
    · exact (keeps_pure _).andThen fun _ u htu _ => hnext htu _

variable {output : Digest32}

theorem keeps_signFills (hround : Executed s c plan execution)
    (houtput : execution.output? = some output) (scope : ApplicationReserveScope) :
    Keeps (signFills c plan execution scope output (matchedSlotsOf execution.result))
      (fun requests _ => requests.map (·.slot) = matchedSlotsOf execution.result ∧
        ∀ request ∈ requests, request.roundId = plan.roundId) s :=
  (keeps_openAuthority hround _ (.inl rfl)).andThen fun _ _ hst _ =>
    (keeps_ingress _).andThen fun _ _ htu _ => (keeps_check _).andThen fun _ _ huv _ =>
      (keeps_ask (.reservationSnapshot _) trivial).andThen
        fun (_ : CanonicalApplicationReservation) _ hvw _ =>
          keeps_authorizeSlots ⟨hround.mono (hst.trans (htu.trans (huv.trans hvw))), rfl, houtput⟩
            _ (List.Subset.refl _) _ fun _ hnone => absurd hnone List.not_mem_nil

variable {requests : List NativeFillAuthorizationRequest} {settled : Settled}

theorem keeps_settleCall (hsigned : Signed s c requests) :
    Keeps (settleCall c requests) (fun accepted t => Accepted t c requests accepted) s := by
  unfold settleCall
  cases hbatch : fillBatch requests with
  | some fills =>
    exact (keeps_ask (.settleApplicationBatch fills) ⟨requests, hsigned, hbatch⟩).weaken
      fun _ _ hmem => .inl ⟨fills, hbatch, hmem⟩
  | none =>
    refine (keeps_demandSome _ _).andThen fun first t hst hfirst => ?_
    obtain rfl := eq_singleton_of_fillBatch hbatch hfirst
    exact (keeps_ask (.settleApplication first.fill) ⟨first, hsigned.mono hst, rfl⟩).weaken
      fun _ _ hmem => .inr ⟨first, rfl, hmem⟩

theorem keeps_settleFills (hsigned : Signed s c requests) :
    Keeps (settleFills c requests) (fun settled t =>
      t.record? .settled c = some (.settled settled)) s := by
  refine (keeps_settleCall hsigned).andThen fun accepted t hst haccepted =>
    (keeps_ask .crashAfterCanonical trivial).andThen fun (stopped : Bool) u htu _ => ?_
  have hput (v : State) (huv : u ≤ v) : ∃ requests accepted', Signed v c requests ∧
      Accepted v c requests accepted' ∧ settledBy accepted = settledBy accepted' :=
    ⟨requests, accepted, hsigned.mono (hst.trans (htu.trans huv)),
      haccepted.mono (htu.trans huv), rfl⟩
  cases stopped with
  | true =>
    exact (keeps_put .settled (.stage .faultObservation c) _ fun v huv _ => hput v huv).andThen
      fun _ _ _ _ => .throw
  | false => exact keeps_put .settled (.stage .settled c) _ fun v huv _ => hput v huv

theorem keeps_confirmRequest
    {request : NativeFillAuthorizationRequest} (hset : SettledSet s c requests settled)
    (hmem : request ∈ requests) (finality : PrivateStateFinality) (parties : List Nat) :
    Safe (confirmRequest c request settled (fillBatch requests) finality parties) s := by
  induction parties generalizing s with
  | nil => exact .pure trivial
  | cons party rest ih =>
    exact (keeps_ask (.confirmFinality _ _ _ _)
      ⟨requests, settled, hset, hmem, rfl, rfl⟩).andThen
        fun (record : NativeFinalityRecord) _ hst _ => (keeps_check _).andThen
          fun _ _ htu _ => (keeps_demand _ _).andThen
            fun _ _ huv _ => ih (hset.mono (hst.trans (htu.trans huv)))

theorem keeps_confirmRequests (hset : SettledSet s c requests settled)
    (finality : PrivateStateFinality) {left : List NativeFillAuthorizationRequest}
    (hleft : left ⊆ requests) :
    Safe (confirmRequests c settled (fillBatch requests) finality left) s := by
  induction left generalizing s with
  | nil => exact .pure trivial
  | cons request rest ih =>
    obtain ⟨hmem, hrest⟩ := List.cons_subset.mp hleft
    exact (keeps_confirmRequest hset hmem _ _).andThen fun _ _ hst _ => ih (hset.mono hst) hrest

theorem keeps_signedOf (hround : Executed s c plan execution)
    (houtput : execution.output? = some output) (scope : ApplicationReserveScope) :
    Keeps (signedOf c plan execution scope output (matchedSlotsOf execution.result))
      (fun requests t => t.record? .signed c = some (.signed requests)) s := by
  refine (keeps_get .signed _).andThen fun found t hst ht => ?_
  cases found with
  | some saved => exact .pure (ht.2.2 saved rfl)
  | none =>
    exact (keeps_signFills (hround.mono hst) houtput _).andThen fun requests u htu hrequests =>
      keeps_put .signed (.stage .signed c) requests fun v huv _ =>
        ⟨plan, execution, hround.mono (hst.trans (htu.trans huv)), hrequests⟩

theorem keeps_acceptedOf (hsigned : Signed s c requests) :
    Keeps (acceptedOf c requests) (fun settled t => SettledSet t c requests settled) s := by
  refine (keeps_get .settled _).andThen fun found t hst ht => ?_
  cases found with
  | some saved => exact .pure ⟨hsigned.mono hst, ht.2.2 saved rfl⟩
  | none =>
    refine ((keeps_settleFills (hsigned.mono hst)).le (Outbox.exec_grows _)).weaken
      fun settled u hu => ?_
    exact ⟨hsigned.mono (hst.trans hu.1), hu.2⟩

theorem keeps_settle (hround : Executed s c plan execution) :
    Keeps (settle c plan execution (matchedSlotsOf execution.result)) (fun settled t =>
      ∃ requests, SettledSet t c requests settled) s := by
  refine (keeps_ask .setup trivial).andThen fun (_ : Unit) t hst _ =>
    (keeps_ask .scope trivial).andThen fun (scope : ApplicationReserveScope) u htu _ =>
      (keeps_demand _ _).andThen fun _ v huv _ => (keeps_demand _ _).andThen fun _ w hvw _ =>
        (keeps_ask .chain trivial).andThen fun (_ : Unit) x hwx _ =>
          (keeps_demandSome _ _).andThen fun first y hxy hfirst => ?_
  have hround' := hround.mono (hst.trans (htu.trans (huv.trans (hvw.trans (hwx.trans hxy)))))
  have houtput : execution.output? = some first.publicOutputSha256 := by
    rw [AgreedRoundExecution.output?, hfirst, Option.map_some]
  refine (keeps_signedOf hround' houtput _).andThen fun requests t hst hrequests =>
    (keeps_demand _ _).andThen fun _ u htu hmatch =>
      (keeps_check _).andThen fun statement v huv hstatement => ?_
  have hround'' := hround'.mono (hst.trans (htu.trans huv))
  have hsigned : Signed v c requests :=
    ⟨get_mono (htu.trans huv) hrequests, plan, execution, _, hround'', houtput, hmatch⟩
  refine (keeps_acceptedOf hsigned).andThen fun settled w hvw hset =>
    (keeps_confirmRequests hset _ (List.Subset.refl _)).andThen fun _ t hst _ =>
      (keeps_ask (.finalizePrivateState _ _ _) ⟨hround''.mono (hvw.trans hst), requests, settled, _,
        statement, hset.mono hst, houtput, hstatement, rfl⟩).andThen
          fun (receipts : List NodePrivateStateReceipt) u htu hmem => ?_
  have hset' := hset.mono (hst.trans htu)
  exact (keeps_put .depthFinality (.stage .depthFinality c) receipts
    fun v huv _ => ⟨requests, settled, _, _, _, hset'.mono huv, huv.2.subset hmem⟩).andThen
      fun _ v huv _ => .pure ⟨requests, hset'.mono huv⟩

/-- What `settledOf` has found out. -/
def SettlesIf (s : State) (c : Digest32) (execution : AgreedRoundExecution)
    (settled : Option Settled) : Prop :=
  (matchedSlotsOf execution.result = [] → settled = none) ∧
    (matchedSlotsOf execution.result ≠ [] → ∃ requests accepted, settled = some accepted ∧
      SettledSet s c requests accepted)

theorem keeps_settledOf {input : MarketIngress}
    (hround : Executed s input.commitment plan execution) :
    Keeps (settledOf input plan execution) (fun settled t =>
      SettlesIf t input.commitment execution settled) s := by
  unfold settledOf
  dsimp only
  split
  · next hempty => exact .pure ⟨fun _ => rfl, fun hslots => (hslots hempty).elim⟩
  · next hslots =>
    exact (keeps_settle hround).andThen fun accepted _ _ ⟨requests, hset⟩ =>
      .pure ⟨fun hempty => (hslots hempty).elim, fun _ => ⟨requests, accepted, rfl, hset⟩⟩

end

/-! ## The worker -/

theorem keeps_completedRound (input : MarketIngress) (certificate : OrderCertificate)
    (plan : RoundPlan) {execution : AgreedRoundExecution} (book : List MarketBookEntry)
    {settled : Option Settled} (hsettled : SettlesIf s input.commitment execution settled) :
    Keeps (completedRound input certificate plan execution book settled) (fun round t =>
      round.certificate = certificate ∧ round.result = execution.result ∧
        bookAfter book execution.result input.commitment = .ok round.book ∧
        Concludes t input.commitment plan execution round) s := by
  refine (keeps_check _).andThen fun book' t hst hbook => ?_
  by_cases hslots : matchedSlotsOf execution.result = []
  · obtain rfl := hsettled.1 hslots
    have hnone : Keeps (pure []) (fun receipts _ => receipts = ([] : List NodePrivateStateReceipt))
        t := .pure rfl
    refine hnone.andThen fun _ u _ hreceipts =>
      (keeps_check _).andThen fun snapshot v _ hsnapshot =>
      .pure ⟨rfl, rfl, hbook, rfl, fun _ => ⟨rfl, rfl, ?_⟩, fun h => (h hslots).elim⟩
    rw [← hreceipts, hsnapshot]
    rfl
  · obtain ⟨requests, accepted, rfl, hset⟩ := hsettled.2 hslots
    refine keeps_demandGet .depthFinality fun receipts u htu hreceipts => (keeps_check _).andThen
      fun snapshot v huv hsnapshot => .pure ⟨rfl, rfl, hbook, rfl,
        fun h => (hslots h).elim, fun _ => ⟨requests, accepted, receipts,
          hset.mono (hst.trans (htu.trans huv)), get_mono huv hreceipts, rfl, rfl, ?_⟩⟩
    rw [hsnapshot]
    rfl

theorem keeps_pump : Safe pump s := by
  refine keeps_next.andThen fun found t _ hfound => ?_
  cases found with
  | none => exact .pure trivial
  | some input =>
    refine (keeps_completed (hfound input rfl)).andThen fun rounds u _ hprevious =>
      (keeps_demand _ _).andThen fun _ v huv _ => (keeps_ask .setup trivial).andThen
        fun (_ : Unit) w hvw _ => ?_
    have hprevious₁ := hprevious.mono (huv.trans hvw)
    refine (keeps_certificateOf input hprevious₁).andThen fun certificate t hwt hcertificate => ?_
    have hprevious₂ := hprevious₁.mono hwt
    refine (keeps_planOf input hprevious₂ hcertificate).andThen fun plan u htu hplan =>
      (keeps_executionOf input hplan).andThen fun execution v huv hround => ?_
    refine (keeps_settledOf hround).andThen fun settled w hvw hsettled =>
      (keeps_completedRound input certificate plan _ hsettled).andThen fun done x hwx hdone => ?_
    have htx : t ≤ x := htu.trans (huv.trans (hvw.trans hwx))
    refine (keeps_put .done (.stage .done input.commitment) done fun y hxy hnew => ?_).andThen
      fun _ _ _ _ => .pure trivial
    -- the round is not completed yet, so the book that was read is the one before it
    have hprevious₃ := hprevious₂.mono (htx.trans hxy)
    have hsame := hprevious₃.2.resolve_right fun hdone => hnew (mem_dones.mp hdone)
    obtain ⟨rfl, hresult, hbook, hend⟩ := hdone
    refine ⟨hprevious₃.1, get_mono (htx.trans hxy) hcertificate, plan, execution,
      hround.mono (hvw.trans (hwx.trans hxy)), hresult, ?_, hend.mono hxy⟩
    rw [hresult, State.previousBook, ← hsame]
    exact hbook

/-- Whatever is launched keeps the invariant. -/
theorem ensures_entry {p : Prog Op Op.Answer Unit} (h : Entry p) (s : State) :
    Ensures exec Sound p (fun _ _ => True) s := by
  cases h with
  | pump => exact keeps_pump.launch
  | accept input now => exact (keeps_accept input now).launch
  | openContext context =>
    exact (keeps_put .other .context context fun _ _ _ => trivial).launch
  | openSettings settings =>
    exact (keeps_put .other .settings settings fun _ _ _ => trivial).launch

/-- The history the completed rounds form: the `i`-th one is of the `i`-th accepted input, has the
journaled stages of its order, each of them the answer to the one before, and continues the round
before it. -/
structure History (s : State) (i : Nat) (c : Digest32) (round : MarketCompletedRound)
    (plan : RoundPlan) (execution : AgreedRoundExecution) : Prop where
  input : s.inputs[i]? = some c
  done : s.record? .done c = some (.done round)
  certified : s.record? .certificate c = some (.certificate round.certificate)
  executed : Executed s c plan execution
  ordering : plan.orderingCertificate = round.certificate
  arriving : plan.arriving = c ∧ round.certificate.commitment = c
  agreed : agreedExecution plan execution.receipts = .ok execution
  result : round.result = execution.result
  concludes : Concludes s c plan execution round
  first : i = 0 → round.certificate.sequence = 1 ∧ round.certificate.previousCertificate = 0 ∧
    plan.resting = [] ∧ bookAfter [] round.result c = .ok round.book
  next : ∀ j p before, i = j + 1 → s.dones[j]? = some p →
    s.record? .done p = some (.done before) →
      round.certificate.sequence = before.certificate.sequence + 1 ∧
      round.certificate.previousCertificate = before.certificate.digest ∧
      plan.resting = before.book.map (·.commitment) ∧
      bookAfter before.book round.result c = .ok round.book

/-- The `i`-th completed round is of the `i`-th input. -/
theorem Sound.input_of_done (h : Sound s) {c : Digest32} (hi : s.dones[i]? = some c) :
    s.inputs[i]? = some c := by
  obtain ⟨hlt, rfl⟩ := List.getElem?_eq_some_iff.mp hi
  exact List.prefix_iff_getElem?.mp h.law i hlt

theorem Sound.history (h : Sound s) {c : Digest32} (hi : s.dones[i]? = some c) :
    ∃ round plan execution, History s i c round plan execution := by
  have hinput := h.input_of_done hi
  obtain ⟨record, hdone⟩ := mem_keys.mp (mem_dones.mp (List.mem_of_getElem? hi))
  have hfits := h.records _ _ hdone
  cases record with
  | done round =>
    obtain ⟨-, hcertificate, plan, execution, hround, hresult, hbook, hend⟩ := hfits
    obtain ⟨plan', hplan', -, hagreed⟩ := h.records _ _ hround.execution
    obtain rfl := Record.plan.inj (Option.some.inj (hplan'.symm.trans hround.plan))
    obtain ⟨-, hordering, harriving, hresting⟩ := h.records _ _ hround.plan
    obtain ⟨-, hcommitment, hfollows⟩ := h.records _ _ hcertificate
    have hsame := Record.certificate.inj (Option.some.inj (hordering.symm.trans hcertificate))
    refine ⟨round, plan', execution, hinput, hdone, hcertificate, hround, hsame,
      ⟨harriving, hcommitment⟩, hagreed, hresult, hend, ?_, ?_⟩
    · rintro rfl
      have hnone : s.previous c = none := by
        rw [State.previous, before_of_getElem? hinput]
        rfl
      rw [hnone] at hfollows
      rw [State.previousBook, hnone] at hresting hbook
      exact ⟨hfollows.1, hfollows.2, hresting, hbook⟩
    · rintro j p before rfl hj hbefore
      have hprevious : s.previous c = some before := by
        rw [State.previous, before_of_getElem? hinput, List.getLast?_take, if_neg (by simp),
          Nat.add_sub_cancel, h.input_of_done hj]
        exact round?_eq_some.mpr hbefore
      rw [hprevious] at hfollows
      rw [State.previousBook, hprevious] at hresting hbook
      exact ⟨hfollows.1, hfollows.2, hresting, hbook⟩
  | _ => exact hfits.elim

end

/-! ## A sample market

An order that rests, and one that matches it; the worker stops between the settlement of the second
one and its record. -/

section Sample

/-- A manifest (`OCLOB:EDGE-MANIFEST`) has a digest by its last byte, everything else has the digest
1, and every signature is accepted. -/
@[reducible] def openNodeCrypto : NodeCrypto where
  sha256 bytes :=
    if bytes[11]? = some 77 then Fin.ofNat _ ((bytes.getLastD 0).toNat + 1) else 1
  verifyStrict _ _ _ := true
  isPoint _ := true
  verifyingKey _ := 1
  trySign _ _ := some []
  hybridSuite := []
  checkVss _ _ := .ok ()
  checkFeldman _ _ := .ok ()
  decodeAdmission _ := none
  admissionDigest _ := 1
  verifyAdmission _ _ _ _ := true

/-- What an order reserves; its commitment stands for its handle, its hold and its asset. -/
def sampleAuthority (c : Digest32) : NativeReservationAuthority :=
  ⟨⟨1, 1, 1, 1, 1, 1, 1⟩, ⟨c, c, c, 1, 1, true, 1, 1, 1⟩, 1, [], c⟩

/-- Checks that accept, over seven nodes. -/
@[reducible] def sampleChecks : MarketChecks where
  toNodeCrypto := openNodeCrypto
  nullifier _ := 1
  validateEndpoint _ := .ok ()
  validateClaims _ _ := .ok ()
  fillEvidence _ _ _ := .ok []
  applicationFillGroup _ _ _ := .ok 1
  signingMessage _ := .ok 1
  verifyFill _ _ _ := .ok (1, (1, []), (1, []))
  ingressJson input := input.signature
  unsignedJson input := input.authority
  validateEnvelope _ _ := .ok ()
  openReservation _ input _ _ := .ok (sampleAuthority input.commitment)
  batchStatement _ := .ok 1
  validateCluster := .ok ()
  marketId := "JGB10Y-JPY"
  orderingKeys := Cluster.sampleKeys
  receiptKeys := [201, 202, 203, 204, 205, 206, 207]
  program := [1]
  coordinatorKey := [2]
  issuer := List.replicate 1984 0
  committeeKeyDigest := 1
  baseAsset := 2
  quoteAsset := 3

attribute [local instance] sampleChecks clusterSerde

/-- An order on an empty book rests, and the next one takes 3 of its 5. -/
def sampleResult (plan : RoundPlan) : MpcBatchResult :=
  let unmatched : MpcSlotResult := ⟨false, 0, 0⟩
  if plan.resting = [] then ⟨List.replicate 8 unmatched, 5, some []⟩
  else ⟨⟨true, 100, 3⟩ :: List.replicate 7 unmatched, 0, some []⟩

def sampleReceipt (plan : RoundPlan) (party : Nat) : NodeExecutionReceipt :=
  let result := sampleResult plan
  let signer : Digest32 := Fin.ofNat _ (party + 201)
  ⟨executorVersion, party, plan.roundId, 1, 1, 1, 1, 1, 1, 1, result, some ⟨2, party, plan.marketId,
    plan.sequence, plan.roundId, 1, 1, 1, 1, plan.issuedAt, plan.expiresAt, anyMatched result,
    signer, []⟩, 1, signer, []⟩

def sampleScope : ApplicationReserveScope := ⟨1, 1, 1, 1, 64⟩

/-- The taker pays the maker. -/
def sampleProof (request : CollaborativeFillRequest) : CollaborativeFillProof :=
  let sealed : OpeningEnvelope := ⟨1, 1, []⟩
  ⟨request.jobId, request.marketProofDigest, request.limitDirection, request.limitCommitment,
    request.limitContext, request.assetId,
    ⟨1, 20, .proofDigest 1, request.takerHandle, 2, 1, 1, 1, true, []⟩, [], [], 2, [], [], 1, 1, 1,
    1, [], ⟨sealed, sealed, sealed, sealed⟩, []⟩

/-- Nodes, proof parties and a chain that answer; the worker is stopped once. -/
def sampleOutside : (call : External) → Bool → Except String call.Answer
  | .now, _ => .ok (10 : Nat)
  | .votes _, _ => .ok ((List.range 5).map fun i => (⟨i + 1, 1, []⟩ : OrderVote))
  | .execute plan, _ => .ok ((List.range 7).map (sampleReceipt plan))
  | .scope, _ => .ok sampleScope
  | .release _ _ _, _ => .ok ([] : Bytes)
  | .reservationSnapshot hold, _ => .ok (⟨1, sampleScope, hold, 1, 1, 0, 1, 1, none, "active", 0,
      1, 1, 1, 1⟩ : CanonicalApplicationReservation)
  | .proveFill request, _ => .ok (sampleProof request)
  | .claimAuthorizations _ hold _ _ _, _ =>
    let claim : NativeClaimAuthorizationCommitment := ⟨.cashRefund, 1, ⟨1, []⟩⟩
    .ok (⟨1, hold, 0, (claim, claim), []⟩ : NativeParticipantClaimAuthorizations)
  | .certify _, _ => .ok ([] : Bytes)
  | .settleApplication _, _ | .settleApplicationBatch _, _ =>
    .ok (⟨"tx", 1, 1, 2, 7, "block"⟩ : AcceptedTransition)
  | .crashAfterCanonical, stopped => .ok (!stopped)
  | .confirmFinality _ request transactionId _, _ => .ok (⟨request.roundId, request.slot,
      request.fill.mpcResultDigest, 2, 3, transactionId, "block", 7, 1, none, 1, 2⟩ :
      NativeFinalityRecord)
  | .finalizePrivateState plan _ _, _ => .ok ((List.range 7).map fun party =>
      (⟨recordVersion, party, plan.roundId, 1, 1, 1, 7, 1, 1, Fin.ofNat _ (party + 201), []⟩ :
        NodePrivateStateReceipt))
  | .setup, _ | .chain, _ | .loadFill _ _ _ _, _ | .complete _, _ => .ok ()

/-- A process of the sample, alone. -/
def sampleRun {α : Type} (process : Process α) (s : State) : State :=
  (launch process).runAlone (Outbox.alone fun c log => sampleOutside c.call
    (log.any fun earlier => match earlier.1.call with
      | .crashAfterCanonical => true
      | _ => false)) s

end Sample

end Oclob.Market
