import Oclob.Corporate.Dispatch

/-!
# The send fence and the turns of corporate requests

What holds of one corporate journal under any interleaving of any number of processes, each of which
may stop between two operations (`Oclob.Lib.Interleave`).

* **The fence.** `mark_reserve_send_started` and every way to end a request unsent insert the same
  record, `reserve-send`, and the first one wins. So a request that is recorded as ended, as never
  reserved or as aborted before reserve was not sent and is never sent (`send_fence_exact`).
* **Turns.** `require_turn` is asked long before the send. What it has found stays true: the intents
  before a given one are fixed as soon as that one is there, and a request that is finished stays
  finished (`Turn.mono`). A reserve is only saved in turn, and only a request with a reserve is sent
  (`requests_in_turn`).

`Allowed` says which records a process may insert, and `Called` which calls it may make. Over the
rules of the outbox (`Oclob.Lib.Outbox`) there is one specification for each method.
-/

namespace Oclob.Corporate

open Oclob.Core Oclob.Lib Oclob.Node WriteOnce

/-! ## What stays true of a journal -/

/-- The send decision of a request. -/
def Decided (s : State) (id : String) (maySend : Bool) : Prop :=
  ∃ decision, s.journal.get? (.stage .reserveSend id) = some (.reserveSend decision) ∧
    decision.maySend = maySend

/-- The request has a receipt, a resolution or an ended authorization. -/
def Finished (s : State) (id : String) : Prop := ∃ key ∈ s.journal.keys, key.completes = some id

/-- The intent is there, and all earlier ones are finished. -/
def Turn (s : State) (id : String) : Prop :=
  .stage .intent id ∈ s.journal.keys ∧
    ∀ other, s.journal.Before (.stage .intent other) (.stage .intent id) → Finished s other

section

variable {s t : State} {id : String}

theorem mem_keys_mono {key : Key} (hle : s ≤ t) (h : key ∈ s.journal.keys) :
    key ∈ t.journal.keys := (keys_mono hle.1).subset h

theorem Decided.mono {maySend : Bool} (hle : s ≤ t) (h : Decided s id maySend) :
    Decided t id maySend := by
  obtain ⟨decision, hfound, hsend⟩ := h
  exact ⟨decision, get?_mono hle.1 hfound, hsend⟩

/-- There is one decision. -/
theorem Decided.unique {a b : Bool} (ha : Decided s id a) (hb : Decided s id b) : a = b := by
  obtain ⟨decision, hfound, rfl⟩ := ha
  obtain ⟨decision', hfound', rfl⟩ := hb
  obtain rfl := Record.reserveSend.inj (Option.some.inj (hfound.symm.trans hfound'))
  rfl

theorem Finished.mono (hle : s ≤ t) (h : Finished s id) : Finished t id := by
  obtain ⟨key, hkey, hcompletes⟩ := h
  exact ⟨key, mem_keys_mono hle hkey, hcompletes⟩

theorem Turn.mono (hle : s ≤ t) (h : Turn s id) : Turn t id :=
  ⟨mem_keys_mono hle h.1, fun other hbefore =>
    (h.2 other ((before_iff_of_le hle.1 h.1).mp hbefore)).mono hle⟩

end

/-! ## The invariant -/

/-- The records a process may insert. -/
def Allowed (s : State) (key : Key) (record : Record) : Prop :=
  match key with
  | .stage .authorizationEnd id => Decided s id false
  | .expiryResult _ => ∀ value, record = .resolution value →
      value.outcome.isNeverReserved = true → Decided s value.requestId false
  | .stage .resolved id => ∀ value, record = .resolution value →
      value.outcome.isNeverReserved = true → Decided s id false
  | .stage .reserve id => Turn s id
  | .stage .delivery id => .stage .reserve id ∈ s.journal.keys
  | .stage .receipt id => .stage .delivery id ∈ s.journal.keys
  | _ => True

theorem Allowed.mono {s t : State} {key : Key} {record : Record} (hle : s ≤ t)
    (h : Allowed s key record) : Allowed t key record := by
  unfold Allowed at h ⊢
  split at h
  · exact h.mono hle
  · exact fun value hrecord hnever => (h value hrecord hnever).mono hle
  · exact fun value hrecord hnever => (h value hrecord hnever).mono hle
  · exact h.mono hle
  · exact mem_keys_mono hle h
  · exact mem_keys_mono hle h
  · trivial

/-- The calls a process may make: a send behind the fence, an abort when the send is ruled out, and
the way to the send in turn. -/
def Called (s : State) : Call → Prop
  | .finalizeReservation id _ _ => Decided s id true
  | .recordPreReserveAbort id _ _ => Decided s id false
  | .reachedSend id => Turn s id
  | .external _ => True

theorem Called.mono {s t : State} {call : Call} (hle : s ≤ t) (h : Called s call) :
    Called t call := by
  cases call with
  | finalizeReservation id prepared now => exact Decided.mono hle h
  | recordPreReserveAbort id digest endedAt => exact Decided.mono hle h
  | reachedSend id => exact Turn.mono hle h
  | external call => trivial

/-- What every process keeps. -/
abbrev Sound : State → Prop :=
  Outbox.Sound (fun key record s => Allowed s key record) (fun c s => Called s c.1) fun _ => True

theorem steady : Outbox.Steady (fun _ _ => True)
    (fun key record (s : State) => Allowed s key record) (fun c s => Called s c.1)
    fun _ => True where
  allowed_lasting _ _ _ _ hle h := h.mono hle
  called_lasting _ _ _ hle h := h.mono hle
  law_enqueue _ _ _ _ _ _ := trivial
  law_ask _ _ _ _ := trivial

section

variable {s : State} {id : String}

/-- What is read off the calls was called for. -/
theorem Sound.called {β : Type} {f : Call → Option β} {b : β} (h : Sound s)
    (hmem : b ∈ s.log.filterMap fun c => f c.1) : ∃ call, f call = some b ∧ Called s call := by
  obtain ⟨c, hc, hcall⟩ := List.mem_filterMap.mp hmem
  exact ⟨c.1, hcall, h.calls c hc⟩

theorem Sound.sent (h : Sound s) {prepared : PreparedCorporateReserve}
    (hsent : (id, prepared) ∈ s.sent) : Decided s id true := by
  obtain ⟨call, hcall, hcalled⟩ := Sound.called h hsent
  cases call with
  | finalizeReservation other _ _ => exact (Prod.mk.inj (Option.some.inj hcall)).1 ▸ hcalled
  | _ => cases hcall

theorem Sound.aborted (h : Sound s) (haborted : id ∈ s.aborted) : Decided s id false := by
  obtain ⟨call, hcall, hcalled⟩ := Sound.called h haborted
  cases call with
  | recordPreReserveAbort other _ _ => exact Option.some.inj hcall ▸ hcalled
  | _ => cases hcall

theorem Sound.reached (h : Sound s) (hreached : id ∈ s.reached) : Turn s id := by
  obtain ⟨call, hcall, hcalled⟩ := Sound.called h hreached
  cases call with
  | reachedSend other => exact Option.some.inj hcall ▸ hcalled
  | _ => cases hcall

theorem Sound.allowed (h : Sound s) {key : Key} (hkey : key ∈ s.journal.keys) :
    ∃ record, Allowed s key record := by
  obtain ⟨record, hrecord⟩ := mem_keys.mp hkey
  exact ⟨record, h.records key record hrecord⟩

end

/-! ## Reading and writing -/

section

variable {s : State} {α β : Type}

/-- A process keeps `Sound`, and `post` holds of its result. -/
abbrev Keeps (process : Process α) (post : α → State → Prop) (s : State) : Prop :=
  EnsuresOk exec Sound process post s

/-- A process keeps `Sound`; nothing is said of its result. -/
abbrev Safe (process : Process α) (s : State) : Prop := Keeps process (fun _ _ => True) s

variable {next : α → Process β} {post : β → State → Prop}

theorem keeps_done {a : α} : Safe (pure a) s := .pure trivial

/-- A call that is allowed may be made. -/
theorem keeps_call {call : Call} (hcalled : Called s call) : Safe (Outbox.ask call) s :=
  (Outbox.ensures_ask steady fun _ _ hle => hcalled.mono hle).weaken fun _ _ _ => trivial

theorem keeps_ask (call : External) : Safe (ask call) s := keeps_call trivial

theorem keeps_check (outcome : Except String α) :
    Keeps (check outcome) (fun a _ => outcome = .ok a) s := .check outcome

theorem keeps_demand (condition : Prop) [Decidable condition] (message : String) :
    Keeps (demand condition message) (fun _ _ => condition) s := .of_demand id

theorem keeps_recordId (stage : Stage) (id : String) :
    Keeps (recordId stage id) (fun key _ => key = .stage stage id) s :=
  (keeps_demand _ _).andThen fun _ _ _ _ => .pure rfl

/-- What is read is in the journal, which is sound at that moment. -/
theorem keeps_read (kind : Kind α) (key : Key) :
    Keeps (read kind key) (fun found t => Sound t ∧
      ∀ value, found = some value → t.journal.get? key = some (kind.inject value)) s :=
  Outbox.ensures_read.weaken fun _ _ hfound => ⟨hfound.1, hfound.2.2⟩

/-- What is returned is in the journal, whichever process wrote it. -/
theorem keeps_putFirst (kind : Kind α) (key : Key) (body : α)
    (hallowed : Allowed s key (kind.inject body)) :
    Keeps (putFirst kind key body) (fun stored t => Sound t ∧
      t.journal.get? key = some (kind.inject stored)) s :=
  Outbox.ensures_putFirst steady fun _ hle => hallowed.mono hle

/-- `put_first` at a key of a request, and what follows. -/
theorem keeps_putStage (kind : Kind α) {st : Stage} {id : String} {body : α}
    (hallowed : Allowed s (.stage st id) (kind.inject body))
    (hnext : ∀ stored t, s ≤ t → t.journal.get? (.stage st id) = some (kind.inject stored) →
      Keeps (next stored) post t) :
    Keeps (do next (← putFirst kind (← recordId st id) body)) post s :=
  (keeps_recordId st id).andThen fun key t hst hkey => by
    subst hkey
    exact (keeps_putFirst kind _ body (hallowed.mono hst)).andThen fun stored u htu hu =>
      hnext stored u (hst.trans htu) hu.2

theorem keeps_stage (kind : Kind α) (st : Stage) (id : String) :
    Keeps (stage kind st id) (fun found t => Sound t ∧ ∀ value, found = some value →
      t.journal.get? (.stage st id) = some (kind.inject value)) s :=
  (keeps_recordId st id).andThen fun key t _ hkey => by
    subst hkey
    exact keeps_read kind _

/-- A record that has to be there, and what follows. -/
theorem keeps_demandStage (kind : Kind α) {st : Stage} {id message : String}
    (hnext : ∀ value t, s ≤ t → Sound t →
      t.journal.get? (.stage st id) = some (kind.inject value) → Keeps (next value) post t) :
    Keeps (do next (← demandSome (← stage kind st id) message)) post s := by
  refine (keeps_stage kind st id).andThen fun found t hst ht => ?_
  cases found with
  | none => exact .bind .throw
  | some value => exact .bind (.pure (hnext value t hst ht.1 (ht.2 value rfl)))

theorem keeps_saveStage (kind : Kind α) (st : Stage) (id : String) (body : α)
    (hallowed : Allowed s (.stage st id) (kind.inject body)) :
    Keeps (saveStage kind st id body) (fun stored t => Sound t ∧
      t.journal.get? (.stage st id) = some (kind.inject stored)) s :=
  (keeps_recordId st id).andThen fun key t hst hkey => by
    subst hkey
    exact keeps_putFirst kind _ body (hallowed.mono hst)

theorem mem_keys_of_get {key : Key} {record : Record} (h : s.journal.get? key = some record) :
    key ∈ s.journal.keys := mem_keys.mpr ⟨record, h⟩

end

/-! ## The methods of the journal -/

section

variable {s : State}

theorem keeps_saveIntent (id : String) (value : StoredCorporateIntent) :
    Keeps (saveIntent id value) (fun _ t => .stage .intent id ∈ t.journal.keys) s :=
  keeps_putStage .intent trivial fun _ _ _ hstored =>
    (keeps_demand _ _).andThen fun _ _ htu _ =>
      .pure (mem_keys_mono htu (mem_keys_of_get hstored))

theorem finished_iff {id : String} :
    Finished s id ↔ id ∈ s.journal.keys.filterMap Key.completes := List.mem_filterMap.symm

/-- A request with a receipt had its turn. -/
theorem Sound.turn_of_receipt (h : Sound s) {id : String} (hfinished : Finished s id)
    (hopen : ¬ (.stage .resolved id ∈ s.journal.keys ∨
      .stage .authorizationEnd id ∈ s.journal.keys)) : Turn s id := by
  obtain ⟨key, hkey, hcompletes⟩ := hfinished
  have hreceipt : .stage .receipt id ∈ s.journal.keys := by
    unfold Key.completes at hcompletes
    split at hcompletes
    · exact Option.some.inj hcompletes ▸ hkey
    · exact absurd (.inl (Option.some.inj hcompletes ▸ hkey)) hopen
    · exact absurd (.inr (Option.some.inj hcompletes ▸ hkey)) hopen
    · exact nomatch hcompletes
  obtain ⟨_, hdelivery⟩ := Sound.allowed h hreceipt
  obtain ⟨_, hreserve⟩ := Sound.allowed h hdelivery
  obtain ⟨_, hturn⟩ := Sound.allowed h hreserve
  exact hturn

/-- The oldest unfinished intent has its turn. -/
theorem turn_of_oldest {id : String}
    (hfind : s.journal.keys.find? (Key.unfinished (s.journal.keys.filterMap Key.completes)) =
      some (.stage .intent id)) : Turn s id := by
  refine ⟨List.mem_of_find?_eq_some hfind, fun other hbefore => ?_⟩
  obtain ⟨-, older, newer, hkeys, holder⟩ := List.find?_eq_some_iff_append.mp hfind
  have hother := holder _ (mem_older hbefore hkeys)
  rw [Bool.not_eq_true', Key.unfinished, decide_eq_false_iff_not, not_not] at hother
  exact finished_iff.mpr hother

/-- A turn that `require_turn` grants is a turn. -/
theorem keeps_requireTurn (id : String) :
    Keeps (requireTurn id) (fun _ t => .stage .intent id ∈ s.journal.keys → Turn t id) s := by
  refine (keeps_recordId .intent id).andThen fun target t hst htarget => ?_
  refine Outbox.ensures_summaries.andThen fun keys u htu hu => ?_
  obtain ⟨hsound, rfl⟩ := hu
  have hintent (h : .stage .intent id ∈ s.journal.keys) : .stage .intent id ∈ u.journal.keys :=
    mem_keys_mono (hst.trans htu) h
  refine (keeps_demand _ _).andThen fun _ v huv hopen => ?_
  dsimp only
  split
  · exact .pure fun _ => (Sound.turn_of_receipt hsound (finished_iff.mpr ‹_›) hopen).mono huv
  · rename_i hunfinished
    split
    · -- every intent is finished, so there is none of `id`
      rename_i hnone
      refine .pure fun h => absurd (List.find?_eq_none.mp hnone _ (hintent h)) ?_
      simpa [Key.unfinished] using hunfinished
    · rename_i oldest hfind
      refine .of_demand fun holdest _ => ?_
      rw [holdest, htarget] at hfind
      exact (turn_of_oldest hfind).mono huv

theorem keeps_anyStage (id : String) (stages : List Stage) : Safe (anyStage id stages) s := by
  induction stages generalizing s with
  | nil => exact keeps_done
  | cons first rest ih =>
    refine (keeps_stage .any first id).andThen fun found t _ _ => ?_
    cases found with
    | some _ => exact keeps_done
    | none => exact ih

variable [CorporateChecks]

theorem keeps_saveAuthorization (id : String) (value : CorporateReserveAuthorization) :
    Safe (saveAuthorization id value) s :=
  keeps_demandStage .intent fun _ _ _ _ _ => (keeps_check _).after fun _ =>
    (keeps_demand _ _).after fun _ => keeps_putStage .authorization trivial fun _ _ _ _ =>
      (keeps_check _).after fun _ => (keeps_demand _ _).after fun _ =>
        keeps_done

theorem keeps_saveFundingWitness (witness : FacilityWitness) :
    Safe (saveFundingWitness witness) s := by
  refine (keeps_check _).andThen fun commitments t _ _ => ?_
  have hput := keeps_putFirst (s := t) .funding (.funding witness.facilityId witness.sequence)
    witness trivial
  exact hput.after fun _ => (keeps_check _).after fun _ =>
    (keeps_demand _ _).weaken fun _ _ _ => trivial

theorem keeps_sendBinding (id : String) (digest : Digest32) : Safe (sendBinding id digest) s := by
  refine (keeps_stage .authorization .authorization id).andThen fun found t _ _ => ?_
  cases found with
  | none => exact keeps_done
  | some authorization =>
    dsimp only
    split
    · exact keeps_done
    · exact keeps_demandStage .reserve fun _ _ _ _ _ => (keeps_demand _ _).after
        fun _ => keeps_done

/-- Whoever asks gets the decision that is in the journal. -/
theorem keeps_chooseReserveSend (id : String) (digest : Digest32) (maySend : Bool) :
    Keeps (chooseReserveSend id digest maySend) (fun answer t => Decided t id answer) s :=
  keeps_demandStage .intent fun _ _ _ _ _ => (keeps_sendBinding id digest).after
    fun _ => keeps_putStage .reserveSend trivial fun decision _ _ hstored =>
      (keeps_demand _ _).andThen fun _ _ htu _ =>
        .pure (Decided.mono htu ⟨decision, hstored, rfl⟩)

theorem keeps_markReserveSendStarted (id : String) (digest : Digest32) :
    Keeps (markReserveSendStarted id digest) (fun _ t => Decided t id true) s :=
  (keeps_chooseReserveSend id digest true).andThen fun _ _ _ ht =>
    .of_demand fun htrue => htrue ▸ ht

theorem keeps_sealNeverDispatched (id : String) (digest : Digest32) (now : Nat) :
    Keeps (sealNeverDispatched id digest now) (fun sealed t => sealed = true → Decided t id false)
      s := by
  refine keeps_demandStage .intent fun intent t _ _ _ => ?_
  split
  · exact .pure fun h => nomatch h
  · refine (keeps_anyStage id _).andThen fun found u _ _ => ?_
    split
    · exact .pure fun h => nomatch h
    · refine (keeps_chooseReserveSend id digest false).andThen fun answer v _ hv => ?_
      exact .pure fun h => by
        rw [Bool.not_eq_true'] at h
        exact h ▸ hv

theorem keeps_endedAuthorization (id : String) :
    Keeps (endedAuthorization id) (fun found t =>
      ∀ ended, found = some ended → ended.requestId = id ∧ Decided t id false) s := by
  refine (keeps_stage .authorizationEnd .authorizationEnd id).andThen fun found t _ _ => ?_
  cases found with
  | none => exact .pure fun _ h => nomatch h
  | some value =>
    refine keeps_demandStage .authorization fun _ _ _ _ _ => keeps_demandStage .intent
      fun _ _ _ _ _ => keeps_demandStage .reserveSend fun decision _ _ _ hdecision =>
        (keeps_demand _ _).andThen fun _ u htu hfits => .pure fun ended hended => ?_
    obtain rfl := Option.some.inj hended
    exact ⟨hfits.1, Decided.mono htu ⟨decision, hdecision, hfits.2.2.2.1⟩⟩

theorem keeps_endUnpreparedAuthorization (id : String) (now : Nat)
    (reason : AuthorizationEndReason) :
    Keeps (endUnpreparedAuthorization id now reason) (fun ended t =>
      ended.requestId = id ∧ Decided t id false) s := by
  refine (keeps_endedAuthorization id).andThen fun found t _ ht => ?_
  cases found with
  | some saved => exact .pure (ht saved rfl)
  | none =>
    refine keeps_demandStage .intent fun _ _ _ _ _ => (keeps_demand _ _).after fun _ =>
      (keeps_anyStage id _).after fun _ => (keeps_demand _ _).after fun _ =>
        keeps_demandStage .authorization fun authorization _ _ _ _ =>
          (keeps_chooseReserveSend id _ false).andThen fun answer u _ hu =>
            (keeps_demand _ _).andThen fun _ v huv hfalse =>
              keeps_putStage .authorizationEnd ?_ fun _ _ _ _ => ?_
    · exact Decided.mono huv (hfalse ▸ hu)
    · refine .bind ((keeps_endedAuthorization id).weaken fun found w hw => ?_)
      cases found with
      | none => exact .throw
      | some ended => exact .pure (hw ended rfl)

theorem keeps_saveExpiryRelease (id : String) (release : ApplicationNoteRelease)
    (prepared : PreparedCorporateReserve) (now : Nat) :
    Safe (saveExpiryRelease id release prepared now) s :=
  (keeps_check _).after fun _ => keeps_putStage .expiry trivial fun _ _ _ _ =>
    (keeps_check _).after fun _ => keeps_done

/-- A resolution that claims absence has the fence. -/
def Unsent (s : State) (value : NativeExpiryResolution) : Prop :=
  value.outcome.isNeverReserved = true → Decided s value.requestId false

omit [CorporateChecks] in
theorem Unsent.mono {t : State} {value : NativeExpiryResolution} (hle : s ≤ t)
    (h : Unsent s value) : Unsent t value := fun hnever => (h hnever).mono hle

theorem keeps_verifyUnsentResolution (value : NativeExpiryResolution) :
    Keeps (verifyUnsentResolution value) (fun _ t => Unsent t value) s := by
  unfold verifyUnsentResolution
  split
  · exact keeps_demandStage .intent fun _ _ _ _ _ => keeps_demandStage .reserveSend
      fun decision _ _ _ hdecision => (keeps_demand _ _).andThen fun _ _ htu hfits =>
        (keeps_sendBinding _ _).andThen fun _ _ huv _ => .of_demand fun _ _ =>
          Decided.mono (htu.trans huv) ⟨decision, hdecision, hfits.2.1⟩
  · exact .pure fun hnever => absurd hnever ‹_›

theorem keeps_expiryResolution (prepared : PreparedCorporateReserve) :
    Keeps (expiryResolution prepared) (fun found t =>
      ∀ value, found = some value → Unsent t value) s := by
  refine (keeps_read .resolution _).andThen fun found t _ _ => ?_
  cases found with
  | none => exact .pure fun _ h => nomatch h
  | some value =>
    exact (keeps_check _).after fun _ => (keeps_verifyUnsentResolution value).andThen
      fun _ _ _ hunsent => .pure fun _ hvalue => Option.some.inj hvalue ▸ hunsent

theorem keeps_saveExpiryResolution (value : NativeExpiryResolution)
    (prepared : PreparedCorporateReserve) :
    Keeps (saveExpiryResolution value prepared) (fun stored t => stored = value ∧ Unsent t value)
      s := by
  refine (keeps_check _).after fun _ => (keeps_verifyUnsentResolution value).andThen
    fun _ t _ hunsent => ?_
  have hput := keeps_putFirst (s := t) .resolution
    (.expiryResult prepared.request.mandate.holdId) value
    fun _ hrecord => Record.resolution.inj hrecord ▸ hunsent
  exact hput.andThen fun stored u htu _ => (keeps_check _).andThen fun _ v huv _ =>
    (keeps_demand _ _).andThen fun _ w hvw hsame =>
      .pure ⟨hsame, hunsent.mono (htu.trans (huv.trans hvw))⟩

theorem keeps_completeExpiry (value : NativeExpiryResolution)
    (prepared : PreparedCorporateReserve) : Safe (completeExpiry value prepared) s := by
  refine (keeps_check _).after fun _ => (keeps_expiryResolution prepared).andThen
    fun evidence t _ hevidence => (keeps_demand _ _).andThen fun _ u htu hsome =>
      keeps_putStage .resolution ?_ fun _ _ _ _ => .of_demand fun _ => trivial
  intro stored hstored
  exact Record.resolution.inj hstored ▸ (hevidence value hsome).mono htu

theorem keeps_saveReceipt (id : String) (receipt : EdgeAdmissionReceipt)
    (delivery : StoredCorporateDelivery) (intent : StoredCorporateIntent)
    (hdelivery : .stage .delivery id ∈ s.journal.keys) :
    Safe (saveReceipt id receipt delivery intent) s :=
  (keeps_check _).andThen fun _ _ hst _ =>
    keeps_putStage .receipt (mem_keys_mono hst hdelivery) fun _ _ _ _ =>
      (keeps_check _).after fun _ => keeps_done

end

/-! ## Submission -/

section

variable [CorporateChecks] {s : State}

/-- A call of `finalize_reservation` is behind the fence and in turn. -/
theorem keeps_finalizedReservation (id : String) (prepared : PreparedCorporateReserve)
    (hturn : Turn s id) : Safe (finalizedReservation id prepared) s := by
  refine (keeps_stage .admission .admission id).andThen fun found t hst _ => ?_
  cases found with
  | some saved =>
    exact (keeps_ask _).after fun _ => (keeps_ask _).after fun _ =>
      keeps_done
  | none =>
    refine (keeps_ask _).andThen fun _ u htu _ => ?_
    have hreached : Called u (.reachedSend id) := hturn.mono (hst.trans htu)
    refine (keeps_call hreached).after fun _ => (keeps_markReserveSendStarted id _).andThen
      fun _ v _ hdecided => (keeps_ask _).andThen fun now w hvw _ => ?_
    have hsend : Called w (.finalizeReservation id prepared now) := hdecided.mono hvw
    refine (keeps_call hsend).after fun _ => (keeps_ask _).after fun _ => ?_
    exact (keeps_saveStage .admission .admission id _ trivial).weaken fun _ _ _ => trivial

theorem keeps_reservedDelivery (id : String) (prepared : PreparedCorporateReserve)
    (hreserve : .stage .reserve id ∈ s.journal.keys) (hturn : Turn s id) :
    Keeps (reservedDelivery id prepared) (fun _ t => .stage .delivery id ∈ t.journal.keys) s := by
  refine (keeps_stage .delivery .delivery id).andThen fun found t hst ht => ?_
  cases found with
  | some saved => exact .pure (mem_keys_of_get (ht.2 saved rfl))
  | none =>
    refine (keeps_finalizedReservation id prepared (hturn.mono hst)).andThen fun _ u htu _ =>
      (keeps_saveFundingWitness _).andThen fun _ v huv _ => (keeps_ask _).andThen
        fun _ w hvw _ => (keeps_ask .buildReservedDelivery).andThen fun built x hwx _ => ?_
    have hle : s ≤ x := hst.trans (htu.trans (huv.trans (hvw.trans hwx)))
    exact (keeps_saveStage .delivery .delivery id _ (mem_keys_mono hle hreserve)).weaken
      fun _ _ hstored => mem_keys_of_get hstored.2

/-- The saved reserve of a submission was saved in its turn. -/
theorem keeps_completeNativeSubmission (id : String) (sourceNote : Option Digest32) :
    Safe (completeNativeSubmission id sourceNote) s := by
  refine (keeps_requireTurn id).after fun _ => keeps_demandStage .intent
    fun intent _ _ _ _ => keeps_demandStage .reserve fun prepared t _ hsound hreserve =>
      (keeps_check _).andThen fun _ u htu _ => (keeps_demand _ _).andThen fun _ v huv _ =>
        (keeps_stage .receipt .receipt id).andThen fun completed w hvw _ => ?_
  have hle : t ≤ w := htu.trans (huv.trans hvw)
  have hkey := mem_keys_of_get hreserve
  refine (keeps_reservedDelivery id prepared (mem_keys_mono hle hkey)
    (Turn.mono hle (hsound.records _ _ hreserve))).andThen fun delivery x _ hdelivery =>
      (keeps_demand _ _).andThen fun _ y hxy _ => ?_
  have hfinish (receipt : EdgeAdmissionReceipt) (z : State) :
      Safe (do
        check (CorporateChecks.verifyReceipt receipt delivery intent.acceptedAt)
        if sourceNote.isSome then ask .verifySelectedFundingSpent
        return receipt) z := by
    refine (keeps_check _).after fun _ => ?_
    split
    · exact (keeps_ask _).after fun _ => keeps_done
    · exact .bind (.pure (keeps_done))
  cases completed with
  | some receipt => exact .bind (.pure (hfinish receipt y))
  | none =>
    exact (keeps_ask _).andThen fun receipt a hya _ => (keeps_ask _).andThen fun _ b hab _ =>
      (keeps_saveReceipt id receipt delivery intent
        (mem_keys_mono (hxy.trans (hya.trans hab)) hdelivery)).andThen fun stored z _ _ =>
          hfinish stored z

/-! ## Expiry -/

theorem keeps_releasedOutcome (id : String) (prepared : PreparedCorporateReserve) (root : Digest32)
    (now : Nat) :
    Keeps (releasedOutcome id prepared root now) (fun outcome _ =>
      outcome.isNeverReserved = false) s := by
  refine (keeps_ask _).andThen fun head _ _ _ => (keeps_demand _ _).after fun _ =>
    (keeps_check _).andThen fun expected _ _ _ => (keeps_demand _ _).after fun _ =>
      (keeps_stage .expiry .expiry id).andThen fun found t _ _ => ?_
  have hfinish (release : ApplicationNoteRelease) (u : State) :
      Keeps (do
        check (validateExpiryRelease release prepared now)
        let accepted ← ask (.releaseApplication release)
        let after ← ask (.reservationSnapshot release.holdId)
        demand (after.status = "released" ∧ after.sequence = 1 ∧ after.binding = expected ∧
            after.headReceipt = accepted.statement ∧
            after.remainingCommitment = prepared.request.mandate.amountCommitment)
          "expiry did not terminate the exact original reserve"
        return ExpiryOutcome.released release accepted.txId accepted.blockId accepted.height
          accepted.afterRoot) (fun outcome _ => outcome.isNeverReserved = false) u :=
    (keeps_check _).after fun _ => (keeps_ask _).after fun _ =>
      (keeps_ask _).after fun _ => (keeps_demand _ _).after fun _ =>
        .pure rfl
  cases found with
  | some saved => exact .bind (.pure (hfinish saved t))
  | none =>
    exact (keeps_demand _ _).after fun _ =>
      (keeps_saveExpiryRelease id _ prepared now).andThen fun release u _ _ => hfinish release u

/-- An outcome of absence comes from the fence. -/
theorem keeps_expiryOutcome (id : String) (prepared : PreparedCorporateReserve) (now : Nat) :
    Keeps (expiryOutcome id prepared now) (fun outcome t =>
      outcome.isNeverReserved = true → Decided t id false) s := by
  refine (keeps_ask _).andThen fun (root : Digest32) _ _ _ => (keeps_ask _).andThen
    fun (facility : FacilitySnapshot) _ _ _ => (keeps_demand _ _).andThen fun _ t _ _ => ?_
  have hreleased (u : State) : Keeps (releasedOutcome id prepared root now) (fun outcome v =>
      outcome.isNeverReserved = true → Decided v id false) u :=
    (keeps_releasedOutcome id prepared root now).weaken fun _ _ hreleased hnever =>
      absurd hnever (by simp [hreleased])
  dsimp only
  split
  · refine (keeps_sealNeverDispatched id _ now).andThen fun unsent u _ hsealed => ?_
    cases unsent with
    | false => exact hreleased u
    | true =>
      exact (keeps_ask _).andThen fun (again : Digest32) _ huv _ => (keeps_demand _ _).andThen
        fun _ _ hvw _ => .pure fun _ => (hsealed rfl).mono (huv.trans hvw)
  · exact .bind (.pure (hreleased t))

theorem keeps_reconcileExpiredSubmission (id : String) (now : Nat) :
    Keeps (reconcileExpiredSubmission id now) (fun resolution t =>
      resolution.requestId = id ∧ Unsent t resolution) s := by
  refine keeps_demandStage .reserve fun prepared _ _ _ _ => (keeps_check _).after
    fun _ => (keeps_demand _ _).after fun _ => (keeps_ask _).after
      fun _ => (keeps_expiryResolution prepared).andThen fun found t _ hfound => ?_
  have hfinish (resolution : NativeExpiryResolution) {u : State}
      (h : resolution.requestId = id ∧ Unsent u resolution) :
      Keeps (do
        ask .recoverWallet
        completeExpiry resolution prepared
        return resolution) (fun resolution t => resolution.requestId = id ∧ Unsent t resolution)
        u :=
    (keeps_ask _).andThen fun _ _ huv _ => (keeps_completeExpiry resolution prepared).andThen
      fun _ _ hvw _ => .pure ⟨h.1, h.2.mono (huv.trans hvw)⟩
  cases found with
  | some saved =>
    exact (keeps_check _).andThen fun _ _ htu _ => (keeps_demand _ _).andThen fun _ _ huv hid =>
      .bind (.pure (hfinish saved ⟨hid, (hfound saved rfl).mono (htu.trans huv)⟩))
  | none =>
    refine (keeps_expiryOutcome id prepared now).andThen fun outcome _ _ _ =>
      (keeps_check _).after fun _ => (keeps_ask _).after fun _ =>
        (keeps_saveExpiryResolution _ prepared).andThen fun stored u _ hstored => ?_
    exact hfinish stored (hstored.1 ▸ ⟨rfl, hstored.2⟩)

/-! ## Dispatch -/

section

omit [CorporateChecks]

/-- The queue is told of an abort only behind the fence. -/
theorem keeps_recordPreReserveAbort (id : String) (digest : Digest32) (endedAt : Nat)
    (hdecided : Decided s id false) :
    Safe (Outbox.ask (Call.recordPreReserveAbort id digest endedAt)) s := keeps_call hdecided

theorem keeps_recordAuthorizationEnd (digest : Digest32) (ended : EndedCorporateAuthorization)
    (hdecided : Decided s ended.requestId false) :
    Safe (recordAuthorizationEnd digest ended) s := by
  refine (keeps_recordPreReserveAbort _ digest _ hdecided).after fun _ => ?_
  cases ended.reason <;> exact keeps_done

theorem keeps_unprepared (request : DispatchRequest) (id : String) :
    Safe (unprepared request id) s := by
  unfold unprepared
  split
  · exact (keeps_stage .reserve .reserve id).after fun _ => keeps_done
  · exact keeps_done

/-- The outcome of a process as a value: what is known of its results. -/
theorem keeps_tried {α : Type} {process : Process α} {post : α → State → Prop}
    (h : Keeps process post s) :
    Keeps (tried process) (fun outcome t => ∀ a, outcome = .ok a → post a t) s :=
  .tried h

/-- A reserve is saved in turn. -/
theorem keeps_prepare (id : String) (hintent : .stage .intent id ∈ s.journal.keys) :
    Safe (prepare id) s := by
  refine (keeps_requireTurn id).andThen fun _ t _ hturn => keeps_demandStage .authorization
    fun _ u htu _ _ => keeps_demandStage .intent fun _ v huv _ _ => (keeps_ask _).andThen
      fun _ w hvw _ => (keeps_ask _).andThen
        fun (answer : Except PreparationError PreparedCorporateReserve) x hwx _ => ?_
  cases answer with
  | error failure => exact keeps_done
  | ok prepared =>
    have hle : t ≤ x := htu.trans (huv.trans (hvw.trans hwx))
    exact (keeps_saveStage .reserve .reserve id prepared ((hturn hintent).mono hle)).after
      fun _ => keeps_done

theorem keeps_noClaimProgress (healthy : Bool) : Safe (noClaimProgress healthy) s := by
  refine (keeps_ask _).andThen fun (entries : List QueueEntry) _ _ _ => ?_
  split <;> exact keeps_done

end

theorem keeps_verifiedRequest (id : String) (digest : Digest32) :
    Keeps (verifiedRequest id digest) (fun _ t => .stage .intent id ∈ t.journal.keys) s := by
  refine (keeps_ask _).andThen fun (request : DispatchRequest) _ _ _ => keeps_demandStage .intent
    fun intent t _ _ hintent => ?_
  have hfinish (sourceMatches : Bool) {u : State} (htu : t ≤ u) :
      Keeps (do
        demand (sourceMatches = true ∧ request.journalContext = CorporateChecks.context ∧
            request.requestId = id ∧ request.intentDigest = intent.inputDigest)
          "dispatch payload does not match its corporate journal"
        return request) (fun _ v => .stage .intent id ∈ v.journal.keys) u :=
    (keeps_demand _ _).andThen fun _ _ huv _ =>
      .pure (mem_keys_mono (htu.trans huv) (mem_keys_of_get hintent))
  dsimp only
  split
  · refine (keeps_stage .reserve .reserve id).andThen fun found u htu _ => ?_
    cases found with
    | none => exact .bind (.pure (hfinish _ htu))
    | some prepared => exact .bind (.pure (hfinish _ htu))
  · split
    · refine (keeps_stage .authorization .authorization id).andThen fun found u htu _ => ?_
      cases found with
      | none => exact .bind (.pure (hfinish _ htu))
      | some authorization => exact .bind (.pure (hfinish _ htu))
    · exact .bind (.pure (hfinish _ le_rfl))
  · exact .bind (.pure (hfinish _ le_rfl))

theorem keeps_reconcileExpiry (id : String) (digest : Digest32) (now : Nat) :
    Safe (reconcileExpiry id digest now) s := by
  refine (keeps_verifiedRequest id digest).andThen fun request _ _ _ => (keeps_ask _).after
    fun _ => (keeps_unprepared request id).andThen fun early _ _ _ => ?_
  cases early with
  | true =>
    refine (keeps_tried (keeps_endUnpreparedAuthorization id now .expired)).andThen
      fun outcome _ _ houtcome => ?_
    cases outcome with
    | ok ended =>
      obtain ⟨hid, hdecided⟩ := houtcome ended rfl
      exact keeps_recordAuthorizationEnd digest ended (hid ▸ hdecided)
    | error _ => exact keeps_done
  | false =>
    refine (keeps_tried (keeps_reconcileExpiredSubmission id now)).andThen
      fun outcome _ _ houtcome => ?_
    cases outcome with
    | error _ => exact keeps_done
    | ok result =>
      obtain ⟨hid, hunsent⟩ := houtcome result rfl
      dsimp only
      split
      · rename_i hnever
        have hdecided := hunsent (by rw [hnever]; rfl)
        exact (keeps_recordPreReserveAbort id digest _ (hid ▸ hdecided)).after
          fun _ => keeps_done
      · exact (keeps_ask _).after fun _ => keeps_done

theorem keeps_submitClaimed (id : String) (sourceNote : Option Digest32) (attempt : Nat) :
    Safe (submitClaimed id sourceNote attempt) s := by
  refine (keeps_tried (keeps_completeNativeSubmission id sourceNote)).andThen
    fun outcome _ _ _ => ?_
  cases outcome with
  | error _ => exact keeps_done
  | ok _ => exact (keeps_ask _).after fun _ => keeps_done

theorem keeps_retryPreparation (id : String) (attempt : Nat) :
    Safe (retryPreparation id attempt) s := by
  refine (keeps_ask _).after fun _ => (keeps_tried (keeps_ask .recoverFacility)).andThen
    fun outcome t _ _ => ?_
  cases outcome with
  | ok witness => exact (keeps_saveFundingWitness witness).after fun _ =>
      keeps_done
  | error _ => exact .bind (.pure (keeps_done))

theorem keeps_dispatchClaimed (id : String) (digest : Digest32) (attempt now : Nat) :
    Safe (dispatchClaimed id digest attempt now) s := by
  refine (keeps_verifiedRequest id digest).andThen fun request t _ hintent =>
    (keeps_unprepared request id).andThen fun early u htu _ => ?_
  cases early with
  | false => exact keeps_submitClaimed id request.sourceNote attempt
  | true =>
    refine (keeps_tried (keeps_prepare id (mem_keys_mono htu hintent))).andThen
      fun outcome _ _ _ => ?_
    match outcome with
    | .ok (.ok _) => exact keeps_submitClaimed id request.sourceNote attempt
    | .ok (.error .insufficientFunding) =>
      exact (keeps_endUnpreparedAuthorization id now .insufficientFunding).andThen
        fun ended _ _ hended => keeps_recordAuthorizationEnd digest ended (hended.1 ▸ hended.2)
    | .ok (.error (.retry _)) => exact keeps_retryPreparation id attempt
    | .error _ => exact keeps_retryPreparation id attempt

theorem keeps_firstEnded (entries : List QueueEntry) :
    Keeps (firstEnded entries) (fun found t =>
      ∀ entry ended, found = some (entry, ended) → Decided t ended.requestId false) s := by
  induction entries generalizing s with
  | nil => exact .pure fun _ _ h => nomatch h
  | cons entry rest ih =>
    unfold firstEnded
    split
    · exact ih
    · refine (keeps_endedAuthorization entry.requestId).andThen fun found t _ hfound => ?_
      cases found with
      | none => exact ih
      | some ended =>
        refine .pure fun _ _ hsame => ?_
        obtain ⟨rfl, rfl⟩ := Prod.mk.inj (Option.some.inj hsame)
        obtain ⟨hid, hdecided⟩ := hfound ended rfl
        exact hid ▸ hdecided

theorem keeps_pump (now retryAfterSeconds : Nat) : Safe (pump now retryAfterSeconds) s := by
  refine (keeps_demand _ _).after fun _ => (keeps_ask _).andThen
    fun (entries : List QueueEntry) _ _ _ => (keeps_firstEnded entries).andThen
      fun found t _ hfound => ?_
  cases found with
  | some first =>
    obtain ⟨entry, ended⟩ := first
    exact (keeps_verifiedRequest _ _).andThen fun _ _ htu _ =>
      keeps_recordAuthorizationEnd _ ended ((hfound entry ended rfl).mono htu)
  | none =>
    refine (keeps_ask _).andThen fun (first : Option QueueAction) _ _ _ => ?_
    rcases first with - | ⟨id, digest⟩ | ⟨id, digest, attempt⟩
    case some.expire => exact keeps_reconcileExpiry id digest now
    all_goals
      refine (keeps_ask _).andThen fun (healthy : Bool) _ _ _ => (keeps_ask _).andThen
        fun (action : Option QueueAction) _ _ _ => ?_
      rcases action with - | ⟨id, digest⟩ | ⟨id, digest, attempt⟩
      · exact keeps_noClaimProgress healthy
      · exact keeps_reconcileExpiry id digest now
      · exact keeps_dispatchClaimed id digest attempt now

theorem keeps_submitDirect (id : String) (value : StoredCorporateIntent)
    (sourceNote : Option Digest32) : Safe (submitDirect id value sourceNote) s := by
  refine (keeps_stage .intent .intent id).andThen fun found t _ hfound => ?_
  rcases found with - | saved
  on_goal 1 => refine (keeps_saveIntent id value).andThen fun saved _ _ hintent => ?_
  on_goal 2 =>
    have hintent := mem_keys_of_get (hfound.2 saved rfl)
    refine .bind (.pure ?_)
  all_goals
    refine (keeps_demand _ _).andThen fun _ _ huv _ => (keeps_requireTurn id).andThen
      fun _ v _ hturn => (keeps_stage .reserve .reserve id).andThen fun reserve w hvw _ => ?_
    cases reserve with
    | some saved => exact .bind (.pure ((keeps_check _).after fun _ =>
        keeps_completeNativeSubmission id sourceNote))
    | none =>
      refine (keeps_ask _).andThen fun _ x hwx _ => (keeps_ask _).andThen
        fun (pending : PreparedCorporateReserve) y hxy _ => ?_
      have hsaved := (hturn (mem_keys_mono huv hintent)).mono (hvw.trans (hwx.trans hxy))
      exact (keeps_saveStage .reserve .reserve id pending hsaved).after fun _ =>
        (keeps_check _).after fun _ => keeps_completeNativeSubmission id sourceNote

/-! ## Every process -/

/-- Whatever is launched keeps the invariant. -/
theorem ensures_entry {p : Prog Op Op.Answer Unit} (h : Entry p) (s : State) :
    Ensures exec Sound p (fun _ _ => True) s := by
  cases h with
  | saveIntent id value => exact (keeps_saveIntent id value).launch
  | saveAuthorization id value => exact (keeps_saveAuthorization id value).launch
  | submitDirect id value note => exact (keeps_submitDirect id value note).launch
  | complete id note => exact (keeps_completeNativeSubmission id note).launch
  | endUnprepared id now reason =>
    exact (keeps_endUnpreparedAuthorization id now reason).launch
  | sealNeverDispatched id digest now =>
    exact (keeps_sealNeverDispatched id digest now).launch
  | reconcileExpired id now => exact (keeps_reconcileExpiredSubmission id now).launch
  | pump now retryAfter => exact (keeps_pump now retryAfter).launch
  | saveFundingWitness witness => exact (keeps_saveFundingWitness witness).launch
  | other name record => exact (keeps_putFirst .any (.other name) record trivial).launch

/-- A journal and the processes on it. -/
abbrev Corporation := World Op Op.Answer State

/-- What a run from an empty journal reaches is sound, and what it was at any point has only
grown. -/
theorem sound_of_reaches {w w' : Corporation} (h : Reaches exec Entry ⟨.fresh, []⟩ w)
    (h' : Reaches exec Entry w w') : Sound w.state ∧ Sound w'.state ∧ w.state ≤ w'.state :=
  Outbox.sound_of_reaches (fun _ hp s _ => ensures_entry hp s) trivial h h'

/-! ## The fence is exact -/

/-- The request is recorded as an ended authorization, as never reserved (with its hold or with its
id), or in the dispatch queue as aborted before reserve. -/
def EndedUnsent (s : State) (id : String) : Prop :=
  .stage .authorizationEnd id ∈ s.journal.keys ∨
  (∃ hold value, s.journal.get? (.expiryResult hold) = some (.resolution value) ∧
    value.outcome.isNeverReserved = true ∧ value.requestId = id) ∨
  (∃ value, s.journal.get? (.stage .resolved id) = some (.resolution value) ∧
    value.outcome.isNeverReserved = true) ∨
  id ∈ s.aborted

omit [CorporateChecks] in
theorem Sound.decided_of_ended {id : String} (h : Sound s) (hended : EndedUnsent s id) :
    Decided s id false := by
  rcases hended with hended | ⟨hold, value, hvalue, hnever, rfl⟩ | ⟨value, hvalue, hnever⟩ | hended
  · obtain ⟨_, hdecided⟩ := Sound.allowed h hended
    exact hdecided
  · exact h.records _ _ hvalue value rfl hnever
  · exact h.records _ _ hvalue value rfl hnever
  · exact Sound.aborted h hended

/-- **The send fence is exact.** In every interleaving, a request that is recorded as ended unsent
has not been sent, and is not sent afterwards: no call of `finalize_reservation` is made for it. -/
theorem send_fence_exact {w w' : Corporation} {id : String}
    (hrun : Reaches exec Entry ⟨.fresh, []⟩ w) (hended : EndedUnsent w.state id)
    (hlater : Reaches exec Entry w w') (prepared : PreparedCorporateReserve) :
    (id, prepared) ∉ w.state.sent ∧ (id, prepared) ∉ w'.state.sent := by
  obtain ⟨hsound, hsound', hle⟩ := sound_of_reaches hrun hlater
  have hdecided := Sound.decided_of_ended hsound hended
  -- a send leaves the opposite decision
  refine ⟨fun hsent => ?_, fun hsent => ?_⟩
  · exact absurd ((Sound.sent hsound hsent).unique hdecided) (by decide)
  · exact absurd ((Sound.sent hsound' hsent).unique (hdecided.mono hle)) (by decide)

/-! ## No request overtakes -/

omit [CorporateChecks] in
/-- `require_turn` fails for a request that has ended. -/
theorem requireTurn_ended {t : State} {id : String} {answer : Except String Unit}
    (hended : .stage .resolved id ∈ s.journal.keys ∨
      .stage .authorizationEnd id ∈ s.journal.keys)
    (hreturns : Returns exec (requireTurn id).run s answer t) : ∃ e, answer = .error e := by
  have hnever : EnsuresOk exec (fun _ => True) (requireTurn id) (fun _ _ => False) s := by
    have hid : EnsuresOk exec (fun _ => True) (recordId .intent id) (fun _ _ => True) s :=
      .bind (.of_demand fun _ => .pure trivial)
    refine hid.andThen fun _ u hsu _ => ?_
    have hsummaries : EnsuresOk exec (fun _ => True) Outbox.summaries
        (fun keys v => keys = v.journal.keys) u :=
      Ensures.perform fun v keys w _ _ hexec =>
        ⟨trivial, fun found hok => hexec.1 ▸ hexec.2 found hok⟩
    refine hsummaries.andThen fun keys v huv hkeys => ?_
    refine .bind (.of_demand fun hopen => absurd ?_ hopen)
    subst hkeys
    exact hended.imp (mem_keys_mono (hsu.trans huv)) (mem_keys_mono (hsu.trans huv))
  have hfails := Ensures.of_returns hnever (fun _ _ _ _ h => h) hreturns
  cases answer with
  | ok a => exact (hfails a rfl).elim
  | error e => exact ⟨e, rfl⟩

/-- **No request overtakes an earlier one.** In every interleaving, all requests with an earlier
intent are finished when `complete_native_submission` reaches the send; and a request that has ended
without admission gets no turn, whatever others do during the call. -/
theorem requests_in_turn {w : Corporation} (hrun : Reaches exec Entry ⟨.fresh, []⟩ w)
    (id : String) :
    (id ∈ w.state.reached → ∀ other,
      w.state.journal.Before (.stage .intent other) (.stage .intent id) →
      Finished w.state other) ∧
    (.stage .resolved id ∈ w.state.journal.keys ∨
        .stage .authorizationEnd id ∈ w.state.journal.keys → ∀ answer t,
      Returns exec (requireTurn id).run w.state answer t → ∃ e, answer = .error e) := by
  obtain ⟨hsound, -, -⟩ := sound_of_reaches hrun .refl
  exact ⟨fun hreached other hbefore => (Sound.reached hsound hreached).2 other hbefore,
    fun hended _ _ hreturns => requireTurn_ended hended hreturns⟩

end

/-! ## A sample journal -/

section Sample

/-- Encodings that keep one field apart, and checks that accept. -/
@[reducible] def sampleChecks : CorporateChecks where
  toCrypto := transparentCrypto
  requestJson request := request.rest
  authorizationJson authorization := authorization.orderWire
  validatePrepared _ := .ok ()
  validateAuthorization _ := .ok ()
  verifyReceipt _ _ _ := .ok ()
  verifyRelease _ _ _ _ := .ok ()
  binding mandate := .ok mandate.scope
  witnessCommitments witness := .ok witness.blindings
  facilityId := 5
  context := 6

attribute [local instance] sampleChecks

def sampleMandate : ApplicationReserveMandate := ⟨1, 2, 3, 10, 20, []⟩

/-- An intent with `reserve_send_tracking`, by its order. -/
def sampleIntent (wire : Bytes) : StoredCorporateIntent :=
  ⟨transparentCrypto.sha256 wire, wire, [1], 4, 10, 20, true⟩

def sampleAuthorization : CorporateReserveAuthorization := ⟨sampleMandate, [7], [1], 4, 8, 9, []⟩

def samplePrepared : PreparedCorporateReserve :=
  ⟨⟨sampleMandate, 8, 9, 0, ⟨1, 2, 3⟩, [11]⟩, [12], [1], 4, ⟨5, 1, ⟨0, 1, 0⟩, ⟨1, 2, 3⟩⟩⟩

/-- The clock and the wallet answer; nothing else does. -/
def sampleOutside : (call : Call) → Except String call.Answer
  | .reachedSend _ => .ok ()
  | .external .now => .ok (15 : Nat)
  | .external .latestFunding => .ok ()
  | .external .prepareReservationFromNote => .ok samplePrepared
  | _ => .error "no answer"

/-- A process of the sample, alone. -/
def sampleRun {α : Type} (process : Process α) (s : State) : State :=
  (launch process).runAlone (Outbox.alone fun call _ => sampleOutside call) s

/-- The first request is authorized, and ends for want of funding. -/
def endedJournal : State :=
  sampleRun (endUnpreparedAuthorization "first" 15 .insufficientFunding)
    (sampleRun (saveAuthorization "first" sampleAuthorization)
      (sampleRun (saveIntent "first" (sampleIntent [7])) .fresh))

/-- The second one then reaches its send. -/
def sentJournal : State := sampleRun (submitDirect "second" (sampleIntent [12]) none) endedJournal

theorem reaches_endedJournal : Reaches exec Entry ⟨.fresh, []⟩ ⟨endedJournal, []⟩ :=
  reaches_runAlone (Outbox.exec_alone fun _ _ => trivial)
    (reaches_runAlone (Outbox.exec_alone fun _ _ => trivial)
      (reaches_runAlone (Outbox.exec_alone fun _ _ => trivial) .refl (.saveIntent _ _))
      (.saveAuthorization _ _)) (.endUnprepared _ _ _)

theorem reaches_sentJournal : Reaches exec Entry ⟨endedJournal, []⟩ ⟨sentJournal, []⟩ :=
  reaches_runAlone (Outbox.exec_alone fun _ _ => trivial) .refl (.submitDirect _ _ _)

theorem keys_endedJournal : endedJournal.journal.keys =
    [.stage .intent "first", .stage .authorization "first", .stage .reserveSend "first",
      .stage .authorizationEnd "first"] := by
  decide +kernel

theorem keys_sentJournal : sentJournal.journal.keys = endedJournal.journal.keys ++
    [.stage .intent "second", .stage .reserve "second", .stage .reserveSend "second"] := by
  decide +kernel

theorem send_fence_exact_sample : EndedUnsent endedJournal "first" ∧
    ("first", samplePrepared) ∉ endedJournal.sent ∧
    ("first", samplePrepared) ∉ sentJournal.sent := by
  have hended : EndedUnsent endedJournal "first" := .inl (by rw [keys_endedJournal]; decide)
  exact ⟨hended, send_fence_exact reaches_endedJournal hended reaches_sentJournal samplePrepared⟩

theorem requests_in_turn_sample : "second" ∈ sentJournal.reached ∧
    sentJournal.journal.Before (.stage .intent "first") (.stage .intent "second") ∧
    Finished sentJournal "first" ∧ (∀ answer t,
      Returns exec (requireTurn "first").run sentJournal answer t → ∃ e, answer = .error e) := by
  have hrun := Relation.ReflTransGen.trans reaches_endedJournal reaches_sentJournal
  have hreached : "second" ∈ sentJournal.reached := by decide +kernel
  have hbefore : sentJournal.journal.Before (.stage .intent "first") (.stage .intent "second") :=
    ⟨endedJournal.journal.keys, [.stage .reserve "second", .stage .reserveSend "second"],
      keys_sentJournal, by rw [keys_endedJournal]; decide⟩
  have hended : .stage .authorizationEnd "first" ∈ sentJournal.journal.keys := by
    rw [keys_sentJournal, keys_endedJournal]
    decide
  have hsecond := requests_in_turn hrun "second"
  dsimp only at hsecond
  exact ⟨hreached, hbefore, hsecond.1 hreached "first" hbefore,
    (requests_in_turn hrun "first").2 (.inr hended)⟩

end Sample

end Oclob.Corporate
