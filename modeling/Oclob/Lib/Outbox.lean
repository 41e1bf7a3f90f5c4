import Oclob.Lib.Interleave
import Oclob.Lib.WriteOnce

/-!
# Processes that share an outbox

Processes read and write one journal and call services outside it
(`Oclob.Lib.Interleave`). Every operation may fail; a write that fails may have been made. The calls
outside are logged with their answers, and `outside` says which answers are possible.

What a process writes and whom it calls has a reason: `Sound allowed called law` says that every
record of the journal is `allowed`, that every logged call is `called` for, and that the state keeps
a `law` of its own. Reasons are upward closed (`Lasting`): a journal only grows, so that what was a
reason once stays one. Where they are and the law is kept (`Steady`), each operation has one rule
(`ensures_read`, `ensures_summaries`, `ensures_put`, `ensures_putFirst`, `ensures_ask`), and
`sound_of_reaches` carries `Sound` through every interleaving.
-/

namespace Oclob.Lib

namespace Outbox

variable {K R E : Type} {A : E → Type}

/-- The operations of a process. -/
inductive Op (K R E : Type) where
  | get (key : K)
  | summaries
  | enqueue (key : K) (record : R)
  | external (call : E)

/-- What an operation returns. -/
def Op.Answer (A : E → Type) : Op K R E → Type
  | get _ => Except String (Option R)
  | summaries => Except String (List K)
  | enqueue _ _ => Except String Unit
  | external call => Except String (A call)

/-- A call outside, with its answer. -/
abbrev Logged (A : E → Type) := (call : E) × Except String (A call)

/-- The journal, and the calls outside, oldest first. -/
structure State (K R : Type) (A : E → Type) where
  journal : WriteOnce K R
  log : List (Logged A)

/-- A state grows with its journal and its log. -/
instance instPreorderState : Preorder (State K R A) where
  le s t := s.journal ≤ t.journal ∧ s.log <+: t.log
  le_refl s := ⟨le_rfl, List.prefix_rfl⟩
  le_trans _ _ _ h h' := ⟨h.1.trans h'.1, h.2.trans h'.2⟩

/-- Nothing was written and nobody was called. -/
def State.fresh : State K R A := ⟨.empty, []⟩

/-- A process: operations, and an error text where the source returns one. -/
abbrev Process (K R : Type) (A : E → Type) := ExceptT String (Prog (Op K R E) (Op.Answer A))

/-- Reasons do not go away. -/
def Lasting {β : Type} (reason : β → State K R A → Prop) : Prop :=
  ∀ b s t, s ≤ t → reason b s → reason b t

/-! ## Reading and writing -/

/-- Call a service. -/
def ask (call : E) : Process K R A (A call) := ExceptT.mk (Prog.perform (Op.external call))

/-- The keys, in the order of their records. -/
def summaries : Process K R A (List K) := ExceptT.mk (Prog.perform Op.summaries)

section

variable {α : Type} (kind : Kind R α) (malformed lost : String) (key : K)

/-- The record of a key, read back as a kind. -/
def read : Process K R A (Option α) := do
  match ← ExceptT.mk (Prog.perform (Op.get key)) with
  | none => return none
  | some record =>
    let value ← demandSome (kind.project record) malformed
    return some value

/-- Insert a record, and go on with the one that is there: another process may have won. -/
def put (value : α) : Process K R A α := do
  let outcome ← tried (ExceptT.mk (Prog.perform (Op.enqueue key (kind.inject value))))
  match ← read kind malformed key with
  | some stored => return stored
  | none =>
    check outcome
    throw lost

/-- Insert a record unless there is one, and go on with the one that is there. -/
def putFirst (value : α) : Process K R A α := do
  match ← read kind malformed key with
  | some stored => return stored
  | none => put kind malformed lost key value

end

/-! ## What the operations do -/

variable [DecidableEq K]

/-- What an operation may answer, and the state after it. -/
def exec (outside : List (Logged A) → Logged A → Prop) :
    Exec (Op K R E) (Op.Answer A) (State K R A)
  | .get key, s, answer, t => t = s ∧ ∀ found, answer = .ok found → found = s.journal.get? key
  | .summaries, s, answer, t => t = s ∧ ∀ keys, answer = .ok keys → keys = s.journal.keys
  | .enqueue key record, s, answer, t =>
    t = { s with journal := s.journal.insert key record } ∨ t = s ∧ ∃ e, answer = .error e
  | .external call, s, answer, t =>
    outside s.log ⟨call, answer⟩ ∧ t = { s with log := s.log ++ [⟨call, answer⟩] }

/-- A process that runs alone, with the given answers from outside. -/
def alone (answers : (call : E) → List (Logged A) → Except String (A call)) :
    (o : Op K R E) → State K R A → o.Answer A × State K R A
  | .get key, s => (.ok (s.journal.get? key), s)
  | .summaries, s => (.ok s.journal.keys, s)
  | .enqueue key record, s => (.ok (), { s with journal := s.journal.insert key record })
  | .external call, s =>
    (answers call s.log, { s with log := s.log ++ [⟨call, answers call s.log⟩] })

theorem exec_alone {outside : List (Logged A) → Logged A → Prop}
    {answers : (call : E) → List (Logged A) → Except String (A call)}
    (h : ∀ call log, outside log ⟨call, answers call log⟩) (o : Op K R E) (s : State K R A) :
    exec outside o s (alone answers o s).1 (alone answers o s).2 := by
  cases o with
  | get key => exact ⟨rfl, fun _ hok => (Except.ok.inj hok).symm⟩
  | summaries => exact ⟨rfl, fun _ hok => (Except.ok.inj hok).symm⟩
  | enqueue key record => exact .inl rfl
  | external call => exact ⟨h call s.log, rfl⟩

theorem exec_grows (outside : List (Logged A) → Logged A → Prop) :
    Grows (exec (K := K) (R := R) outside) := by
  intro o s answer t h
  cases o with
  | get key => exact h.1 ▸ le_rfl
  | summaries => exact h.1 ▸ le_rfl
  | enqueue key record =>
    rcases h with rfl | ⟨rfl, -⟩
    · exact ⟨WriteOnce.le_insert s.journal key record, List.prefix_rfl⟩
    · exact le_rfl
  | external call =>
    obtain ⟨-, rfl⟩ := h
    exact ⟨le_rfl, List.prefix_append _ _⟩

/-! ## Reasons -/

/-- What holds of every record, of every call and of the whole. -/
structure Sound (allowed : K → R → State K R A → Prop) (called : Logged A → State K R A → Prop)
    (law : State K R A → Prop) (s : State K R A) : Prop where
  records : ∀ key record, s.journal.get? key = some record → allowed key record s
  calls : ∀ c ∈ s.log, called c s
  law : law s

/-- Reasons last, and the law survives a new record and a call. -/
structure Steady (outside : List (Logged A) → Logged A → Prop)
    (allowed : K → R → State K R A → Prop) (called : Logged A → State K R A → Prop)
    (law : State K R A → Prop) : Prop where
  allowed_lasting : ∀ key, Lasting (allowed key)
  called_lasting : Lasting called
  law_enqueue : ∀ s key record, Sound allowed called law s → key ∉ s.journal.keys →
    allowed key record s → law { s with journal := s.journal.insert key record }
  law_ask : ∀ s c, outside s.log c → law s → law { s with log := s.log ++ [c] }

section Rules

variable {outside : List (Logged A) → Logged A → Prop} {allowed : K → R → State K R A → Prop}
  {called : Logged A → State K R A → Prop} {law : State K R A → Prop} {malformed lost : String}
  {key : K} {record : R} {s : State K R A} {α : Type} {kind : Kind R α} {value : α}

/-- What is read was written, and what is not found is not there; the state is sound then. -/
theorem ensures_read : EnsuresOk (exec outside) (Sound allowed called law) (read kind malformed key)
    (fun found t => Sound allowed called law t ∧ (found = none → key ∉ t.journal.keys) ∧
      ∀ value, found = some value → t.journal.get? key = some (kind.inject value)) s := by
  refine .bind (Ensures.perform fun t answer u _ hsound hexec => ?_)
  obtain ⟨rfl, hfound⟩ := hexec
  refine ⟨hsound, fun found hok => ?_⟩
  have hget := hfound found hok
  cases found with
  | none =>
    exact .pure ⟨hsound, fun _ => WriteOnce.get?_eq_none.mp hget.symm,
      fun _ hnone => by cases hnone⟩
  | some record =>
    cases hvalue : kind.project record with
    | none =>
      simp only [hvalue, demandSome]
      exact .bind .throw
    | some value =>
      simp only [hvalue, demandSome]
      refine .bind (.pure (.pure
        ⟨hsound, fun hnone => (by cases hnone), fun _ hsome => ?_⟩))
      rw [← hget, kind.project_eq.mp hvalue, Option.some.inj hsome]

theorem ensures_summaries : EnsuresOk (exec outside) (Sound allowed called law) summaries
    (fun keys t => Sound allowed called law t ∧ keys = t.journal.keys) s := by
  refine Ensures.perform fun t answer u _ hsound hexec => ?_
  obtain ⟨rfl, hkeys⟩ := hexec
  exact ⟨hsound, fun keys hok => ⟨hsound, hkeys keys hok⟩⟩

variable (hsteady : Steady outside allowed called law)

include hsteady

theorem Sound.enqueue (h : Sound allowed called law s)
    (hreason : key ∉ s.journal.keys → allowed key record s) :
    Sound allowed called law { s with journal := s.journal.insert key record } := by
  have hle : s ≤ { s with journal := s.journal.insert key record } :=
    ⟨WriteOnce.le_insert _ _ _, List.prefix_rfl⟩
  by_cases hkey : key ∈ s.journal.keys
  · rw [WriteOnce.insert_of_mem record hkey]
    exact h
  refine ⟨fun k r hget => hsteady.allowed_lasting k r s _ hle ?_,
    fun c hc => hsteady.called_lasting c s _ hle (h.calls c hc),
      hsteady.law_enqueue s key record h hkey (hreason hkey)⟩
  by_cases hk : k = key
  · subst hk
    have hnew := WriteOnce.get?_insert_self record (WriteOnce.get?_eq_none.mpr hkey)
    exact Option.some.inj (hnew.symm.trans hget) ▸ hreason hkey
  · rw [WriteOnce.get?_insert_of_ne record hk] at hget
    exact h.records k r hget

/-- **The rule of a write.** Whatever the others do, what is returned is in the journal. -/
theorem ensures_put
    (hreason : ∀ t, s ≤ t → key ∉ t.journal.keys → allowed key (kind.inject value) t) :
    EnsuresOk (exec outside) (Sound allowed called law) (put kind malformed lost key value)
      (fun stored t => Sound allowed called law t ∧
        t.journal.get? key = some (kind.inject stored)) s := by
  have hwrite : EnsuresOk (exec outside) (Sound allowed called law)
      (tried (ExceptT.mk (Prog.perform (Op.enqueue key (kind.inject value))))) (fun _ _ => True)
      s := by
    refine EnsuresOk.tried (Ensures.perform fun t answer u hst hsound hexec => ?_)
    rcases hexec with rfl | ⟨rfl, -⟩
    · exact ⟨hsound.enqueue hsteady (hreason t hst), trivial⟩
    · exact ⟨hsound, trivial⟩
  refine hwrite.seq (exec_grows outside) fun outcome t _ _ =>
    ensures_read.seq (exec_grows outside) fun found u _ hu => ?_
  cases found with
  | some stored => exact EnsuresOk.pure ⟨hu.1, hu.2.2 stored rfl⟩
  | none =>
    exact (EnsuresOk.check outcome).seq (exec_grows outside) fun _ _ _ _ => EnsuresOk.throw

theorem ensures_putFirst (hreason : ∀ t, s ≤ t → allowed key (kind.inject value) t) :
    EnsuresOk (exec outside) (Sound allowed called law) (putFirst kind malformed lost key value)
      (fun stored t => Sound allowed called law t ∧
        t.journal.get? key = some (kind.inject stored)) s := by
  refine ensures_read.seq (exec_grows outside) fun found t hst ht => ?_
  cases found with
  | some stored => exact .pure ⟨ht.1, ht.2.2 stored rfl⟩
  | none => exact ensures_put hsteady fun u htu _ => hreason u (hst.trans htu)

/-- **The rule of a call**, which is in the log afterwards. -/
theorem ensures_ask {call : E} (hreason : ∀ answer t, s ≤ t → called ⟨call, answer⟩ t) :
    EnsuresOk (exec outside) (Sound allowed called law) (ask call)
      (fun a t => (⟨call, .ok a⟩ : Logged A) ∈ t.log) s := by
  refine Ensures.perform fun t answer u hst hsound hexec => ?_
  obtain ⟨hanswer, rfl⟩ := hexec
  have hle : t ≤ { t with log := t.log ++ [⟨call, answer⟩] } := ⟨le_rfl, List.prefix_append _ _⟩
  refine ⟨⟨fun k r hget => hsteady.allowed_lasting k r t _ hle (hsound.records k r hget),
    fun c hc => ?_, hsteady.law_ask _ _ hanswer hsound.law⟩, fun a hok => ?_⟩
  · rcases List.mem_append.mp hc with hold | hnew
    · exact hsteady.called_lasting c t _ hle (hsound.calls c hold)
    · exact List.mem_singleton.mp hnew ▸ hreason answer _ (hst.trans hle)
  · exact hok ▸ List.mem_append_right _ List.mem_cons_self

omit hsteady

/-- **The rule for interleavings.** Where every process that may start keeps `Sound`, it holds in
every world that is reached from a fresh outbox, and what such a world has has only grown. -/
theorem sound_of_reaches {Entry : Prog (Op K R E) (Op.Answer A) Unit → Prop}
    (hentry : ∀ p, Entry p → ∀ s, Sound allowed called law s →
      Ensures (exec outside) (Sound allowed called law) p (fun _ _ => True) s)
    (hfresh : law .fresh) {w w' : World (Op K R E) (Op.Answer A) (State K R A)}
    (h : Reaches (exec outside) Entry ⟨.fresh, []⟩ w) (h' : Reaches (exec outside) Entry w w') :
    Sound allowed called law w.state ∧ Sound allowed called law w'.state ∧ w.state ≤ w'.state := by
  have hstart : Sound allowed called law (.fresh : State K R A) :=
    ⟨by rintro key record ⟨⟩, by rintro c ⟨⟩, hfresh⟩
  obtain ⟨hguarded, -⟩ := invariant_of_steps (exec_grows outside) hentry
    ⟨hstart, by rintro p ⟨⟩⟩ h
  obtain ⟨hguarded', hle⟩ := invariant_of_steps (exec_grows outside) hentry hguarded h'
  exact ⟨hguarded.1, hguarded'.1, hle⟩

end Rules

end Outbox

variable {K R E : Type} {A : E → Type} [DecidableEq K]
  {outside : List (Outbox.Logged A) → Outbox.Logged A → Prop} {inv : Outbox.State K R A → Prop}
  {α β : Type} {process : Outbox.Process K R A α} {next : α → Outbox.Process K R A β}
  {mid : α → Outbox.State K R A → Prop} {post : β → Outbox.State K R A → Prop}
  {s : Outbox.State K R A}

/-- One process after the other. -/
theorem EnsuresOk.andThen (h : EnsuresOk (Outbox.exec outside) inv process mid s)
    (hnext : ∀ a t, s ≤ t → mid a t → EnsuresOk (Outbox.exec outside) inv (next a) post t) :
    EnsuresOk (Outbox.exec outside) inv (process >>= next) post s :=
  h.seq (Outbox.exec_grows outside) hnext

/-- One process after the other, of which nothing is needed. -/
theorem EnsuresOk.after (h : EnsuresOk (Outbox.exec outside) inv process mid s)
    (hnext : ∀ a {t}, EnsuresOk (Outbox.exec outside) inv (next a) post t) :
    EnsuresOk (Outbox.exec outside) inv (process >>= next) post s :=
  h.andThen fun a _ _ _ => hnext a

end Oclob.Lib
