import Mathlib.Logic.Relation
import Mathlib.Order.Basic

/-!
# Programs over a shared state

A `Prog` calls operations one after another; what it does next depends on the answers. A `World`
is a shared state and any number of running programs. In a `Step` a new program starts, one crashes,
or one performs its next operation; so between two operations of a program the others may have
done anything.

The state grows: it is ordered, and no operation goes back. What a program has seen of a growing
state stays true if it is upward closed, which gives one rule for all interleavings. `Ensures inv p
post s` says that `p`, begun at `s`, keeps the invariant with every operation, whatever the others
add in between, and that `post` holds of what it returns.

* `Ensures.bind`, `Ensures.weaken`, `Ensures.grow`: how these compose.
* `invariant_of_steps`: if every program that may be started ensures the invariant, it holds in
  every reachable world.
* `Returns`: a single call with interference; `Ensures.of_returns` reads its result off `Ensures`.
* `EnsuresOk`: the same for programs that may fail, with a postcondition for results only.
-/

namespace Oclob.Lib

/-- A program that performs operations `Op` and returns an `α`. -/
inductive Prog (Op : Type) (Res : Op → Type) (α : Type) where
  | done (a : α)
  | call (o : Op) (next : Res o → Prog Op Res α)

namespace Prog

variable {Op : Type} {Res : Op → Type} {α β : Type}

/-- One program after the other. -/
def bind : Prog Op Res α → (α → Prog Op Res β) → Prog Op Res β
  | done a, f => f a
  | call o next, f => call o fun r => (next r).bind f

instance : Monad (Prog Op Res) where
  pure := done
  bind := bind

/-- The program of one operation. -/
def perform (o : Op) : Prog Op Res (Res o) := call o done

/-- The state after a program that runs alone. -/
def runAlone {σ : Type} (answer : (o : Op) → σ → Res o × σ) : Prog Op Res α → σ → σ
  | done _, s => s
  | call o next, s => (next (answer o s).1).runAlone answer (answer o s).2

end Prog

section

variable {Op : Type} {Res : Op → Type} {σ : Type}

/-- A shared state and the programs that run on it. -/
structure World (Op : Type) (Res : Op → Type) (σ : Type) where
  state : σ
  running : List (Prog Op Res Unit)

/-- What an operation may answer, and the state after it. -/
abbrev Exec (Op : Type) (Res : Op → Type) (σ : Type) := (o : Op) → σ → Res o → σ → Prop

/-- A program starts, crashes, or performs its next operation. -/
inductive Step (exec : Exec Op Res σ) (Entry : Prog Op Res Unit → Prop) :
    World Op Res σ → World Op Res σ → Prop
  | start {s : σ} {running : List (Prog Op Res Unit)} (p : Prog Op Res Unit) (hp : Entry p) :
      Step exec Entry ⟨s, running⟩ ⟨s, p :: running⟩
  | crash {s : σ} {before after : List (Prog Op Res Unit)} (p : Prog Op Res Unit) :
      Step exec Entry ⟨s, before ++ p :: after⟩ ⟨s, before ++ after⟩
  | act {s t : σ} {before after : List (Prog Op Res Unit)} {o : Op}
      {next : Res o → Prog Op Res Unit} {r : Res o} (h : exec o s r t) :
      Step exec Entry ⟨s, before ++ .call o next :: after⟩ ⟨t, before ++ next r :: after⟩

/-- The worlds reached from `first`. -/
def Reaches (exec : Exec Op Res σ) (Entry : Prog Op Res Unit → Prop) :
    World Op Res σ → World Op Res σ → Prop :=
  Relation.ReflTransGen (Step exec Entry)

/-- The program at a place performs its next operation. -/
def World.turn (answer : (o : Op) → σ → Res o × σ) (w : World Op Res σ) (i : Nat) :
    World Op Res σ :=
  match w.running[i]? with
  | some (.call o next) => ⟨(answer o w.state).2, w.running.set i (next (answer o w.state).1)⟩
  | _ => w

section

variable {exec : Exec Op Res σ} {Entry : Prog Op Res Unit → Prop}
  {answer : (o : Op) → σ → Res o × σ} (h : ∀ o s, exec o s (answer o s).1 (answer o s).2)
include h

/-- One program after another, each alone, is a run. -/
theorem reaches_runAlone {w : World Op Res σ} {s : σ} {p : Prog Op Res Unit}
    (hw : Reaches exec Entry w ⟨s, []⟩) (hp : Entry p) :
    Reaches exec Entry w ⟨p.runAlone answer s, []⟩ := by
  have hacts (q : Prog Op Res Unit) (t : σ) (hq : Reaches exec Entry w ⟨t, [q]⟩) :
      Reaches exec Entry w ⟨q.runAlone answer t, []⟩ := by
    induction q generalizing t with
    | done a => exact hq.tail (@Step.crash _ _ _ exec Entry t [] [] (.done a))
    | call o next ih =>
      exact ih _ _ (hq.tail (@Step.act _ _ _ exec Entry t _ [] [] o next _ (h o t)))
  exact hacts p s (hw.tail (Step.start p hp))

theorem reaches_turns (turns : List Nat) {first w : World Op Res σ}
    (hw : Reaches exec Entry first w) :
    Reaches exec Entry first (turns.foldl (World.turn answer) w) := by
  induction turns generalizing w with
  | nil => exact hw
  | cons i turns ih =>
    refine ih ?_
    obtain ⟨s, running⟩ := w
    unfold World.turn
    split
    · rename_i o next hget
      obtain ⟨hi, hget⟩ := List.getElem?_eq_some_iff.mp hget
      have hact := @Step.act _ _ _ exec Entry s _ (running.take i) (running.drop (i + 1)) o next _
        (h o s)
      rw [← hget, List.getElem_cons_drop, List.take_append_drop] at hact
      rw [List.set_eq_take_append_cons_drop, if_pos hi]
      exact hw.tail hact
    · exact hw

end

variable [Preorder σ]

/-- No operation goes back. -/
def Grows (exec : Exec Op Res σ) : Prop := ∀ o s r t, exec o s r t → s ≤ t

/-- Whatever is added in between, the program keeps `inv` and returns what `post` says. -/
def Ensures (exec : Exec Op Res σ) (inv : σ → Prop) {α : Type} :
    Prog Op Res α → (α → σ → Prop) → σ → Prop
  | .done a, post, s => post a s
  | .call o next, post, s => ∀ t r u, s ≤ t → inv t → exec o t r u →
      inv u ∧ Ensures exec inv (next r) post u

section

variable {exec : Exec Op Res σ} {inv : σ → Prop} {α β : Type}

variable {p : Prog Op Res α}

theorem Ensures.weaken {post post' : α → σ → Prop} {s : σ}
    (h : Ensures exec inv p post s) (himp : ∀ a t, post a t → post' a t) :
    Ensures exec inv p post' s := by
  induction p generalizing s with
  | done a => exact himp a s h
  | call o next ih => exact fun t r u hle hinv hexec =>
      (h t r u hle hinv hexec).imp_right fun hnext => ih r hnext

/-- A program can be begun later, if its postcondition is upward closed. -/
theorem Ensures.grow {post : α → σ → Prop} {s t : σ}
    (h : Ensures exec inv p post s) (hle : s ≤ t)
    (hpost : ∀ a u v, u ≤ v → post a u → post a v) : Ensures exec inv p post t := by
  cases p with
  | done a => exact hpost a s t hle h
  | call o next => exact fun u r v htu => h u r v (hle.trans htu)

theorem Ensures.bind {f : α → Prog Op Res β} {post : β → σ → Prop} {s : σ}
    (h : Ensures exec inv p (fun a => Ensures exec inv (f a) post) s) :
    Ensures exec inv (p >>= f) post s := by
  induction p generalizing s with
  | done a => exact h
  | call o next ih => exact fun t r u hle hinv hexec =>
      (h t r u hle hinv hexec).imp_right fun hnext => ih r hnext

/-- The state a program returns at has grown. -/
theorem Ensures.le (hgrows : Grows exec) {post : α → σ → Prop} {s : σ}
    (h : Ensures exec inv p post s) : Ensures exec inv p (fun a t => s ≤ t ∧ post a t) s := by
  induction p generalizing s with
  | done a => exact ⟨le_rfl, h⟩
  | call o next ih => exact fun t r u hle hinv hexec =>
      (h t r u hle hinv hexec).imp_right fun hnext => (ih r hnext).weaken fun _ _ hpost =>
        ⟨(hle.trans (hgrows o t r u hexec)).trans hpost.1, hpost.2⟩

theorem Ensures.perform {o : Op} {post : Res o → σ → Prop} {s : σ}
    (h : ∀ t r u, s ≤ t → inv t → exec o t r u → inv u ∧ post r u) :
    Ensures exec inv (Prog.perform o) post s := h

/-- Every running program ensures the invariant from here on. -/
def Guarded (exec : Exec Op Res σ) (inv : σ → Prop) (w : World Op Res σ) : Prop :=
  inv w.state ∧ ∀ p ∈ w.running, Ensures exec inv p (fun _ _ => True) w.state

variable {Entry : Prog Op Res Unit → Prop}

/-- One step keeps the world guarded, and the state grows. -/
theorem Guarded.step (hgrows : Grows exec)
    (hentry : ∀ p, Entry p → ∀ s, inv s → Ensures exec inv p (fun _ _ => True) s)
    {w w' : World Op Res σ} (h : Guarded exec inv w) (hstep : Step exec Entry w w') :
    Guarded exec inv w' ∧ w.state ≤ w'.state := by
  obtain ⟨hinv, hrunning⟩ := h
  cases hstep with
  | start p hp => exact ⟨⟨hinv, List.forall_mem_cons.mpr ⟨hentry p hp _ hinv, hrunning⟩⟩, le_rfl⟩
  | crash p =>
    refine ⟨⟨hinv, fun q hq => hrunning q ?_⟩, le_rfl⟩
    rcases List.mem_append.mp hq with hbefore | hafter
    · exact List.mem_append_left _ hbefore
    · exact List.mem_append_right _ (List.mem_cons_of_mem _ hafter)
  | @act s t before after o next r hexec =>
    have hle : s ≤ t := hgrows o s r t hexec
    have hself := hrunning _ (List.mem_append_right _ List.mem_cons_self) s r t le_rfl hinv hexec
    refine ⟨⟨hself.1, fun q hq => ?_⟩, hle⟩
    -- the others begin where this one has left the state
    rcases List.mem_append.mp hq with hbefore | hafter
    · exact (hrunning q (List.mem_append_left _ hbefore)).grow hle fun _ _ _ _ _ => trivial
    · rcases List.mem_cons.mp hafter with rfl | hafter
      · exact hself.2
      · exact (hrunning q (List.mem_append_right _ (List.mem_cons_of_mem _ hafter))).grow hle
          fun _ _ _ _ _ => trivial

/-- **The rule for interleavings.** -/
theorem invariant_of_steps (hgrows : Grows exec)
    (hentry : ∀ p, Entry p → ∀ s, inv s → Ensures exec inv p (fun _ _ => True) s)
    {w w' : World Op Res σ} (h : Guarded exec inv w) (hsteps : Reaches exec Entry w w') :
    Guarded exec inv w' ∧ w.state ≤ w'.state := by
  induction hsteps with
  | refl => exact ⟨h, le_rfl⟩
  | tail _ hstep ih =>
    obtain ⟨hguarded, hle⟩ := ih.1.step hgrows hentry hstep
    exact ⟨hguarded, ih.2.trans hle⟩

/-- A call begun at `s` returns `a` at `t`, with anything added in between. -/
inductive Returns (exec : Exec Op Res σ) {α : Type} : Prog Op Res α → σ → α → σ → Prop
  | done {s t : σ} {a : α} (hle : s ≤ t) : Returns exec (.done a) s a t
  | call {s t u v : σ} {a : α} {o : Op} {next : Res o → Prog Op Res α} {r : Res o} (hle : s ≤ t)
      (hexec : exec o t r u) (hnext : Returns exec (next r) u a v) :
      Returns exec (.call o next) s a v

theorem Ensures.of_returns {post : α → σ → Prop} {s t : σ} {a : α}
    (h : Ensures exec (fun _ => True) p post s)
    (hpost : ∀ a u v, u ≤ v → post a u → post a v) (hreturns : Returns exec p s a t) :
    post a t := by
  induction hreturns with
  | done hle => exact hpost _ _ _ hle h
  | call hle hexec _ ih => exact ih (h _ _ _ hle trivial hexec).2

/-! ## Programs that fail -/

/-- Keep `inv`, and if there is a result, `post` holds of it. -/
def EnsuresOk (exec : Exec Op Res σ) (inv : σ → Prop) {ε α : Type}
    (x : ExceptT ε (Prog Op Res) α) (post : α → σ → Prop) (s : σ) : Prop :=
  Ensures exec inv x.run (fun r t => ∀ a, r = .ok a → post a t) s

/-- A program that may fail runs to its end, whatever it returns. -/
def launch {ε α : Type} (x : ExceptT ε (Prog Op Res) α) : Prog Op Res Unit :=
  x.run >>= fun _ => .done ()

/-- The outcome of a program as a value. -/
def tried {ε α : Type} (x : ExceptT ε (Prog Op Res) α) :
    ExceptT ε (Prog Op Res) (Except ε α) := ExceptT.lift x.run

/-- Report a check. -/
def check {ε : Type} (outcome : Except ε α) : ExceptT ε (Prog Op Res) α :=
  ExceptT.mk (Prog.done outcome)

/-- Fail with `e` unless `condition`. -/
def demand {ε : Type} (condition : Prop) [Decidable condition] (e : ε) :
    ExceptT ε (Prog Op Res) Unit :=
  if condition then pure () else throw e

/-- `Option::ok_or`. -/
def demandSome {ε : Type} (value : Option α) (e : ε) : ExceptT ε (Prog Op Res) α :=
  match value with
  | some a => pure a
  | none => throw e

section

variable {ε : Type} {x : ExceptT ε (Prog Op Res) α} {post : α → σ → Prop} {s : σ}

theorem EnsuresOk.pure {a : α} (h : post a s) :
    EnsuresOk exec inv (Pure.pure a : ExceptT ε (Prog Op Res) α) post s :=
  fun _ hok => Except.ok.inj hok ▸ h

theorem EnsuresOk.throw {e : ε} :
    EnsuresOk exec inv (throw e : ExceptT ε (Prog Op Res) α) post s := fun _ hok => nomatch hok

theorem EnsuresOk.bind {f : α → ExceptT ε (Prog Op Res) β} {post : β → σ → Prop}
    (h : EnsuresOk exec inv x (fun a => EnsuresOk exec inv (f a) post) s) :
    EnsuresOk exec inv (x >>= f) post s := by
  refine Ensures.bind (h.weaken fun r t hr => ?_)
  cases r with
  | ok a => exact hr a rfl
  | error e => exact fun _ hok => nomatch hok

theorem EnsuresOk.le (hgrows : Grows exec) (h : EnsuresOk exec inv x post s) :
    EnsuresOk exec inv x (fun a t => s ≤ t ∧ post a t) s :=
  (Ensures.le hgrows h).weaken fun _ _ hr a hok => ⟨hr.1, hr.2 a hok⟩

/-- One program after the other, with what is known in between. -/
theorem EnsuresOk.seq (hgrows : Grows exec) {f : α → ExceptT ε (Prog Op Res) β}
    {post' : β → σ → Prop} (h : EnsuresOk exec inv x post s)
    (hnext : ∀ a t, s ≤ t → post a t → EnsuresOk exec inv (f a) post' t) :
    EnsuresOk exec inv (x >>= f) post' s :=
  EnsuresOk.bind (Ensures.weaken (h.le hgrows) fun _ t hr a hok =>
    hnext a t (hr a hok).1 (hr a hok).2)

theorem EnsuresOk.weaken {post' : α → σ → Prop} (h : EnsuresOk exec inv x post s)
    (himp : ∀ a t, post a t → post' a t) : EnsuresOk exec inv x post' s :=
  Ensures.weaken h fun _ t hr a hok => himp a t (hr a hok)

theorem EnsuresOk.launch (h : EnsuresOk exec inv x post s) :
    Ensures exec inv (launch x) (fun _ _ => True) s :=
  Ensures.bind (Ensures.weaken h fun _ _ _ => trivial)

theorem EnsuresOk.check (outcome : Except ε α) :
    EnsuresOk exec inv (check outcome : ExceptT ε (Prog Op Res) α) (fun a _ => outcome = .ok a) s :=
  fun _ hok => hok

/-- A demand at the end of a program. -/
theorem EnsuresOk.of_demand {condition : Prop} [Decidable condition] {e : ε}
    {post : Unit → σ → Prop} (h : condition → post () s) :
    EnsuresOk exec inv (demand condition e : ExceptT ε (Prog Op Res) Unit) post s := by
  unfold demand
  split
  · exact EnsuresOk.pure (h ‹_›)
  · exact EnsuresOk.throw

theorem EnsuresOk.demandSome (value : Option α) (e : ε) :
    EnsuresOk exec inv (demandSome value e : ExceptT ε (Prog Op Res) α) (fun a _ => value = some a)
      s := by
  cases value with
  | none => exact EnsuresOk.throw
  | some a => exact EnsuresOk.pure rfl

theorem EnsuresOk.tried {post : Except ε α → σ → Prop} (h : Ensures exec inv x.run post s) :
    EnsuresOk exec inv (tried x) post s :=
  Ensures.bind (h.weaken fun _ _ hr _ hok => Except.ok.inj hok ▸ hr)

end

end

end

end Oclob.Lib
