import Mathlib.Algebra.GroupWithZero.Nat
import Mathlib.Data.List.Forall2
import Mathlib.Tactic.Common

/-!
# Machine words and mutators

`u64` values are natural numbers below `2 ^ 64`; `checkedAdd`, `checkedSub` and `checkedMul` fail
when the exact result does not fit. A method that changes its receiver and may fail is an
`EStateM`: on an error the receiver keeps whatever was already written, so a partial update is
visible (`after`). The `run_*_eq_ok` lemmas take a successful run apart, one statement at a time.
-/

namespace Oclob.Lib

/-- One more than the largest `u64`. -/
abbrev u64Bound : Nat := 2 ^ 64

/-- `u64::checked_add`. -/
def checkedAdd (a b : Nat) : Option Nat := if a + b < u64Bound then some (a + b) else none

/-- `u64::checked_sub`. -/
def checkedSub (a b : Nat) : Option Nat := if b ≤ a then some (a - b) else none

/-- `u64::checked_mul`. -/
def checkedMul (a b : Nat) : Option Nat := if a * b < u64Bound then some (a * b) else none

/-- `u64::saturating_add`. -/
def saturatingAdd (a b : Nat) : Nat := min (a + b) (u64Bound - 1)

theorem checkedAdd_eq_some {a b c : Nat} :
    checkedAdd a b = some c ↔ a + b < u64Bound ∧ c = a + b := by
  unfold checkedAdd
  rw [Option.ite_none_right_eq_some, Option.some.injEq, eq_comm (a := c)]

theorem checkedSub_eq_some {a b c : Nat} : checkedSub a b = some c ↔ b ≤ a ∧ c = a - b := by
  unfold checkedSub
  rw [Option.ite_none_right_eq_some, Option.some.injEq, eq_comm (a := c)]

theorem checkedMul_eq_some {a b c : Nat} :
    checkedMul a b = some c ↔ a * b < u64Bound ∧ c = a * b := by
  unfold checkedMul
  rw [Option.ite_none_right_eq_some, Option.some.injEq, eq_comm (a := c)]

/-- A list of lookups that succeeds found every element. -/
theorem exists_of_mapM_eq_some {α β : Type} {f : α → Option β} {l : List α} {found : List β}
    (h : l.mapM f = some found) : ∀ a ∈ l, ∃ b ∈ found, f a = some b := by
  induction l generalizing found with
  | nil => exact fun a ha => absurd ha List.not_mem_nil
  | cons a rest ih =>
    rw [List.mapM_cons] at h
    obtain ⟨b, hb, h⟩ := Option.bind_eq_some_iff.mp h
    obtain ⟨bs, hbs, hfound⟩ := Option.bind_eq_some_iff.mp h
    obtain rfl := Option.some.inj hfound
    refine List.forall_mem_cons.mpr ⟨⟨b, List.mem_cons_self, hb⟩, fun c hc => ?_⟩
    obtain ⟨d, hd, hlookup⟩ := ih hbs c hc
    exact ⟨d, List.mem_cons_of_mem _ hd, hlookup⟩

/-- A list of lookups succeeds if each of them does. -/
theorem exists_mapM_eq_some {α β : Type} {f : α → Option β} {l : List α}
    (h : ∀ a ∈ l, ∃ b, f a = some b) : ∃ found, l.mapM f = some found := by
  induction l with
  | nil => exact ⟨[], rfl⟩
  | cons a rest ih =>
    obtain ⟨⟨b, hb⟩, hrest⟩ := List.forall_mem_cons.mp h
    obtain ⟨bs, hbs⟩ := ih hrest
    refine ⟨b :: bs, ?_⟩
    rw [List.mapM_cons, hb, hbs]
    rfl

/-- Two values related through a third. -/
theorem rel_comp {α β γ : Type} {r : α → β → Prop} {s : β → γ → Prop} {t : α → γ → Prop}
    {o : Option α} {o' : Option β} {o'' : Option γ} (h : Option.Rel r o o')
    (h' : Option.Rel s o' o'') (hcomp : ∀ a b c, r a b → s b c → t a c) : Option.Rel t o o'' := by
  cases h with
  | none =>
    cases h'
    exact .none
  | some hr =>
    cases h' with
    | some hs => exact .some (hcomp _ _ _ hr hs)

theorem exists_of_rel_some {α β : Type} {r : α → β → Prop} {o : Option α} {b : β}
    (h : Option.Rel r o (some b)) : ∃ a, o = some a ∧ r a b := by
  cases h with
  | some hr => exact ⟨_, rfl, hr⟩

theorem exists_of_some_rel {α β : Type} {r : α → β → Prop} {a : α} {o : Option β}
    (h : Option.Rel r (some a) o) : ∃ b, o = some b ∧ r a b := by
  cases h with
  | some hr => exact ⟨_, rfl, hr⟩

/-! ## Mutators -/

section Mutator

variable {ε σ α β : Type}

/-- The receiver after a call, whether it succeeded or not. -/
def after : EStateM.Result ε σ α → σ
  | .ok _ s => s
  | .error _ s => s

@[simp] theorem after_ok (a : α) (s : σ) : after (.ok a s : EStateM.Result ε σ α) = s := rfl

@[simp] theorem after_error (e : ε) (s : σ) : after (.error e s : EStateM.Result ε σ α) = s := rfl

/-- The call returned without an error. -/
def succeeds : EStateM.Result ε σ α → Bool
  | .ok _ _ => true
  | .error _ _ => false

theorem eq_ok_after {r : EStateM.Result ε σ Unit} (h : succeeds r = true) :
    r = .ok () (after r) := by
  cases r with
  | ok a s => rfl
  | error e s => exact absurd h (by simp [succeeds])

/-- The error a call returned. -/
def failure? : EStateM.Result ε σ α → Option ε
  | .ok _ _ => none
  | .error e _ => some e

theorem eq_error_after {r : EStateM.Result ε σ α} {e : ε} (h : failure? r = some e) :
    r = .error e (after r) := by
  cases r with
  | ok a s => exact absurd h (by simp [failure?])
  | error e' s =>
    obtain rfl := Option.some.inj h
    rfl

/-- The `?` operator on a result that does not touch the receiver. -/
def attempt (r : Except ε α) : EStateM ε σ α :=
  match r with
  | .ok a => pure a
  | .error e => throw e

/-- Return the error `e` when the check fails. -/
def ensure (c : Prop) [Decidable c] (e : ε) : EStateM ε σ Unit := if c then pure () else throw e

/-- The `ok_or` operator. -/
def okOr (o : Option α) (e : ε) : Except ε α :=
  match o with
  | some a => .ok a
  | none => .error e

/-- A call on a copy of its receiver: the copy is kept on success and dropped on an error. -/
def stage (x : EStateM ε σ α) (s : σ) : Except ε (α × σ) :=
  match x.run s with
  | .ok a s' => .ok (a, s')
  | .error e _ => .error e

variable {x : EStateM ε σ α} {s' : σ} {c : Prop} {u : Unit} {e' : ε}

theorem stage_eq_ok {s : σ} {a : α} :
    stage x s = .ok (a, s') ↔ x.run s = .ok a s' := by
  unfold stage
  cases h : x.run s with
  | ok b t => simp
  | error e t => simp

/-- A check that does not touch the receiver. -/
def require (c : Prop) [Decidable c] (e : ε) : Except ε Unit := if c then .ok () else .error e

@[simp] theorem require_eq_ok [Decidable c] {e : ε} :
    require c e = .ok u ↔ c := by
  unfold require
  split <;> simp_all

@[simp] theorem okOr_eq_ok {o : Option α} {e : ε} {a : α} : okOr o e = .ok a ↔ o = some a := by
  cases o <;> simp [okOr]

/-- The `map_err` operator. -/
@[simp] theorem mapError_eq_ok {ε' : Type} {f : ε → ε'} {x : Except ε α} {a : α} :
    x.mapError f = .ok a ↔ x = .ok a := by
  cases x <;> simp [Except.mapError]

theorem except_bind_eq_ok {x : Except ε α} {f : α → Except ε β} {b : β} :
    x >>= f = .ok b ↔ ∃ a, x = .ok a ∧ f a = .ok b := by
  cases x with
  | ok a => simp [bind, Except.bind]
  | error e => simp [bind, Except.bind]

/-- The rules that take a successful check apart, as one simp set. -/
theorem ok_rules :
    (∀ {ε α β : Type} {x : Except ε α} {f : α → Except ε β} {b : β},
      x >>= f = .ok b ↔ ∃ a, x = .ok a ∧ f a = .ok b) ∧
    (∀ {ε α : Type} {a b : α}, (pure a : Except ε α) = .ok b ↔ a = b) ∧
    (∀ {ε : Type} {c : Prop} [Decidable c] {e : ε} {u : Unit}, require c e = .ok u ↔ c) ∧
    (∀ {ε α : Type} {o : Option α} {e : ε} {a : α}, okOr o e = .ok a ↔ o = some a) ∧
    ∀ {ε ε' α : Type} {f : ε → ε'} {x : Except ε α} {a : α}, x.mapError f = .ok a ↔ x = .ok a :=
  ⟨except_bind_eq_ok, ⟨Except.ok.inj, congrArg _⟩, require_eq_ok, okOr_eq_ok, mapError_eq_ok⟩

theorem except_bind_eq_error {x : Except ε α} {f : α → Except ε β} {e : ε} :
    x >>= f = .error e ↔ x = .error e ∨ ∃ a, x = .ok a ∧ f a = .error e := by
  cases x with
  | ok a => simp [bind, Except.bind]
  | error e => simp [bind, Except.bind]

theorem require_eq_error [Decidable c] {e : ε} :
    require c e = .error e' ↔ ¬ c ∧ e' = e := by
  unfold require
  split <;> simp_all [eq_comm]

theorem okOr_eq_error {o : Option α} {e : ε} : okOr o e = .error e' ↔ o = none ∧ e' = e := by
  cases o <;> simp [okOr, eq_comm]

/-- A loop of checks. -/
def forEach (f : α → Except ε Unit) : List α → Except ε Unit
  | [] => .ok ()
  | a :: l => do
    f a
    forEach f l

theorem forEach_eq_ok {f : α → Except ε Unit} {l : List α} :
    forEach f l = .ok u ↔ ∀ a ∈ l, f a = .ok () := by
  induction l with
  | nil => simp [forEach]
  | cons a l ih =>
    simp only [forEach, except_bind_eq_ok, ih, List.forall_mem_cons]
    exact ⟨fun ⟨⟨⟩, ha, hl⟩ => ⟨ha, hl⟩, fun ⟨ha, hl⟩ => ⟨(), ha, hl⟩⟩

theorem run_bind_eq_ok {f : α → EStateM ε σ β} {s : σ} {b : β} :
    (x >>= f).run s = .ok b s' ↔ ∃ a s₁, x.run s = .ok a s₁ ∧ (f a).run s₁ = .ok b s' := by
  rw [EStateM.run_bind]
  cases h : x.run s with
  | ok a s₁ => simp
  | error e s₁ => simp

theorem run_pure_eq_ok {a b : α} {s : σ} :
    (pure a : EStateM ε σ α).run s = .ok b s' ↔ b = a ∧ s' = s := by
  simp [eq_comm]

theorem run_get_eq_ok {s a : σ} :
    (get : EStateM ε σ σ).run s = .ok a s' ↔ a = s ∧ s' = s := by
  simp [eq_comm]

theorem run_set_eq_ok {s t : σ} {u : PUnit} :
    (set t : EStateM ε σ PUnit).run s = .ok u s' ↔ s' = t := by
  simp [eq_comm]

theorem run_modify_eq_ok {f : σ → σ} {s : σ} {u : PUnit} :
    (modify f : EStateM ε σ PUnit).run s = .ok u s' ↔ s' = f s := by
  change EStateM.Result.ok _ _ = _ ↔ _
  simp [eq_comm]

theorem run_throw_ne_ok {e : ε} {s : σ} {a : α} :
    (throw e : EStateM ε σ α).run s ≠ .ok a s' := fun h => by
  cases h

theorem run_attempt_eq_ok {r : Except ε α} {s : σ} {a : α} :
    (attempt r : EStateM ε σ α).run s = .ok a s' ↔ r = .ok a ∧ s' = s := by
  cases r with
  | error e => simp [attempt, run_throw_ne_ok]
  | ok b => simp [attempt, eq_comm]

theorem run_ensure_eq_ok [Decidable c] {e : ε} {s : σ} :
    (ensure c e : EStateM ε σ Unit).run s = .ok u s' ↔ c ∧ s' = s := by
  unfold ensure
  split <;> simp_all [eq_comm]

/-- The rules that take a successful run apart, as one simp set. -/
theorem run_rules :
    (∀ {ε σ α β : Type} {x : EStateM ε σ α} {f : α → EStateM ε σ β} {s s' : σ} {b : β},
      (x >>= f).run s = .ok b s' ↔ ∃ a s₁, x.run s = .ok a s₁ ∧ (f a).run s₁ = .ok b s') ∧
    (∀ {ε σ α : Type} {a b : α} {s s' : σ},
      (pure a : EStateM ε σ α).run s = .ok b s' ↔ b = a ∧ s' = s) ∧
    (∀ {ε σ : Type} {s a s' : σ}, (get : EStateM ε σ σ).run s = .ok a s' ↔ a = s ∧ s' = s) ∧
    (∀ {ε σ : Type} {s t s' : σ} {u : PUnit},
      (set t : EStateM ε σ PUnit).run s = .ok u s' ↔ s' = t) ∧
    (∀ {ε σ : Type} {f : σ → σ} {s s' : σ} {u : PUnit},
      (modify f : EStateM ε σ PUnit).run s = .ok u s' ↔ s' = f s) ∧
    (∀ {ε σ α : Type} {r : Except ε α} {s s' : σ} {a : α},
      (attempt r : EStateM ε σ α).run s = .ok a s' ↔ r = .ok a ∧ s' = s) ∧
    ∀ {ε σ : Type} {c : Prop} [Decidable c] {e : ε} {s s' : σ} {u : Unit},
      (ensure c e : EStateM ε σ Unit).run s = .ok u s' ↔ c ∧ s' = s :=
  ⟨run_bind_eq_ok, run_pure_eq_ok, run_get_eq_ok, run_set_eq_ok, run_modify_eq_ok,
    run_attempt_eq_ok, run_ensure_eq_ok⟩

/-! A run, one statement at a time. -/

section Steps

variable (s t : σ) (a : α) (e : ε) (f : α → EStateM ε σ β) (g : Unit → EStateM ε σ β)

theorem run_get_bind (k : σ → EStateM ε σ β) : (get >>= k).run s = (k s).run s := rfl

theorem run_set_bind (k : PUnit → EStateM ε σ β) : (set t >>= k).run s = (k ⟨⟩).run t := rfl

theorem run_attempt_ok_bind : (attempt (.ok a) >>= f).run s = (f a).run s := rfl

theorem run_attempt_error_bind : (attempt (.error e) >>= f).run s = .error e s := rfl

theorem run_ensure_bind {c : Prop} [Decidable c] :
    (ensure c e >>= g).run s = if c then (g ()).run s else .error e s := by
  unfold ensure
  split <;> rfl

theorem run_ensure {c : Prop} [Decidable c] :
    (ensure c e : EStateM ε σ Unit).run s = if c then .ok () s else .error e s := by
  unfold ensure
  split <;> rfl

theorem run_bind_of_ok {x : EStateM ε σ α} (h : x.run s = .ok a t) :
    (x >>= f).run s = (f a).run t := by
  rw [EStateM.run_bind, h]

/-- A call followed by statements that only read its receiver. -/
theorem after_bind_of_reads {x : EStateM ε σ α} (hf : ∀ a s, after ((f a).run s) = s) :
    after ((x >>= f).run s) = after (x.run s) := by
  rw [EStateM.run_bind]
  cases x.run s with
  | ok a s' => exact hf a s'
  | error e s' => rfl

end Steps

/-! What a failing run leaves behind. -/

theorem run_bind_eq_error {f : α → EStateM ε σ β} {s : σ} {e : ε} :
    (x >>= f).run s = .error e s' ↔
      x.run s = .error e s' ∨ ∃ a s₁, x.run s = .ok a s₁ ∧ (f a).run s₁ = .error e s' := by
  rw [EStateM.run_bind]
  cases h : x.run s with
  | ok a s₁ => simp
  | error e₁ s₁ => simp

theorem run_attempt_eq_error {r : Except ε α} {s : σ} {e : ε} :
    (attempt r : EStateM ε σ α).run s = .error e s' ↔ r = .error e ∧ s' = s := by
  cases r with
  | error e₁ =>
    change EStateM.Result.error e₁ s = _ ↔ _
    simp [eq_comm]
  | ok b => simp [attempt]

theorem run_ensure_eq_error [Decidable c] {e : ε} {s : σ} :
    (ensure c e : EStateM ε σ Unit).run s = .error e' s' ↔ ¬ c ∧ e' = e ∧ s' = s := by
  unfold ensure
  split
  · rename_i hc
    simp [hc]
  · rename_i hc
    change EStateM.Result.error e s = _ ↔ _
    simp [hc, eq_comm]

theorem run_pure_ne_error {a : α} {s : σ} {e : ε} :
    (pure a : EStateM ε σ α).run s ≠ .error e s' := by simp

theorem run_get_ne_error {s : σ} {e : ε} : (get : EStateM ε σ σ).run s ≠ .error e s' := by
  simp

theorem run_set_ne_error {s t : σ} {e : ε} :
    (set t : EStateM ε σ PUnit).run s ≠ .error e s' := by simp

theorem run_modify_ne_error {f : σ → σ} {s : σ} {e : ε} :
    (modify f : EStateM ε σ PUnit).run s ≠ .error e s' := fun h => by cases h

/-! What a failing run cannot have changed. -/

section Keeps

variable {γ : Type} {part : σ → γ}

/-- When the call fails, this part of the receiver is as before. -/
def KeepsOnError (part : σ → γ) (x : EStateM ε σ α) : Prop :=
  ∀ s e s', x.run s = .error e s' → part s' = part s

theorem keeps_attempt_bind {r : Except ε α} {f : α → EStateM ε σ β}
    (h : ∀ a, KeepsOnError part (f a)) : KeepsOnError part (attempt r >>= f) := by
  intro s e s' hrun
  cases r with
  | ok a => exact h a s e s' hrun
  | error e' =>
    cases hrun
    rfl

theorem keeps_ensure_bind {c : Prop} [Decidable c] {e : ε} {f : Unit → EStateM ε σ β}
    (h : KeepsOnError part (f ())) : KeepsOnError part (ensure c e >>= f) := by
  intro s e' s' hrun
  rw [run_ensure_bind] at hrun
  split at hrun
  · exact h s e' s' hrun
  · cases hrun
    rfl

theorem keeps_get_bind {f : σ → EStateM ε σ β} (h : ∀ s, KeepsOnError part (f s)) :
    KeepsOnError part (get >>= f) := fun s => h s s

theorem keeps_modify_bind {g : σ → σ} {f : PUnit → EStateM ε σ β} (hg : ∀ s, part (g s) = part s)
    (h : KeepsOnError part (f ⟨⟩)) : KeepsOnError part (modify g >>= f) :=
  fun s e s' hrun => (h (g s) e s' hrun).trans (hg s)

theorem keeps_modify {g : σ → σ} : KeepsOnError (ε := ε) part (modify g) :=
  fun _ _ _ hrun => absurd hrun run_modify_ne_error

theorem keeps_set {t : σ} : KeepsOnError (ε := ε) part (set t) :=
  fun _ _ _ hrun => absurd hrun run_set_ne_error

end Keeps

/-! What holds of the end of a call, if it holds of a refusal on the spot. -/

section Ends

variable {Q : EStateM.Result ε σ β → Prop} {s : σ}

theorem ends_attempt_bind {r : Except ε α} {f : α → EStateM ε σ β} (hQ : ∀ e, Q (.error e s)) :
    Q ((attempt r >>= f).run s) ↔ ∀ a, r = .ok a → Q ((f a).run s) := by
  cases r with
  | ok a => exact ⟨fun h b hb => Except.ok.inj hb ▸ h, fun h => h a rfl⟩
  | error e => exact iff_of_true (hQ e) fun a ha => absurd ha (by simp)

theorem ends_ensure_bind {c : Prop} [Decidable c] {e : ε} {f : Unit → EStateM ε σ β}
    (hQ : ∀ e, Q (.error e s)) : Q ((ensure c e >>= f).run s) ↔ (c → Q ((f ()).run s)) := by
  rw [run_ensure_bind]
  split
  · rename_i hc
    exact ⟨fun h _ => h, fun h => h hc⟩
  · rename_i hc
    exact iff_of_true (hQ e) fun h => absurd h hc

end Ends

/-! What no run changes. -/

section Leaves

variable {γ : Type} {part : σ → γ} {s t : σ}

/-- Called on `s`, this leaves a part of the receiver as it was, whether it succeeds or fails. -/
def Leaves (part : σ → γ) (x : EStateM ε σ α) (s : σ) : Prop := part (after (x.run s)) = part s

theorem leaves_bind {x : EStateM ε σ α} {f : α → EStateM ε σ β} (hx : Leaves part x s)
    (hf : ∀ a t, Leaves part (f a) t) : Leaves part (x >>= f) s := by
  unfold Leaves at hx ⊢
  rw [EStateM.run_bind]
  cases hrun : x.run s with
  | ok a t => exact (hf a t).trans (by rw [← hx, hrun]; rfl)
  | error e t => exact (by rw [← hx, hrun]; rfl)

theorem leaves_get_bind {f : σ → EStateM ε σ β} (h : Leaves part (f s) s) :
    Leaves part (get >>= f) s := h

theorem leaves_set_bind {f : PUnit → EStateM ε σ β} (ht : part t = part s)
    (h : Leaves part (f ⟨⟩) t) : Leaves part (set t >>= f) s := h.trans ht

theorem leaves_attempt {r : Except ε α} : Leaves part (attempt r) s := by
  cases r <;> rfl

theorem leaves_ensure {c : Prop} [Decidable c] {e : ε} : Leaves part (ensure c e) s := by
  unfold ensure
  split <;> rfl

theorem leaves_attempt_bind {r : Except ε α} {f : α → EStateM ε σ β}
    (h : ∀ a, r = .ok a → Leaves part (f a) s) : Leaves part (attempt r >>= f) s := by
  cases r with
  | ok a => exact h a rfl
  | error e => rfl

theorem leaves_ensure_bind {c : Prop} [Decidable c] {e : ε} {f : Unit → EStateM ε σ β}
    (h : Leaves part (f ()) s) : Leaves part (ensure c e >>= f) s := by
  unfold Leaves
  rw [run_ensure_bind]
  split
  · exact h
  · rfl

end Leaves

end Mutator

end Oclob.Lib
