import Mathlib.Algebra.Ring.Basic
import Mathlib.Data.Nat.Cast.Basic
import Mathlib.Logic.Function.Basic

/-!
# Straight-line arithmetic programs

A program is a list of assignments to wires, each the value of an expression over a ring with
comparison gates, as a secret-sharing compiler executes it. A wire may be assigned again.

The gates are a parameter: `Gates.ExactBelow` says that they compare natural numbers below a
bound as the numbers compare. Proofs about programs go block by block: `exec_append` runs two
programs one after the other, `exec_frame` says that a program changes only its targets, and
`exec_flatMap` is the invariant rule of a program unrolled over a list.
-/

namespace Oclob.Lib

/-- The comparisons of secret values. -/
inductive Cmp where
  | gt | ge | lt | le | eq | ne
  deriving DecidableEq

/-- The comparison of two numbers. -/
def Cmp.holds : Cmp → Nat → Nat → Bool
  | .gt, a, b => decide (b < a)
  | .ge, a, b => decide (b ≤ a)
  | .lt, a, b => decide (a < b)
  | .le, a, b => decide (a ≤ b)
  | .eq, a, b => decide (a = b)
  | .ne, a, b => decide (a ≠ b)

/-- Expressions over the wires `W`. -/
inductive Expr (W : Type) where
  | const (n : Nat)
  | var (w : W)
  | add (a b : Expr W)
  | sub (a b : Expr W)
  | mul (a b : Expr W)
  | cmp (op : Cmp) (a b : Expr W)
  /-- `c.if_else(a, b)` for a bit `c`. -/
  | ifElse (c a b : Expr W)

namespace Expr

variable {W : Type}

instance : Add (Expr W) := ⟨add⟩
instance : Sub (Expr W) := ⟨sub⟩
instance : Mul (Expr W) := ⟨mul⟩

def gt (a b : Expr W) : Expr W := cmp .gt a b
def ge (a b : Expr W) : Expr W := cmp .ge a b
def lt (a b : Expr W) : Expr W := cmp .lt a b
def le (a b : Expr W) : Expr W := cmp .le a b
def eq (a b : Expr W) : Expr W := cmp .eq a b
def ne (a b : Expr W) : Expr W := cmp .ne a b

end Expr

/-- `target = value`. -/
structure Assign (W : Type) where
  target : W
  value : Expr W

/-- The comparison protocol: a secret bit for each comparison of secret values. -/
structure Gates (F : Type) where
  test : Cmp → F → F → F

section

variable {W F ι : Type} [CommRing F]

/-- A truth value on a wire. -/
def bit (b : Bool) : F := if b then 1 else 0

/-- The gates compare numbers below `bound` exactly. -/
def Gates.ExactBelow (gates : Gates F) (bound : Nat) : Prop :=
  ∀ (op : Cmp) (a b : Nat), a < bound → b < bound → gates.test op a b = bit (op.holds a b)

/-- The value of an expression; a choice is the linear form the protocol computes. -/
def Expr.eval (gates : Gates F) (env : W → F) : Expr W → F
  | .const n => n
  | .var w => env w
  | .add a b => a.eval gates env + b.eval gates env
  | .sub a b => a.eval gates env - b.eval gates env
  | .mul a b => a.eval gates env * b.eval gates env
  | .cmp op a b => gates.test op (a.eval gates env) (b.eval gates env)
  | .ifElse c a b =>
    c.eval gates env * (a.eval gates env - b.eval gates env) + b.eval gates env

variable {gates : Gates F} {env : W → F}

/-! ## Values -/

@[simp] theorem eval_const (n : Nat) : (Expr.const n).eval gates env = n := rfl

@[simp] theorem eval_var (w : W) : (Expr.var w).eval gates env = env w := rfl

@[simp] theorem eval_add (a b : Expr W) :
    (a + b).eval gates env = a.eval gates env + b.eval gates env := rfl

@[simp] theorem eval_sub (a b : Expr W) :
    (a - b).eval gates env = a.eval gates env - b.eval gates env := rfl

@[simp] theorem eval_mul (a b : Expr W) :
    (a * b).eval gates env = a.eval gates env * b.eval gates env := rfl

theorem bit_mul (p q : Bool) : (bit p * bit q : F) = bit (p && q) := by
  cases p <;> simp [bit]

theorem bit_mul_cast (p : Bool) (n : Nat) :
    (bit p * n : F) = ((if p then n else 0 : Nat) : F) := by
  cases p <;> simp [bit]

/-- A choice on a bit picks one of its values. -/
theorem eval_ifElse {c a b : Expr W} {p : Bool} (hc : c.eval gates env = bit p) :
    (Expr.ifElse c a b).eval gates env =
      if p then a.eval gates env else b.eval gates env := by
  rw [Expr.eval, hc]
  cases p <;> simp [bit]

/-- A comparison of small numbers is exact. -/
theorem Gates.ExactBelow.eval_cmp {bound : Nat} (hg : gates.ExactBelow bound) {op : Cmp}
    {a b : Expr W} {m n : Nat} (ha : a.eval gates env = m) (hb : b.eval gates env = n)
    (hm : m < bound) (hn : n < bound) :
    (Expr.cmp op a b).eval gates env = bit (op.holds m n) := by
  rw [Expr.eval, ha, hb]
  exact hg op m n hm hn

/-! ## Runs -/

variable [DecidableEq W]

/-- One assignment. -/
def Assign.exec (gates : Gates F) (env : W → F) (stmt : Assign W) : W → F :=
  Function.update env stmt.target (stmt.value.eval gates env)

/-- A program, from its first assignment to its last. -/
def exec (gates : Gates F) (env : W → F) (prog : List (Assign W)) : W → F :=
  prog.foldl (Assign.exec gates) env

@[simp] theorem exec_nil : exec gates env [] = env := rfl

theorem exec_cons (stmt : Assign W) (prog : List (Assign W)) :
    exec gates env (stmt :: prog) = exec gates (stmt.exec gates env) prog := rfl

theorem exec_append (p q : List (Assign W)) :
    exec gates env (p ++ q) = exec gates (exec gates env p) q :=
  List.foldl_append

/-- A program changes only its targets. -/
theorem exec_frame {prog : List (Assign W)} {w : W} (h : ∀ stmt ∈ prog, stmt.target ≠ w) :
    exec gates env prog w = env w := by
  induction prog generalizing env with
  | nil => rfl
  | cons stmt prog ih =>
    rw [exec_cons, ih fun s hs => h s (List.mem_cons_of_mem _ hs)]
    exact Function.update_of_ne (h stmt List.mem_cons_self).symm _ _

/-- **The invariant rule** of a program unrolled over a list: what every block carries from the
items before it to the items up to it holds after the whole program. -/
theorem exec_flatMap (gates : Gates F) (block : ι → List (Assign W)) (items : List ι)
    (P : List ι → (W → F) → Prop) (hstart : P [] env)
    (hstep : ∀ done i rest e, items = done ++ i :: rest → P done e →
      P (done ++ [i]) (exec gates e (block i))) :
    P items (exec gates env (items.flatMap block)) := by
  suffices hrun : ∀ rest done e, items = done ++ rest → P done e →
      P (done ++ rest) (exec gates e (rest.flatMap block)) from
    hrun items [] env rfl hstart
  intro rest
  induction rest with
  | nil =>
    intro done e _ hdone
    rwa [List.append_nil]
  | cons i rest ih =>
    intro done e hitems hdone
    have hnext := ih (done ++ [i]) _ (by rw [hitems, List.append_assoc]; rfl)
      (hstep done i rest e hitems hdone)
    rw [List.append_assoc] at hnext
    rw [List.flatMap_cons, exec_append]
    exact hnext

end

end Oclob.Lib
