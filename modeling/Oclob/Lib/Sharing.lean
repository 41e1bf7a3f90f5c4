import Mathlib.Algebra.Polynomial.Div
import Mathlib.Algebra.Polynomial.BigOperators
import Mathlib.Algebra.BigOperators.GroupWithZero.Finset

/-!
# Values of a polynomial and its value at zero

A secret is the value at zero of a polynomial, and a share its value at a node. Weights combine the
shares to the secret: `LagrangeAtZero` is the defining equation of the Lagrange weights at zero,
with the denominators cleared, over any commutative ring. Where the differences of the nodes are
units, `LagrangeAtZero.sum_eval` says that the weighted sum of the shares is the secret, for every
polynomial with fewer coefficients than there are nodes.
-/

namespace Oclob.Lib

open Polynomial Finset

variable {F ι : Type} [CommRing F] {nodes weights : ι → F}

/-- The differences of the nodes are units. -/
def Separated (nodes : ι → F) : Prop := ∀ i j, i ≠ j → IsUnit (nodes i - nodes j)

variable [DecidableEq ι]

/-- A polynomial that vanishes at more separated nodes than its degree is zero. -/
theorem Separated.eq_zero (h : Separated nodes) {s : Finset ι} {p : F[X]}
    (hdegree : p.degree < s.card) (hzero : ∀ i ∈ s, p.eval (nodes i) = 0) : p = 0 := by
  nontriviality F
  induction s using Finset.induction_on generalizing p with
  | empty => exact degree_eq_bot.mp (Nat.WithBot.lt_zero_iff.mp hdegree)
  | insert a s ha ih =>
    -- divide by the factor of `a`; the quotient vanishes at the other nodes
    obtain ⟨q, rfl⟩ := dvd_iff_isRoot.mpr (hzero a (mem_insert_self a s))
    have hq : q = 0 := by
      refine ih ?_ fun i hi => ?_
      · rw [mul_comm, (monic_X_sub_C _).degree_mul, degree_X_sub_C, card_insert_of_notMem ha,
          Nat.cast_succ] at hdegree
        exact lt_of_add_lt_add_right hdegree
      · have hproduct := hzero i (mem_insert_of_mem hi)
        rw [Polynomial.eval_mul, Polynomial.eval_sub, Polynomial.eval_X,
          Polynomial.eval_C] at hproduct
        exact (h i a (ne_of_mem_of_not_mem hi ha)).mul_right_eq_zero.mp hproduct
    rw [hq, mul_zero]

variable [Fintype ι]

/-- The Lagrange weights at zero of the nodes. -/
def LagrangeAtZero (nodes weights : ι → F) : Prop :=
  ∀ i, weights i * ∏ j ∈ univ.erase i, (nodes i - nodes j) = ∏ j ∈ univ.erase i, (0 - nodes j)

/-- The product of the other nodes' factors. -/
noncomputable def cofactor (nodes : ι → F) (i : ι) : F[X] :=
  ∏ j ∈ univ.erase i, (X - C (nodes j))

theorem eval_cofactor (i : ι) (x : F) :
    (cofactor nodes i).eval x = ∏ j ∈ univ.erase i, (x - nodes j) := by
  simp [cofactor, eval_prod]

theorem degree_cofactor_lt (i : ι) : (cofactor nodes i).degree < Fintype.card ι := by
  nontriviality F
  have hdegree : (cofactor nodes i).degree = ((univ.erase i).card : WithBot Nat) := by
    rw [cofactor, degree_prod_of_monic _ _ fun j _ => monic_X_sub_C (nodes j)]
    simp
  rw [hdegree]
  exact_mod_cast card_lt_univ_of_notMem (notMem_erase i univ)

/-- **The weighted shares add up to the secret.** -/
theorem LagrangeAtZero.sum_eval (hweights : LagrangeAtZero nodes weights) (h : Separated nodes)
    {p : F[X]} (hp : p.degree < Fintype.card ι) :
    ∑ i, weights i * p.eval (nodes i) = p.eval 0 := by
  have hunit : ∀ i, IsUnit (∏ j ∈ univ.erase i, (nodes i - nodes j)) := by
    intro i
    refine (univ.erase i).prod_induction _ IsUnit (fun _ _ => IsUnit.mul) isUnit_one ?_
    exact fun j hj => h i j (ne_of_mem_erase hj).symm
  choose unit hval using hunit
  -- the difference of `p` and the polynomial through its values vanishes at every node
  let q : F[X] := ∑ i, C (p.eval (nodes i) * ↑(unit i)⁻¹) * cofactor nodes i
  have hzero : p - q = 0 := by
    refine h.eq_zero (s := univ) ?_ fun k _ => ?_
    · refine (degree_sub_le _ _).trans_lt (max_lt hp ?_)
      refine (degree_sum_le _ _).trans_lt ?_
      refine (Finset.sup_lt_iff (bot_lt_of_lt hp)).mpr fun i _ => ?_
      calc (C (p.eval (nodes i) * ↑(unit i)⁻¹) * cofactor nodes i).degree
          ≤ (cofactor nodes i).degree :=
            (degree_mul_le _ _).trans (add_le_of_nonpos_left degree_C_le)
        _ < Fintype.card ι := degree_cofactor_lt i
    · have hother : ∀ i ∈ univ, i ≠ k →
          (C (p.eval (nodes i) * ↑(unit i)⁻¹) * cofactor nodes i).eval (nodes k) = 0 := by
        intro i _ hik
        rw [Polynomial.eval_mul, eval_cofactor, prod_eq_zero (mem_erase.mpr ⟨hik.symm, mem_univ k⟩)
          (sub_self _), mul_zero]
      rw [Polynomial.eval_sub, eval_finsetSum,
        sum_eq_single k hother fun hk => absurd (mem_univ k) hk, Polynomial.eval_mul,
        Polynomial.eval_C, eval_cofactor, ← hval, mul_assoc, Units.inv_mul, mul_one, sub_self]
  calc ∑ i, weights i * p.eval (nodes i)
      = ∑ i, (C (p.eval (nodes i) * ↑(unit i)⁻¹) * cofactor nodes i).eval 0 := by
        refine sum_congr rfl fun i _ => ?_
        rw [Polynomial.eval_mul, Polynomial.eval_C, eval_cofactor, ← hweights i, ← hval,
          mul_left_comm, mul_assoc,
          Units.inv_mul, mul_one, mul_comm]
    _ = q.eval 0 := (eval_finsetSum _ _ _).symm
    _ = p.eval 0 := by rw [sub_eq_zero.mp hzero]

end Oclob.Lib
