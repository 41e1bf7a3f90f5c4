import Mathlib.Algebra.BigOperators.Group.List.Basic
import Mathlib.Algebra.Order.BigOperators.Group.List
import Mathlib.Data.List.Nodup
import Mathlib.Data.List.Pairwise
import Oclob.Lib.Tally

/-!
# Greedy allocation

`allocate Q qs` serves the offers `qs` in turn from a demand `Q`: each gets the smaller of what
is left and what it offers. The share of an offer depends on the others only through the sum of
the offers served before it (`tally_zip_allocate`), so it can be computed for each offer alone.

`pairwise_mergeSort_stable` says which order a stable sort serves the offers in.
-/

namespace Oclob.Lib

/-- Serve the offers in turn from the demand `Q`. -/
def allocate : Nat → List Nat → List Nat
  | _, [] => []
  | Q, q :: qs => min Q q :: allocate (Q - min Q q) qs

@[simp] theorem allocate_nil (Q : Nat) : allocate Q [] = [] := rfl

@[simp] theorem length_allocate (Q : Nat) (qs : List Nat) :
    (allocate Q qs).length = qs.length := by
  induction qs generalizing Q with
  | nil => rfl
  | cons q qs ih => rw [allocate, List.length_cons, List.length_cons, ih]

/-- What is served in all. -/
theorem sum_allocate (Q : Nat) (qs : List Nat) : (allocate Q qs).sum = min Q qs.sum := by
  induction qs generalizing Q with
  | nil => simp
  | cons q qs ih =>
    rw [allocate, List.sum_cons, List.sum_cons, ih]
    omega

/-- **The share of an offer**, the offers served in the order `r`: what it offers, up to the
demand that the offers before it leave. -/
theorem tally_zip_allocate {α : Type} [DecidableEq α] {r : α → α → Bool} {qty : α → Nat}
    (hasymm : ∀ a b, r a b = true → r b a = false) {l : List α}
    (hl : l.Pairwise fun a b => r a b = true) {a : α} (ha : a ∈ l) (Q : Nat) :
    tally a (l.zip (allocate Q (l.map qty))) =
      min (Q - ((l.filter fun b => r b a).map qty).sum) (qty a) := by
  induction l generalizing Q with
  | nil => exact absurd ha List.not_mem_nil
  | cons b l ih =>
    obtain ⟨hb, hl⟩ := List.pairwise_cons.mp hl
    have hself : ∀ c, r c c = false := fun c => by
      cases hc : r c c with
      | false => rfl
      | true => rw [← hc, hasymm c c hc]
    rw [List.map_cons, allocate, List.zip_cons_cons, tally_cons]
    by_cases hab : b = a
    · subst hab
      have hnone : l.filter (fun c => r c b) = [] :=
        List.filter_eq_nil_iff.mpr fun c hc => by simp [hasymm b c (hb c hc)]
      have hrest : tally b (l.zip (allocate (Q - min Q (qty b)) (l.map qty))) = 0 :=
        tally_eq_zero fun e he heq => by
          have hmem := hb e.1 (List.of_mem_zip he).1
          rw [heq, hself] at hmem
          exact absurd hmem (by simp)
      rw [if_pos rfl, hrest, List.filter_cons, hself, hnone]
      simp
    · have hmem : a ∈ l := (List.mem_cons.mp ha).resolve_left fun h => hab h.symm
      rw [if_neg hab, Nat.zero_add, ih hl hmem, List.filter_cons, if_pos (hb a hmem),
        List.map_cons, List.sum_cons]
      omega

/-! ## Stable sorting -/

variable {α : Type}

/-- A list without repetition has one order. -/
theorem not_pair_sublist_swap {l : List α} (hnd : l.Nodup) {a b : α} (hab : [a, b].Sublist l) :
    ¬ [b, a].Sublist l := by
  intro hba
  obtain ⟨l₁, l₂, rfl, ha, hb⟩ := List.cons_sublist_iff.mp hab
  obtain ⟨k₁, k₂, heq, hb', ha'⟩ := List.cons_sublist_iff.mp hba
  have hdisj := List.disjoint_of_nodup_append hnd
  rw [List.singleton_sublist] at hb ha'
  rcases List.append_eq_append_iff.mp heq with ⟨t, rfl, rfl⟩ | ⟨t, rfl, rfl⟩
  · exact hdisj ha (List.mem_append_right t ha')
  · exact hdisj (List.mem_append_left t hb') hb

/-- **Stability.** A sorted list keeps the order `r` of its source between elements that compare
equal. -/
theorem pairwise_mergeSort_stable {le : α → α → Bool} {r : α → α → Prop}
    (htrans : ∀ a b c, le a b = true → le b c = true → le a c = true)
    (htotal : ∀ a b, (le a b || le b a) = true) {l : List α} (hnd : l.Nodup) (hr : l.Pairwise r) :
    (l.mergeSort le).Pairwise fun a b => le a b = true ∧ (le b a = true → r a b) := by
  have hsorted := List.pairwise_mergeSort htrans htotal l
  have hnd' : (l.mergeSort le).Nodup := (List.mergeSort_perm _ _).nodup_iff.mpr hnd
  refine List.pairwise_iff_forall_sublist.mpr fun {a b} hab =>
    ⟨List.pairwise_iff_forall_sublist.mp hsorted hab, fun hba => ?_⟩
  have hmem : ∀ c ∈ [a, b], c ∈ l := fun c hc => List.mem_mergeSort.mp (hab.subset hc)
  have hne : a ≠ b := by
    rintro rfl
    exact absurd (hnd'.sublist hab) (by simp)
  have hpairs : l.Pairwise fun x y => [x, y].Sublist l ∨ [y, x].Sublist l :=
    List.pairwise_iff_forall_sublist.mpr Or.inl
  have hsymm : Std.Symm fun x y => [x, y].Sublist l ∨ [y, x].Sublist l := ⟨fun _ _ => Or.symm⟩
  rcases hpairs.forall (hmem a (by simp)) (hmem b (by simp)) hne with h | h
  · exact List.pairwise_iff_forall_sublist.mp hr h
  · exact absurd (List.pair_sublist_mergeSort htrans htotal hba h)
      (not_pair_sublist_swap hnd' hab)

end Oclob.Lib
