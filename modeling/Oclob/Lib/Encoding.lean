import Mathlib.Tactic.Common

/-!
# Texts that can be read back

A digest stands for the text it was computed from, and a text for the values written into it if
each code word can be cut off its front in one way only. `SelfDelimiting` is that property of a
code, on the values that satisfy a side condition; fixed-width codes have it, it is closed under
concatenation, and a list of code words determines the list.
-/

namespace Oclob.Lib

variable {α β γ : Type}

/-- A code word is cut off the front of a text in one way. -/
def SelfDelimiting (code : α → List γ) (P : α → Prop) : Prop :=
  ∀ a b, P a → P b → ∀ x y, code a ++ x = code b ++ y → a = b ∧ x = y

namespace SelfDelimiting

variable {code : α → List γ} {P : α → Prop}

/-- A code of one width. -/
theorem of_length (width : Nat) (hlength : ∀ a, (code a).length = width)
    (hinj : ∀ a b, P a → P b → code a = code b → a = b) : SelfDelimiting code P := by
  intro a b ha hb x y h
  obtain ⟨hcode, hrest⟩ := List.append_inj h (by rw [hlength, hlength])
  exact ⟨hinj a b ha hb hcode, hrest⟩

/-- As many code words as the other text has, then a rest. -/
theorem flatMap_append (h : SelfDelimiting code P) {l m : List α} (hl : ∀ a ∈ l, P a)
    (hm : ∀ b ∈ m, P b) (hlength : l.length = m.length) {x y : List γ}
    (heq : l.flatMap code ++ x = m.flatMap code ++ y) : l = m ∧ x = y := by
  induction l generalizing m with
  | nil =>
    obtain rfl := List.eq_nil_of_length_eq_zero hlength.symm
    exact ⟨rfl, heq⟩
  | cons a l ih =>
    cases m with
    | nil => exact absurd hlength (by simp)
    | cons b m =>
      rw [List.flatMap_cons, List.flatMap_cons, List.append_assoc, List.append_assoc] at heq
      obtain ⟨rfl, htail⟩ := h a b (hl a List.mem_cons_self) (hm b List.mem_cons_self) _ _ heq
      obtain ⟨rfl, hrest⟩ := ih (fun c hc => hl c (List.mem_cons_of_mem _ hc))
        (fun c hc => hm c (List.mem_cons_of_mem _ hc)) (Nat.succ.inj hlength) htail
      exact ⟨rfl, hrest⟩

/-- A text of code words that are not empty. -/
theorem flatMap (h : SelfDelimiting code P) (hne : ∀ a, code a ≠ []) {l m : List α}
    (hl : ∀ a ∈ l, P a) (hm : ∀ b ∈ m, P b) (heq : l.flatMap code = m.flatMap code) : l = m := by
  induction l generalizing m with
  | nil =>
    cases m with
    | nil => rfl
    | cons b m => exact absurd heq.symm (by simp [hne b])
  | cons a l ih =>
    cases m with
    | nil => exact absurd heq (by simp [hne a])
    | cons b m =>
      rw [List.flatMap_cons, List.flatMap_cons] at heq
      obtain ⟨rfl, htail⟩ := h a b (hl a List.mem_cons_self) (hm b List.mem_cons_self) _ _ heq
      rw [ih (fun c hc => hl c (List.mem_cons_of_mem _ hc))
        (fun c hc => hm c (List.mem_cons_of_mem _ hc)) htail]

end SelfDelimiting

end Oclob.Lib
