import Mathlib.Data.Finset.Card
import Mathlib.Order.Interval.Finset.Nat

/-!
# Quorum voting

A committee of which some members are faulty, and values decided slot by slot: a value is backed
for a slot when a quorum of members voted for it, as far as correct members are concerned. If two
quorums always share a correct member, and correct members vote for one value in a slot, then at
most one value is backed in a slot (`Backed.unique`).
-/

namespace Oclob.Lib

/-- Members, the faulty among them, and a quorum such that two quorums share a correct member. -/
structure Committee (ι : Type) where
  members : Finset ι
  faulty : Finset ι
  quorum : Nat
  overlap : members.card + faulty.card < 2 * quorum

namespace Committee

variable {ι σ ν : Type} [DecidableEq ι] (committee : Committee ι)

/-- **Two quorums share a correct member.** -/
theorem exists_correct {a b : Finset ι} (ha : a ⊆ committee.members) (hb : b ⊆ committee.members)
    (hqa : committee.quorum ≤ a.card) (hqb : committee.quorum ≤ b.card) :
    ∃ i ∈ a, i ∈ b ∧ i ∉ committee.faulty := by
  have hunion : (a ∪ b).card ≤ committee.members.card :=
    Finset.card_le_card (Finset.union_subset ha hb)
  have hsum : (a ∪ b).card + (a ∩ b).card = a.card + b.card := Finset.card_union_add_card_inter a b
  have hoverlap := committee.overlap
  have hmany : committee.faulty.card < (a ∩ b).card := by omega
  obtain ⟨i, hi, hcorrect⟩ := Finset.exists_mem_notMem_of_card_lt_card hmany
  obtain ⟨hia, hib⟩ := Finset.mem_inter.mp hi
  exact ⟨i, hia, hib, hcorrect⟩

/-- A quorum backs `value` in `slot`: its correct members voted for it. -/
def Backed (voted : ι → σ → ν → Prop) (slot : σ) (value : ν) : Prop :=
  ∃ q : Finset ι, q ⊆ committee.members ∧ committee.quorum ≤ q.card ∧
    ∀ i ∈ q, i ∉ committee.faulty → voted i slot value

variable {committee} {voted later : ι → σ → ν → Prop} {slot : σ} {value other : ν}

omit [DecidableEq ι] in
/-- Backing is permanent when votes are only added. -/
theorem Backed.mono (h : committee.Backed voted slot value)
    (hvoted : ∀ i slot value, voted i slot value → later i slot value) :
    committee.Backed later slot value := by
  obtain ⟨q, hq, hcard, hvotes⟩ := h
  exact ⟨q, hq, hcard, fun i hi hcorrect => hvoted i slot value (hvotes i hi hcorrect)⟩

/-- **At most one value is backed in a slot.** -/
theorem Backed.unique
    (hsingle : ∀ i, i ∉ committee.faulty → voted i slot value → voted i slot other → value = other)
    (h : committee.Backed voted slot value) (h' : committee.Backed voted slot other) :
    value = other := by
  obtain ⟨q, hq, hcard, hvotes⟩ := h
  obtain ⟨q', hq', hcard', hvotes'⟩ := h'
  obtain ⟨i, hi, hi', hcorrect⟩ := committee.exists_correct hq hq' hcard hcard'
  exact hsingle i hcorrect (hvotes i hi hcorrect) (hvotes' i hi' hcorrect)

end Committee

end Oclob.Lib
