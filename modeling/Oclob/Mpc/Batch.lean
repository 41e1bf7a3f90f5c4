import Oclob.Core.Reference
import Oclob.Mpc.Matching

/-!
# The circuit on a batch of the reference book

`private_match_batch` lists the best opposite orders of the book, best price first and first in
first out (`bestFirst_of_inv`), and `compatibility_private_values` loads them into the slots in that
order (`slotsOf`).
-/

namespace Oclob.Mpc

open Oclob.Core Oclob.Lib

/-- The slots `compatibility_private_values` loads: the resting inputs in order, then empty
slots. -/
def slotsOf (batch : PrivateMatchBatch) (i : Fin maxMatchSlots) : RestingSlot :=
  match batch.resting[i.val]? with
  | some resting => ⟨true, resting.side, resting.price, resting.quantity⟩
  | none => ⟨false, .buy, 0, 0⟩

/-- A batch with its best prices first. -/
structure BestFirst (batch : PrivateMatchBatch) : Prop where
  length : batch.resting.length ≤ maxMatchSlots
  sorted : batch.resting.Pairwise fun a b =>
    noWorse batch.arrivingSide a.price b.price = true

/-- A batch of the book has its best prices first. -/
theorem bestFirst_of_inv [Crypto] {book : PrivateBook} (hinv : book.Inv) {arriving : SecretOrder}
    {now : Nat} {batch : PrivateMatchBatch}
    (h : book.privateMatchBatch arriving now = .ok batch) : BestFirst batch := by
  obtain ⟨-, rfl⟩ := PrivateBook.privateMatchBatch_eq_ok.mp h
  refine ⟨?_, ?_⟩
  · simp [PrivateBook.batchOf]
  · have hlive : ((book.live arriving.side now).take maxMatchSlots).Pairwise
        (precedes arriving.side) :=
      (hinv.pairwise_ordered arriving.side).sublist
        ((List.take_sublist _ _).trans List.filter_sublist)
    refine List.pairwise_map.mpr (hlive.imp fun {a b} hab => ?_)
    change noWorse arriving.side a.secret.limitPrice b.secret.limitPrice = true
    cases hside : arriving.side <;> simp only [hside, precedes, noWorse, decide_eq_true_eq] at * <;>
      omega

variable {batch : PrivateMatchBatch}

variable {i : Fin maxMatchSlots}

theorem slotsOf_some {resting : PrivateRestingInput}
    (h : batch.resting[i.val]? = some resting) :
    slotsOf batch i = ⟨true, resting.side, resting.price, resting.quantity⟩ := by
  rw [slotsOf, h]

end Oclob.Mpc
