import Mathlib.Data.Finset.Image
import Oclob.Core.Mutators

/-!
# The commands of a book

Each successful mutator of the service's book is one command: it is numbered with the sequence
after the book's, it was not admitted before, and it is admitted afterwards (`Applied.advances`).
`AppliedAll` is a list of commands applied one after the other; the length of the list is the
sequence they lead to.
-/

namespace Oclob.Core

open Oclob.Lib

namespace PrivateBook

/-- The fields of a book outside its levels. -/
def header (book : PrivateBook) : String × Nat × Finset Digest32 :=
  (book.marketId, book.sequence, book.admitted)

theorem header_eq {book book' : PrivateBook} : book'.header = book.header ↔
    book'.marketId = book.marketId ∧ book'.sequence = book.sequence ∧
      book'.admitted = book.admitted := by
  simp only [header, Prod.mk.injEq]

theorem header_insertRecord (book : PrivateBook) (record : RestingOrder) :
    (book.insertRecord record).header = book.header := by
  unfold insertRecord
  split <;> rfl

theorem admitted_advance {book book' : PrivateBook} (h : book'.admitted = book.admitted)
    (command : Digest32) (seq : Nat) :
    (book'.advance command seq).admitted = insert command book.admitted := by
  rw [← h]
  rfl

/-- The slots loop edits levels only. -/
theorem applySlots_header {taker : Digest32}
    {pairs : List (PrivateRestingInput × MpcSlotResult)} {book book' : PrivateBook}
    {fills : List PublicFill} (h : (applySlots taker pairs).run book = .ok fills book') :
    book'.header = book.header := by
  induction pairs generalizing book fills with
  | nil =>
    obtain ⟨-, rfl⟩ := run_pure_eq_ok.mp h
    rfl
  | cons pair rest ih =>
    obtain ⟨resting, slot⟩ := pair
    unfold applySlots at h
    split at h
    · simp only [run_rules] at h
      obtain ⟨_, _, ⟨-, rfl⟩, _, _, ⟨rfl, rfl⟩, _, _, ⟨-, rfl⟩, _, _, rfl, _, _, hrest, -, rfl⟩ := h
      have hheader := ih hrest
      exact hheader
    · exact ih h

/-- The expiry loop edits levels only. -/
theorem expireOrders_header {released total : Nat} {cs : List Digest32} {book book' : PrivateBook}
    (h : (expireOrders released cs).run book = .ok total book') : book'.header = book.header := by
  induction cs generalizing book released with
  | nil =>
    obtain ⟨-, rfl⟩ := run_pure_eq_ok.mp h
    rfl
  | cons c rest ih =>
    unfold expireOrders at h
    simp only [run_rules] at h
    obtain ⟨_, _, ⟨rfl, rfl⟩, _, _, ⟨-, rfl⟩, _, _, ⟨-, rfl⟩, _, _, ⟨-, rfl⟩, _, _, rfl, hrest⟩ := h
    have hheader := ih hrest
    exact hheader

variable [Crypto]

/-- A command a book has applied, with the book it leaves. -/
inductive Applied (book : PrivateBook) : Digest32 → PrivateBook → Prop where
  | batch {order : SecretOrder} {authority : OrderAuthority} {seq now : Nat}
      {result : MpcBatchResult} {transition : BookTransition} {book' : PrivateBook}
      (h : (applyMpcBatchResult order authority seq now result).run book =
        .ok transition book') : Applied book authority.commitment book'
  | cancellation {cancellation : SecretCancellation} {seq : Nat}
      {transition : CancellationTransition} {book' : PrivateBook}
      (h : (applyCancellation cancellation seq).run book = .ok transition book') :
      Applied book cancellation.commitment book'
  | expiry {cutoff : Nat} {command : Digest32} {seq : Nat} {transition : ExpiryTransition}
      {book' : PrivateBook}
      (h : (applyExpiry cutoff command seq).run book = .ok transition book') :
      Applied book command book'

/-- What a command does outside the levels. -/
structure Advances (book : PrivateBook) (command : Digest32) (book' : PrivateBook) : Prop where
  fresh : command ∉ book.admitted
  market : book'.marketId = book.marketId
  sequence : book'.sequence = book.sequence + 1
  admitted : book'.admitted = insert command book.admitted

/-- **Every applied command is numbered, fresh and recorded.** -/
theorem Applied.advances {book book' : PrivateBook} {command : Digest32}
    (h : Applied book command book') : Advances book command book' := by
  cases h with
  | batch h =>
    unfold applyMpcBatchResult at h
    simp only [run_rules] at h
    obtain ⟨_, _, ⟨-, rfl⟩, _, _, ⟨rfl, rfl⟩, _, _, ⟨hadmission, rfl⟩, _, _, ⟨-, rfl⟩, _, _,
      ⟨-, rfl⟩, _, slots, hslots, _, _, rfl, _, _, ⟨rfl, rfl⟩, -, rfl⟩ := h
    obtain ⟨-, hfresh, hnext⟩ := checkAdmission_eq_ok.mp hadmission
    obtain ⟨hmarket, -, hadmitted⟩ := header_eq.mp (applySlots_header hslots)
    unfold restRemainder
    split
    · obtain ⟨hmarket', -, hadmitted'⟩ := header_eq.mp (header_insertRecord slots _)
      exact ⟨hfresh, hmarket'.trans hmarket, hnext,
        admitted_advance (hadmitted'.trans hadmitted) _ _⟩
    · exact ⟨hfresh, hmarket, hnext, admitted_advance hadmitted _ _⟩
  | cancellation h =>
    unfold applyCancellation at h
    simp only [run_rules] at h
    obtain ⟨_, _, ⟨rfl, rfl⟩, _, _, ⟨hnext, rfl⟩, _, _, ⟨hfresh, rfl⟩, _, _, ⟨-, rfl⟩, _, _,
      ⟨-, rfl⟩, _, _, ⟨-, rfl⟩, _, _, rfl, -, rfl⟩ := h
    exact ⟨hfresh, rfl, hnext, rfl⟩
  | expiry h =>
    unfold applyExpiry at h
    simp only [run_rules] at h
    obtain ⟨_, _, ⟨rfl, rfl⟩, _, _, ⟨hnext, rfl⟩, _, _, ⟨hfresh, rfl⟩, _, _, ⟨-, rfl⟩, _, _, hloop,
      _, _, rfl, _, _, ⟨rfl, rfl⟩, -, rfl⟩ := h
    obtain ⟨hmarket, -, hadmitted⟩ := header_eq.mp (expireOrders_header hloop)
    exact ⟨hfresh, hmarket, hnext, admitted_advance hadmitted _ _⟩

/-- Commands applied one after the other. -/
inductive AppliedAll (start : PrivateBook) : List Digest32 → PrivateBook → Prop where
  | nil : AppliedAll start [] start
  | snoc {commands : List Digest32} {command : Digest32} {book book' : PrivateBook}
      (h : AppliedAll start commands book) (hlast : Applied book command book') :
      AppliedAll start (commands ++ [command]) book'

/-- What a list of commands does outside the levels. -/
theorem AppliedAll.header {start book : PrivateBook} {commands : List Digest32}
    (h : AppliedAll start commands book) : book.marketId = start.marketId ∧
      book.sequence = start.sequence + commands.length ∧
      book.admitted = start.admitted ∪ commands.toFinset := by
  induction h with
  | nil => exact ⟨rfl, rfl, by simp⟩
  | snoc _ hlast ih =>
    obtain ⟨hmarket, hsequence, hadmitted⟩ := ih
    have hstep := hlast.advances
    refine ⟨hstep.market.trans hmarket, ?_, ?_⟩
    · rw [hstep.sequence, hsequence, List.length_append, List.length_singleton, Nat.add_assoc]
    · rw [hstep.admitted, hadmitted, List.toFinset_append, ← Finset.union_assoc,
        Finset.union_comm _ (List.toFinset [_])]
      rfl

/-! ## Commands with the next number

What can still be wrong with a command that is numbered with the next sequence and not yet
admitted. -/

section Numbered

variable {book book' : PrivateBook} {seq : Nat} {e : OrderError}

omit [Crypto] in
theorem removeByCommitment_error {bids asks : Levels} {c : Digest32}
    (h : removeByCommitment bids asks c = .error e) : e = .unknownOrder := by
  unfold removeByCommitment at h
  split at h
  · exact absurd h (by simp)
  · exact (Except.error.inj h).symm

omit [Crypto] in
theorem checkAdmission_error {order : SecretOrder} {command : Digest32}
    (hnext : seq = book.sequence + 1) (hfresh : command ∉ book.admitted)
    (h : book.checkAdmission order command seq = .error e) : e = .wrongMarket := by
  rw [checkAdmission, if_neg hfresh, if_neg (not_not.mpr hnext)] at h
  split at h
  · exact (Except.error.inj h).symm
  · exact absurd h (by simp)

theorem applyCancellation_numbered {cancellation : SecretCancellation}
    (hnext : seq = book.sequence + 1) (hfresh : cancellation.commitment ∉ book.admitted)
    (h : (applyCancellation cancellation seq).run book = .error e book') :
    e = .unknownOrder ∨ e = .invalidCancellation := by
  unfold applyCancellation at h
  simp only [run_bind_eq_error, run_attempt_eq_error, run_rules, run_get_ne_error,
    run_ensure_eq_error, run_set_ne_error, run_pure_ne_error, okOr_eq_error, false_or, and_false,
    exists_false, or_false] at h
  obtain ⟨_, _, ⟨rfl, rfl⟩, h⟩ := h
  rcases h with ⟨hnot, -⟩ | ⟨-, _, ⟨-, rfl⟩, h⟩
  · exact absurd hnext hnot
  rcases h with ⟨hnot, -⟩ | ⟨-, _, ⟨-, rfl⟩, h⟩
  · exact absurd hfresh hnot
  rcases h with ⟨⟨-, rfl⟩, -⟩ | ⟨_, _, ⟨-, rfl⟩, h⟩
  · exact Or.inl rfl
  rcases h with ⟨-, rfl, -⟩ | ⟨-, _, ⟨-, rfl⟩, hremove, -⟩
  · exact Or.inr rfl
  · exact Or.inl (removeByCommitment_error hremove)

omit [Crypto] in
theorem expireOrders_error {released : Nat} {cs : List Digest32}
    (h : (expireOrders released cs).run book = .error e book') :
    e = .unknownOrder ∨ e = .invalid "expired quantity overflowed" := by
  induction cs generalizing book released with
  | nil => exact absurd h run_pure_ne_error
  | cons c rest ih =>
    unfold expireOrders at h
    simp only [run_bind_eq_error, run_attempt_eq_error, run_rules, run_get_ne_error,
      run_set_ne_error, okOr_eq_error, false_or] at h
    obtain ⟨_, _, ⟨rfl, rfl⟩, h⟩ := h
    rcases h with ⟨⟨-, rfl⟩, -⟩ | ⟨_, _, -, h⟩
    · exact Or.inl rfl
    rcases h with ⟨⟨-, rfl⟩, -⟩ | ⟨_, _, -, h⟩
    · exact Or.inr rfl
    rcases h with ⟨hremove, -⟩ | ⟨_, _, -, _, _, -, hrest⟩
    · exact Or.inl (removeByCommitment_error hremove)
    · exact ih hrest

theorem applyExpiry_numbered {cutoff : Nat} {command : Digest32} (hnext : seq = book.sequence + 1)
    (hfresh : command ∉ book.admitted)
    (h : (applyExpiry cutoff command seq).run book = .error e book') :
    e = .unknownOrder ∨ e = .invalid "expired quantity overflowed" ∨
      e = .invalid "expiry command is empty or non-canonical" := by
  rw [applyExpiry, run_get_bind, run_ensure_bind, if_pos hnext, run_ensure_bind, if_pos hfresh] at h
  simp only [run_bind_eq_error, run_ensure_eq_error, run_ensure_eq_ok, run_modify_ne_error,
    run_get_ne_error, run_pure_ne_error, and_false, exists_false, or_false] at h
  rcases h with ⟨-, rfl, -⟩ | ⟨_, _, -, hloop⟩
  · exact Or.inr (Or.inr rfl)
  · rcases expireOrders_error hloop with rfl | rfl
    · exact Or.inl rfl
    · exact Or.inr (Or.inl rfl)

end Numbered

end PrivateBook

end Oclob.Core
