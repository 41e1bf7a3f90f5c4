import Oclob.Settlement.Batches

/-!
# Open positions

What a book of resting orders and a book of reservations both keep: for each order commitment the
position that is still open, or none. `Positions` has three operations, to open a position, to take
quantities off the positions, and to close some of them.

`PrivateBook` and `ReservationBook` are two implementations. `bookPositions` and
`reservedPositions` read the open positions off each, and the lemmas here say which operation on
positions each operation of the two crates carries out.
-/

namespace Oclob.Service

open Oclob.Core Oclob.Lib Oclob.Settlement PrivateBook ReservationBook

/-- An open position. -/
structure Position where
  kind : ReservationKind
  limitPrice : Nat
  expiresAt : Nat
  remaining : Nat
deriving DecidableEq

/-- The open positions, by order commitment. -/
def Positions := Digest32 → Option Position

/-- A position after `q` has been taken off; it is closed when nothing is left. -/
def Position.less (p : Position) (q : Nat) : Option Position :=
  if p.remaining - q = 0 then none else some { p with remaining := p.remaining - q }

namespace Positions

/-- Take the given quantity off each position. -/
def take (m : Positions) (amount : Digest32 → Nat) : Positions :=
  fun c => (m c).bind fun p => p.less (amount c)

def close (m : Positions) (cs : List Digest32) : Positions :=
  fun c => if c ∈ cs then none else m c

/-- Give `c` the position `p`, or none. -/
def set (m : Positions) (c : Digest32) (p : Option Position) : Positions :=
  fun c' => if c' = c then p else m c'

/-- Every open position has something left. -/
def Live (m : Positions) : Prop := ∀ c p, m c = some p → 0 < p.remaining

variable {m : Positions}

theorem Live.take_zero (h : m.Live) {amount : Digest32 → Nat} (hz : ∀ c, amount c = 0) :
    m.take amount = m := by
  funext c
  unfold take
  cases hc : m c with
  | none => rfl
  | some p =>
    have hpos := h c p hc
    rw [Option.bind_some, Position.less, hz c, Nat.sub_zero, if_neg hpos.ne']

theorem set_congr {m' : Positions} {c : Digest32} (h : ∀ c' ≠ c, m c' = m' c')
    (p : Option Position) : m.set c p = m'.set c p := by
  funext c'
  unfold set
  split
  · rfl
  · rename_i hc
    exact h c' hc

theorem set_none {c : Digest32} (h : m c = none) : m.set c none = m := by
  funext c'
  unfold set
  split
  · rename_i hc
    rw [hc, h]
  · rfl

/-- What was set before does not matter to what is set afterwards. -/
theorem set_take_set {amount amount' : Digest32 → Nat} {c : Digest32}
    (h : ∀ c' ≠ c, amount c' = amount' c') (p q : Option Position) :
    ((m.set c p).take amount).set c q = (m.take amount').set c q := by
  refine set_congr (fun c' hc => ?_) q
  unfold take set
  rw [if_neg hc, h c' hc]

@[simp] theorem close_nil : m.close [] = m := by
  funext c
  simp [close]

theorem close_singleton (c : Digest32) : m.close [c] = m.set c none := by
  funext c'
  simp [close, set]

theorem close_close (cs ds : List Digest32) : (m.close cs).close ds = m.close (cs ++ ds) := by
  funext c
  by_cases hd : c ∈ ds <;> simp [close, hd]

end Positions

/-! ## The book of resting orders -/

section

variable {book : PrivateBook} {c : Digest32} {p : Position}

def positionOf (o : RestingOrder) : Position :=
  ⟨kindOf o.secret.side, o.secret.limitPrice, o.secret.expiresAt, o.remaining⟩

def bookPositions (book : PrivateBook) : Positions :=
  fun c => (findRecord book.bids book.asks c).map positionOf

theorem bookPositions_eq_some (ht : book.Tidy) :
    bookPositions book c = some p ↔ ∃ o ∈ book.orders, o.commitment = c ∧ positionOf o = p := by
  unfold bookPositions
  rw [Option.map_eq_some_iff]
  constructor
  · rintro ⟨o, hfind, heq⟩
    obtain ⟨ho, hc⟩ := findRecord_eq_some hfind
    exact ⟨o, ho, hc, heq⟩
  · rintro ⟨o, ho, rfl, heq⟩
    exact ⟨o, ht.findRecord ho, heq⟩

theorem live_bookPositions [Crypto] (h : book.Inv) : (bookPositions book).Live := by
  intro c p hp
  obtain ⟨o, ho, -, rfl⟩ := (bookPositions_eq_some h.tidy).mp hp
  exact h.pos ho

@[simp] theorem bookPositions_advance (command : Digest32) (seq : Nat) :
    bookPositions (book.advance command seq) = bookPositions book := rfl

/-- Reducing the resting orders takes the amounts off their positions. -/
theorem bookPositions_reduceBy (ht : book.Tidy) (amount : Digest32 → Nat) :
    bookPositions (book.editOrders (reduceBy amount)) = (bookPositions book).take amount := by
  have ht' : (book.editOrders (reduceBy amount)).Tidy :=
    ht.editOrders fun o _ o' h => setRemaining_commitment h
  have hless : ∀ o, (reduceBy amount o).map positionOf =
      (positionOf o).less (amount o.commitment) := fun o => by
    unfold reduceBy setRemaining Position.less positionOf
    split <;> rfl
  funext c
  refine Option.ext fun p => ?_
  rw [bookPositions_eq_some ht', Positions.take, Option.bind_eq_some_iff, orders_editOrders]
  constructor
  · rintro ⟨o', ho', rfl, rfl⟩
    obtain ⟨o, ho, hr⟩ := List.mem_filterMap.mp ho'
    have hcommit := setRemaining_commitment hr
    refine ⟨positionOf o, (bookPositions_eq_some ht).mpr ⟨o, ho, hcommit.symm, rfl⟩, ?_⟩
    rw [hcommit, ← hless, hr]
    rfl
  · rintro ⟨q, hq, hp⟩
    obtain ⟨o, ho, rfl, rfl⟩ := (bookPositions_eq_some ht).mp hq
    rw [← hless] at hp
    obtain ⟨o', hr, rfl⟩ := Option.map_eq_some_iff.mp hp
    exact ⟨o', List.mem_filterMap.mpr ⟨o, ho, hr⟩, setRemaining_commitment hr, rfl⟩

theorem bookPositions_dropOrders (ht : book.Tidy) (cs : List Digest32) :
    bookPositions (book.editOrders (dropOrders cs)) = (bookPositions book).close cs := by
  have ht' := ht.editOrders (keepsCommitment_dropOrders cs book.orders)
  funext c
  refine Option.ext fun p => ?_
  rw [bookPositions_eq_some ht', Positions.close]
  simp only [mem_orders_dropOrders]
  split
  · rename_i hc
    constructor
    · rintro ⟨o, ⟨-, hnot⟩, rfl, -⟩
      exact absurd hc hnot
    · intro h
      exact absurd h (by simp)
  · rename_i hc
    rw [bookPositions_eq_some ht]
    constructor
    · rintro ⟨o, ⟨ho, -⟩, hrest⟩
      exact ⟨o, ho, hrest⟩
    · rintro ⟨o, ho, rfl, hp⟩
      exact ⟨o, ⟨ho, hc⟩, rfl, hp⟩

theorem bookPositions_insertRecord {record : RestingOrder} (ht : book.Tidy)
    (ht' : (book.insertRecord record).Tidy)
    (hfresh : record.commitment ∉ book.orders.map RestingOrder.commitment) :
    bookPositions (book.insertRecord record) =
      (bookPositions book).set record.commitment (some (positionOf record)) := by
  funext c
  refine Option.ext fun p => ?_
  rw [bookPositions_eq_some ht', Positions.set]
  simp only [mem_orders_insertRecord]
  split
  · rename_i hc
    constructor
    · rintro ⟨o, rfl | ho, hoc, rfl⟩
      · rfl
      · exact absurd (List.mem_map.mpr ⟨o, ho, hoc.trans hc⟩) hfresh
    · intro hp
      exact ⟨record, Or.inl rfl, hc.symm, Option.some.inj hp⟩
  · rename_i hc
    rw [bookPositions_eq_some ht]
    constructor
    · rintro ⟨o, rfl | ho, hoc, hp⟩
      · exact absurd hoc.symm hc
      · exact ⟨o, ho, hoc, hp⟩
    · rintro ⟨o, ho, hrest⟩
      exact ⟨o, Or.inr ho, hrest⟩

end

/-! ## The book of reservations -/

/-- The position an active record holds open. -/
def openPosition (r : ReservationRecord) : Option Position :=
  if r.status = .active then some ⟨r.kind, r.limitPrice, r.expiresAt, r.remainingQuantity⟩
  else none

def reservedPositions (reservations : ReservationBook) : Positions :=
  fun c => (reservations.recordFor c).bind openPosition

/-- A record that is no longer active holds nothing. -/
def Settled (r : ReservationRecord) : Prop :=
  r.status ≠ .active → r.remaining = 0 ∧ r.remainingQuantity = 0

/-- No terminal record holds anything. -/
def AllSettled (reservations : ReservationBook) : Prop :=
  ∀ c r, reservations.recordFor c = some r → Settled r

section

variable {before after : ReservationBook} {u : Unit}

theorem reservedPositions_congr (h : after.recordFor = before.recordFor) :
    reservedPositions after = reservedPositions before := by
  unfold reservedPositions
  rw [h]

theorem AllSettled.congr (hs : AllSettled before) (h : after.recordFor = before.recordFor) :
    AllSettled after := by
  unfold AllSettled
  rw [h]
  exact hs

/-- Writing one record. -/
theorem reservedPositions_write {commitment : Digest32} {record : ReservationRecord}
    (h : ∀ c, after.recordFor c = if c = commitment then some record else before.recordFor c) :
    reservedPositions after =
      (reservedPositions before).set commitment (openPosition record) := by
  funext c
  unfold reservedPositions Positions.set
  rw [h c]
  split <;> rfl

theorem AllSettled.write (hs : AllSettled before) {commitment : Digest32}
    {record : ReservationRecord} (hr : Settled record)
    (h : ∀ c, after.recordFor c = if c = commitment then some record else before.recordFor c) :
    AllSettled after := by
  intro c r hrec
  rw [h c] at hrec
  split at hrec
  · obtain rfl := Option.some.inj hrec
    exact hr
  · exact hs c r hrec

theorem reservedPositions_releaseAll {cs : List Digest32}
    (h : (SettlementEngine.releaseAll cs).run before = .ok u after) (hs : AllSettled before) :
    reservedPositions after = (reservedPositions before).close cs ∧ AllSettled after := by
  induction cs generalizing before with
  | nil =>
    obtain ⟨-, rfl⟩ := run_pure_eq_ok.mp h
    exact ⟨Positions.close_nil.symm, hs⟩
  | cons c cs ih =>
    simp only [SettlementEngine.releaseAll, run_bind_eq_ok] at h
    obtain ⟨⟨⟩, mid, hone, hrest⟩ := h
    obtain ⟨record, hrecord, -, hwrite⟩ := releaseOrder_ok hone
    have hmid := hs.write (fun _ => ⟨rfl, rfl⟩) hwrite
    obtain ⟨hpos, hall⟩ := ih hrest hmid
    refine ⟨?_, hall⟩
    have hopen : openPosition { record with
        remaining := 0, remainingQuantity := 0, status := .released } = none := rfl
    rw [hpos, reservedPositions_write hwrite, hopen, ← Positions.close_singleton,
      Positions.close_close]
    rfl

/-- What a fill leaves open. -/
theorem openPosition_of_consumes {q : Nat} {r r' : ReservationRecord} (h : Consumes q r r')
    (hlive : ∀ p, openPosition r = some p → 0 < p.remaining) :
    openPosition r' = (openPosition r).bind fun p => p.less q := by
  rcases h with ⟨rfl, rfl⟩ | ⟨-, hactive, -, hupd, hleft, hstatus, -⟩
  · cases hr : openPosition r' with
    | none => rfl
    | some p =>
      have hpos := hlive p hr
      rw [Option.bind_some, Position.less, Nat.sub_zero, if_neg hpos.ne']
  · have hfields : r'.kind = r.kind ∧ r'.limitPrice = r.limitPrice ∧
        r'.expiresAt = r.expiresAt := by
      rw [hupd]
      exact ⟨rfl, rfl, rfl⟩
    obtain ⟨hkind, hprice, hexp⟩ := hfields
    unfold openPosition Position.less
    rw [hstatus, hactive, if_pos rfl, Option.bind_some, hkind, hprice, hexp, hleft]
    split <;> simp_all

theorem settled_of_consumes {q : Nat} {r r' : ReservationRecord} (h : Consumes q r r')
    (hs : Settled r) : Settled r' := by
  rcases h with ⟨-, rfl⟩ | ⟨-, -, -, -, -, hstatus, hzero⟩
  · exact hs
  · intro hnot
    rw [hstatus] at hnot
    split at hnot
    · rename_i hz
      exact ⟨hzero hz, hz⟩
    · exact absurd rfl hnot

/-- **A run of fills** takes what they add up to off the reserved positions. -/
theorem reservedPositions_consumeFills {marketId : String} {now : Nat} {fills : List PublicFill}
    (hpos : ∀ fill ∈ fills, 0 < fill.quantity)
    (h : (consumeFills marketId now fills).run before = .ok u after)
    (hlive : (reservedPositions before).Live) (hs : AllSettled before) :
    reservedPositions after = (reservedPositions before).take (takenBy fills) ∧
      AllSettled after := by
  have hrel : ∀ c, Option.Rel (Consumes (takenBy fills c)) (before.recordFor c)
      (after.recordFor c) := consumeFills_takes hpos h
  constructor
  · funext c
    have hlive := hlive c
    have hc := hrel c
    unfold Positions.take reservedPositions at *
    revert hlive
    generalize before.recordFor c = b at hc ⊢
    generalize after.recordFor c = a at hc ⊢
    intro hlive
    cases hc with
    | none => rfl
    | some hr => exact openPosition_of_consumes hr hlive
  · intro c r' ha
    have hc := hrel c
    rw [ha] at hc
    generalize hb : before.recordFor c = b at hc
    cases hc with
    | some hr => exact settled_of_consumes hr (hs c _ hb)

end

end Oclob.Service
