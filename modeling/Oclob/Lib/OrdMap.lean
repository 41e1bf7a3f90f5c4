import Mathlib.Algebra.GroupWithZero.Nat
import Mathlib.Algebra.Order.BigOperators.Group.List
import Mathlib.Algebra.Order.Group.Nat
import Mathlib.Data.List.Sort

/-!
# Finite maps in key order

A map over a linearly ordered key type, held as the list of its entries in strictly increasing
key order: what iterating a B-tree map yields. The order is a field, so an unsorted map cannot be
built. Every update goes through `alter`, which rewrites the value of one key (`get?_alter`), and
two maps with the same values are equal (`ext_get?`).
-/

namespace Oclob.Lib

/-- A finite map: its entries, keys strictly increasing. -/
@[ext]
structure OrdMap (K V : Type) [LinearOrder K] where
  entries : List (K × V)
  sorted : (entries.map Prod.fst).Pairwise (· < ·)

namespace OrdMap

variable {K V : Type} [LinearOrder K]

instance [DecidableEq V] : DecidableEq (OrdMap K V) := fun a b =>
  decidable_of_iff (a.entries = b.entries) (OrdMap.ext_iff).symm

/-- The map without entries. -/
def empty : OrdMap K V := ⟨[], List.Pairwise.nil⟩

instance : Inhabited (OrdMap K V) := ⟨empty⟩

@[simp] theorem entries_empty : (empty : OrdMap K V).entries = [] := rfl

/-! ## Lists of entries -/

/-- The value of `k` in a list of entries. -/
def lookupEntry (k : K) : List (K × V) → Option V
  | [] => none
  | (k', v) :: rest => if k = k' then some v else lookupEntry k rest

/-- Rewrite the value of `k`, keeping the order: `f` maps the old value to the new one, with
`none` for no entry. -/
def alterEntry (k : K) (f : Option V → Option V) : List (K × V) → List (K × V)
  | [] => (f none).toList.map (k, ·)
  | (k', v) :: rest =>
    if k < k' then (f none).toList.map (k, ·) ++ (k', v) :: rest
    else if k = k' then (f (some v)).toList.map (k, ·) ++ rest
    else (k', v) :: alterEntry k f rest

variable {k q : K} {v : V} {l : List (K × V)} {f : Option V → Option V} {m : OrdMap K V}

theorem sorted_cons {rest : List (K × V)} :
    (((k, v) :: rest).map Prod.fst).Pairwise (· < ·) ↔
      (∀ e ∈ rest, k < e.1) ∧ (rest.map Prod.fst).Pairwise (· < ·) := by
  simp only [List.map_cons, List.pairwise_cons, List.mem_map, forall_exists_index, and_imp,
    forall_apply_eq_imp_iff₂]

theorem lookupEntry_eq_none (h : ∀ e ∈ l, e.1 ≠ k) :
    lookupEntry k l = none := by
  induction l with
  | nil => rfl
  | cons e rest ih =>
    obtain ⟨k', v⟩ := e
    have hne : k ≠ k' := fun heq => h (k', v) List.mem_cons_self heq.symm
    rw [lookupEntry, if_neg hne]
    exact ih fun e he => h e (List.mem_cons_of_mem _ he)

theorem mem_of_lookupEntry (h : lookupEntry k l = some v) :
    (k, v) ∈ l := by
  induction l with
  | nil => exact absurd h (by simp [lookupEntry])
  | cons e rest ih =>
    obtain ⟨k', v'⟩ := e
    rw [lookupEntry] at h
    split at h
    · rename_i heq
      obtain rfl := Option.some.inj h
      exact heq ▸ List.mem_cons_self
    · exact List.mem_cons_of_mem _ (ih h)

theorem lookupEntry_of_mem
    (hs : (l.map Prod.fst).Pairwise (· < ·)) (h : (k, v) ∈ l) : lookupEntry k l = some v := by
  induction l with
  | nil => exact absurd h List.not_mem_nil
  | cons e rest ih =>
    obtain ⟨k', v'⟩ := e
    obtain ⟨hlt, hrest⟩ := sorted_cons.mp hs
    rcases List.mem_cons.mp h with heq | hmem
    · obtain ⟨rfl, rfl⟩ := Prod.mk.inj heq
      rw [lookupEntry, if_pos rfl]
    · rw [lookupEntry, if_neg (ne_of_gt (hlt _ hmem))]
      exact ih hrest hmem

theorem mem_alterEntry {e : K × V}
    (h : e ∈ alterEntry k f l) : e.1 = k ∨ e ∈ l := by
  induction l with
  | nil =>
    obtain ⟨v, -, rfl⟩ := List.mem_map.mp h
    exact Or.inl rfl
  | cons x rest ih =>
    obtain ⟨k', v'⟩ := x
    rw [alterEntry] at h
    split at h
    · rcases List.mem_append.mp h with h | h
      · obtain ⟨v, -, rfl⟩ := List.mem_map.mp h
        exact Or.inl rfl
      · exact Or.inr h
    · split at h
      · rcases List.mem_append.mp h with h | h
        · obtain ⟨v, -, rfl⟩ := List.mem_map.mp h
          exact Or.inl rfl
        · exact Or.inr (List.mem_cons_of_mem _ h)
      · rcases List.mem_cons.mp h with rfl | h
        · exact Or.inr List.mem_cons_self
        · exact (ih h).imp_right (List.mem_cons_of_mem _)

/-- An optional entry of `k` in front of entries with larger keys. -/
theorem sorted_toList_append {o : Option V} (hlt : ∀ e ∈ l, k < e.1)
    (hl : (l.map Prod.fst).Pairwise (· < ·)) :
    ((o.toList.map (k, ·) ++ l).map Prod.fst).Pairwise (· < ·) := by
  cases o with
  | none => simpa using hl
  | some v => exact sorted_cons.mpr ⟨hlt, hl⟩

theorem sorted_alterEntry
    (hl : (l.map Prod.fst).Pairwise (· < ·)) :
    ((alterEntry k f l).map Prod.fst).Pairwise (· < ·) := by
  induction l with
  | nil =>
    rw [alterEntry]
    cases f none <;> simp
  | cons x rest ih =>
    obtain ⟨k', v'⟩ := x
    obtain ⟨hlt, hrest⟩ := sorted_cons.mp hl
    rw [alterEntry]
    split
    · rename_i hkk
      refine sorted_toList_append (fun e he => ?_) hl
      rcases List.mem_cons.mp he with rfl | he
      · exact hkk
      · exact lt_trans hkk (hlt e he)
    · split
      · rename_i heq
        exact sorted_toList_append (fun e he => heq ▸ hlt e he) hrest
      · rename_i hge hne
        have hgt : k' < k := lt_of_le_of_ne (not_lt.mp hge) (Ne.symm hne)
        refine sorted_cons.mpr ⟨fun e he => ?_, ih hrest⟩
        rcases mem_alterEntry he with heq | he
        · exact heq ▸ hgt
        · exact hlt e he

theorem lookupEntry_toList_append {o : Option V}
    (hlt : ∀ e ∈ l, k < e.1) :
    lookupEntry q (o.toList.map (k, ·) ++ l) = if q = k then o else lookupEntry q l := by
  cases o with
  | none =>
    by_cases hq : q = k
    · subst hq
      simpa using lookupEntry_eq_none fun e he => ne_of_gt (hlt e he)
    · simp [hq]
  | some v => rfl

theorem lookupEntry_alterEntry
    (hl : (l.map Prod.fst).Pairwise (· < ·)) :
    lookupEntry q (alterEntry k f l) =
      if q = k then f (lookupEntry k l) else lookupEntry q l := by
  induction l with
  | nil =>
    have h := lookupEntry_toList_append (q := q) (k := k) (o := f none) (l := []) (by simp)
    rwa [List.append_nil] at h
  | cons x rest ih =>
    obtain ⟨k', v'⟩ := x
    obtain ⟨hlt, hrest⟩ := sorted_cons.mp hl
    rw [alterEntry]
    split
    · rename_i hkk
      have hall : ∀ e ∈ (k', v') :: rest, k < e.1 := fun e he => by
        rcases List.mem_cons.mp he with rfl | he
        · exact hkk
        · exact lt_trans hkk (hlt e he)
      rw [lookupEntry_toList_append hall, lookupEntry_eq_none fun e he => ne_of_gt (hall e he)]
    · split
      · rename_i heq
        subst heq
        rw [lookupEntry_toList_append hlt, lookupEntry, lookupEntry, if_pos rfl]
        split <;> rfl
      · rename_i hge hne
        rw [lookupEntry, ih hrest, lookupEntry, lookupEntry, if_neg hne]
        by_cases hq : q = k'
        · subst hq
          rw [if_pos rfl, if_neg (Ne.symm hne), if_pos rfl]
        · rw [if_neg hq, if_neg hq]

/-! ## Maps -/

/-- The value of `k`. -/
def get? (m : OrdMap K V) (k : K) : Option V := lookupEntry k m.entries

/-- Rewrite the value of `k`: `f` maps the old value to the new one. -/
def alter (m : OrdMap K V) (k : K) (f : Option V → Option V) : OrdMap K V :=
  ⟨alterEntry k f m.entries, sorted_alterEntry m.sorted⟩

/-- Set the value of `k`. -/
def insert (m : OrdMap K V) (k : K) (v : V) : OrdMap K V := m.alter k fun _ => some v

/-- Drop the entry of `k`. -/
def erase (m : OrdMap K V) (k : K) : OrdMap K V := m.alter k fun _ => none

/-- Keep the entries that satisfy `p`. -/
def retain (m : OrdMap K V) (p : K → V → Bool) : OrdMap K V :=
  ⟨m.entries.filter fun e => p e.1 e.2, m.sorted.sublist (List.filter_sublist.map _)⟩

/-- Rewrite every value. -/
def mapValues (m : OrdMap K V) (f : V → V) : OrdMap K V :=
  ⟨m.entries.map fun e => (e.1, f e.2), by
    rw [List.map_map]
    exact m.sorted⟩

/-- Does `k` have an entry. -/
def contains (m : OrdMap K V) (k : K) : Bool := (m.get? k).isSome

/-- The keys, increasing. -/
def keys (m : OrdMap K V) : List K := m.entries.map Prod.fst

/-- The values, in key order. -/
def values (m : OrdMap K V) : List V := m.entries.map Prod.snd

@[simp] theorem get?_empty (k : K) : (empty : OrdMap K V).get? k = none := rfl

theorem mem_entries_iff :
    (k, v) ∈ m.entries ↔ m.get? k = some v :=
  ⟨lookupEntry_of_mem m.sorted, mem_of_lookupEntry⟩

theorem mem_values : v ∈ m.values ↔ ∃ k, m.get? k = some v := by
  constructor
  · intro h
    obtain ⟨⟨k, v'⟩, hm, rfl⟩ := List.mem_map.mp h
    exact ⟨k, mem_entries_iff.mp hm⟩
  · rintro ⟨k, h⟩
    exact List.mem_map.mpr ⟨_, mem_entries_iff.mpr h, rfl⟩

theorem mem_keys : k ∈ m.keys ↔ ∃ v, m.get? k = some v := by
  constructor
  · intro h
    obtain ⟨⟨k', v⟩, hm, rfl⟩ := List.mem_map.mp h
    exact ⟨v, mem_entries_iff.mp hm⟩
  · rintro ⟨v, h⟩
    exact List.mem_map.mpr ⟨_, mem_entries_iff.mpr h, rfl⟩

@[simp] theorem contains_eq_true :
    m.contains k = true ↔ ∃ v, m.get? k = some v := Option.isSome_iff_exists

/-- **Reading after a rewrite.** -/
theorem get?_alter (m : OrdMap K V) (k q : K) (f : Option V → Option V) :
    (m.alter k f).get? q = if q = k then f (m.get? k) else m.get? q :=
  lookupEntry_alterEntry m.sorted

@[simp] theorem get?_insert (m : OrdMap K V) (k q : K) (v : V) :
    (m.insert k v).get? q = if q = k then some v else m.get? q := get?_alter m k q _

theorem get?_insert_self : (m.insert k v).get? k = some v := by
  simp

theorem get?_insert_of_ne (h : q ≠ k) : (m.insert k v).get? q = m.get? q := by
  simp [h]

/-- What is found after an insertion was inserted or was there. -/
theorem get?_insert_eq_some {w : V} (h : (m.insert k v).get? q = some w) :
    q = k ∧ v = w ∨ q ≠ k ∧ m.get? q = some w := by
  rw [get?_insert] at h
  split at h
  · exact .inl ⟨‹_›, Option.some.inj h⟩
  · exact .inr ⟨‹_›, h⟩

theorem contains_insert (h : m.contains q = true) : (m.insert k v).contains q = true := by
  rw [contains_eq_true] at h ⊢
  rw [get?_insert]
  split
  · exact ⟨v, rfl⟩
  · exact h

/-- A key that is there is none that is not. -/
theorem ne_of_get? (h : m.get? q = some v) (hnone : m.get? k = none) : q ≠ k := by
  rintro rfl
  exact nomatch hnone.symm.trans h

@[simp] theorem get?_erase (m : OrdMap K V) (k q : K) :
    (m.erase k).get? q = if q = k then none else m.get? q := get?_alter m k q _

theorem get?_erase_eq_some (h : (m.erase k).get? q = some v) : q ≠ k ∧ m.get? q = some v := by
  rw [get?_erase] at h
  split at h
  · exact nomatch h
  · exact ⟨‹_›, h⟩

@[simp] theorem get?_retain (m : OrdMap K V) (p : K → V → Bool) (q : K) :
    (m.retain p).get? q = (m.get? q).filter (p q) := by
  rcases h : (m.retain p).get? q with _ | v
  · rcases hm : m.get? q with _ | v
    · rfl
    · by_cases hp : p q v = true
      · have hmem : (q, v) ∈ (m.retain p).entries :=
          List.mem_filter.mpr ⟨mem_entries_iff.mpr hm, hp⟩
        rw [mem_entries_iff.mp hmem] at h
        exact absurd h (by simp)
      · simp [Option.filter, hp]
  · obtain ⟨hmem, hp⟩ := List.mem_filter.mp (mem_entries_iff.mpr h)
    rw [mem_entries_iff.mp hmem]
    simp only [Option.filter, hp, if_true]

/-- A map with at most one key has at most one entry. -/
theorem length_entries_le_one (h : ∀ e ∈ m.entries, e.1 = k) :
    m.entries.length ≤ 1 := by
  obtain ⟨entries, hsorted⟩ := m
  match entries, hsorted, h with
  | [], _, _ => exact Nat.zero_le _
  | [_], _, _ => exact le_rfl
  | (k₁, _) :: (k₂, _) :: _, hsorted, h =>
    have hlt : k₁ < k₂ := (sorted_cons.mp hsorted).1 _ List.mem_cons_self
    have h₁ : k₁ = k := h _ List.mem_cons_self
    have h₂ : k₂ = k := h _ (List.mem_cons_of_mem _ List.mem_cons_self)
    exact absurd hlt (by rw [h₁, h₂]; exact lt_irrefl k)

/-- **Maps with the same values are equal.** -/
theorem ext_get? {a b : OrdMap K V} (h : ∀ k, a.get? k = b.get? k) : a = b := by
  have hmem : ∀ e, e ∈ a.entries ↔ e ∈ b.entries := fun ⟨k, v⟩ => by
    rw [mem_entries_iff, mem_entries_iff, h k]
  have hnodup : ∀ m : OrdMap K V, m.entries.Nodup := fun m =>
    List.Nodup.of_map Prod.fst (m.sorted.imp fun hlt => ne_of_lt hlt)
  have hperm : a.entries.Perm b.entries :=
    (List.perm_ext_iff_of_nodup (hnodup a) (hnodup b)).mpr hmem
  have hsorted : ∀ m : OrdMap K V, m.entries.Pairwise (fun x y => x.1 < y.1) := fun m =>
    List.pairwise_map.mp m.sorted
  refine OrdMap.ext (hperm.eq_of_pairwise (fun x y _ _ hxy hyx => ?_) (hsorted a) (hsorted b))
  exact absurd hxy (lt_asymm hyx)

/-! ## Totals -/

/-- What the values weigh together. -/
def total (weight : V → Nat) (m : OrdMap K V) : Nat := (m.values.map weight).sum

theorem sum_alterEntry {weight : V → Nat}
    (hs : (l.map Prod.fst).Pairwise (· < ·)) :
    ((alterEntry k f l).map fun e => weight e.2).sum + ((lookupEntry k l).map weight).getD 0 =
      (l.map fun e => weight e.2).sum + ((f (lookupEntry k l)).map weight).getD 0 := by
  have hone : ∀ o : Option V, ((o.toList.map (k, ·)).map fun e => weight e.2).sum =
      (o.map weight).getD 0 := by
    intro o
    cases o <;> simp
  induction l with
  | nil =>
    rw [alterEntry, lookupEntry, hone, Nat.add_comm]
    rfl
  | cons e rest ih =>
    obtain ⟨k', v⟩ := e
    obtain ⟨hlt, hrest⟩ := sorted_cons.mp hs
    rw [alterEntry]
    split
    · rename_i hk
      have hnone : lookupEntry k ((k', v) :: rest) = none := by
        refine lookupEntry_eq_none fun e he => ?_
        rcases List.mem_cons.mp he with rfl | he
        · exact ne_of_gt hk
        · exact ne_of_gt (hk.trans (hlt e he))
      rw [hnone, List.map_append, List.sum_append, hone]
      simp only [Option.map_none, Option.getD_none]
      omega
    · split
      · rename_i hk
        rw [lookupEntry, if_pos hk, List.map_append, List.sum_append, hone]
        simp only [List.map_cons, List.sum_cons, Option.map_some, Option.getD_some]
        omega
      · rename_i hk
        rw [lookupEntry, if_neg hk]
        simp only [List.map_cons, List.sum_cons]
        have htail := ih hrest
        omega

/-- **A rewrite trades the old weight for the new one.** -/
theorem total_alter (weight : V → Nat) (m : OrdMap K V) (k : K) (f : Option V → Option V) :
    (m.alter k f).total weight + ((m.get? k).map weight).getD 0 =
      m.total weight + ((f (m.get? k)).map weight).getD 0 := by
  simp only [total, values, List.map_map]
  exact sum_alterEntry m.sorted

theorem total_insert (weight : V → Nat) (m : OrdMap K V) (k : K) (v : V) :
    (m.insert k v).total weight + ((m.get? k).map weight).getD 0 = m.total weight + weight v :=
  total_alter weight m k fun _ => some v

theorem total_eq_zero {weight : V → Nat}
    (h : ∀ k v, m.get? k = some v → weight v = 0) : m.total weight = 0 := by
  refine List.sum_eq_zero fun n hn => ?_
  obtain ⟨v, hv, rfl⟩ := List.mem_map.mp hn
  obtain ⟨k, hk⟩ := mem_values.mp hv
  exact h k v hk

end OrdMap

end Oclob.Lib
