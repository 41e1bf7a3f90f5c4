import Mathlib.Data.List.Nodup
import Mathlib.Order.Basic

/-!
# Journals with one record for each key

A journal keeps records in the order of their insertion. The first record of a key stays: `insert`
of a key that is there does nothing, and nothing is removed. Journals are ordered by extension
(`≤`), and what was read from a journal is read from every extension (`get?_mono`).

The order of insertion is fixed as soon as a key is there: a later key comes after it, so the keys
before it are the same in every extension (`before_iff_of_le`).
-/

namespace Oclob.Lib

/-- Records in the order of their insertion, one for each key. -/
structure WriteOnce (K V : Type) where
  entries : List (K × V)
  distinct : (entries.map Prod.fst).Nodup

namespace WriteOnce

variable {K V : Type}

/-- The keys, oldest first. -/
def keys (m : WriteOnce K V) : List K := m.entries.map Prod.fst

/-- The journal with no record. -/
def empty : WriteOnce K V := ⟨[], List.nodup_nil⟩

/-- A journal is extended by records after its own. -/
instance : Preorder (WriteOnce K V) where
  le m m' := m.entries <+: m'.entries
  le_refl m := List.prefix_refl m.entries
  le_trans _ _ _ h h' := List.IsPrefix.trans h h'

variable {m m' : WriteOnce K V} {k k' : K}

theorem keys_mono (h : m ≤ m') : m.keys <+: m'.keys := h.map Prod.fst

/-- `k` was inserted before `k'`. -/
def Before (m : WriteOnce K V) (k k' : K) : Prop :=
  ∃ older newer, m.keys = older ++ k' :: newer ∧ k ∈ older

/-- A key is at one place. -/
theorem mem_older {older newer : List K} (h : m.Before k k')
    (hkeys : m.keys = older ++ k' :: newer) : k ∈ older := by
  obtain ⟨older', newer', hkeys', hmem⟩ := h
  have hsplit : older' ++ k' :: newer' = older ++ k' :: newer := hkeys'.symm.trans hkeys
  have hnodup : (older' ++ k' :: newer').Nodup := hkeys' ▸ m.distinct
  rw [List.nodup_middle, List.nodup_cons, List.mem_append, not_or] at hnodup
  obtain ⟨rfl, -⟩ := (List.append_cons_inj_of_notMem hnodup.1.1 hnodup.1.2).mp hsplit
  exact hmem

/-- What comes before a key that is there does not change. -/
theorem before_iff_of_le (hle : m ≤ m') (hmem : k' ∈ m.keys) :
    m'.Before k k' ↔ m.Before k k' := by
  obtain ⟨older, newer, hkeys⟩ := List.append_of_mem hmem
  obtain ⟨more, hmore⟩ := keys_mono hle
  have hkeys' : m'.keys = older ++ k' :: (newer ++ more) := by
    rw [← hmore, hkeys, List.append_assoc, List.cons_append]
  exact ⟨fun h => ⟨older, newer, hkeys, mem_older h hkeys'⟩,
    fun h => ⟨older, newer ++ more, hkeys', mem_older h hkeys⟩⟩

variable [DecidableEq K]

/-- The record of a key. -/
def get? (m : WriteOnce K V) (k : K) : Option V :=
  (m.entries.find? fun entry => entry.1 = k).map Prod.snd

@[simp] theorem get?_empty (k : K) : (empty : WriteOnce K V).get? k = none := rfl

theorem get?_eq_some {v : V} :
    m.get? k = some v ↔ (k, v) ∈ m.entries := by
  rw [get?, Option.map_eq_some_iff]
  constructor
  · rintro ⟨entry, hfind, rfl⟩
    have hkey : entry.1 = k := by simpa using List.find?_some hfind
    exact hkey ▸ List.mem_of_find?_eq_some hfind
  · intro hmem
    cases hfind : m.entries.find? fun entry => entry.1 = k with
    | none => exact absurd (List.find?_eq_none.mp hfind _ hmem) (by simp)
    | some entry =>
      have hkey : entry.1 = k := by simpa using List.find?_some hfind
      have hsame := List.inj_on_of_nodup_map m.distinct (List.mem_of_find?_eq_some hfind) hmem hkey
      exact ⟨entry, rfl, congrArg Prod.snd hsame⟩

theorem get?_eq_none : m.get? k = none ↔ k ∉ m.keys := by
  rw [Option.eq_none_iff_forall_ne_some, keys, List.mem_map, not_exists]
  constructor
  · rintro h ⟨key, v⟩ ⟨hmem, rfl⟩
    exact h v (get?_eq_some.mpr hmem)
  · intro h v hv
    exact h (k, v) ⟨get?_eq_some.mp hv, rfl⟩

theorem mem_keys : k ∈ m.keys ↔ ∃ v, m.get? k = some v := by
  rw [← not_iff_not, ← get?_eq_none, Option.eq_none_iff_forall_ne_some, not_exists]

/-- What was read stays. -/
theorem get?_mono (hle : m ≤ m') {v : V}
    (h : m.get? k = some v) : m'.get? k = some v :=
  get?_eq_some.mpr (List.IsPrefix.subset hle (get?_eq_some.mp h))

/-- The first record of a key stays. -/
def insert (m : WriteOnce K V) (k : K) (v : V) : WriteOnce K V :=
  if h : k ∈ m.keys then m
  else ⟨m.entries ++ [(k, v)], by
    rw [List.map_append, List.nodup_append]
    refine ⟨m.distinct, List.nodup_singleton k, fun a ha b hb hab => h ?_⟩
    obtain rfl : a = k := hab.trans (List.mem_singleton.mp hb)
    exact ha⟩

theorem insert_of_mem (v : V) (h : k ∈ m.keys) : m.insert k v = m :=
  dif_pos h

theorem keys_insert (v : V) (h : k ∉ m.keys) :
    (m.insert k v).keys = m.keys ++ [k] := by
  rw [insert, dif_neg h]
  exact List.map_append

theorem le_insert (m : WriteOnce K V) (k : K) (v : V) : m ≤ m.insert k v := by
  rw [insert]
  split
  · exact le_rfl
  · exact List.prefix_append m.entries [(k, v)]

theorem get?_insert_of_ne (v : V) (h : k' ≠ k) :
    (m.insert k v).get? k' = m.get? k' := by
  rw [insert]
  split
  · rfl
  · rw [get?, get?, List.find?_append]
    cases m.entries.find? fun entry => entry.1 = k' with
    | some entry => rfl
    | none => simp [h.symm]

theorem get?_insert_self (v : V) (h : m.get? k = none) :
    (m.insert k v).get? k = some v := by
  rw [get?_eq_none] at h
  rw [insert, dif_neg h, get?_eq_some]
  exact List.mem_append_right _ List.mem_cons_self

end WriteOnce

/-- A type of record of a journal that keeps records of several: how it is written and how it is
read back. -/
structure Kind (R α : Type) where
  inject : α → R
  project : R → Option α
  project_eq : ∀ {r a}, project r = some a ↔ r = inject a := by intro r a; cases r <;> simp

/-- Every record is read back. -/
def Kind.any {R : Type} : Kind R R where
  inject := id
  project := some
  project_eq {r a} := by simp

end Oclob.Lib
