import Oclob.Lib.OrdMap
import Mathlib.Data.List.Pairwise
import Mathlib.Data.List.Perm.Basic

/-!
# Maps of first-in first-out queues

A map from keys to queues, read as one list of items: keys increasing (`items`) or decreasing
(`itemsDesc`), front to back inside a queue. Two kinds of update:

* `pushBack` appends one item to the queue of a key;
* `editItems f` applies `f` to every item, drops those it maps to `none` and drops the queues
  that become empty.

An editor that scans for the first item with a given identity (`editFirst`) is `editItems` of a
function that fixes every other item, as long as identities are not repeated and no queue is
empty (`editFirst_eq`). So a sequence of such edits is one `editItems` (`editItems_editItems`).
-/

namespace Oclob.Lib

namespace OrdMap

variable {K V C : Type} [LinearOrder K]

/-- The items, keys increasing, front to back. -/
def items (m : OrdMap K (List V)) : List V := m.entries.flatMap Prod.snd

@[simp] theorem items_empty : (empty : OrdMap K (List V)).items = [] := rfl

/-- The items, keys decreasing, front to back. -/
def itemsDesc (m : OrdMap K (List V)) : List V := m.entries.reverse.flatMap Prod.snd

/-- No key holds an empty queue. -/
def NoEmpty (m : OrdMap K (List V)) : Prop := ∀ e ∈ m.entries, e.2 ≠ []

variable {m : OrdMap K (List V)} {x : V} {k : K} {l : List (K × List V)} {e : K × List V}
  {f : V → Option V}

theorem mem_items :
    x ∈ m.items ↔ ∃ e ∈ m.entries, x ∈ e.2 := List.mem_flatMap

theorem itemsDesc_perm (m : OrdMap K (List V)) : m.itemsDesc.Perm m.items :=
  (List.reverse_perm m.entries).flatMap_right _

theorem mem_itemsDesc : x ∈ m.itemsDesc ↔ x ∈ m.items :=
  (itemsDesc_perm m).mem_iff

/-- Items with different identities: a queue shares none with another queue. -/
theorem notMem_other_queue {key : V → C} (hnd : (m.items.map key).Nodup)
    {k' : K} {q q' : List V} (hq : m.get? k = some q) (hq' : m.get? k' = some q')
    (hne : k ≠ k') (hx : x ∈ q) : key x ∉ q'.map key := by
  unfold items at hnd
  rw [List.map_flatMap, List.nodup_flatMap] at hnd
  have hsymm : Std.Symm (Function.onFun List.Disjoint fun e : K × List V => e.2.map key) :=
    ⟨fun _ _ h _ ha hb => h hb ha⟩
  have hdisj := hnd.2.forall (mem_entries_iff.mpr hq) (mem_entries_iff.mpr hq')
    fun h => hne (Prod.mk.inj h).1
  exact hdisj (List.mem_map.mpr ⟨x, hx, rfl⟩)

theorem nodup_queue {key : V → C} (hnd : (m.items.map key).Nodup)
    {q : List V} (hq : m.get? k = some q) : (q.map key).Nodup := by
  unfold items at hnd
  rw [List.map_flatMap, List.nodup_flatMap] at hnd
  exact hnd.1 _ (mem_entries_iff.mpr hq)

/-! ## Appending one item -/

/-- Append `x` to the queue of `k`, creating it if needed. -/
def pushBack (m : OrdMap K (List V)) (k : K) (x : V) : OrdMap K (List V) :=
  m.alter k fun q => some (q.getD [] ++ [x])

theorem flatMap_alterEntry_push :
    ((alterEntry k (fun q => some (q.getD [] ++ [x])) l).flatMap Prod.snd).Perm
      (x :: l.flatMap Prod.snd) := by
  induction l with
  | nil => simp [alterEntry]
  | cons e rest ih =>
    obtain ⟨k', q⟩ := e
    rw [alterEntry]
    split
    · simp
    · split
      · simp
      · simpa using (ih.append_left q).trans List.perm_middle

theorem items_pushBack (m : OrdMap K (List V)) (k : K) (x : V) :
    (m.pushBack k x).items.Perm (x :: m.items) := flatMap_alterEntry_push

theorem mem_items_pushBack {y : V} :
    y ∈ (m.pushBack k x).items ↔ y = x ∨ y ∈ m.items := by
  rw [(items_pushBack m k x).mem_iff, List.mem_cons]

/-- An entry after `pushBack`: the grown queue of `k`, or an entry from before. -/
theorem mem_entries_pushBack
    (h : e ∈ (m.pushBack k x).entries) :
    e = (k, (m.get? k).getD [] ++ [x]) ∨ e ∈ m.entries := by
  obtain ⟨k', q⟩ := e
  have hget := mem_entries_iff.mp h
  rw [pushBack, get?_alter] at hget
  split at hget
  · rename_i heq
    subst heq
    exact Or.inl (by rw [Option.some.inj hget])
  · exact Or.inr (mem_entries_iff.mpr hget)

theorem NoEmpty.pushBack (h : m.NoEmpty) (k : K) (x : V) :
    (m.pushBack k x).NoEmpty := by
  intro e he
  rcases mem_entries_pushBack he with rfl | he
  · simp
  · exact h e he

/-! ## Editing every item -/

/-- Apply `f` to every item of one entry; no entry when nothing is left. -/
def editEntry (f : V → Option V) (e : K × List V) : Option (K × List V) :=
  match e.2.filterMap f with
  | [] => none
  | x :: xs => some (e.1, x :: xs)

omit [LinearOrder K] in
theorem editEntry_eq_some {e' : K × List V} :
    editEntry f e = some e' ↔ e'.1 = e.1 ∧ e'.2 = e.2.filterMap f ∧ e'.2 ≠ [] := by
  obtain ⟨k, q⟩ := e
  obtain ⟨k', q'⟩ := e'
  unfold editEntry
  split
  · rename_i hnil
    simp only at hnil
    simp [hnil]
  · rename_i x xs hcons
    simp only at hcons
    simp only [hcons, Option.some.injEq, Prod.mk.injEq]
    constructor
    · rintro ⟨rfl, rfl⟩
      simp
    · rintro ⟨rfl, rfl, -⟩
      simp

theorem sorted_editEntries
    (hl : (l.map Prod.fst).Pairwise (· < ·)) :
    ((l.filterMap (editEntry f)).map Prod.fst).Pairwise (· < ·) := by
  rw [List.pairwise_map] at hl ⊢
  refine List.Pairwise.filterMap _ (fun a b hab a' ha b' hb => ?_) hl
  rwa [(editEntry_eq_some.mp ha).1, (editEntry_eq_some.mp hb).1]

/-- Apply `f` to every item; drop the items it removes and the queues left empty. -/
def editItems (f : V → Option V) (m : OrdMap K (List V)) : OrdMap K (List V) :=
  ⟨m.entries.filterMap (editEntry f), sorted_editEntries m.sorted⟩

theorem mem_entries_editItems :
    e ∈ (editItems f m).entries ↔
      ∃ e₀ ∈ m.entries, e.1 = e₀.1 ∧ e.2 = e₀.2.filterMap f ∧ e.2 ≠ [] := by
  simp only [editItems, List.mem_filterMap, editEntry_eq_some]

theorem get?_editItems (f : V → Option V) (m : OrdMap K (List V)) (k : K) :
    (editItems f m).get? k = (m.get? k).bind fun q => (editEntry f (k, q)).map Prod.snd := by
  have hmem : ∀ q, (editItems f m).get? k = some q ↔
      ∃ q₀, m.get? k = some q₀ ∧ q = q₀.filterMap f ∧ q ≠ [] := fun q => by
    rw [← mem_entries_iff, mem_entries_editItems]
    constructor
    · rintro ⟨⟨k₀, q₀⟩, hm, rfl, hq, hne⟩
      exact ⟨q₀, mem_entries_iff.mp hm, hq, hne⟩
    · rintro ⟨q₀, hm, hq, hne⟩
      exact ⟨(k, q₀), mem_entries_iff.mpr hm, rfl, hq, hne⟩
  refine Option.ext fun q => ?_
  rw [hmem, Option.bind_eq_some_iff]
  refine exists_congr fun q₀ => and_congr_right fun _ => ?_
  rw [Option.map_eq_some_iff]
  constructor
  · rintro ⟨hq, hne⟩
    exact ⟨(k, q), editEntry_eq_some.mpr ⟨rfl, hq, hne⟩, rfl⟩
  · rintro ⟨e, he, rfl⟩
    exact ⟨(editEntry_eq_some.mp he).2.1, (editEntry_eq_some.mp he).2.2⟩

theorem noEmpty_editItems (f : V → Option V) (m : OrdMap K (List V)) :
    (editItems f m).NoEmpty := fun _ he => by
  obtain ⟨-, -, -, -, hne⟩ := mem_entries_editItems.mp he
  exact hne

omit [LinearOrder K] in
theorem flatMap_editEntry (l : List (K × List V)) :
    (l.filterMap (editEntry f)).flatMap Prod.snd = (l.flatMap Prod.snd).filterMap f := by
  induction l with
  | nil => rfl
  | cons e rest ih =>
    rw [List.filterMap_cons, List.flatMap_cons, List.filterMap_append, ← ih]
    cases h : editEntry f e with
    | none =>
      unfold editEntry at h
      split at h
      · rename_i hnil
        rw [hnil, List.nil_append]
      · exact absurd h (by simp)
    | some e' =>
      rw [List.flatMap_cons, (editEntry_eq_some.mp h).2.1]

theorem items_editItems (f : V → Option V) (m : OrdMap K (List V)) :
    (editItems f m).items = m.items.filterMap f := flatMap_editEntry m.entries

/-- An edit that fixes every item of a map without empty queues changes nothing. -/
theorem editItems_eq_self (hne : m.NoEmpty)
    (h : ∀ x ∈ m.items, f x = some x) : editItems f m = m := by
  refine OrdMap.ext ?_
  have hentry : ∀ e ∈ m.entries, editEntry f e = some e := fun e he => by
    have hq : e.2.filterMap f = e.2 := by
      rw [List.filterMap_congr fun x hx => h x (mem_items.mpr ⟨e, he, hx⟩), List.filterMap_some]
    exact editEntry_eq_some.mpr ⟨rfl, hq.symm, hne e he⟩
  change m.entries.filterMap (editEntry f) = m.entries
  rw [List.filterMap_congr hentry, List.filterMap_some]

theorem editItems_congr {g : V → Option V}
    (h : ∀ x ∈ m.items, f x = g x) : editItems f m = editItems g m := by
  refine OrdMap.ext (List.filterMap_congr fun e he => ?_)
  have hq : e.2.filterMap f = e.2.filterMap g :=
    List.filterMap_congr fun x hx => h x (mem_items.mpr ⟨e, he, hx⟩)
  simp only [editEntry, hq]

/-- **Two edits are one.** -/
theorem editItems_editItems (f g : V → Option V) (m : OrdMap K (List V)) :
    editItems g (editItems f m) = editItems (fun x => (f x).bind g) m := by
  refine OrdMap.ext ?_
  change (m.entries.filterMap (editEntry f)).filterMap (editEntry g) = m.entries.filterMap _
  rw [List.filterMap_filterMap]
  refine List.filterMap_congr fun e _ => ?_
  have hq : e.2.filterMap (fun x => (f x).bind g) = (e.2.filterMap f).filterMap g := by
    rw [List.filterMap_filterMap]
  unfold editEntry
  rw [hq]
  cases e.2.filterMap f <;> rfl

/-! ## Editing the first item with a given identity -/

/-- Edit the first item of a queue that satisfies `p`. -/
def editHead (p : V → Bool) (g : V → Option V) : List V → Option (List V)
  | [] => none
  | x :: xs => if p x then some ((g x).toList ++ xs) else (editHead p g xs).map (x :: ·)

/-- Edit the first queue, in key order, that holds an item satisfying `p`; drop the queue when
that leaves it empty. -/
def editFirstEntry (p : V → Bool) (g : V → Option V) :
    List (K × List V) → Option (List (K × List V))
  | [] => none
  | (k, q) :: rest =>
    match editHead p g q with
    | some q' => some (if q'.isEmpty then rest else (k, q') :: rest)
    | none => (editFirstEntry p g rest).map ((k, q) :: ·)

omit [LinearOrder K] in
theorem editFirstEntry_sublist {p : V → Bool} {g : V → Option V} {l' : List (K × List V)}
    (h : editFirstEntry p g l = some l') : (l'.map Prod.fst).Sublist (l.map Prod.fst) := by
  induction l generalizing l' with
  | nil => exact absurd h (by simp [editFirstEntry])
  | cons e rest ih =>
    obtain ⟨k, q⟩ := e
    rw [editFirstEntry] at h
    split at h
    · obtain rfl := Option.some.inj h
      split
      · exact List.sublist_cons_self _ _
      · exact List.Sublist.refl _
    · obtain ⟨rest', hrest', rfl⟩ := Option.map_eq_some_iff.mp h
      exact (ih hrest').cons_cons k

/-- The edit as a map; `none` when no item satisfies `p`. -/
def editFirst (p : V → Bool) (g : V → Option V) (m : OrdMap K (List V)) :
    Option (OrdMap K (List V)) :=
  match h : editFirstEntry p g m.entries with
  | none => none
  | some l => some ⟨l, m.sorted.sublist (editFirstEntry_sublist h)⟩

section Identity

variable [DecidableEq C] (key : V → C) (c : C) (g : V → Option V)

/-- The edit of the items with identity `c` alone. -/
def editKey (x : V) : Option V := if key x = c then g x else some x

variable {key c g}

theorem filterMap_editKey_of_notMem {l : List V} (h : c ∉ l.map key) :
    l.filterMap (editKey key c g) = l := by
  have hfix : ∀ x ∈ l, editKey key c g x = some x := fun x hx =>
    if_neg fun heq => h (List.mem_map.mpr ⟨x, hx, heq⟩)
  rw [List.filterMap_congr hfix, List.filterMap_some]

theorem editHead_eq {l : List V} (hnd : (l.map key).Nodup) :
    editHead (fun x => decide (key x = c)) g l =
      if c ∈ l.map key then some (l.filterMap (editKey key c g)) else none := by
  induction l with
  | nil => rfl
  | cons x xs ih =>
    obtain ⟨hx, hxs⟩ := List.nodup_cons.mp hnd
    rw [editHead]
    by_cases heq : key x = c
    · subst heq
      rw [if_pos (decide_eq_true rfl), if_pos (by simp), List.filterMap_cons,
        filterMap_editKey_of_notMem hx]
      simp only [editKey, if_true]
      cases g x <;> rfl
    · have hmem : c ∈ (x :: xs).map key ↔ c ∈ xs.map key := by
        simp [Ne.symm heq]
      have hfix : editKey key c g x = some x := if_neg heq
      rw [if_neg (by simpa using heq), ih hxs, List.filterMap_cons, hfix]
      by_cases hc : c ∈ xs.map key
      · rw [if_pos hc, if_pos (hmem.mpr hc), Option.map_some]
      · rw [if_neg hc, if_neg (hmem.not.mpr hc), Option.map_none]

omit [LinearOrder K] in
theorem editFirstEntry_eq {l : List (K × List V)} (hne : ∀ e ∈ l, e.2 ≠ [])
    (hnd : ((l.flatMap Prod.snd).map key).Nodup) :
    editFirstEntry (fun x => decide (key x = c)) g l =
      if c ∈ (l.flatMap Prod.snd).map key then some (l.filterMap (editEntry (editKey key c g)))
      else none := by
  induction l with
  | nil => rfl
  | cons e rest ih =>
    obtain ⟨k, q⟩ := e
    rw [List.flatMap_cons, List.map_append] at hnd ⊢
    obtain ⟨hq, hrest, hdisj⟩ := List.nodup_append.mp hnd
    have hne' : ∀ e ∈ rest, e.2 ≠ [] := fun e he => hne e (List.mem_cons_of_mem _ he)
    -- a list without `c` is left alone, whether it is the queue or the rest
    have hself : ∀ {l' : List (K × List V)}, (∀ e ∈ l', e.2 ≠ []) →
        c ∉ (l'.flatMap Prod.snd).map key →
        l'.filterMap (editEntry (editKey key c g)) = l' := fun {l'} hl' hc => by
      have hentry : ∀ e ∈ l', editEntry (editKey key c g) e = some e := fun e he => by
        have hce : c ∉ e.2.map key := fun hmem => hc (by
          obtain ⟨x, hx, rfl⟩ := List.mem_map.mp hmem
          exact List.mem_map.mpr ⟨x, List.mem_flatMap.mpr ⟨e, he, hx⟩, rfl⟩)
        exact editEntry_eq_some.mpr ⟨rfl, (filterMap_editKey_of_notMem hce).symm, hl' e he⟩
      rw [List.filterMap_congr hentry, List.filterMap_some]
    rw [editFirstEntry, editHead_eq hq]
    by_cases hc : c ∈ q.map key
    · have hcr : c ∉ (rest.flatMap Prod.snd).map key := fun h => hdisj c hc c h rfl
      rw [if_pos hc, if_pos (List.mem_append_left _ hc), List.filterMap_cons, hself hne' hcr]
      simp only [editEntry]
      cases q.filterMap (editKey key c g) <;> rfl
    · rw [if_neg hc, ih hne' hrest, List.filterMap_cons]
      have hkeep : editEntry (editKey key c g) (k, q) = some (k, q) :=
        editEntry_eq_some.mpr
          ⟨rfl, (filterMap_editKey_of_notMem hc).symm, hne (k, q) List.mem_cons_self⟩
      rw [hkeep]
      by_cases hcr : c ∈ (rest.flatMap Prod.snd).map key
      · rw [if_pos hcr, if_pos (List.mem_append_right _ hcr), Option.map_some]
      · rw [if_neg hcr, if_neg (by simp only [List.mem_append]; tauto), Option.map_none]

/-- **Editing the first item with identity `c`** is editing every item, when identities do not
repeat and no queue is empty; it fails exactly when no item has that identity. -/
theorem editFirst_eq {m : OrdMap K (List V)} (hne : m.NoEmpty) (hnd : (m.items.map key).Nodup) :
    editFirst (fun x => decide (key x = c)) g m =
      if c ∈ m.items.map key then some (editItems (editKey key c g) m) else none := by
  have heq := editFirstEntry_eq (c := c) (g := g) hne hnd
  unfold editFirst
  split
  · rename_i hnone
    rw [hnone] at heq
    split at heq
    · exact absurd heq (by simp)
    · rename_i hc
      exact (if_neg hc).symm
  · rename_i l hsome
    rw [hsome] at heq
    split at heq
    · rename_i hc
      rw [if_pos (show c ∈ m.items.map key from hc)]
      exact congrArg some (OrdMap.ext (Option.some.inj heq))
    · exact absurd heq (by simp)

end Identity

end OrdMap

end Oclob.Lib
