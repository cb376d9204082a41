import Mathlib.Data.List.Nodup
import Mathlib.Data.List.Perm.Basic

/-!
# Least recently used caches

A bounded map that makes room for a new key by forgetting the key that was used longest ago. Its
entries are kept in the order of their last use, the latest first; a key has one entry at most, and
there are never more entries than the capacity.

## Main definitions

* `LruCache` — the entries of a cache with its capacity.
* `LruCache.peek`, `LruCache.get`, `LruCache.put` — find an entry, find it and mark it as the last
  one used, and store an entry.
* `LruCache.Within` — every entry has a property.

## Main results

* `LruCache.peek_get` — a read changes no answer.
* `LruCache.peek_put_self`, `LruCache.peek_of_put` — a write is found, and what else is found was
  there before.
* `LruCache.Within.put` — a write keeps what holds of every entry and of the new one.
-/

/-- A cache for at most `capacity` entries. -/
structure LruCache (κ α : Type) where
  /-- The number of entries that there is room for. -/
  capacity : ℕ
  /-- There is room for one. -/
  capacity_pos : 0 < capacity
  /-- The entries, the one used last first. -/
  entries : List (κ × α)
  /-- A key has one entry. -/
  nodup : (entries.map Prod.fst).Nodup
  /-- There is room for every entry. -/
  length_le : entries.length ≤ capacity

namespace LruCache

variable {κ α : Type}

/-- An empty cache. -/
def new (capacity : ℕ) (h : 0 < capacity) : LruCache κ α where
  capacity := capacity
  capacity_pos := h
  entries := []
  nodup := List.nodup_nil
  length_le := Nat.zero_le _

variable [DecidableEq κ]

/-- The entries of the other keys. -/
def others (k : κ) (l : List (κ × α)) : List (κ × α) := l.filter fun e => e.1 ≠ k

/-- An entry of another key is an entry. -/
@[simp] lemma mem_others {k : κ} {l : List (κ × α)} {e : κ × α} :
    e ∈ others k l ↔ e ∈ l ∧ e.1 ≠ k := by
  simp [others]

/-- The key itself is not among the others. -/
lemma notMem_others (k : κ) (l : List (κ × α)) : k ∉ (others k l).map Prod.fst := by
  intro h
  obtain ⟨e, he, rfl⟩ := List.mem_map.mp h
  exact (mem_others.mp he).2 rfl

/-- The others have one entry each. -/
lemma nodup_others {k : κ} {l : List (κ × α)} (h : (l.map Prod.fst).Nodup) :
    ((others k l).map Prod.fst).Nodup :=
  h.sublist (List.filter_sublist.map _)

/-- A key with an entry leaves fewer others. -/
lemma length_others_lt {k : κ} {l : List (κ × α)} (h : k ∈ l.map Prod.fst) :
    (others k l).length < l.length := by
  obtain ⟨e, he, rfl⟩ := List.mem_map.mp h
  exact List.length_filter_lt_length_iff_exists.mpr ⟨e, he, by simp⟩

variable (c : LruCache κ α)

/-- The value of a key, without a mark of use. -/
def peek (k : κ) : Option α := (c.entries.find? fun e => e.1 = k).map Prod.snd

/-- The cache after a value was stored: its entry comes first, and the last entry goes if there is
no room for it. -/
def put (k : κ) (v : α) : LruCache κ α where
  capacity := c.capacity
  capacity_pos := c.capacity_pos
  entries := ((k, v) :: others k c.entries).take c.capacity
  nodup := by
    have hnodup : (((k, v) :: others k c.entries).map Prod.fst).Nodup :=
      List.nodup_cons.mpr ⟨notMem_others k c.entries, nodup_others c.nodup⟩
    exact hnodup.sublist ((List.take_sublist _ _).map _)
  length_le := by
    rw [List.length_take]
    exact Nat.min_le_left _ _

/-- The value of a key, and the cache after its entry was moved to the front. -/
def get (k : κ) : Option α × LruCache κ α :=
  match c.peek k with
  | some v => (some v, c.put k v)
  | none => (none, c)

variable {c} {k k' : κ} {v v' : α}

/-- What is found is an entry. -/
lemma peek_eq_some : c.peek k = some v ↔ (k, v) ∈ c.entries := by
  unfold peek
  rw [Option.map_eq_some_iff]
  constructor
  · rintro ⟨⟨k', v'⟩, hfind, rfl⟩
    have hk : k' = k := by simpa using List.find?_some hfind
    exact hk ▸ List.mem_of_find?_eq_some hfind
  · intro hmem
    cases hfind : c.entries.find? fun e => e.1 = k with
    | none => simpa using List.find?_eq_none.mp hfind _ hmem
    | some e =>
      have he : e.1 = k := by simpa using List.find?_some hfind
      have heq : e = (k, v) :=
        List.inj_on_of_nodup_map c.nodup (List.mem_of_find?_eq_some hfind) hmem he
      exact ⟨e, rfl, by rw [heq]⟩

/-- An entry after a write is the new one or an old one. -/
lemma mem_put {e : κ × α} (h : e ∈ (c.put k v).entries) :
    e = (k, v) ∨ e ∈ c.entries ∧ e.1 ≠ k := by
  rcases List.mem_cons.mp (List.mem_of_mem_take h) with heq | hmem
  · exact .inl heq
  · exact .inr (mem_others.mp hmem)

/-- **What was written is found.** -/
@[simp] lemma peek_put_self : (c.put k v).peek k = some v := by
  rw [peek_eq_some]
  show (k, v) ∈ List.take _ _
  obtain ⟨n, hn⟩ := Nat.exists_eq_succ_of_ne_zero (Nat.ne_of_gt c.capacity_pos)
  rw [hn, List.take_succ_cons]
  exact List.mem_cons_self

/-- Writing back what is found changes no answer: nothing is forgotten, as there is no new key. -/
lemma peek_put_of_peek (h : c.peek k = some v) : (c.put k v).peek k' = c.peek k' := by
  have hlt : (others k c.entries).length < c.entries.length :=
    length_others_lt (List.mem_map_of_mem (f := Prod.fst) (peek_eq_some.mp h))
  have hall : (c.put k v).entries = (k, v) :: others k c.entries :=
    List.take_of_length_le (Nat.le_trans hlt c.length_le)
  refine Option.ext fun w => ?_
  rw [peek_eq_some, peek_eq_some, hall, List.mem_cons, mem_others]
  constructor
  · rintro (heq | ⟨hmem, -⟩)
    · obtain ⟨rfl, rfl⟩ := Prod.mk.inj heq
      exact peek_eq_some.mp h
    · exact hmem
  · intro hmem
    by_cases hk : k' = k
    · subst hk
      have hw : w = v := Option.some.inj ((peek_eq_some.mpr hmem).symm.trans h)
      exact .inl (by rw [hw])
    · exact .inr ⟨hmem, hk⟩

/-- A read gives what is stored. -/
@[simp] lemma get_fst : (c.get k).1 = c.peek k := by
  unfold get
  split
  · next h => exact h.symm
  · next h => exact h.symm

/-- **A read changes no answer.** -/
@[simp] lemma peek_get : (c.get k).2.peek k' = c.peek k' := by
  unfold get
  split
  · next h => exact peek_put_of_peek h
  · rfl

/-- What is found after a write is what was written, or it was there before. -/
lemma peek_of_put (h : (c.put k v).peek k' = some v') :
    k' = k ∧ v' = v ∨ k' ≠ k ∧ c.peek k' = some v' := by
  rcases mem_put (peek_eq_some.mp h) with heq | ⟨hmem, hne⟩
  · exact .inl (Prod.mk.inj heq)
  · exact .inr ⟨hne, peek_eq_some.mpr hmem⟩

/-! ## Properties of the entries -/

/-- Every entry has the property. -/
def Within (P : κ → α → Prop) (c : LruCache κ α) : Prop := ∀ k v, c.peek k = some v → P k v

variable {P : κ → α → Prop}

/-- An empty cache has no entry. -/
lemma within_new (capacity : ℕ) (h : 0 < capacity) :
    Within P (LruCache.new capacity h : LruCache κ α) := by
  intro k v hk
  cases hk

/-- A read keeps what holds of every entry. -/
lemma Within.get (h : c.Within P) : (c.get k).2.Within P := by
  intro k' v' hk'
  rw [peek_get] at hk'
  exact h k' v' hk'

/-- **A write keeps what holds of every entry and of the new one.** -/
lemma Within.put (h : c.Within P) (hv : P k v) : (c.put k v).Within P := by
  intro k' v' hk'
  rcases peek_of_put hk' with ⟨rfl, rfl⟩ | ⟨-, hpeek⟩
  · exact hv
  · exact h k' v' hpeek

end LruCache
