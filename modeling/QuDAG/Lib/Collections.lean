import Mathlib.Algebra.BigOperators.Group.Finset.Basic
import Mathlib.Data.Finmap
import Mathlib.Data.Finset.Sort

/-!
# Hashed and ordered collections

The standard collections of the modelled programs, up to what a program may rely on. A hashed
map or set promises nothing about its iteration order, so its value is a finite map or a finite
set, and every loop over it takes the order it happens to see as a list that *enumerates* the
collection.

## Main definitions

* `RustStd.HashMap`, `RustStd.HashSet`, `RustStd.BTreeSet` — the collections.
* `RustStd.HashMap.Enumerates`, `RustStd.HashSet.Enumerates` — the lists a loop over the collection
  may run through.
* `RustStd.HashMap.ofList` — the map of a list of entries.
* `RustStd.HashMap.retain`, `RustStd.HashMap.mapValues` — the entries of a map that pass a test, the
  map with every value changed.
* `RustStd.HashMap.total` — the sum of the values of a map.
* `RustStd.HashMap.sorted`, `RustStd.HashSet.sorted` — one way to iterate over a collection.
* `RustStd.HashMap.Iteration`, `RustStd.HashSet.Iteration` — a way to iterate over each collection.
* `RustStd.BTreeSet.popFirst` — remove and return the least element.

## Main results

* `RustStd.HashMap.lookup_insert_ite` — a lookup after an insertion.
* `RustStd.HashMap.sorted_enumerates` — every map can be iterated over.
* `RustStd.BTreeSet.popFirst_eq_some` — what `popFirst` returns.
-/

namespace RustStd

/-- A hash map: a finite map, without an iteration order. -/
abbrev HashMap (κ α : Type) : Type := Finmap fun _ : κ => α

/-- A hash set: a finite set, without an iteration order. -/
abbrev HashSet (α : Type) : Type := Finset α

/-- An ordered set: a finite set, iterated over in increasing order. -/
abbrev BTreeSet (α : Type) : Type := Finset α

namespace HashMap

variable {κ α : Type}

/-- The list `l` runs through the entries of `m`, each once, in some order. -/
def Enumerates (m : HashMap κ α) [DecidableEq κ] (l : List (κ × α)) : Prop :=
  (l.map Prod.fst).Nodup ∧ ∀ k v, (k, v) ∈ l ↔ m.lookup k = some v

variable [DecidableEq κ]

/-- A lookup after an insertion. -/
lemma lookup_insert_ite (m : HashMap κ α) (k k' : κ) (v : α) :
    (m.insert k v).lookup k' = if k' = k then some v else m.lookup k' := by
  split_ifs with h
  · rw [h, Finmap.lookup_insert]
  · exact Finmap.lookup_insert_of_ne m h

/-- A lookup after a removal. -/
lemma lookup_erase_ite (m : HashMap κ α) (k k' : κ) :
    (m.erase k).lookup k' = if k' = k then none else m.lookup k' := by
  split_ifs with h
  · rw [h]
    exact Finmap.lookup_erase k m
  · exact Finmap.lookup_erase_ne h

/-- Writing back what a lookup finds changes nothing. -/
lemma insert_of_lookup {m : HashMap κ α} {k : κ} {v : α} (h : m.lookup k = some v) :
    m.insert k v = m := by
  refine Finmap.ext_lookup fun k' => ?_
  rw [lookup_insert_ite]
  split_ifs with heq
  · rw [heq, h]
  · rfl

/-- A key is present iff its lookup returns something. -/
lemma mem_iff_exists {m : HashMap κ α} {k : κ} : k ∈ m ↔ ∃ v, m.lookup k = some v :=
  Finmap.mem_iff

/-- A key that a lookup finds is present. -/
lemma mem_of_lookup {m : HashMap κ α} {k : κ} {v : α} (h : m.lookup k = some v) : k ∈ m :=
  mem_iff_exists.mpr ⟨v, h⟩

/-- Keys that are looked up alike are present alike. -/
lemma mem_congr_of_lookup {m m' : HashMap κ α} {k k' : κ} (h : m'.lookup k' = m.lookup k) :
    k' ∈ m' ↔ k ∈ m := by
  rw [← Finmap.lookup_isSome, h, Finmap.lookup_isSome]

namespace Enumerates

variable {m : HashMap κ α} {l l' : List (κ × α)}

/-- The keys of an enumeration are the keys of the map. -/
lemma mem_keys (h : m.Enumerates l) {k : κ} : k ∈ l.map Prod.fst ↔ k ∈ m := by
  rw [mem_iff_exists, List.mem_map]
  constructor
  · rintro ⟨⟨k', v⟩, hkv, rfl⟩
    exact ⟨v, (h.2 _ _).mp hkv⟩
  · rintro ⟨v, hv⟩
    exact ⟨(k, v), (h.2 k v).mpr hv, rfl⟩

/-- An enumeration has as many entries as the map has keys. -/
lemma length_eq (h : m.Enumerates l) : l.length = m.keys.card := by
  have hset : (l.map Prod.fst).toFinset = m.keys := by
    ext k
    rw [List.mem_toFinset, h.mem_keys, Finmap.mem_keys]
  rw [← hset, List.toFinset_card_of_nodup h.1, List.length_map]

/-- Nothing is iterated over in the empty map. -/
lemma empty : Enumerates (∅ : HashMap κ α) [] := by
  simp [Enumerates]

/-- A fresh entry extends an enumeration. -/
lemma insert (h : m.Enumerates l) {k : κ} (hk : k ∉ m) (v : α) :
    Enumerates (m.insert k v) ((k, v) :: l) := by
  refine ⟨List.nodup_cons.mpr ⟨fun hmem => hk (h.mem_keys.mp hmem), h.1⟩, fun k' v' => ?_⟩
  rw [lookup_insert_ite, List.mem_cons, h.2]
  have hnone : m.lookup k = none := Finmap.lookup_eq_none.mpr hk
  split_ifs with heq
  · subst heq
    simp [hnone, eq_comm]
  · simp [heq]

/-- Reordering an enumeration gives an enumeration. -/
lemma perm (h : m.Enumerates l) (hp : l.Perm l') : m.Enumerates l' :=
  ⟨((hp.map Prod.fst).nodup_iff).mp h.1, fun k v => by rw [← hp.mem_iff, h.2]⟩

/-- A map is iterated over in one order only iff it has at most one entry. -/
lemma unique_iff (h : m.Enumerates l) : (∀ l', m.Enumerates l' → l' = l) ↔ m.keys.card ≤ 1 := by
  rw [← h.length_eq]
  constructor
  · intro hunique
    have hreverse := hunique l.reverse (h.perm l.reverse_perm.symm)
    match l, h.1, hreverse with
    | [], _, _ => exact Nat.zero_le 1
    | [_], _, _ => exact le_refl 1
    | a :: b :: rest, hnodup, hreverse =>
      -- the last entry is the first one, which does not occur again
      have hlast : (a :: b :: rest).reverse.head? = some a := by rw [hreverse]; rfl
      rw [List.head?_reverse, List.getLast?_cons_cons] at hlast
      have hmem : a.1 ∈ (b :: rest).map Prod.fst :=
        List.mem_map_of_mem (List.mem_of_getLast? hlast)
      exact absurd hmem (List.nodup_cons.mp hnodup).1
  · intro hle l' h'
    have hperm : l'.Perm l := by
      refine (List.perm_ext_iff_of_nodup h'.1.of_map h.1.of_map).mpr fun e => ?_
      rw [h'.2, h.2]
    match l, hle with
    | [], _ => exact List.perm_nil.mp hperm
    | [_], _ => exact List.perm_singleton.mp hperm

end Enumerates

/-- A list runs through the entries of a map iff its keys are those of the map, each once, with
the values of the map. -/
lemma enumerates_iff {m : HashMap κ α} {l : List (κ × α)} :
    m.Enumerates l ↔ (l.map Prod.fst).Nodup ∧ (l.map Prod.fst).toFinset = m.keys ∧
      ∀ e ∈ l, m.lookup e.1 = some e.2 := by
  constructor
  · intro h
    refine ⟨h.1, ?_, fun e he => (h.2 e.1 e.2).mp he⟩
    ext k
    rw [List.mem_toFinset, h.mem_keys, Finmap.mem_keys]
  · rintro ⟨hnodup, hkeys, hvalues⟩
    refine ⟨hnodup, fun k v => ⟨fun h => hvalues (k, v) h, fun h => ?_⟩⟩
    have hk : k ∈ (l.map Prod.fst).toFinset := by
      rw [hkeys, Finmap.mem_keys]
      exact mem_of_lookup h
    obtain ⟨e, he, rfl⟩ := List.mem_map.mp (List.mem_toFinset.mp hk)
    rw [hvalues e he] at h
    obtain rfl := Option.some.inj h
    exact he

instance instDecidableEnumerates [DecidableEq α] (m : HashMap κ α) (l : List (κ × α)) :
    Decidable (m.Enumerates l) := decidable_of_iff _ enumerates_iff.symm

/-- The map of a list of entries. -/
def ofList : List (κ × α) → HashMap κ α
  | [] => ∅
  | e :: l => (ofList l).insert e.1 e.2

/-- A list without a repeated key runs through its map. -/
lemma enumerates_ofList : ∀ {l : List (κ × α)}, (l.map Prod.fst).Nodup → (ofList l).Enumerates l
  | [], _ => .empty
  | e :: l, h => by
    rw [List.map_cons, List.nodup_cons] at h
    have hl := enumerates_ofList h.2
    exact hl.insert (fun hmem => h.1 (hl.mem_keys.mpr hmem)) e.2

/-- The map of a list of entries holds what the list holds first. -/
lemma ofList_eq_foldr (l : List (κ × α)) : ofList l = l.foldr (fun e m => m.insert e.1 e.2) ∅ := by
  induction l with
  | nil => rfl
  | cons e l ih => rw [List.foldr_cons, ← ih, ofList]

/-- The map of the entries that a map is iterated over is that map. -/
lemma Enumerates.ofList_eq {m : HashMap κ α} {l : List (κ × α)} (h : m.Enumerates l) :
    ofList l = m := by
  have hl := enumerates_ofList h.1
  refine Finmap.ext_lookup fun k => Option.ext fun v => ?_
  rw [← hl.2, ← h.2]

/-- Inserting the entries that a map is iterated over gives that map. -/
lemma Enumerates.foldl_insert_eq {m : HashMap κ α} {l : List (κ × α)} (h : m.Enumerates l) :
    l.foldl (fun m e => m.insert e.1 e.2) ∅ = m := by
  rw [← List.foldr_reverse, ← ofList_eq_foldr, (h.perm l.reverse_perm.symm).ofList_eq]

/-- The entries of a map that pass a test. -/
def retain (f : κ → α → Bool) (m : HashMap κ α) : HashMap κ α where
  entries := m.entries.filter fun e => f e.1 e.2
  nodupKeys := by
    rw [← Multiset.nodup_keys]
    exact Multiset.nodup_of_le (Multiset.map_le_map (Multiset.filter_le _ _))
      m.nodupKeys.nodup_keys

/-- What a lookup finds after the others were removed. -/
lemma lookup_retain {f : κ → α → Bool} {m : HashMap κ α} {k : κ} {v : α} :
    (m.retain f).lookup k = some v ↔ m.lookup k = some v ∧ f k v = true := by
  rw [Finmap.lookup_eq_some_iff, Finmap.lookup_eq_some_iff]
  exact Multiset.mem_filter

/-- Removing entries does not make a map larger. -/
lemma card_keys_retain_le (f : κ → α → Bool) (m : HashMap κ α) :
    (m.retain f).keys.card ≤ m.keys.card := by
  refine Finset.card_le_card fun k hk => ?_
  rw [Finmap.mem_keys] at hk ⊢
  obtain ⟨v, hv⟩ := mem_iff_exists.mp hk
  exact mem_of_lookup (lookup_retain.mp hv).1

/-- The map with every value changed. -/
def mapValues (f : α → α) (m : HashMap κ α) : HashMap κ α where
  entries := m.entries.map fun e => ⟨e.1, f e.2⟩
  nodupKeys := by
    rw [← Multiset.nodup_keys, Multiset.keys, Multiset.map_map]
    exact m.nodupKeys.nodup_keys

/-- What a lookup finds after every value was changed. -/
@[simp] lemma lookup_mapValues {f : α → α} {m : HashMap κ α} {k : κ} :
    (m.mapValues f).lookup k = (m.lookup k).map f := by
  refine Option.ext fun v => ?_
  rw [Finmap.lookup_eq_some_iff, Option.map_eq_some_iff]
  show _ ∈ m.entries.map _ ↔ _
  rw [Multiset.mem_map]
  constructor
  · rintro ⟨⟨k', v'⟩, hmem, heq⟩
    cases heq
    exact ⟨v', Finmap.lookup_eq_some_iff.mpr hmem, rfl⟩
  · rintro ⟨v', hv', rfl⟩
    exact ⟨⟨k, v'⟩, Finmap.lookup_eq_some_iff.mp hv', rfl⟩

/-- The keys after an insertion. -/
lemma keys_insert (m : HashMap κ α) (k : κ) (v : α) :
    (m.insert k v).keys = Insert.insert k m.keys := by
  ext k'
  rw [Finmap.mem_keys, Finmap.mem_insert, Finset.mem_insert, Finmap.mem_keys]

/-- An insertion adds at most one key. -/
lemma card_keys_insert_le (m : HashMap κ α) (k : κ) (v : α) :
    (m.insert k v).keys.card ≤ m.keys.card + 1 := by
  rw [keys_insert]
  exact Finset.card_insert_le _ _

/-- Replacing a value adds no key. -/
lemma card_keys_insert_of_mem {m : HashMap κ α} {k : κ} {v : α} (h : k ∈ m) :
    (m.insert k v).keys.card = m.keys.card := by
  rw [keys_insert, Finset.insert_eq_of_mem (Finmap.mem_keys.mpr h)]

/-- The sum of the values of a map. -/
def total (m : HashMap κ ℕ) : ℕ := ∑ k ∈ m.keys, (m.lookup k).getD 0

section Sorted

variable {κ α : Type} [LinearOrder κ]

/-- The entries of a map in increasing order of their keys. -/
def sorted (m : HashMap κ α) : List (κ × α) :=
  (m.keys.sort (· ≤ ·)).filterMap fun k => (m.lookup k).map fun v => (k, v)

/-- Sorting the entries is one way to iterate over a map. -/
lemma sorted_enumerates (m : HashMap κ α) : m.Enumerates m.sorted := by
  constructor
  · rw [sorted, List.map_filterMap]
    have hsome : ∀ k v, ((m.lookup k).map fun w => (k, w)).map Prod.fst = some v → k = v := by
      intro k v h
      cases hk : m.lookup k with
      | none => simp [hk] at h
      | some w => simpa [hk] using h
    refine List.pairwise_filterMap.mpr ((Finset.sort_nodup m.keys (· ≤ ·)).imp ?_)
    intro k k' hne v hv v' hv' heq
    exact hne ((hsome k v hv).trans (heq.trans (hsome k' v' hv').symm))
  · intro k v
    simp only [sorted, List.mem_filterMap, Finset.mem_sort, Option.map_eq_some_iff, Prod.mk.injEq]
    constructor
    · rintro ⟨k', -, v', hv, rfl, rfl⟩
      exact hv
    · intro hv
      exact ⟨k, Finmap.mem_keys.mpr (mem_of_lookup hv), v, hv, rfl, rfl⟩

end Sorted

/-- A way to iterate over every map. -/
structure Iteration (κ α : Type) [DecidableEq κ] where
  /-- The entries in the order in which they are seen. -/
  order : HashMap κ α → List (κ × α)
  /-- Every entry is seen once. -/
  enumerates : ∀ m, Enumerates m (order m)

/-- Every map can be iterated over, whatever its keys. -/
noncomputable def Iteration.arbitrary {κ α : Type} [DecidableEq κ] : Iteration κ α where
  order m := m.entries.toList.map fun e => (e.1, e.2)
  enumerates m := by
    refine ⟨?_, fun k v => ?_⟩
    · have hnodup : Multiset.Nodup (m.entries.toList.map Sigma.fst : Multiset κ) := by
        rw [← Multiset.map_coe, Multiset.coe_toList]
        exact m.nodupKeys.nodup_keys
      rw [List.map_map]
      exact Multiset.coe_nodup.mp hnodup
    · rw [Finmap.lookup_eq_some_iff, List.mem_map]
      constructor
      · rintro ⟨e, he, heq⟩
        obtain ⟨rfl, rfl⟩ := Prod.mk.inj heq
        exact Multiset.mem_toList.mp he
      · exact fun h => ⟨⟨k, v⟩, Multiset.mem_toList.mpr h, rfl⟩

end HashMap

namespace HashSet

variable {α : Type}

/-- The list `l` runs through the elements of `s`, each once, in some order. -/
def Enumerates (s : HashSet α) (l : List α) : Prop := l.Nodup ∧ ∀ a, a ∈ l ↔ a ∈ s

/-- An enumeration has the set's elements. -/
lemma Enumerates.toFinset_eq [DecidableEq α] {s : HashSet α} {l : List α} (h : s.Enumerates l) :
    l.toFinset = s := by
  ext a
  rw [List.mem_toFinset, h.2]

/-- The elements of a set in increasing order. -/
def sorted [LinearOrder α] (s : HashSet α) : List α := s.sort (· ≤ ·)

/-- Sorting the elements is one way to iterate over a set. -/
lemma sorted_enumerates [LinearOrder α] (s : HashSet α) : s.Enumerates s.sorted :=
  ⟨Finset.sort_nodup s _, fun _ => Finset.mem_sort _⟩

/-- A way to iterate over every set. -/
structure Iteration (α : Type) where
  /-- The elements in the order in which they are seen. -/
  order : HashSet α → List α
  /-- Every element is seen once. -/
  enumerates : ∀ s, Enumerates s (order s)

/-- Iteration in increasing order. -/
def Iteration.sorted {α : Type} [LinearOrder α] : Iteration α where
  order s := Quot.liftOn s.val (List.insertionSort (· ≤ ·)) fun l l' h =>
    ((List.perm_insertionSort _ l).trans
      (h.trans (List.perm_insertionSort _ l').symm)).eq_of_pairwise'
      (List.pairwise_insertionSort _ l) (List.pairwise_insertionSort _ l')
  enumerates := by
    rintro ⟨⟨l⟩, hnodup⟩
    exact ⟨(List.perm_insertionSort _ l).nodup_iff.mpr hnodup, fun a => List.mem_insertionSort _⟩

/-- What is iterated over is what the set holds. -/
@[simp] lemma Iteration.mem_order {it : Iteration α} {s : HashSet α} {a : α} :
    a ∈ it.order s ↔ a ∈ s := (it.enumerates s).2 a

end HashSet

/-- Iteration over a map in increasing order of its keys. -/
def HashMap.Iteration.sorted {κ α : Type} [LinearOrder κ] : HashMap.Iteration κ α where
  order m := (HashSet.Iteration.sorted.order m.keys).filterMap fun k =>
    (m.lookup k).map fun v => (k, v)
  enumerates m := by
    have hkeys := HashSet.Iteration.sorted.enumerates m.keys
    have hmem : ∀ k v, (k, v) ∈ (HashSet.Iteration.sorted.order m.keys).filterMap
        (fun k => (m.lookup k).map fun v => (k, v)) ↔ m.lookup k = some v := fun k v => by
      rw [List.mem_filterMap]
      constructor
      · rintro ⟨k', -, hk'⟩
        obtain ⟨v', hv', heq⟩ := Option.map_eq_some_iff.mp hk'
        obtain ⟨rfl, rfl⟩ := Prod.mk.inj heq
        exact hv'
      · intro hv
        refine ⟨k, (hkeys.2 k).mpr (Finmap.mem_keys.mpr (HashMap.mem_of_lookup hv)), ?_⟩
        rw [hv, Option.map_some]
    refine ⟨?_, hmem⟩
    rw [List.map_filterMap]
    refine List.pairwise_filterMap.mpr (hkeys.1.imp fun {k k'} hne v hv v' hv' heq => ?_)
    cases hk : m.lookup k with
    | none => simp [hk] at hv
    | some w =>
      cases hk' : m.lookup k' with
      | none => simp [hk'] at hv'
      | some w' =>
        simp only [hk, hk', Option.map_some, Option.some.injEq] at hv hv'
        exact hne (hv.trans (heq.trans hv'.symm))

namespace BTreeSet

variable {α : Type} [LinearOrder α]

/-- Remove and return the least element. -/
def popFirst (s : BTreeSet α) : Option (α × BTreeSet α) :=
  if h : s.Nonempty then some (s.min' h, s.erase (s.min' h)) else none

/-- Nothing is popped from the empty set only. -/
lemma popFirst_eq_none {s : BTreeSet α} : s.popFirst = none ↔ s = ∅ := by
  unfold popFirst
  split_ifs with h
  · simpa using h.ne_empty
  · simpa using Finset.not_nonempty_iff_eq_empty.mp h

/-- What is popped is the least element, and the others stay. -/
lemma popFirst_eq_some {s s' : BTreeSet α} {a : α} (h : s.popFirst = some (a, s')) :
    a ∈ s ∧ (∀ b ∈ s, a ≤ b) ∧ ∀ b, b ∈ s' ↔ b ≠ a ∧ b ∈ s := by
  unfold popFirst at h
  split_ifs at h with hne
  obtain ⟨rfl, rfl⟩ := Prod.mk.inj (Option.some.inj h)
  exact ⟨s.min'_mem hne, fun b hb => s.min'_le b hb, fun b => Finset.mem_erase⟩

/-- Popping leaves a smaller set. -/
lemma card_lt_of_popFirst {s s' : BTreeSet α} {a : α} (h : s.popFirst = some (a, s')) :
    s'.card < s.card := by
  obtain ⟨hmem, -, hs'⟩ := popFirst_eq_some h
  refine Finset.card_lt_card ⟨fun b hb => ((hs' b).mp hb).2, fun hsub => ?_⟩
  exact ((hs' a).mp (hsub hmem)).1 rfl

end BTreeSet

end RustStd
