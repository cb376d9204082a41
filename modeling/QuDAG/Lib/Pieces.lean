import QuDAG.Lib.Collections

/-!
# Pieces of a list

A list is cut into pieces, and put together again from a map that holds each piece under a key of
its own. The pieces may reach the map in any order and more than once: it holds them all as soon as
it has as many entries as there are pieces.

## Main definitions

* `Pieces.chunks` — the pieces of a list, of a given length but for the last one.
* `Pieces.Gathers` — the entries of a map are pieces under their keys.
* `Pieces.join` — the pieces of a map in their order, put together.

## Main results

* `Pieces.flatten_chunks` — the pieces put together are the list.
* `Pieces.Gathers.card_eq_iff` — a map is as large as the list of pieces iff it holds each of them.
* `Pieces.join_eq` — from a map that holds all pieces the list is put together.
-/

namespace Pieces

open RustStd

/-! ## Cutting -/

section Chunks

variable {α : Type}

/-- The pieces of a list: `n` elements each, and fewer in the last one. -/
def chunks (n : ℕ) (l : List α) : List (List α) :=
  (List.range ((l.length + n - 1) / n)).map fun i => (l.drop (i * n)).take n

/-- The number of pieces. -/
@[simp] lemma length_chunks (n : ℕ) (l : List α) :
    (chunks n l).length = (l.length + n - 1) / n := by simp [chunks]

/-- No piece is longer than asked for. -/
lemma length_le_of_mem_chunks {n : ℕ} {l piece : List α} (h : piece ∈ chunks n l) :
    piece.length ≤ n := by
  obtain ⟨i, -, rfl⟩ := List.mem_map.mp h
  exact List.length_take_le n _

/-- The first pieces put together. -/
lemma flatten_map_range (n k : ℕ) (l : List α) :
    ((List.range k).map fun i => (l.drop (i * n)).take n).flatten = l.take (k * n) := by
  induction k with
  | zero => simp
  | succ k ih =>
    rw [List.range_succ, List.map_append, List.flatten_append, ih, Nat.succ_mul, List.take_add]
    simp

/-- **The pieces put together are the list.** -/
theorem flatten_chunks {n : ℕ} (hn : 0 < n) (l : List α) : (chunks n l).flatten = l := by
  rw [chunks, flatten_map_range]
  refine List.take_of_length_le ?_
  have hdiv := Nat.div_add_mod (l.length + n - 1) n
  have hmod := Nat.mod_lt (l.length + n - 1) hn
  rw [Nat.mul_comm] at hdiv
  omega

end Chunks

/-! ## Gathering -/

variable {κ β : Type} [DecidableEq κ] (key : ℕ → κ) (pieces : List β)

/-- Every entry of the map is a piece under its key. -/
def Gathers (m : HashMap κ β) : Prop :=
  ∀ k v, m.lookup k = some v → ∃ i, pieces[i]? = some v ∧ key i = k

variable {key pieces} {m : HashMap κ β}

lemma gathers_empty : Gathers key pieces (∅ : HashMap κ β) := by
  intro k v h
  rw [Finmap.lookup_empty] at h
  cases h

/-- A piece that arrives is stored under its key. -/
lemma Gathers.insert (h : Gathers key pieces m) {i : ℕ} {v : β} (hi : pieces[i]? = some v) :
    Gathers key pieces (m.insert (key i) v) := by
  intro k w hw
  rw [HashMap.lookup_insert_ite] at hw
  split_ifs at hw with hk
  · cases hw
    exact ⟨i, hi, hk.symm⟩
  · exact h k w hw

/-- **A map of pieces is complete** iff it has as many entries as there are pieces. -/
theorem Gathers.card_eq_iff (h : Gathers key pieces m)
    (hkey : Set.InjOn key { i | i < pieces.length }) :
    m.keys.card = pieces.length ↔ ∀ i v, pieces[i]? = some v → m.lookup (key i) = some v := by
  have hsub : m.keys ⊆ (Finset.range pieces.length).image key := by
    intro k hk
    obtain ⟨v, hv⟩ := HashMap.mem_iff_exists.mp (Finmap.mem_keys.mp hk)
    obtain ⟨i, hi, rfl⟩ := h k v hv
    have hlt := (List.getElem?_eq_some_iff.mp hi).1
    exact Finset.mem_image_of_mem key (Finset.mem_range.mpr hlt)
  have hcard : ((Finset.range pieces.length).image key).card = pieces.length := by
    refine (Finset.card_image_of_injOn fun i hi j hj => ?_).trans (Finset.card_range _)
    exact hkey (by simpa using hi) (by simpa using hj)
  constructor
  · intro heq i v hi
    have hkeys := Finset.eq_of_subset_of_card_le hsub (by rw [hcard, heq])
    have hlt := (List.getElem?_eq_some_iff.mp hi).1
    have hmem : key i ∈ m.keys :=
      hkeys ▸ Finset.mem_image_of_mem key (Finset.mem_range.mpr hlt)
    obtain ⟨w, hw⟩ := HashMap.mem_iff_exists.mp (Finmap.mem_keys.mp hmem)
    obtain ⟨j, hj, hkeyj⟩ := h _ w hw
    have hij := hkey (List.getElem?_eq_some_iff.mp hj).1 hlt hkeyj
    rw [hw, ← hj, hij, hi]
  · intro hall
    refine le_antisymm (hcard ▸ Finset.card_le_card hsub) ?_
    rw [← hcard]
    refine Finset.card_le_card fun k hk => ?_
    obtain ⟨i, hi, rfl⟩ := Finset.mem_image.mp hk
    obtain ⟨v, hv⟩ : ∃ v, pieces[i]? = some v := ⟨_, List.getElem?_eq_getElem (by simpa using hi)⟩
    exact Finmap.mem_keys.mpr (HashMap.mem_of_lookup (hall i v hv))

variable {ε α : Type} (key)

/-- The first `n` pieces of a map, put together. One that is missing is an error. -/
def join (missing : ℕ → ε) (m : HashMap κ (List α)) : ℕ → Except ε (List α)
  | 0 => .ok []
  | n + 1 =>
    match join missing m n with
    | .error e => .error e
    | .ok data =>
      match m.lookup (key n) with
      | none => .error (missing n)
      | some piece => .ok (data ++ piece)

variable {key}

/-- **From a map that holds all pieces the list is put together.** -/
theorem join_eq (missing : ℕ → ε) {m : HashMap κ (List α)} {pieces : List (List α)}
    (h : ∀ i v, pieces[i]? = some v → m.lookup (key i) = some v) :
    join key missing m pieces.length = .ok pieces.flatten := by
  have hjoin : ∀ n ≤ pieces.length,
      join key missing m n = .ok (pieces.take n).flatten := by
    intro n
    induction n with
    | zero => exact fun _ => by simp [join]
    | succ n ih =>
      intro hn
      have hpiece : pieces[n]? = some (pieces[n]) := List.getElem?_eq_getElem hn
      rw [join, ih (by omega), List.take_add_one, hpiece]
      simp only [h n _ hpiece, Option.toList_some, List.flatten_append, List.flatten_singleton]
  rw [hjoin _ le_rfl, List.take_length]

end Pieces
