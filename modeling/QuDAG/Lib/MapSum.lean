import Mathlib.Algebra.Ring.Nat
import Mathlib.Algebra.Order.BigOperators.Group.Finset
import QuDAG.Lib.Collections

/-!
# Sums over the values of a map

A quantity that every value of a map has, added up over the map.

## Main definitions

* `RustStd.HashMap.sumBy` — the sum of a quantity over the values.

## Main results

* `RustStd.HashMap.sumBy_insert_of_not_mem`, `RustStd.HashMap.sumBy_insert_of_lookup` — a new entry
  adds its quantity, an overwritten one its change.
* `RustStd.HashMap.sumBy_erase_of_lookup` — a removed entry takes its quantity away.
* `RustStd.HashMap.le_sumBy`, `RustStd.HashMap.add_le_sumBy` — one value, and two values at
  different keys, have at most the sum.
* `RustStd.HashMap.sumBy_eq_sum` — adding up in any order of iteration gives the sum.
-/

namespace RustStd

namespace HashMap

variable {κ α : Type} [DecidableEq κ]

/-- The sum of a quantity over the values of a map. -/
def sumBy (f : α → ℕ) (m : HashMap κ α) : ℕ := ∑ k ∈ m.keys, ((m.lookup k).map f).getD 0

variable {f : α → ℕ} {m : HashMap κ α} {k k' : κ} {v w : α}

/-- The empty map has sum zero. -/
@[simp] lemma sumBy_empty : sumBy f (∅ : HashMap κ α) = 0 := by
  simp [sumBy]

/-- The other values do not feel an insertion. -/
lemma sum_insert_of_not_mem {s : Finset κ} (hk : k ∉ s) :
    ∑ x ∈ s, (((m.insert k v).lookup x).map f).getD 0 =
      ∑ x ∈ s, ((m.lookup x).map f).getD 0 := by
  refine Finset.sum_congr rfl fun x hx => ?_
  have hne : x ≠ k := fun h => hk (h ▸ hx)
  rw [Finmap.lookup_insert_of_ne m hne]

/-- A new entry adds its quantity. -/
lemma sumBy_insert_of_not_mem (hk : k ∉ m) :
    sumBy f (m.insert k v) = sumBy f m + f v := by
  have hkeys : (m.insert k v).keys = insert k m.keys := by
    ext x
    rw [Finmap.mem_keys, Finmap.mem_insert, Finset.mem_insert, Finmap.mem_keys]
  have hk' : k ∉ m.keys := fun h => hk (Finmap.mem_keys.mp h)
  unfold sumBy
  rw [hkeys, Finset.sum_insert hk', sum_insert_of_not_mem hk', Finmap.lookup_insert]
  simp [Nat.add_comm]

/-- Overwriting an entry changes the sum by the difference of the quantities. -/
lemma sumBy_insert_of_lookup (h : m.lookup k = some v) :
    sumBy f (m.insert k w) + f v = sumBy f m + f w := by
  have hk : k ∈ m.keys := Finmap.mem_keys.mpr (mem_of_lookup h)
  have hkeys : (m.insert k w).keys = m.keys := by
    ext x
    rw [Finmap.mem_keys, Finmap.mem_insert, ← Finmap.mem_keys]
    exact or_iff_right_of_imp fun hx => hx ▸ hk
  have hold := Finset.add_sum_erase m.keys (fun x => ((m.lookup x).map f).getD 0) hk
  have hnew := Finset.add_sum_erase m.keys
    (fun x => (((m.insert k w).lookup x).map f).getD 0) hk
  simp only [h, Finmap.lookup_insert, Option.map_some, Option.getD_some,
    sum_insert_of_not_mem (Finset.notMem_erase k m.keys)] at hold hnew
  unfold sumBy
  rw [hkeys]
  omega

/-- A removed entry takes its quantity away. -/
lemma sumBy_erase_of_lookup (h : m.lookup k = some v) : sumBy f (m.erase k) + f v = sumBy f m := by
  have hk : k ∉ m.erase k := Finmap.notMem_erase_self
  rw [← sumBy_insert_of_not_mem hk]
  refine congrArg (sumBy f) (Finmap.ext_lookup fun x => ?_)
  rw [lookup_insert_ite]
  split_ifs with hx
  · rw [hx, h]
  · rw [Finmap.lookup_erase_ne hx]

/-- The number of entries. -/
lemma card_keys_eq_sumBy (m : HashMap κ α) : m.keys.card = sumBy (fun _ => 1) m := by
  unfold sumBy
  rw [Finset.card_eq_sum_ones]
  refine Finset.sum_congr rfl fun x hx => ?_
  obtain ⟨v, hv⟩ := mem_iff_exists.mp (Finmap.mem_keys.mp hx)
  rw [hv]
  rfl

/-- The sum of the values themselves. -/
lemma total_eq_sumBy (m : HashMap κ ℕ) : total m = sumBy id m := by
  simp [total, sumBy]

/-- Overwriting a value changes the sum by the difference of the values. -/
lemma total_insert_of_lookup {m : HashMap κ ℕ} {v : ℕ} (h : m.lookup k = some v) (w : ℕ) :
    total (m.insert k w) + v = total m + w := by
  rw [total_eq_sumBy, total_eq_sumBy]
  exact sumBy_insert_of_lookup (f := id) h

/-- One value has at most the sum. -/
lemma le_sumBy (h : m.lookup k = some v) : f v ≤ sumBy f m := by
  have hk : k ∈ m.keys := Finmap.mem_keys.mpr (mem_of_lookup h)
  have hle := Finset.single_le_sum (f := fun x => ((m.lookup x).map f).getD 0)
    (fun x _ => Nat.zero_le _) hk
  simpa [sumBy, h] using hle

/-- The values at two different keys have together at most the sum. -/
lemma add_le_sumBy (hne : k ≠ k') (h : m.lookup k = some v) (h' : m.lookup k' = some w) :
    f v + f w ≤ sumBy f m := by
  have hpair : ({k, k'} : Finset κ) ⊆ m.keys := by
    intro x hx
    rcases Finset.mem_insert.mp hx with rfl | hx
    · exact Finmap.mem_keys.mpr (mem_of_lookup h)
    · rw [Finset.mem_singleton.mp hx]
      exact Finmap.mem_keys.mpr (mem_of_lookup h')
  have hle := Finset.sum_le_sum_of_subset (f := fun x => ((m.lookup x).map f).getD 0) hpair
  rw [Finset.sum_pair hne, h, h'] at hle
  exact hle

/-- Adding up in any order of iteration gives the sum. -/
lemma sumBy_eq_sum {l : List (κ × α)} (h : m.Enumerates l) :
    (l.map fun e => f e.2).sum = sumBy f m := by
  have hkeys : m.keys = (l.map Prod.fst).toFinset := by
    ext k
    rw [List.mem_toFinset, h.mem_keys, Finmap.mem_keys]
  unfold sumBy
  rw [hkeys, List.sum_toFinset _ h.1, List.map_map]
  refine congrArg List.sum (List.map_congr_left fun e he => ?_)
  rw [Function.comp_apply, (h.2 e.1 e.2).mp he]
  rfl

end HashMap

end RustStd
