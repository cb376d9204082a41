import QuDAG.Lib.Collections

/-!
# Maps to sets

A map whose values are sets relates its keys to the members of their sets; a key that is absent has
no members.

## Main definitions

* `RustStd.HashMap.members` — the members at a key.
* `RustStd.HashMap.addMember`, `RustStd.HashMap.removeMember` — change the set at a key.

## Main results

* `RustStd.HashMap.mem_members_foldl_addMember`, `RustStd.HashMap.mem_members_foldl_removeMember` —
  the members after a value was added at, or removed from, several keys.
-/

namespace RustStd

namespace HashMap

variable {κ α : Type} [DecidableEq κ]

/-- The members at a key. -/
def members (m : HashMap κ (HashSet α)) (k : κ) : HashSet α := (m.lookup k).getD ∅

/-- The members at a key that is present. -/
lemma members_of_lookup {m : HashMap κ (HashSet α)} {k : κ} {s : HashSet α}
    (h : m.lookup k = some s) : m.members k = s := by
  rw [members, h, Option.getD_some]

/-- There are no members at a key that is absent. -/
lemma members_of_notMem {m : HashMap κ (HashSet α)} {k : κ} (h : k ∉ m) : m.members k = ∅ := by
  rw [members, Finmap.lookup_eq_none.mpr h, Option.getD_none]

/-- The members after the set at a key was replaced. -/
lemma members_insert (m : HashMap κ (HashSet α)) (k k' : κ) (s : HashSet α) :
    members (m.insert k s) k' = if k' = k then s else m.members k' := by
  unfold members
  rw [lookup_insert_ite]
  split_ifs with h
  · rfl
  · rfl

/-- The members after a key was removed. -/
lemma members_erase (m : HashMap κ (HashSet α)) (k k' : κ) :
    members (m.erase k) k' = if k' = k then ∅ else m.members k' := by
  unfold members
  split_ifs with h
  · rw [h, Finmap.lookup_erase, Option.getD_none]
  · rw [Finmap.lookup_erase_ne h]

variable [DecidableEq α]

/-- Add a value to the set at a key, which is empty if the key is absent. -/
def addMember (m : HashMap κ (HashSet α)) (k : κ) (a : α) : HashMap κ (HashSet α) :=
  m.insert k (Insert.insert a (m.members k))

/-- Remove a value from the set at a key, if the key is present. -/
def removeMember (m : HashMap κ (HashSet α)) (k : κ) (a : α) : HashMap κ (HashSet α) :=
  match m.lookup k with
  | some s => m.insert k (s.erase a)
  | none => m

/-- The members after an addition. -/
lemma mem_members_addMember {m : HashMap κ (HashSet α)} {k k' : κ} {a b : α} :
    b ∈ members (m.addMember k a) k' ↔ (k' = k ∧ b = a) ∨ b ∈ m.members k' := by
  rw [addMember, members_insert]
  split_ifs with h
  · rw [Finset.mem_insert, h]
    simp
  · simp [h]

/-- The members after a removal. -/
lemma mem_members_removeMember {m : HashMap κ (HashSet α)} {k k' : κ} {a b : α} :
    b ∈ members (m.removeMember k a) k' ↔ b ∈ m.members k' ∧ ¬ (k' = k ∧ b = a) := by
  unfold removeMember
  cases hlookup : m.lookup k with
  | none =>
    have hempty : m.members k = ∅ := members_of_notMem (Finmap.lookup_eq_none.mp hlookup)
    refine ⟨fun h => ⟨h, fun ⟨hk, _⟩ => ?_⟩, fun h => h.1⟩
    rw [hk, hempty] at h
    exact absurd h (Finset.notMem_empty b)
  | some s =>
    dsimp only
    rw [members_insert]
    split_ifs with h
    · rw [Finset.mem_erase, h, members_of_lookup hlookup]
      simp [and_comm]
    · simp [h]

/-- The members after a value was added at several keys. -/
lemma mem_members_foldl_addMember {ks : List κ} {a b : α} {k' : κ} :
    ∀ {m : HashMap κ (HashSet α)},
      b ∈ members (ks.foldl (fun m k => addMember m k a) m) k' ↔
        (k' ∈ ks ∧ b = a) ∨ b ∈ m.members k' := by
  induction ks with
  | nil => simp
  | cons k ks ih =>
    intro m
    rw [List.foldl_cons, ih, mem_members_addMember, List.mem_cons]
    tauto

/-- The members after a value was removed from several keys. -/
lemma mem_members_foldl_removeMember {ks : List κ} {a b : α} {k' : κ} :
    ∀ {m : HashMap κ (HashSet α)},
      b ∈ members (ks.foldl (fun m k => removeMember m k a) m) k' ↔
        b ∈ m.members k' ∧ ¬ (k' ∈ ks ∧ b = a) := by
  induction ks with
  | nil => simp
  | cons k ks ih =>
    intro m
    rw [List.foldl_cons, ih, mem_members_removeMember, List.mem_cons]
    tauto

end HashMap

end RustStd
