import Mathlib.Data.List.Find
import QuDAG.Vault.Persistence

set_option autoImplicit false
set_option linter.dupNamespace false

/-!
# The loop of an import

An import goes through the labels of another vault. A label that can be read already is skipped;
any other one is added, below categories that are created if they are missing. Such a category has
the label of a placeholder, and where the other vault has a secret with this label, the placeholder
stays: the label can be read when its turn comes.

## Main definitions

* `Contents.importSecrets` — the loop on the secrets that the vaults hold.
* `Contents.placeholderFor` — the placeholder that the loop makes for a label.
* `Filed` — the loop finds all categories.

## Main results

* `VaultDag.Holds.importSecrets` — the loop on the graph is that on the secrets.
* `Contents.lookup_importSecrets` — what is found under a label after the loop.
* `Contents.card_importSecrets` — how many secrets there are after it.
-/

namespace QuDAG.Vault

open RustStd

/-! ## Categories -/

/-- The parts between separators contain none. -/
lemma notMem_of_mem_splitOn {α : Type} [DecidableEq α] {a : α} {l : List α} :
    ∀ {part : List α}, part ∈ l.splitOn a → a ∉ part := by
  induction l with
  | nil =>
    intro part h
    rw [List.splitOn_nil, List.mem_singleton] at h
    rw [h]
    exact List.not_mem_nil
  | cons x l ih =>
    intro part h
    rw [List.splitOn_cons_eq_if_modifyHead] at h
    split_ifs at h with hx
    · rcases List.mem_cons.mp h with rfl | h
      · exact List.not_mem_nil
      · exact ih h
    · cases hsplit : l.splitOn a with
      | nil => exact absurd hsplit (List.splitOn_ne_nil a l)
      | cons first rest =>
        rw [hsplit, List.modifyHead_cons] at h
        have hparts : ∀ {p}, p ∈ first :: rest → a ∉ p := fun {p} hp => ih (hsplit ▸ hp)
        rcases List.mem_cons.mp h with rfl | h
        · rw [List.mem_cons, not_or]
          exact ⟨fun heq => hx (beq_iff_eq.mpr heq.symm), hparts List.mem_cons_self⟩
        · exact hparts (List.mem_cons_of_mem _ h)

/-- Only labels with a slash have categories, and these have none. -/
lemma slash_of_mem_parseCategories {label category : String}
    (h : category ∈ parseCategories label) :
    '/' ∈ label.toList ∧ '/' ∉ category.toList := by
  unfold parseCategories at h
  split_ifs at h with hslash
  · refine ⟨hslash, ?_⟩
    dsimp only at h
    split_ifs at h with hparts
    · obtain ⟨part, hpart, rfl⟩ := List.mem_map.mp (List.mem_of_mem_dropLast h)
      rw [String.toList_ofList]
      exact notMem_of_mem_splitOn hpart
    · exact absurd h List.not_mem_nil
  · exact absurd h List.not_mem_nil

/-- No label is among its categories. -/
lemma self_notMem_parseCategories (label : String) : label ∉ parseCategories label := by
  intro h
  exact (slash_of_mem_parseCategories h).2 (slash_of_mem_parseCategories h).1

/-- Categories have no categories. -/
lemma notMem_parseCategories_of_mem {label category l : String}
    (h : category ∈ parseCategories label) : l ∉ parseCategories category := by
  intro hl
  exact (slash_of_mem_parseCategories h).2 (slash_of_mem_parseCategories hl).1

example : parseCategories "email/work/main" = ["email", "work"] := by decide +kernel

/-! ## The loop on the secrets -/

/-- The loop finds all categories: those of a label that is missing are stored or were imported
before. -/
def Filed : HashSet String → List String → Prop
  | _, [] => True
  | stored, label :: labels =>
    (label ∈ stored ∨ ∀ category ∈ parseCategories label, category ∈ stored) ∧
      Filed (insert label stored) labels

instance instDecidableFiled : ∀ (stored : HashSet String) (labels : List String),
    Decidable (Filed stored labels)
  | _, [] => instDecidableTrue
  | stored, label :: labels =>
    have := instDecidableFiled (insert label stored) labels
    inferInstanceAs (Decidable (_ ∧ _))

namespace Contents

/-- Import the secret with a label from another map, unless the label is there. -/
def importSecret (draws : VaultDag.AddDraws) (source contents : Contents) (label : String) :
    Contents :=
  match source.lookup label with
  | none => contents
  | some secret =>
    if label ∈ contents then contents
    else (contents.withCategories draws (parseCategories label)).insert label secret

/-- Import the secrets with some labels. -/
def importSecrets (draws : String → VaultDag.AddDraws) (source : Contents) :
    List String → Contents → Contents
  | [], contents => contents
  | label :: labels, contents =>
    importSecrets draws source labels (importSecret (draws label) source contents label)

/-- The number of secrets that are imported. -/
def imported (draws : String → VaultDag.AddDraws) (source : Contents) :
    List String → Contents → ℕ
  | [], _ => 0
  | label :: labels, contents => (if label ∈ contents then 0 else 1) +
    imported draws source labels (importSecret (draws label) source contents label)

/-- The placeholder that the loop makes for a label: the first label before it that is missing and
has it among its categories makes one. -/
def placeholderFor (draws : String → VaultDag.AddDraws) (contents : Contents)
    (labels : List String) (label : String) : Option SecretEntry :=
  ((labels.takeWhile fun l => decide (l ≠ label)).find? fun l =>
    decide (l ∉ contents ∧ label ∈ parseCategories l)).map fun l => placeholder (draws l) label

variable {source contents : Contents} {label : String}

/-- A label that is there is skipped. -/
lemma importSecret_of_mem {draws : VaultDag.AddDraws} (h : label ∈ contents) :
    importSecret draws source contents label = contents := by
  unfold importSecret
  cases source.lookup label with
  | none => rfl
  | some secret => exact if_pos h

/-- A label that is missing is added. -/
lemma importSecret_of_notMem {draws : VaultDag.AddDraws} {secret : SecretEntry}
    (h : label ∉ contents) (hsecret : source.lookup label = some secret) :
    importSecret draws source contents label =
      (contents.withCategories draws (parseCategories label)).insert label secret := by
  unfold importSecret
  rw [hsecret]
  exact if_neg h

/-- **What is found under a label after the loop**: what was there; else the placeholder that the
loop made for it; else, if the loop comes to it, the secret of the source.

**Proof sketch.** Induction on the labels. A label that makes placeholders has a slash and the
placeholders have none, so whether a later label is skipped does not depend on the placeholders
made before it, as far as it makes any itself. -/
theorem lookup_importSecrets {draws : String → VaultDag.AddDraws} {labels : List String}
    (l : String) : ∀ {contents : Contents}, labels.Nodup →
      (∀ label ∈ labels, label ∈ source) →
      (importSecrets draws source labels contents).lookup l =
        (contents.lookup l).or ((placeholderFor draws contents labels l).or
          (if l ∈ labels then source.lookup l else none)) := by
  induction labels with
  | nil =>
    intro contents _ _
    show contents.lookup l = (contents.lookup l).or (Option.or none _)
    rw [if_neg List.not_mem_nil, Option.none_or, Option.or_none]
  | cons label labels ih =>
    intro contents hnodup hsource
    obtain ⟨hlabel, hnodup⟩ := List.nodup_cons.mp hnodup
    obtain ⟨hsourceLabel, hsource⟩ := List.forall_mem_cons.mp hsource
    obtain ⟨secret, hsecret⟩ := HashMap.mem_iff_exists.mp hsourceLabel
    show (importSecrets draws source labels
      (importSecret (draws label) source contents label)).lookup l = _
    rw [ih hnodup hsource]
    by_cases hl : label = l
    · -- the loop comes to the label: placeholders are made before or never
      subst hl
      have hnone : placeholderFor draws contents (label :: labels) label = none := by
        unfold placeholderFor
        rw [List.takeWhile_cons_of_neg (by simp)]
        rfl
      rw [hnone, Option.none_or, if_pos List.mem_cons_self]
      by_cases hmem : label ∈ contents
      · obtain ⟨old, hold⟩ := HashMap.mem_iff_exists.mp hmem
        rw [importSecret_of_mem hmem, hold, Option.some_or, Option.some_or]
      · rw [importSecret_of_notMem hmem hsecret, Finmap.lookup_insert, Option.some_or,
          Finmap.lookup_eq_none.mpr hmem, Option.none_or, hsecret]
    · have hmemLabels : l ∈ label :: labels ↔ l ∈ labels := by
        rw [List.mem_cons, or_iff_right (Ne.symm hl)]
      simp only [hmemLabels]
      have htake : (label :: labels).takeWhile (fun x => decide (x ≠ l)) =
          label :: labels.takeWhile fun x => decide (x ≠ l) :=
        List.takeWhile_cons_of_pos (decide_eq_true hl)
      by_cases hmem : label ∈ contents
      · rw [importSecret_of_mem hmem]
        unfold placeholderFor
        rw [htake, List.find?_cons_of_neg (by simp [hmem])]
      · rw [importSecret_of_notMem hmem hsecret, Finmap.lookup_insert_of_ne _ (Ne.symm hl),
          lookup_withCategories, Option.or_assoc]
        congr 1
        by_cases hcategory : l ∈ parseCategories label
        · rw [if_pos hcategory, Option.some_or]
          unfold placeholderFor
          rw [htake, List.find?_cons_of_pos (by simp [hmem, hcategory])]
          rfl
        · rw [if_neg hcategory, Option.none_or]
          congr 1
          unfold placeholderFor
          rw [htake, List.find?_cons_of_neg (by simp [hcategory])]
          congr 1
          -- a later label with categories is no placeholder
          refine List.find?_congr fun x hx => ?_
          have hxLabels : x ∈ labels := (List.takeWhile_sublist _).subset hx
          have hne : x ≠ label := fun heq => hlabel (heq ▸ hxLabels)
          rw [decide_eq_decide]
          refine and_congr_left fun hxl => not_congr ?_
          rw [Finmap.mem_insert, or_iff_right hne, mem_withCategories]
          exact or_iff_left fun hxc => notMem_parseCategories_of_mem hxc hxl

/-- **How many secrets there are after the loop**: as many as were there and were imported iff the
loop finds all categories, and else more. -/
lemma card_importSecrets {draws : String → VaultDag.AddDraws} {labels : List String} :
    ∀ {contents : Contents}, (∀ label ∈ labels, label ∈ source) →
      contents.keys.card + imported draws source labels contents ≤
          (importSecrets draws source labels contents).keys.card ∧
        ((importSecrets draws source labels contents).keys.card =
          contents.keys.card + imported draws source labels contents ↔
            Filed contents.keys labels) := by
  induction labels with
  | nil => exact fun {contents} _ => ⟨le_refl _, fun _ => trivial, fun _ => rfl⟩
  | cons label labels ih =>
    intro contents hsource
    obtain ⟨hsourceLabel, hsource⟩ := List.forall_mem_cons.mp hsource
    obtain ⟨secret, hsecret⟩ := HashMap.mem_iff_exists.mp hsourceLabel
    have hrest := @ih (importSecret (draws label) source contents label) hsource
    unfold importSecrets imported Filed
    rw [Finmap.mem_keys]
    by_cases hmem : label ∈ contents
    · rw [importSecret_of_mem hmem] at hrest ⊢
      rw [if_pos hmem, Nat.zero_add, Finset.insert_eq_of_mem (Finmap.mem_keys.mpr hmem)]
      exact ⟨hrest.1, hrest.2.trans (and_iff_right (.inl hmem)).symm⟩
    · have hstep := @importSecret_of_notMem source contents label (draws label) secret hmem hsecret
      obtain ⟨hle, heq⟩ := card_withCategories (draws label) contents (parseCategories label)
      have hnot : label ∉ (contents.withCategories (draws label) (parseCategories label)).keys := by
        rw [Finmap.mem_keys, mem_withCategories]
        exact not_or.mpr ⟨hmem, self_notMem_parseCategories label⟩
      have hcard : (importSecret (draws label) source contents label).keys.card =
          (contents.withCategories (draws label) (parseCategories label)).keys.card + 1 := by
        rw [hstep, HashMap.keys_insert, Finset.card_insert_of_notMem hnot]
      rw [if_neg hmem, or_iff_right hmem]
      refine ⟨by omega, ?_⟩
      by_cases hall : ∀ category ∈ parseCategories label, category ∈ contents
      · have hkeys : (importSecret (draws label) source contents label).keys =
            insert label contents.keys := by
          rw [hstep, HashMap.keys_insert]
          congr 1
          ext l
          rw [Finmap.mem_keys, Finmap.mem_keys, mem_withCategories]
          exact or_iff_left_of_imp (hall l)
        rw [hkeys] at hrest
        have hsame := heq.mpr hall
        rw [and_iff_right fun category hc => Finmap.mem_keys.mpr (hall category hc), ← hrest.2]
        rw [hkeys] at hcard
        omega
      · have hmore : (contents.withCategories (draws label) (parseCategories label)).keys.card ≠
            contents.keys.card := fun h => hall (heq.mp h)
        refine iff_of_false (by omega) fun hboth => hall fun category hc => ?_
        exact Finmap.mem_keys.mp (hboth.1 category hc)

end Contents

/-! ## The loop on the graph -/

variable {K : VaultCrates} {crypto : VaultCrypto}

/-- The additions of the loop make new identifiers, and their entries fit. -/
def ImportSound (K : VaultCrates) (crypto : VaultCrypto) (other : Vault)
    (draws : String → VaultDag.AddDraws) : List String → VaultDag → Prop
  | [], _ => True
  | label :: labels, dag =>
    (label ∉ dag.labelIndex → ∀ secret, other.getSecret K label = .ok secret →
      dag.AddSound K (draws label) secret (parseCategories label)) ∧
    ImportSound K crypto other draws labels
      ((Session.importSecret K crypto other (draws label) label).run dag).2

namespace VaultDag.Holds

variable {dag after : VaultDag} {contents source : Contents} {other : Vault}

/-- One label. -/
lemma importSecret (hK : K.ReadsBack) (h : dag.Holds K crypto contents)
    (hother : other.dag.Holds K other.crypto source) {draws : AddDraws} {label : String} {n : ℕ}
    (hlabel : label ∈ source)
    (hsound : label ∉ dag.labelIndex → ∀ secret, other.getSecret K label = .ok secret →
      dag.AddSound K draws secret (parseCategories label))
    (hrun : (Session.importSecret K crypto other draws label).run dag = (.ok n, after)) :
    after.Holds K crypto (Contents.importSecret draws source contents label) ∧
      n = if label ∈ contents then 0 else 1 := by
  obtain ⟨secret, hsecret⟩ := HashMap.mem_iff_exists.mp hlabel
  have hread : other.getSecret K label = .ok secret := hother.getSecret_of_some hsecret
  unfold Session.importSecret at hrun
  rw [Fallible.run_bind_of_ok (run_get dag)] at hrun
  cases hlookup : contents.lookup label with
  | some old =>
    have hmem : label ∈ contents := HashMap.mem_of_lookup hlookup
    rw [h.getSecret_of_some hlookup] at hrun
    obtain ⟨rfl, rfl⟩ := Fallible.run_pure_ok.mp hrun
    rw [Contents.importSecret_of_mem hmem, if_pos hmem]
    exact ⟨h, rfl⟩
  | none =>
    have hmem : label ∉ contents := Finmap.lookup_eq_none.mp hlookup
    rw [h.getSecret_of_none hlookup] at hrun
    dsimp only at hrun
    obtain ⟨secret', mid, hget, hrun⟩ := Fallible.run_bind_ok.mp hrun
    obtain ⟨hget', rfl⟩ := Fallible.run_ofExcept_ok.mp hget
    obtain rfl : secret = secret' := Except.ok.inj (hread.symm.trans hget')
    obtain ⟨id, last, hadd, hrun⟩ := Fallible.run_bind_ok.mp hrun
    obtain ⟨rfl, rfl⟩ := Fallible.run_pure_ok.mp hrun
    have hsecretLabel : secret.label = label := hother.label_eq hsecret
    have hafter := (h.addSecret hK (hsound (fun hm => hmem (h.mem_labelIndex.mp hm)) secret hread)
      (hsecretLabel.symm ▸ self_notMem_parseCategories label) hadd).2
    rw [hsecretLabel] at hafter
    rw [Contents.importSecret_of_notMem hmem hsecret, if_neg hmem]
    exact ⟨hafter, rfl⟩

/-- **The loop on the graph is that on the secrets.** -/
lemma importSecrets (hK : K.ReadsBack) (hother : other.dag.Holds K other.crypto source)
    {draws : String → AddDraws} {labels : List String} :
    ∀ {dag after : VaultDag} {contents : Contents} {n : ℕ}, dag.Holds K crypto contents →
      (∀ label ∈ labels, label ∈ source) → ImportSound K crypto other draws labels dag →
      (Session.importSecrets K crypto other draws labels).run dag = (.ok n, after) →
      after.Holds K crypto (Contents.importSecrets draws source labels contents) ∧
        n = Contents.imported draws source labels contents := by
  induction labels with
  | nil =>
    intro dag after contents n h _ _ hrun
    obtain ⟨rfl, rfl⟩ := Fallible.run_pure_ok.mp hrun
    exact ⟨h, rfl⟩
  | cons label labels ih =>
    intro dag after contents n h hlabels hsound hrun
    obtain ⟨hlabel, hlabels⟩ := List.forall_mem_cons.mp hlabels
    obtain ⟨first, mid, hfirst, hrun⟩ := Fallible.run_bind_ok.mp hrun
    obtain ⟨rest, last, hrest, hrun⟩ := Fallible.run_bind_ok.mp hrun
    obtain ⟨rfl, rfl⟩ := Fallible.run_pure_ok.mp hrun
    obtain ⟨hmid, rfl⟩ := h.importSecret hK hother hlabel hsound.1 hfirst
    have hsoundRest := hsound.2
    rw [hfirst] at hsoundRest
    obtain ⟨hafter, rfl⟩ := ih hmid hlabels hsoundRest hrest
    exact ⟨hafter, rfl⟩

end VaultDag.Holds

end QuDAG.Vault
