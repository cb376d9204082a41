import QuDAG.Vault.RoundTrip
import QuDAG.Vault.Vault

/-!
# The secrets that a vault holds

What a vault is for is a map from labels to secrets. The graph holds such a map if every label leads
to a vertex whose encrypted secret is read as the secret of the label, and every vertex is found in
this way. The calls on the graph are calls on the map: an addition inserts its secret after
placeholders for the categories that are missing, an update replaces a secret, a deletion removes
one, and writing and reading back keeps them all.

## Main definitions

* `VaultDag.Holds` — the graph holds the secrets of a map.
* `Contents.withCategories` — the map with placeholders for missing categories.

## Main results

* `VaultDag.Holds.getSecret` — the graph answers as the map does.
* `VaultDag.Holds.addSecret`, `VaultDag.Holds.updateSecret`, `VaultDag.Holds.deleteSecret` — the
  calls on the graph are calls on the map.
* `VaultDag.Holds.deserialize_serialize` — writing and reading back.
-/

namespace QuDAG.Vault

open RustStd

/-- The secrets of a vault by their labels. -/
abbrev Contents : Type := HashMap String SecretEntry

namespace Contents

/-- The placeholder for a category that is missing. -/
def placeholder (draws : VaultDag.AddDraws) (label : String) : SecretEntry :=
  .new label "" "" (draws.category label).created

/-- The secrets with a placeholder for a category, if it is missing. -/
def withCategory (draws : VaultDag.AddDraws) (contents : Contents) (label : String) : Contents :=
  if label ∈ contents then contents else contents.insert label (placeholder draws label)

/-- The secrets with placeholders for the categories that are missing. -/
def withCategories (draws : VaultDag.AddDraws) (contents : Contents) (labels : List String) :
    Contents :=
  labels.foldl (withCategory draws) contents

/-- A label after a category was added. -/
lemma lookup_withCategory (draws : VaultDag.AddDraws) (contents : Contents) (label l : String) :
    (withCategory draws contents label).lookup l =
      (contents.lookup l).or (if l = label then some (placeholder draws l) else none) := by
  unfold withCategory
  split_ifs with hmem hl hl
  · obtain ⟨secret, hsecret⟩ := HashMap.mem_iff_exists.mp hmem
    rw [hl, hsecret, Option.some_or]
  · rw [Option.or_none]
  · rw [hl, Finmap.lookup_insert, Finmap.lookup_eq_none.mpr hmem, Option.none_or]
  · rw [Finmap.lookup_insert_of_ne _ hl, Option.or_none]

/-- A label after categories were added. -/
lemma lookup_withCategories (draws : VaultDag.AddDraws) {labels : List String} (l : String) :
    ∀ {contents : Contents}, (withCategories draws contents labels).lookup l =
      (contents.lookup l).or (if l ∈ labels then some (placeholder draws l) else none) := by
  induction labels with
  | nil =>
    intro contents
    rw [if_neg List.not_mem_nil, Option.or_none]
    rfl
  | cons label labels ih =>
    intro contents
    show (withCategories draws (withCategory draws contents label) labels).lookup l = _
    rw [ih, lookup_withCategory, Option.or_assoc]
    congr 1
    by_cases hl : l = label
    · rw [if_pos hl, Option.some_or]
      exact (if_pos (List.mem_cons.mpr (.inl hl))).symm
    · rw [if_neg hl, Option.none_or]
      simp only [List.mem_cons, or_iff_right hl]

/-- Which labels there are after categories were added. -/
lemma mem_withCategories {draws : VaultDag.AddDraws} {contents : Contents} {labels : List String}
    {l : String} : l ∈ withCategories draws contents labels ↔ l ∈ contents ∨ l ∈ labels := by
  have hsome : ∀ {m : Contents}, l ∈ m ↔ (m.lookup l).isSome = true := fun {m} => by
    rw [HashMap.mem_iff_exists, Option.isSome_iff_exists]
  rw [hsome, lookup_withCategories, Option.isSome_or, Bool.or_eq_true, ← hsome]
  split_ifs with hl
  · simp [hl]
  · simp [hl]

/-- Categories add no label iff all of them are there. -/
lemma card_withCategories (draws : VaultDag.AddDraws) (contents : Contents)
    (labels : List String) :
    contents.keys.card ≤ (withCategories draws contents labels).keys.card ∧
      ((withCategories draws contents labels).keys.card = contents.keys.card ↔
        ∀ label ∈ labels, label ∈ contents) := by
  have hsub : contents.keys ⊆ (withCategories draws contents labels).keys := fun l hl =>
    Finmap.mem_keys.mpr (mem_withCategories.mpr (.inl (Finmap.mem_keys.mp hl)))
  refine ⟨Finset.card_le_card hsub, fun hcard label hlabel => ?_, fun hall => ?_⟩
  · have heq := Finset.eq_of_subset_of_card_le hsub (le_of_eq hcard)
    rw [← Finmap.mem_keys, heq, Finmap.mem_keys, mem_withCategories]
    exact .inr hlabel
  · congr 1
    ext l
    rw [Finmap.mem_keys, Finmap.mem_keys, mem_withCategories]
    exact or_iff_left_of_imp (hall l)

end Contents

variable {K : VaultCrates} {crypto : VaultCrypto}

/-- The encrypted secret is read as the entry, which has its label. -/
def VaultCrypto.Opens (K : VaultCrates) (crypto : VaultCrypto) (encrypted : EncryptedSecret)
    (secret : SecretEntry) : Prop :=
  crypto.decryptSecret K encrypted = .ok secret ∧ secret.label = encrypted.label

/-- The lengths and times of an entry fit the form in which it is written. -/
def SecretEntry.Fits (K : VaultCrates) (fields : HashMap.Iteration String String)
    (secret : SecretEntry) : Prop :=
  (WireEntry.codec K.toCrates).Valid (secret.wire fields)

/-- What was encrypted is opened. -/
lemma VaultCrypto.opens_encryptSecret (hK : K.ReadsBack) {fields : HashMap.Iteration String String}
    {nonce : Nonce} {secret : SecretEntry} {encrypted : EncryptedSecret}
    (hfits : secret.Fits K fields)
    (h : crypto.encryptSecret K.toCrates fields nonce secret = .ok encrypted) :
    crypto.Opens K encrypted secret :=
  ⟨decryptSecret_encryptSecret hK hfits h, (VaultDag.label_encryptSecret h).symm⟩

namespace VaultDag

variable {dag : VaultDag} {contents : Contents}

/-- The graph holds the secrets of a map. -/
structure Holds (K : VaultCrates) (crypto : VaultCrypto) (dag : VaultDag) (contents : Contents) :
    Prop where
  /-- A label leads to its secret. -/
  labels : ∀ label id, dag.labelIndex.lookup label = some id →
    ∃ encrypted secret, dag.secrets.lookup id = some encrypted ∧ encrypted.label = label ∧
      contents.lookup label = some secret ∧ crypto.Opens K encrypted secret
  /-- Every vertex is found by its label. -/
  index : ∀ id encrypted, dag.secrets.lookup id = some encrypted →
    dag.labelIndex.lookup encrypted.label = some id
  /-- The map has no other labels. -/
  only : ∀ label, label ∈ contents → label ∈ dag.labelIndex

/-- The label of a secret that was copied is there. -/
lemma mem_labelIndex_foldl_copyVertex {read : VertexId → HashSet.Iteration VertexId}
    {now : DateTime} {e : VertexId × EncryptedSecret} {l : List (VertexId × EncryptedSecret)} :
    ∀ copy : VaultDag, e ∈ l →
      e.2.label ∈ (l.foldl (copyVertex dag read now) copy).labelIndex := by
  have hkeep : ∀ (l : List (VertexId × EncryptedSecret)) (copy : VaultDag),
      e.2.label ∈ copy.labelIndex →
        e.2.label ∈ (l.foldl (copyVertex dag read now) copy).labelIndex := by
    intro l
    induction l with
    | nil => exact fun _ h => h
    | cons e' l ih => exact fun copy h => ih _ (Finmap.mem_insert.mpr (.inr h))
  induction l with
  | nil => exact fun _ h => absurd h List.not_mem_nil
  | cons e' l ih =>
    intro copy h
    rcases List.mem_cons.mp h with rfl | h
    · exact hkeep l _ (Finmap.mem_insert.mpr (.inl rfl))
    · exact ih _ h

namespace Holds

/-- The labels are those of the map. -/
lemma mem_labelIndex (h : Holds K crypto dag contents) {label : String} :
    label ∈ dag.labelIndex ↔ label ∈ contents := by
  refine ⟨fun hmem => ?_, h.only label⟩
  obtain ⟨id, hid⟩ := HashMap.mem_iff_exists.mp hmem
  obtain ⟨encrypted, secret, -, -, hsecret, -⟩ := h.labels label id hid
  exact HashMap.mem_of_lookup hsecret

/-- A label that is missing in the map leads nowhere. -/
lemma lookup_eq_none (h : Holds K crypto dag contents) {label : String}
    (hlabel : contents.lookup label = none) : dag.labelIndex.lookup label = none := by
  rw [Finmap.lookup_eq_none] at hlabel ⊢
  exact fun hmem => hlabel (h.mem_labelIndex.mp hmem)

/-- **A label of the map is answered with its secret.** -/
lemma getSecret_of_some (h : Holds K crypto dag contents) {label : String} {secret : SecretEntry}
    (hsecret : contents.lookup label = some secret) :
    dag.getSecret K crypto label = .ok secret := by
  obtain ⟨id, hid⟩ := HashMap.mem_iff_exists.mp (h.only label (HashMap.mem_of_lookup hsecret))
  obtain ⟨encrypted, secret', hencrypted, -, hsecret', hopens⟩ := h.labels label id hid
  obtain rfl : secret = secret' := Option.some.inj (hsecret.symm.trans hsecret')
  unfold VaultDag.getSecret
  rw [hid]
  dsimp only
  rw [hencrypted]
  exact hopens.1

/-- Any other label is not found. -/
lemma getSecret_of_none (h : Holds K crypto dag contents) {label : String}
    (hlabel : contents.lookup label = none) :
    dag.getSecret K crypto label = .error (.secretNotFound label) := by
  unfold VaultDag.getSecret
  rw [h.lookup_eq_none hlabel]

/-- **The graph answers as the map does.** -/
lemma getSecret_eq_ok (h : Holds K crypto dag contents) {label : String} {secret : SecretEntry} :
    dag.getSecret K crypto label = .ok secret ↔ contents.lookup label = some secret := by
  refine ⟨fun hok => ?_, h.getSecret_of_some⟩
  cases hlookup : contents.lookup label with
  | none =>
    rw [h.getSecret_of_none hlookup] at hok
    cases hok
  | some secret' =>
    rw [h.getSecret_of_some hlookup] at hok
    rw [Except.ok.inj hok]

/-- The secrets have the labels that they are found by. -/
lemma label_eq (h : Holds K crypto dag contents) {label : String} {secret : SecretEntry}
    (hsecret : contents.lookup label = some secret) : secret.label = label := by
  obtain ⟨id, hid⟩ := HashMap.mem_iff_exists.mp (h.only label (HashMap.mem_of_lookup hsecret))
  obtain ⟨encrypted, secret', -, hlabel, hsecret', hopens⟩ := h.labels label id hid
  rw [hsecret] at hsecret'
  rw [Option.some.inj hsecret', hopens.2, hlabel]

/-- The map of the secrets is determined. -/
lemma unique (h : Holds K crypto dag contents) {contents' : Contents}
    (h' : Holds K crypto dag contents') : contents' = contents := by
  refine Finmap.ext_lookup fun label => Option.ext fun secret => ?_
  rw [← h.getSecret_eq_ok, h'.getSecret_eq_ok]

/-- There are as many vertices as secrets. -/
lemma card_secrets (h : Holds K crypto dag contents) :
    dag.secrets.keys.card = contents.keys.card := by
  let label : VertexId → String := fun id =>
    ((dag.secrets.lookup id).map EncryptedSecret.label).getD ""
  have hlabel : ∀ {id encrypted}, dag.secrets.lookup id = some encrypted →
      label id = encrypted.label := fun {id encrypted} hid => by
    show ((dag.secrets.lookup id).map _).getD "" = _
    rw [hid]
    rfl
  have himage : contents.keys = dag.secrets.keys.image label := by
    ext l
    rw [Finmap.mem_keys, ← h.mem_labelIndex, Finset.mem_image]
    constructor
    · intro hl
      obtain ⟨id, hid⟩ := HashMap.mem_iff_exists.mp hl
      obtain ⟨encrypted, -, hencrypted, rfl, -⟩ := h.labels l id hid
      exact ⟨id, Finmap.mem_keys.mpr (HashMap.mem_of_lookup hencrypted), hlabel hencrypted⟩
    · rintro ⟨id, hid, rfl⟩
      obtain ⟨encrypted, hencrypted⟩ := HashMap.mem_iff_exists.mp (Finmap.mem_keys.mp hid)
      rw [hlabel hencrypted]
      exact HashMap.mem_of_lookup (h.index id encrypted hencrypted)
  rw [himage, Finset.card_image_of_injOn]
  intro id hid id' hid' heq
  obtain ⟨encrypted, hencrypted⟩ := HashMap.mem_iff_exists.mp (Finmap.mem_keys.mp hid)
  obtain ⟨encrypted', hencrypted'⟩ := HashMap.mem_iff_exists.mp (Finmap.mem_keys.mp hid')
  rw [hlabel hencrypted, hlabel hencrypted'] at heq
  have hfound := h.index id encrypted hencrypted
  rw [heq, h.index id' encrypted' hencrypted'] at hfound
  exact (Option.some.inj hfound).symm

/-- A new vault holds no secrets. -/
lemma new (rootId : VertexId) (now : DateTime) : Holds K crypto (new rootId now) ∅ where
  labels _ _ h := by cases h
  index _ _ h := by cases h
  only _ h := absurd h Finmap.notMem_empty

/-- Only the secrets and their labels matter. -/
lemma congr (h : Holds K crypto dag contents) {other : VaultDag}
    (hsecrets : other.secrets = dag.secrets) (hindex : other.labelIndex = dag.labelIndex) :
    Holds K crypto other contents where
  labels := by
    rw [hsecrets, hindex]
    exact h.labels
  index := by
    rw [hsecrets, hindex]
    exact h.index
  only := by
    rw [hindex]
    exact h.only

/-! ## Lists -/

/-- The labels that are listed are those of the map but the empty one, each once. -/
lemma listSecrets (h : Holds K crypto dag contents)
    (secrets : HashMap.Iteration VertexId EncryptedSecret) :
    (dag.listSecrets secrets).Nodup ∧
      ∀ label, label ∈ dag.listSecrets secrets ↔ label ∈ contents ∧ label ≠ "" := by
  have hl := secrets.enumerates dag.secrets
  have hmem : ∀ {encrypted : EncryptedSecret},
      encrypted ∈ (secrets.order dag.secrets).map Prod.snd ↔
        ∃ id, dag.secrets.lookup id = some encrypted := fun {encrypted} => by
    rw [List.mem_map]
    constructor
    · rintro ⟨e, he, rfl⟩
      exact ⟨e.1, (hl.2 _ _).mp he⟩
    · rintro ⟨id, hid⟩
      exact ⟨(id, encrypted), (hl.2 _ _).mpr hid, rfl⟩
  constructor
  · have hlabels :
        (((secrets.order dag.secrets).map Prod.snd).map EncryptedSecret.label).Nodup := by
      rw [List.map_map]
      refine List.Nodup.map_on (fun e he e' he' heq => ?_) hl.1.of_map
      have hfound := h.index e.1 e.2 ((hl.2 _ _).mp he)
      rw [show e.2.label = e'.2.label from heq, h.index e'.1 e'.2 ((hl.2 _ _).mp he')] at hfound
      obtain hid : e'.1 = e.1 := Option.some.inj hfound
      have hsecret := (hl.2 _ _).mp he
      rw [← hid, (hl.2 _ _).mp he'] at hsecret
      exact Prod.ext hid.symm (Option.some.inj hsecret).symm
    exact hlabels.sublist (List.Sublist.map _ List.filter_sublist)
  · intro label
    unfold VaultDag.listSecrets
    rw [List.mem_map]
    constructor
    · rintro ⟨encrypted, hencrypted, rfl⟩
      obtain ⟨hstored, hfilter⟩ := List.mem_filter.mp hencrypted
      obtain ⟨id, hid⟩ := hmem.mp hstored
      refine ⟨h.mem_labelIndex.mp (HashMap.mem_of_lookup (h.index id encrypted hid)), ?_⟩
      rintro hempty
      rw [hempty] at hfilter
      cases hfilter
    · rintro ⟨hlabel, hne⟩
      obtain ⟨id, hid⟩ := HashMap.mem_iff_exists.mp (h.only label hlabel)
      obtain ⟨encrypted, secret, hencrypted, rfl, -, hopens⟩ := h.labels label id hid
      refine ⟨encrypted, List.mem_filter.mpr ⟨hmem.mpr ⟨id, hencrypted⟩, ?_⟩, rfl⟩
      obtain ⟨plaintext, hplaintext, -⟩ := bind_eq_ok.mp hopens.1
      have hdata := VaultCrypto.ne_nil_of_decrypt hplaintext
      rw [Bool.and_eq_true, Bool.not_eq_true', Bool.not_eq_true', List.isEmpty_eq_false_iff]
      refine ⟨?_, hdata⟩
      rw [Bool.eq_false_iff]
      exact fun hempty => hne (String.isEmpty_iff.mp hempty)

/-! ## The calls on the graph -/

/-- A new vertex for a label that is missing. -/
lemma insertVertex (h : Holds K crypto dag contents) {id : VertexId} {encrypted : EncryptedSecret}
    {secret : SecretEntry} {parentIds : HashSet VertexId} {order : List VertexId} {now : DateTime}
    (hid : id ∉ dag.secrets) (hlabel : encrypted.label ∉ contents)
    (hopens : crypto.Opens K encrypted secret) :
    Holds K crypto (VaultDag.insertVertex id encrypted parentIds order now dag)
      (contents.insert encrypted.label secret) where
  labels label id' hlookup := by
    replace hlookup : (dag.labelIndex.insert encrypted.label id).lookup label = some id' := hlookup
    show ∃ e s, (dag.secrets.insert id encrypted).lookup id' = some e ∧ _
    rw [HashMap.lookup_insert_ite] at hlookup
    split_ifs at hlookup with heq
    · obtain rfl := Option.some.inj hlookup
      subst heq
      exact ⟨encrypted, secret, Finmap.lookup_insert _, rfl, Finmap.lookup_insert _, hopens⟩
    · obtain ⟨e, s, he, hel, hs, hopens'⟩ := h.labels label id' hlookup
      have hne : id' ≠ id := fun hid' => hid (hid' ▸ HashMap.mem_of_lookup he)
      refine ⟨e, s, ?_, hel, ?_, hopens'⟩
      · rw [Finmap.lookup_insert_of_ne _ hne, he]
      · rw [Finmap.lookup_insert_of_ne _ heq, hs]
  index id' e he := by
    replace he : (dag.secrets.insert id encrypted).lookup id' = some e := he
    show (dag.labelIndex.insert encrypted.label id).lookup e.label = some id'
    rw [HashMap.lookup_insert_ite] at he
    split_ifs at he with heq
    · rw [← Option.some.inj he, Finmap.lookup_insert, heq]
    · have hfound := h.index id' e he
      have hne : e.label ≠ encrypted.label := fun hel =>
        hlabel (hel ▸ h.mem_labelIndex.mp (HashMap.mem_of_lookup hfound))
      rw [Finmap.lookup_insert_of_ne _ hne, hfound]
  only label hmem := by
    show label ∈ dag.labelIndex.insert encrypted.label id
    rw [Finmap.mem_insert] at hmem ⊢
    exact hmem.imp_right (h.only label)

/-- A category that is created has an encrypted entry. -/
lemma run_createCategory_ok {fields : HashMap.Iteration String String} {draws : CategoryDraws}
    {label : String} {id : VertexId} {after : VaultDag}
    (hmissing : dag.labelIndex.lookup label = none)
    (hrun : (createCategory K.toCrates crypto fields draws label).run dag = (.ok id, after)) :
    ∃ encrypted, crypto.encryptSecret K.toCrates fields draws.nonce
        (.new label "" "" draws.created) = .ok encrypted ∧
      after = VaultDag.insertVertex draws.vertexId encrypted {dag.rootId} [dag.rootId] draws.now
        dag := by
  unfold createCategory at hrun
  rw [Fallible.run_bind_of_ok (run_get dag), hmissing] at hrun
  dsimp only at hrun
  obtain ⟨encrypted, mid, hencrypt, hrun⟩ := Fallible.run_bind_ok.mp hrun
  obtain ⟨hencrypted, rfl⟩ := Fallible.run_ofExcept_ok.mp hencrypt
  obtain ⟨_, mid, hmodify, hrun⟩ := Fallible.run_bind_ok.mp hrun
  rw [← (Fallible.run_pure_ok.mp hrun).2, ← Fallible.run_modify_ok.mp hmodify]
  exact ⟨encrypted, hencrypted, rfl⟩

/-- **Looking up the parents** adds placeholders for the categories that are missing.

**Proof sketch.** Induction on the labels. The identifiers for the labels that are still missing
remain new, as does the identifier of the secret. -/
lemma findParents (hK : K.ReadsBack) {draws : AddDraws} {labels : List String} :
    ∀ {parentIds found : HashSet VertexId} {dag after : VaultDag} {contents : Contents},
      Holds K crypto dag contents → dag.IsFresh draws.vertexId →
      dag.FreshCategories draws labels →
      (∀ label ∈ labels, (Contents.placeholder draws label).Fits K draws.fields) →
      (VaultDag.findParents K.toCrates crypto draws labels parentIds).run dag =
        (.ok found, after) →
      Holds K crypto after (contents.withCategories draws labels) ∧
        draws.vertexId ∉ after.secrets := by
  induction labels with
  | nil =>
    intro parentIds found dag after contents h hfresh _ _ hrun
    obtain ⟨-, rfl⟩ := Fallible.run_pure_ok.mp hrun
    exact ⟨h, hfresh.2⟩
  | cons label labels ih =>
    intro parentIds found dag after contents h hfresh hcategories hfits hrun
    obtain ⟨hfitsLabel, hfits⟩ := List.forall_mem_cons.mp hfits
    unfold VaultDag.findParents at hrun
    rw [Fallible.run_bind_of_ok (run_get dag)] at hrun
    show Holds K crypto after
      ((contents.withCategory draws label).withCategories draws labels) ∧ _
    cases hlookup : dag.labelIndex.lookup label with
    | some id =>
      rw [hlookup] at hrun
      have hmem : label ∈ contents := h.mem_labelIndex.mp (HashMap.mem_of_lookup hlookup)
      rw [show contents.withCategory draws label = contents from if_pos hmem]
      exact ih h hfresh hcategories.tail hfits hrun
    | none =>
      have hmissing : label ∉ dag.labelIndex := Finmap.lookup_eq_none.mp hlookup
      have hnot : label ∉ contents := fun hmem => hmissing (h.only label hmem)
      rw [hlookup] at hrun
      dsimp only at hrun
      obtain ⟨id, mid, hcreate, hrun⟩ := Fallible.run_bind_ok.mp hrun
      obtain ⟨encrypted, hencrypted, rfl⟩ := run_createCategory_ok hlookup hcreate
      obtain ⟨hnew, hother, -⟩ := hcategories label (.head _) hmissing
      have hopens : crypto.Opens K encrypted (Contents.placeholder draws label) :=
        VaultCrypto.opens_encryptSecret hK hfitsLabel hencrypted
      have hlabel : encrypted.label = label := label_encryptSecret hencrypted
      have hnext := @insertVertex _ _ _ _ h _ _ _ {dag.rootId} [dag.rootId]
        (draws.category label).now hnew.2 (hlabel.symm ▸ hnot) hopens
      rw [hlabel] at hnext
      rw [show contents.withCategory draws label = _ from if_neg hnot]
      refine ih hnext ⟨hfresh.1, fun hmem => ?_⟩ (hcategories.created hmissing hlabel _) hfits hrun
      rcases Finmap.mem_insert.mp hmem with heq | hmem
      · exact hother heq.symm
      · exact hfresh.2 hmem

end Holds

/-- The identifiers that an addition makes are new, and its entries fit. -/
structure AddSound (K : VaultCrates) (dag : VaultDag) (draws : AddDraws) (secret : SecretEntry)
    (labels : List String) : Prop where
  /-- The identifier of the secret. -/
  fresh : dag.IsFresh draws.vertexId
  /-- The identifiers of the categories. -/
  categories : dag.FreshCategories draws labels
  /-- The entry of the secret. -/
  fits : secret.Fits K draws.fields
  /-- The entries of the categories. -/
  categoryFits : ∀ label ∈ labels, (Contents.placeholder draws label).Fits K draws.fields

namespace Holds

/-- **An addition** inserts its secret, whose label was missing, after placeholders for the
categories that are missing. -/
lemma addSecret (hK : K.ReadsBack) (h : Holds K crypto dag contents) {draws : AddDraws}
    {secret : SecretEntry} {labels : List String} {id : VertexId} {after : VaultDag}
    (hsound : dag.AddSound K draws secret labels) (hlabel : secret.label ∉ labels)
    (hrun : (VaultDag.addSecret K.toCrates crypto draws secret labels).run dag =
      (.ok id, after)) :
    secret.label ∉ contents ∧
      Holds K crypto after ((contents.withCategories draws labels).insert secret.label secret) := by
  unfold VaultDag.addSecret at hrun
  rw [Fallible.run_bind_of_ok (run_get dag)] at hrun
  by_cases hexists : secret.label ∈ dag.labelIndex
  · rw [if_pos hexists, Fallible.run_fail] at hrun
    cases hrun
  have hnot : secret.label ∉ contents := fun hmem => hexists (h.only _ hmem)
  rw [if_neg hexists] at hrun
  obtain ⟨encrypted, mid, hencrypt, hrun⟩ := Fallible.run_bind_ok.mp hrun
  obtain ⟨hencrypted, rfl⟩ := Fallible.run_ofExcept_ok.mp hencrypt
  have hencryptedLabel : encrypted.label = secret.label := label_encryptSecret hencrypted
  have hinsert : ∀ {parentIds : HashSet VertexId} {mid : VaultDag},
      Holds K crypto mid (contents.withCategories draws labels) →
      draws.vertexId ∉ mid.secrets →
      (do
        Fallible.modify (VaultDag.insertVertex draws.vertexId encrypted parentIds
          (draws.parents.order parentIds) draws.now)
        pure draws.vertexId : Fallible VaultError VaultDag VertexId).run mid = (.ok id, after) →
      Holds K crypto after
        ((contents.withCategories draws labels).insert secret.label secret) := by
    intro parentIds mid hmid hfresh hrun
    obtain ⟨_, last, hmodify, hrun⟩ := Fallible.run_bind_ok.mp hrun
    obtain ⟨-, rfl⟩ := Fallible.run_pure_ok.mp hrun
    obtain rfl := Fallible.run_modify_ok.mp hmodify
    rw [← hencryptedLabel]
    refine hmid.insertVertex hfresh ?_ (VaultCrypto.opens_encryptSecret hK hsound.fits hencrypted)
    rw [hencryptedLabel]
    exact fun hmem => (Contents.mem_withCategories.mp hmem).elim hnot hlabel
  refine ⟨hnot, ?_⟩
  by_cases hempty : labels.isEmpty = true
  · rw [if_pos hempty] at hrun
    obtain ⟨parentIds, mid, hparents, hrun⟩ := Fallible.run_bind_ok.mp hrun
    obtain ⟨-, rfl⟩ := Fallible.run_pure_ok.mp hparents
    refine hinsert ?_ hsound.fresh.2 hrun
    rw [List.isEmpty_iff.mp hempty]
    exact h
  · rw [if_neg hempty] at hrun
    obtain ⟨parentIds, mid, hparents, hrun⟩ := Fallible.run_bind_ok.mp hrun
    obtain ⟨hmid, hfresh⟩ :=
      findParents hK h hsound.fresh hsound.categories hsound.categoryFits hparents
    exact hinsert hmid hfresh hrun

/-- **An update** that keeps the label replaces the secret. -/
lemma updateSecret (hK : K.ReadsBack) (h : Holds K crypto dag contents)
    {fields : HashMap.Iteration String String} {nonce : Nonce} {newSecret : SecretEntry}
    {after : VaultDag} {u : Unit} (hfits : newSecret.Fits K fields)
    (hrun : (VaultDag.updateSecret K.toCrates crypto fields nonce newSecret.label newSecret).run
      dag = (.ok u, after)) :
    Holds K crypto after (contents.insert newSecret.label newSecret) := by
  unfold VaultDag.updateSecret at hrun
  rw [Fallible.run_bind_of_ok (run_get dag)] at hrun
  cases hlookup : dag.labelIndex.lookup newSecret.label with
  | none =>
    rw [hlookup] at hrun
    cases hrun
  | some id =>
    rw [hlookup] at hrun
    dsimp only at hrun
    obtain ⟨encrypted, mid, hencrypt, hrun⟩ := Fallible.run_bind_ok.mp hrun
    obtain ⟨hencrypted, rfl⟩ := Fallible.run_ofExcept_ok.mp hencrypt
    obtain ⟨_, mid, hmodify, hrun⟩ := Fallible.run_bind_ok.mp hrun
    rw [if_neg (not_not.mpr rfl)] at hrun
    obtain ⟨-, rfl⟩ := Fallible.run_pure_ok.mp hrun
    obtain rfl := Fallible.run_modify_ok.mp hmodify
    have hlabel : encrypted.label = newSecret.label := label_encryptSecret hencrypted
    have hopens := VaultCrypto.opens_encryptSecret hK hfits hencrypted
    refine ⟨fun label id' hlabel' => ?_, fun id' e he => ?_, fun label hmem => ?_⟩
    · obtain ⟨e, s, he, rfl, hs, hopens'⟩ := h.labels label id' hlabel'
      show ∃ e' s', (dag.secrets.insert id encrypted).lookup id' = some e' ∧ _
      by_cases hid : id' = id
      · have hfound := h.index id' e he
        obtain ⟨e', -, he', hel', -⟩ := h.labels newSecret.label id hlookup
        rw [hid, he'] at he
        obtain rfl := Option.some.inj he
        rw [hid, hel']
        exact ⟨encrypted, newSecret, Finmap.lookup_insert _, hlabel, Finmap.lookup_insert _, hopens⟩
      · have hne : e.label ≠ newSecret.label := fun heq => by
          rw [heq, hlookup] at hlabel'
          exact hid (Option.some.inj hlabel').symm
        refine ⟨e, s, ?_, rfl, ?_, hopens'⟩
        · rw [Finmap.lookup_insert_of_ne _ hid, he]
        · rw [Finmap.lookup_insert_of_ne _ hne, hs]
    · replace he : (dag.secrets.insert id encrypted).lookup id' = some e := he
      rw [HashMap.lookup_insert_ite] at he
      split_ifs at he with hid
      · rw [← Option.some.inj he, hlabel, hid]
        exact hlookup
      · exact h.index id' e he
    · rcases Finmap.mem_insert.mp hmem with rfl | hmem
      · exact HashMap.mem_of_lookup hlookup
      · exact h.only label hmem

/-- The secrets and the labels after a vertex was removed. -/
lemma removeVertex_labels (parents children : HashSet.Iteration VertexId) (label : String)
    (id : VertexId) (dag : VaultDag) :
    (removeVertex parents children label id dag).secrets = dag.secrets.erase id ∧
      (removeVertex parents children label id dag).labelIndex = dag.labelIndex.erase label := by
  unfold removeVertex
  obtain ⟨ids, -, hreleased⟩ := exists_released children id (detach parents id { dag with
    secrets := dag.secrets.erase id
    labelIndex := dag.labelIndex.erase label
    createdAtMap := dag.createdAtMap.erase id
    updatedAtMap := dag.updatedAtMap.erase id })
  obtain ⟨-, hsecrets, hindex, -⟩ := detach_spec parents id { dag with
    secrets := dag.secrets.erase id
    labelIndex := dag.labelIndex.erase label
    createdAtMap := dag.createdAtMap.erase id
    updatedAtMap := dag.updatedAtMap.erase id }
  exact ⟨hreleased.secrets.trans hsecrets, hreleased.labelIndex.trans hindex⟩

/-- **A deletion** removes the secret. -/
lemma deleteSecret (h : Holds K crypto dag contents)
    {parents children : HashSet.Iteration VertexId} {label : String} {after : VaultDag} {u : Unit}
    (hrun : (VaultDag.deleteSecret parents children label).run dag = (.ok u, after)) :
    label ∈ contents ∧ Holds K crypto after (contents.erase label) := by
  unfold VaultDag.deleteSecret at hrun
  rw [Fallible.run_bind_of_ok (run_get dag)] at hrun
  cases hlookup : dag.labelIndex.lookup label with
  | none =>
    rw [hlookup] at hrun
    cases hrun
  | some id =>
    rw [hlookup] at hrun
    obtain rfl := Fallible.run_modify_ok.mp hrun
    obtain ⟨hsecrets, hindex⟩ := removeVertex_labels parents children label id dag
    obtain ⟨encrypted, -, hencrypted, hlabel, -⟩ := h.labels label id hlookup
    refine ⟨h.mem_labelIndex.mp (HashMap.mem_of_lookup hlookup), ?_, ?_, fun l hl => ?_⟩
    · intro l id' hl
      rw [hindex] at hl
      have hne : l ≠ label := by
        rintro rfl
        rw [Finmap.lookup_erase] at hl
        cases hl
      rw [Finmap.lookup_erase_ne hne] at hl
      obtain ⟨e, s, he, rfl, hs, hopens⟩ := h.labels l id' hl
      have hid : id' ≠ id := by
        rintro rfl
        rw [hencrypted] at he
        exact hne (Option.some.inj he ▸ hlabel)
      refine ⟨e, s, ?_, rfl, ?_, hopens⟩
      · rw [hsecrets, Finmap.lookup_erase_ne hid, he]
      · rw [Finmap.lookup_erase_ne hne, hs]
    · intro id' e he
      rw [hsecrets] at he
      have hid : id' ≠ id := by
        rintro rfl
        rw [Finmap.lookup_erase] at he
        cases he
      rw [Finmap.lookup_erase_ne hid] at he
      have hfound := h.index id' e he
      have hne : e.label ≠ label := fun heq => by
        rw [heq, hlookup] at hfound
        exact hid (Option.some.inj hfound).symm
      rw [hindex, Finmap.lookup_erase_ne hne, hfound]
    · rw [Finmap.mem_erase] at hl
      rw [hindex, Finmap.mem_erase]
      exact ⟨hl.1, h.only l hl.2⟩

/-- **A vault that is written and read back** has the same secrets under the same labels. -/
lemma deserialize_serialize (h : Holds K crypto dag contents)
    (secrets : HashMap.Iteration VertexId EncryptedSecret)
    (written read : VertexId → HashSet.Iteration VertexId) (now : DateTime) :
    ∃ loaded, deserialize read now (serialize secrets written dag) = .ok loaded ∧
      loaded.secrets = dag.secrets ∧ loaded.labelIndex = dag.labelIndex := by
  have hl := secrets.enumerates dag.secrets
  obtain ⟨-, hsecrets, -⟩ :=
    @foldl_copyVertex dag read now (secrets.order dag.secrets) (VaultDag.new dag.rootId now)
  have hloaded := hsecrets.trans hl.foldl_insert_eq
  refine ⟨_, deserialize_eq_foldl secrets written read now dag, hloaded, ?_⟩
  refine Finmap.ext_lookup fun label => Option.ext fun id => ⟨fun hid => ?_, fun hid => ?_⟩
  · rcases labelIndex_foldl_copyVertex _ _ hid with ⟨encrypted, hmem, rfl⟩ | hnone
    · exact h.index id encrypted ((hl.2 _ _).mp hmem)
    · cases hnone
  · obtain ⟨encrypted, -, hencrypted, rfl, -⟩ := h.labels label id hid
    have hmem : (id, encrypted) ∈ secrets.order dag.secrets := (hl.2 _ _).mpr hencrypted
    -- the label is read, and whatever it leads to is a vertex with this label
    obtain ⟨id', hid'⟩ := HashMap.mem_iff_exists.mp
      (mem_labelIndex_foldl_copyVertex (VaultDag.new dag.rootId now) hmem)
    rcases labelIndex_foldl_copyVertex _ _ hid' with ⟨encrypted', hmem', hlabel⟩ | hnone
    · have hfound := h.index id' encrypted' ((hl.2 _ _).mp hmem')
      rw [hlabel, hid] at hfound
      rw [hid', Option.some.inj hfound]
    · cases hnone

end Holds

end VaultDag

end QuDAG.Vault
