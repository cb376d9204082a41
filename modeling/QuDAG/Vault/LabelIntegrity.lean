import QuDAG.Vault.Contents

/-!
# Which secrets their labels lead to

A label of the vault leads to a stored secret with that label, after every sequence of calls. The
converse fails in two ways (`dag_storage.rs`): a secret that is renamed takes the label of another
one, and a secret whose label is among the labels of its parents takes that of the category that was
just created for it. The other secret is still stored and no label leads to it.

## Main definitions

* `VaultDag.Indexed` — the label of every stored secret leads to it.
* `VaultDag.LabelIntegrity` — labels and secrets determine each other.
* `VaultDag.Careful` — a call that takes no label of another secret.

## Main results

* `VaultDag.Indexed.apply` — a careful call keeps every secret at its label.
* `VaultDag.labelIntegrity_of_careful` — the same over all runs.
-/

namespace QuDAG.Vault

open RustStd

namespace VaultDag

variable {K : Crates} {crypto : VaultCrypto} {dag : VaultDag}

/-- The label of every stored secret leads to it. -/
def Indexed (dag : VaultDag) : Prop :=
  ∀ id encrypted, dag.secrets.lookup id = some encrypted →
    dag.labelIndex.lookup encrypted.label = some id

/-- Labels and stored secrets determine each other, and every secret is read by its label. -/
structure LabelIntegrity (K : VaultCrates) (dag : VaultDag) : Prop where
  /-- A label leads to a secret with that label. -/
  labels : ∀ label id, dag.labelIndex.lookup label = some id →
    ∃ encrypted, dag.secrets.lookup id = some encrypted ∧ encrypted.label = label
  /-- The label of a secret leads to it. -/
  index : dag.Indexed
  /-- Every secret is what is decrypted under its label. -/
  getSecret : ∀ crypto id encrypted, dag.secrets.lookup id = some encrypted →
    dag.getSecret K crypto encrypted.label = crypto.decryptSecret K encrypted

/-- A call that takes no label of another secret: an addition whose label is not among those of its
parents, or is refused, and an update that keeps the label, or takes one that is not in use, or
finds no secret. -/
def Careful (dag : VaultDag) : Op → Prop
  | .addSecret _ _ secret parentLabels =>
    secret.label ∈ dag.labelIndex ∨ secret.label ∉ parentLabels
  | .updateSecret _ _ _ label newSecret =>
    newSecret.label = label ∨ newSecret.label ∉ dag.labelIndex ∨ label ∉ dag.labelIndex
  | .deleteSecret _ _ _ => True
  | .reload _ _ _ _ => True

instance instDecidableCareful (dag : VaultDag) : ∀ op, Decidable (dag.Careful op)
  | .addSecret _ _ _ _ => inferInstanceAs (Decidable (_ ∨ _))
  | .updateSecret _ _ _ _ _ => inferInstanceAs (Decidable (_ ∨ _ ∨ _))
  | .deleteSecret _ _ _ => instDecidableTrue
  | .reload _ _ _ _ => instDecidableTrue

/-- Secrets at their labels are read by them. -/
lemma WellFormed.labelIntegrity (h : dag.WellFormed) (hindex : dag.Indexed) (K : VaultCrates) :
    dag.LabelIntegrity K := by
  refine ⟨h.labels, hindex, fun crypto id encrypted hid => ?_⟩
  unfold VaultDag.getSecret
  rw [hindex id encrypted hid]
  dsimp only
  rw [hid]

/-- A new vault has no secrets. -/
lemma indexed_new (rootId : VertexId) (now : DateTime) : (new rootId now).Indexed :=
  fun _ _ h => by cases h

namespace Indexed

/-! ## Additions -/

/-- A new vertex with a label that is not in use. -/
lemma insertVertex (h : dag.Indexed) {id : VertexId} {encrypted : EncryptedSecret}
    {parentIds : HashSet VertexId} {order : List VertexId} {now : DateTime}
    (hlabel : encrypted.label ∉ dag.labelIndex) :
    (insertVertex id encrypted parentIds order now dag).Indexed := by
  intro id' e he
  replace he : (dag.secrets.insert id encrypted).lookup id' = some e := he
  show (dag.labelIndex.insert encrypted.label id).lookup e.label = some id'
  rw [HashMap.lookup_insert_ite] at he
  split_ifs at he with heq
  · rw [← Option.some.inj he, Finmap.lookup_insert, heq]
  · have hfound := h id' e he
    have hne : e.label ≠ encrypted.label := fun hel => hlabel (hel ▸ HashMap.mem_of_lookup hfound)
    rw [Finmap.lookup_insert_of_ne _ hne, hfound]

/-- **Looking up the parents** keeps every secret at its label, and adds no other labels. -/
lemma findParents {draws : AddDraws} {labels : List String} :
    ∀ {parentIds : HashSet VertexId} {dag : VaultDag}, dag.Indexed →
      let after := ((findParents K crypto draws labels parentIds).run dag).2
      after.Indexed ∧ ∀ label ∉ labels, label ∈ after.labelIndex → label ∈ dag.labelIndex := by
  induction labels with
  | nil => exact fun h => ⟨h, fun _ _ hmem => hmem⟩
  | cons label labels ih =>
    intro parentIds dag h
    have htail : ∀ {l : String}, l ∉ label :: labels → l ≠ label ∧ l ∉ labels := fun hl =>
      not_or.mp fun hmem => hl (List.mem_cons.mpr hmem)
    dsimp only
    unfold VaultDag.findParents
    rw [Fallible.run_bind_of_ok (run_get dag)]
    cases hlookup : dag.labelIndex.lookup label with
    | some id =>
      obtain ⟨hindexed, hlabels⟩ := @ih (insert id parentIds) dag h
      exact ⟨hindexed, fun l hl => hlabels l (htail hl).2⟩
    | none =>
      have hmissing : label ∉ dag.labelIndex := Finmap.lookup_eq_none.mp hlookup
      dsimp only
      rcases @run_createCategory K crypto dag draws.fields (draws.category label) label hlookup with
        ⟨e, hrun⟩ | ⟨secret, rfl, hrun⟩
      · rw [Fallible.run_bind_of_error hrun]
        exact ⟨h, fun _ _ hmem => hmem⟩
      · rw [Fallible.run_bind_of_ok hrun]
        obtain ⟨hindexed, hlabels⟩ := ih (h.insertVertex hmissing)
        refine ⟨hindexed, fun l hl hmem => ?_⟩
        obtain ⟨hne, hl⟩ := htail hl
        exact (Finmap.mem_insert.mp (hlabels l hl hmem)).resolve_left hne

/-- **An addition** whose label is not among those of its parents. -/
lemma addSecret (h : dag.Indexed) {draws : AddDraws} {secret : SecretEntry}
    {parentLabels : List String}
    (hlabel : secret.label ∈ dag.labelIndex ∨ secret.label ∉ parentLabels) :
    ((addSecret K crypto draws secret parentLabels).run dag).2.Indexed := by
  unfold VaultDag.addSecret
  rw [Fallible.run_bind_of_ok (run_get dag)]
  by_cases hexists : secret.label ∈ dag.labelIndex
  · rw [if_pos hexists]
    exact h
  · rw [if_neg hexists]
    cases hencrypted : crypto.encryptSecret K draws.fields draws.nonce secret with
    | error e => exact h
    | ok encrypted =>
      have hsame : encrypted.label = secret.label := label_encryptSecret hencrypted
      rw [Fallible.run_bind_of_ok (show (Fallible.ofExcept (.ok encrypted) :
        Fallible VaultError VaultDag _).run dag = (.ok encrypted, dag) from rfl)]
      by_cases hempty : parentLabels.isEmpty = true
      · rw [if_pos hempty, Fallible.run_bind_of_ok (Fallible.run_pure _ _)]
        exact h.insertVertex (hsame ▸ hexists)
      · rw [if_neg hempty]
        have hparents := @findParents K crypto draws parentLabels ∅ dag h
        rcases Fallible.run_cases (VaultDag.findParents K crypto draws parentLabels ∅) dag with
          ⟨found, after, hrun⟩ | ⟨e, after, hrun⟩
        · rw [hrun] at hparents
          rw [Fallible.run_bind_of_ok hrun]
          refine hparents.1.insertVertex fun hmem => hexists ?_
          rw [hsame] at hmem
          exact hparents.2 _ (hlabel.resolve_left hexists) hmem
        · rw [hrun] at hparents
          rw [Fallible.run_bind_of_error hrun]
          exact hparents.1

/-! ## The other calls -/

/-- **An update** that keeps the label, or takes one that is not in use. -/
lemma updateSecret (h : dag.Indexed) {fields : HashMap.Iteration String String} {nonce : Nonce}
    {label : String} {newSecret : SecretEntry}
    (hlabel : newSecret.label = label ∨ newSecret.label ∉ dag.labelIndex ∨
      label ∉ dag.labelIndex) :
    ((updateSecret K crypto fields nonce label newSecret).run dag).2.Indexed := by
  unfold VaultDag.updateSecret
  rw [Fallible.run_bind_of_ok (run_get dag)]
  cases hlookup : dag.labelIndex.lookup label with
  | none => exact h
  | some id =>
    dsimp only
    cases hencrypted : crypto.encryptSecret K fields nonce newSecret with
    | error e => exact h
    | ok encrypted =>
      have hsame : encrypted.label = newSecret.label := label_encryptSecret hencrypted
      have hother : ∀ id' e, id' ≠ id → dag.secrets.lookup id' = some e → e.label ≠ label := by
        rintro id' e hne he rfl
        rw [h id' e he] at hlookup
        exact hne (Option.some.inj hlookup)
      rw [Fallible.run_bind_of_ok (show (Fallible.ofExcept (.ok encrypted) :
          Fallible VaultError VaultDag _).run dag = (.ok encrypted, dag) from rfl),
        Fallible.run_bind_of_ok (Fallible.run_modify _ _)]
      split_ifs with hrenamed
      · have hunused : newSecret.label ∉ dag.labelIndex := by
          rcases hlabel with heq | hunused | hmissing
          · exact absurd heq.symm hrenamed
          · exact hunused
          · exact absurd (HashMap.mem_of_lookup hlookup) hmissing
        intro id' e he
        replace he : (dag.secrets.insert id encrypted).lookup id' = some e := he
        show ((dag.labelIndex.erase label).insert newSecret.label id).lookup e.label = some id'
        rw [HashMap.lookup_insert_ite] at he
        split_ifs at he with heq
        · rw [← Option.some.inj he, hsame, Finmap.lookup_insert, heq]
        · have hfound := h id' e he
          have hne : e.label ≠ newSecret.label := fun hel =>
            hunused (hel ▸ HashMap.mem_of_lookup hfound)
          rw [Finmap.lookup_insert_of_ne _ hne, Finmap.lookup_erase_ne (hother id' e heq he),
            hfound]
      · intro id' e he
        replace he : (dag.secrets.insert id encrypted).lookup id' = some e := he
        show dag.labelIndex.lookup e.label = some id'
        rw [HashMap.lookup_insert_ite] at he
        split_ifs at he with heq
        · rw [← Option.some.inj he, hsame, ← not_not.mp hrenamed, hlookup, heq]
        · exact h id' e he

/-- **A deletion.** -/
lemma deleteSecret (h : dag.Indexed) {parents children : HashSet.Iteration VertexId}
    {label : String} : ((deleteSecret parents children label).run dag).2.Indexed := by
  unfold VaultDag.deleteSecret
  rw [Fallible.run_bind_of_ok (run_get dag)]
  cases hlookup : dag.labelIndex.lookup label with
  | none => exact h
  | some id =>
    obtain ⟨hsecrets, hindex⟩ := Holds.removeVertex_labels parents children label id dag
    intro id' e he
    replace he : (removeVertex parents children label id dag).secrets.lookup id' = some e := he
    show (removeVertex parents children label id dag).labelIndex.lookup e.label = some id'
    rw [hsecrets] at he
    have hid : id' ≠ id := by
      rintro rfl
      rw [Finmap.lookup_erase] at he
      cases he
    rw [Finmap.lookup_erase_ne hid] at he
    have hfound := h id' e he
    have hne : e.label ≠ label := fun heq => by
      rw [heq, hlookup] at hfound
      exact hid (Option.some.inj hfound).symm
    rw [hindex, Finmap.lookup_erase_ne hne, hfound]

/-- **Writing and reading back.** The label of a secret is read, and whatever it leads to then is a
secret with that label. -/
lemma reload (h : dag.Indexed)
    (secrets : HashMap.Iteration VertexId EncryptedSecret)
    (written read : VertexId → HashSet.Iteration VertexId) (now : DateTime) :
    (VaultDag.apply K dag (.reload secrets written read now)).Indexed := by
  have hl := secrets.enumerates dag.secrets
  obtain ⟨-, hsecrets, -⟩ :=
    @foldl_copyVertex dag read now (secrets.order dag.secrets) (VaultDag.new dag.rootId now)
  have hloaded := hsecrets.trans hl.foldl_insert_eq
  rw [VaultDag.apply, deserialize_eq_foldl]
  intro id encrypted hid
  dsimp only at hid ⊢
  rw [hloaded] at hid
  have hmem : (id, encrypted) ∈ secrets.order dag.secrets := (hl.2 _ _).mpr hid
  obtain ⟨id', hid'⟩ := HashMap.mem_iff_exists.mp
    (@mem_labelIndex_foldl_copyVertex dag read now _ _ (VaultDag.new dag.rootId now) hmem)
  rcases labelIndex_foldl_copyVertex _ _ hid' with ⟨encrypted', hmem', hlabel⟩ | hnone
  · have hfound := h id' encrypted' ((hl.2 _ _).mp hmem')
    rw [hlabel, h id encrypted hid] at hfound
    rw [hid', Option.some.inj hfound]
  · cases hnone

/-- **A careful call** keeps every secret at its label. -/
lemma apply (h : dag.Indexed) {op : Op} (hcareful : dag.Careful op) :
    (VaultDag.apply K dag op).Indexed := by
  cases op with
  | addSecret crypto draws secret parentLabels => exact h.addSecret hcareful
  | updateSecret crypto fields nonce label newSecret => exact h.updateSecret hcareful
  | deleteSecret parents children label => exact h.deleteSecret
  | reload secrets written read now => exact h.reload secrets written read now

end Indexed

/-! ## Runs -/

/-- **Labels and secrets determine each other** in every state of a run whose calls are careful and
make new identifiers. -/
theorem labelIntegrity_of_careful {K : VaultCrates} {rootId : VertexId} {now : DateTime}
    {ops : List Op} (hfresh : Runs.Steps (VaultDag.apply K.toCrates) Fresh (new rootId now) ops)
    (hcareful : Runs.Steps (VaultDag.apply K.toCrates) Careful (new rootId now) ops) :
    Runs.Always (VaultDag.apply K.toCrates) (LabelIntegrity K) (new rootId now) ops := by
  have hboth : Runs.Always (VaultDag.apply K.toCrates) (fun dag => dag.WellFormed ∧ dag.Indexed)
      (new rootId now) ops := by
    refine Runs.always_rule _ ?_ (hfresh.and hcareful)
      ⟨wellFormed_new rootId now, indexed_new rootId now⟩
    exact fun dag op h hstep => ⟨h.1.apply hstep.1, h.2.apply hstep.2⟩
  exact hboth.imp fun dag h => h.1.labelIntegrity h.2 K

/-! ## Labels that are taken -/

/-- A stand-in for the other crates, which does not encrypt. -/
def plainCrates : VaultCrates where
  toCrates := toyCrates
  aesDecrypt _ _ ciphertext := .ok ciphertext
  generateSalt _ := ⟨""⟩
  saltFromB64 text := .ok ⟨text⟩
  argon2 _ _ _ _ _ := .ok none
  toVecPretty _ := .ok []
  fromSlice _ := .error "no file"
  bincodeError _ := "no value"

/-- Two secrets, the second of which is renamed. -/
noncomputable def renameCalls (label : String) : List Op :=
  [.addSecret toyCrypto (toyDraws 1) (.new "bank" "user" "password" 5) [],
    .addSecret toyCrypto (toyDraws 3) (.new "email" "user" "password" 5) [],
    .updateSecret toyCrypto .arbitrary ⟨List.replicate 12 0, rfl⟩ "email"
      (.new label "user" "password" 5)]

/-- A secret below a category with the same label. -/
noncomputable def ownParentCalls : List Op :=
  [.addSecret toyCrypto (toyDraws 1) (.new "email" "user" "password" 5) ["email"]]

/-- A secret with a label that does not lead to it. -/
lemma not_always_labelIntegrity {K : VaultCrates} {s : VaultDag} {ops : List Op} {id : VertexId}
    {label : String}
    (hlabel : ((Runs.run (VaultDag.apply K.toCrates) s ops).secrets.lookup id).map
      EncryptedSecret.label = some label)
    (hid : (Runs.run (VaultDag.apply K.toCrates) s ops).labelIndex.lookup label ≠ some id) :
    ¬ Runs.Always (VaultDag.apply K.toCrates) (LabelIntegrity K) s ops := by
  intro hall
  obtain ⟨encrypted, hencrypted, rfl⟩ := Option.map_eq_some_iff.mp hlabel
  exact hid ((Runs.always_iff.mp hall ops (List.prefix_refl ops)).index id encrypted hencrypted)

/-- A secret that is renamed to a label in use hides the other secret, and so does a secret below a
category with its own label. -/
theorem not_labelIntegrity_taken :
    (Runs.Steps (VaultDag.apply plainCrates.toCrates) Fresh (new ⟨[0]⟩ 5) (renameCalls "bank") ∧
      ¬ Runs.Always (VaultDag.apply plainCrates.toCrates) (LabelIntegrity plainCrates)
        (new ⟨[0]⟩ 5) (renameCalls "bank")) ∧
    Runs.Steps (VaultDag.apply plainCrates.toCrates) Fresh (new ⟨[0]⟩ 5) ownParentCalls ∧
      ¬ Runs.Always (VaultDag.apply plainCrates.toCrates) (LabelIntegrity plainCrates)
        (new ⟨[0]⟩ 5) ownParentCalls := by
  refine ⟨⟨by decide +kernel, ?_⟩, by decide +kernel, ?_⟩
  · exact @not_always_labelIntegrity _ _ _ ⟨[1]⟩ "bank" (by decide +kernel) (by decide +kernel)
  · exact @not_always_labelIntegrity _ _ _ ⟨[2]⟩ "email" (by decide +kernel) (by decide +kernel)

/-- A secret that is renamed to a label that is not in use is found by it. -/
theorem labelIntegrity_of_careful_rename :
    Runs.Always (VaultDag.apply plainCrates.toCrates) (LabelIntegrity plainCrates)
      (new ⟨[0]⟩ 5) (renameCalls "work") :=
  labelIntegrity_of_careful (by decide +kernel) (by decide +kernel)

end VaultDag

end QuDAG.Vault
