import Mathlib.Data.String.Basic
import QuDAG.Vault.Import

set_option autoImplicit false
set_option linter.dupNamespace false

/-!
# The number of secrets of a vault

The vault counts its secrets in its metadata: one more for every addition and for every secret that
is imported, one less for every deletion. The graph stores the categories of a label as secrets of
their own, and those that it creates are not counted. So the number is that of the stored secrets
as long as no operation creates a category. That opening the file gives the secrets back does not
depend on this.

## Main definitions

* `Session.Op`, `Session.apply` — the operations on a vault.
* `Session.Step` — an operation that succeeds, in memory that is large enough.
* `Session.Bookkept` — the number of secrets is right, and the file gives them back.
* `Session.Categorized` — no category is created.

## Main results

* `Session.represents_apply` — what an operation does to the secrets.
* `Session.bookkept_iff` — the number is right always iff no category is created.
-/

namespace QuDAG.Vault

open RustStd

variable {K : VaultCrates} {password : String}

namespace Session

variable {s after : Session} {contents : Contents}

/-! ## Single operations -/

/-- **An addition** inserts its secret, after placeholders for missing categories, and counts it. -/
lemma addSecret_ok (hK : K.ReadsBack) (h : s.Represents K password contents)
    {draws : AddSecretDraws} {label username : String} {given : Option String} {u : Unit}
    (hsound : s.vault.dag.AddSound K draws.dag
      (.new label username (given.getD draws.password) draws.created) (parseCategories label))
    (hfits : after.vault.dag.Fits K draws.save)
    (hrun : (addSecret K draws label username given).run s = (.ok u, after)) :
    label ∉ contents ∧
      after.Represents K password
        ((contents.withCategories draws.dag (parseCategories label)).insert label
          (.new label username (given.getD draws.password) draws.created)) ∧
      after.vault.metadata.secretCount = s.vault.metadata.secretCount + 1 := by
  unfold addSecret at hrun
  obtain ⟨_, mid, hget, hrun⟩ := Fallible.run_bind_ok.mp hrun
  obtain ⟨rfl, rfl⟩ := Fallible.run_get_ok.mp hget
  obtain ⟨id, hdag, hcount, -, -, hafter⟩ :=
    represents_change hK h _ (fun _ count => count + 1) hfits hrun
  obtain ⟨hlabel, hholds⟩ := h.holds.addSecret hK hsound (self_notMem_parseCategories label) hdag
  exact ⟨hlabel, hafter _ hholds, hcount⟩

/-- A revision keeps the label. -/
lemma label_revise (username given : Option String) (now : DateTime) (secret : SecretEntry) :
    (secret.revise username given now).label = secret.label := by
  cases username <;> cases given <;> rfl

/-- **An update** replaces the secret. -/
lemma updateSecret_ok (hK : K.ReadsBack) (h : s.Represents K password contents)
    {draws : UpdateSecretDraws} {label : String} {username given : Option String} {u : Unit}
    (hsound : ∀ secret, s.vault.getSecret K label = .ok secret →
      (secret.revise username given draws.updated).Fits K draws.fields)
    (hfits : after.vault.dag.Fits K draws.save)
    (hrun : (updateSecret K draws label username given).run s = (.ok u, after)) :
    ∃ secret, contents.lookup label = some secret ∧
      after.Represents K password
        (contents.insert label (secret.revise username given draws.updated)) ∧
      after.vault.metadata.secretCount = s.vault.metadata.secretCount := by
  unfold updateSecret at hrun
  obtain ⟨_, mid, hget, hrun⟩ := Fallible.run_bind_ok.mp hrun
  obtain ⟨rfl, rfl⟩ := Fallible.run_get_ok.mp hget
  obtain ⟨secret, mid, hread, hrun⟩ := Fallible.run_bind_ok.mp hrun
  obtain ⟨hsecret, rfl⟩ := Fallible.run_ofExcept_ok.mp hread
  have hlookup : contents.lookup label = some secret := h.holds.getSecret_eq_ok.mp hsecret
  have hlabel : (secret.revise username given draws.updated).label = label :=
    (label_revise username given draws.updated secret).trans (h.holds.label_eq hlookup)
  obtain ⟨_, hdag, hcount, -, -, hafter⟩ :=
    represents_change hK h _ (fun _ count => count) hfits hrun
  refine ⟨secret, hlookup, hafter _ ?_, hcount⟩
  have hfitsNew := hsound secret hsecret
  revert hdag hfitsNew hlabel
  generalize secret.revise username given draws.updated = revised
  rintro rfl hdag hfitsNew
  exact h.holds.updateSecret hK hfitsNew hdag

/-- **A deletion** removes the secret. -/
lemma deleteSecret_ok (hK : K.ReadsBack) (h : s.Represents K password contents)
    {draws : DeleteSecretDraws} {label : String} {u : Unit}
    (hfits : after.vault.dag.Fits K draws.save)
    (hrun : (deleteSecret K draws label).run s = (.ok u, after)) :
    label ∈ contents ∧ after.Represents K password (contents.erase label) ∧
      after.vault.metadata.secretCount = s.vault.metadata.secretCount - 1 := by
  unfold deleteSecret at hrun
  obtain ⟨_, hdag, hcount, -, -, hafter⟩ :=
    represents_change hK h _ (fun _ count => count - 1) hfits hrun
  obtain ⟨hlabel, hholds⟩ := h.holds.deleteSecret hdag
  exact ⟨hlabel, hafter _ hholds, hcount⟩

/-- **An import** opens the other vault and runs its loop. -/
lemma import_ok (hK : K.ReadsBack) (h : s.Represents K password contents) {draws : ImportDraws}
    {inputPath : PathBuf} {masterPassword : String} {u : Unit}
    (hsound : ∀ other, Vault.open K draws.opening inputPath masterPassword s.disk = .ok other →
      (∃ source, other.dag.Holds K other.crypto source) ∧
        ImportSound K s.vault.crypto other draws.add (other.dag.listSecrets draws.secrets)
          s.vault.dag)
    (hfits : after.vault.dag.Fits K draws.save)
    (hrun : (Session.import K draws inputPath masterPassword).run s = (.ok u, after)) :
    ∃ other source, Vault.open K draws.opening inputPath masterPassword s.disk = .ok other ∧
      other.dag.Holds K other.crypto source ∧
      after.Represents K password
        (Contents.importSecrets draws.add source (other.dag.listSecrets draws.secrets) contents) ∧
      after.vault.metadata.secretCount = s.vault.metadata.secretCount +
        Contents.imported draws.add source (other.dag.listSecrets draws.secrets) contents := by
  unfold Session.import at hrun
  obtain ⟨_, mid, hget, hrun⟩ := Fallible.run_bind_ok.mp hrun
  obtain ⟨rfl, rfl⟩ := Fallible.run_get_ok.mp hget
  obtain ⟨other, mid, hread, hrun⟩ := Fallible.run_bind_ok.mp hrun
  obtain ⟨hopen, rfl⟩ := Fallible.run_ofExcept_ok.mp hread
  obtain ⟨⟨source, hsource⟩, himports⟩ := hsound other hopen
  obtain ⟨n, hdag, hcount, -, -, hafter⟩ :=
    represents_change hK h _ (fun imported count => count + imported) hfits hrun
  have hlabels : ∀ label ∈ other.dag.listSecrets draws.secrets, label ∈ source := fun label hl =>
    (((hsource.listSecrets draws.secrets).2 label).mp hl).1
  obtain ⟨hholds, rfl⟩ := hsource.importSecrets hK h.holds hlabels himports hdag
  exact ⟨other, source, hopen, hsource, hafter _ hholds, hcount⟩

/-! ## Runs -/

/-- An operation, with what it reads from outside. Other programs write other files. -/
inductive Op
  /-- Add a secret. -/
  | addSecret (draws : AddSecretDraws) (label username : String) (password : Option String)
  /-- Update a secret. -/
  | updateSecret (draws : UpdateSecretDraws) (label : String) (username password : Option String)
  /-- Delete a secret. -/
  | deleteSecret (draws : DeleteSecretDraws) (label : String)
  /-- Import the secrets of another vault. -/
  | import (draws : ImportDraws) (inputPath : PathBuf) (masterPassword : String)
  /-- Open the vault again. -/
  | reopen (draws : OpenDraws)
  /-- Another program writes a file. -/
  | writeFile (path : PathBuf) (data : List UInt8)

/-- Call an operation, with the password of the vault. -/
def call (K : VaultCrates) (password : String) : Op → Fallible VaultError Session Unit
  | .addSecret draws label username given => addSecret K draws label username given
  | .updateSecret draws label username given => updateSecret K draws label username given
  | .deleteSecret draws label => deleteSecret K draws label
  | .import draws inputPath masterPassword => Session.import K draws inputPath masterPassword
  | .reopen draws => reopen K draws password
  | .writeFile path data => Fallible.modify fun s => { s with disk := s.disk.insert path data }

/-- The vault and the disk after an operation. -/
def apply (K : VaultCrates) (password : String) (s : Session) (op : Op) : Session :=
  ((call K password op).run s).2

/-- What is saved fits. -/
def Op.SavedFits (K : VaultCrates) (dag : VaultDag) : Op → Prop
  | .addSecret draws _ _ _ => dag.Fits K draws.save
  | .updateSecret draws _ _ _ => dag.Fits K draws.save
  | .deleteSecret draws _ => dag.Fits K draws.save
  | .import draws _ _ => dag.Fits K draws.save
  | .reopen _ => True
  | .writeFile _ _ => True

/-- New identifiers are new, what is encrypted fits, the vault that is imported is in order, and
other programs leave the file of the vault alone. -/
def Op.Sound (K : VaultCrates) (s : Session) : Op → Prop
  | .addSecret draws label username given => s.vault.dag.AddSound K draws.dag
      (.new label username (given.getD draws.password) draws.created) (parseCategories label)
  | .updateSecret draws label username given => ∀ secret, s.vault.getSecret K label = .ok secret →
      (secret.revise username given draws.updated).Fits K draws.fields
  | .deleteSecret _ _ => True
  | .import draws inputPath masterPassword => ∀ other,
      Vault.open K draws.opening inputPath masterPassword s.disk = .ok other →
        (∃ source, other.dag.Holds K other.crypto source) ∧
          ImportSound K s.vault.crypto other draws.add (other.dag.listSecrets draws.secrets)
            s.vault.dag
  | .reopen _ => True
  | .writeFile path _ => path ≠ s.vault.path

/-- An operation that succeeds, in memory that is large enough. -/
structure Step (K : VaultCrates) (password : String) (s : Session) (op : Op) : Prop where
  /-- It succeeds. -/
  succeeds : ((call K password op).run s).1 = .ok ()
  /-- What it makes is in order. -/
  sound : op.Sound K s
  /-- What it saves fits. -/
  fits : op.SavedFits K (apply K password s op).vault.dag

/-- The outcome of an operation that succeeds. -/
lemma Step.run_eq {op : Op} (h : Step K password s op) :
    (call K password op).run s = (.ok (), apply K password s op) := Prod.ext h.succeeds rfl

/-- The number of secrets is that of the stored secrets, and the vault that is opened from its file
has the same secrets under the same labels. -/
structure Bookkept (K : VaultCrates) (password : String) (s : Session) : Prop where
  /-- The number of secrets. -/
  count : s.vault.metadata.secretCount = s.vault.dag.secrets.keys.card
  /-- The vault that is opened. -/
  opened : ∀ draws, ∃ vault, Vault.open K draws s.vault.path password s.disk = .ok vault ∧
    ∀ label, vault.getSecret K label = s.vault.getSecret K label

/-- An operation creates no category: each category of a secret that is added or imported is stored,
or was imported before. -/
def Op.Categorized (K : VaultCrates) (s : Session) : Op → Prop
  | .addSecret _ label _ _ => ∀ category ∈ parseCategories label, category ∈ s.vault.dag.labelIndex
  | .updateSecret _ _ _ _ => True
  | .deleteSecret _ _ => True
  | .import draws inputPath masterPassword => ∀ other,
      Vault.open K draws.opening inputPath masterPassword s.disk = .ok other →
        Filed s.vault.dag.labelIndex.keys (other.dag.listSecrets draws.secrets)
  | .reopen _ => True
  | .writeFile _ _ => True

/-- **The file of a vault gives its secrets back.** -/
lemma Represents.opened (h : s.Represents K password contents) (draws : OpenDraws) :
    ∃ vault, Vault.open K draws s.vault.path password s.disk = .ok vault ∧
      ∀ label, vault.getSecret K label = s.vault.getSecret K label := by
  obtain ⟨data, hlookup, hfile⟩ := h.saved
  obtain ⟨dag, hopen, hsecrets, hindex⟩ := hfile.open hlookup draws
  refine ⟨_, hopen, fun label => ?_⟩
  apply Vault.getSecret_congr
  · rfl
  · exact hsecrets
  · exact hindex

/-- The labels of the vault are those of the secrets that it holds. -/
lemma Represents.keys_labelIndex (h : s.Represents K password contents) :
    s.vault.dag.labelIndex.keys = contents.keys := by
  ext label
  rw [Finmap.mem_keys, Finmap.mem_keys, h.holds.mem_labelIndex]

/-- **What an operation does to the secrets.** The vault holds the secrets of some map again, and a
number of secrets that was right stays right iff no category is created. -/
lemma represents_apply (hK : K.ReadsBack) (h : s.Represents K password contents) {op : Op}
    (hstep : Step K password s op) :
    ∃ contents', (apply K password s op).Represents K password contents' ∧
      (s.vault.metadata.secretCount = contents.keys.card →
        ((apply K password s op).vault.metadata.secretCount = contents'.keys.card ↔
          op.Categorized K s)) := by
  have hrun := hstep.run_eq
  cases op with
  | addSecret draws label username given =>
    obtain ⟨hlabel, hafter, hcount⟩ := addSecret_ok hK h hstep.sound hstep.fits hrun
    refine ⟨_, hafter, fun hold => ?_⟩
    have hnot : label ∉ (contents.withCategories draws.dag (parseCategories label)).keys := by
      rw [Finmap.mem_keys, Contents.mem_withCategories]
      exact not_or.mpr ⟨hlabel, self_notMem_parseCategories label⟩
    have hcategories : (contents.withCategories draws.dag (parseCategories label)).keys.card =
        contents.keys.card ↔ Op.Categorized K s (.addSecret draws label username given) := by
      rw [(Contents.card_withCategories draws.dag contents (parseCategories label)).2]
      exact forall₂_congr fun category _ => h.holds.mem_labelIndex.symm
    rw [hcount, HashMap.keys_insert, Finset.card_insert_of_notMem hnot, ← hcategories, hold,
      Nat.add_right_cancel_iff, eq_comm]
  | updateSecret draws label username given =>
    obtain ⟨secret, hsecret, hafter, hcount⟩ := updateSecret_ok hK h hstep.sound hstep.fits hrun
    refine ⟨_, hafter, fun hold => iff_of_true ?_ trivial⟩
    rw [hcount, hold, HashMap.card_keys_insert_of_mem (HashMap.mem_of_lookup hsecret)]
  | deleteSecret draws label =>
    obtain ⟨hlabel, hafter, hcount⟩ := deleteSecret_ok hK h hstep.fits hrun
    refine ⟨_, hafter, fun hold => iff_of_true ?_ trivial⟩
    rw [hcount, hold, Finmap.keys_erase, Finset.card_erase_of_mem (Finmap.mem_keys.mpr hlabel)]
  | «import» draws inputPath masterPassword =>
    obtain ⟨other, source, hopen, hsource, hafter, hcount⟩ :=
      import_ok hK h hstep.sound hstep.fits hrun
    refine ⟨_, hafter, fun hold => ?_⟩
    have hlabels : ∀ label ∈ other.dag.listSecrets draws.secrets, label ∈ source := fun label hl =>
      (((hsource.listSecrets draws.secrets).2 label).mp hl).1
    have hcategorized : Op.Categorized K s (.import draws inputPath masterPassword) ↔
        Filed contents.keys (other.dag.listSecrets draws.secrets) := by
      rw [← h.keys_labelIndex]
      refine ⟨fun hall => hall other hopen, fun hfiled other' hopen' => ?_⟩
      rw [hopen] at hopen'
      rw [← Except.ok.inj hopen']
      exact hfiled
    rw [hcategorized, ← (Contents.card_importSecrets hlabels).2, hcount, hold, eq_comm]
  | reopen draws =>
    obtain ⟨hafter, -, -, hmetadata, -⟩ := represents_reopen h hrun
    refine ⟨contents, hafter, fun hold => iff_of_true ?_ trivial⟩
    rw [hmetadata, hold]
  | writeFile path data =>
    obtain ⟨saved, hlookup, hfile⟩ := h.saved
    refine ⟨contents, ⟨h.holds, saved, ?_, hfile⟩, fun hold => iff_of_true hold trivial⟩
    exact (Finmap.lookup_insert_of_ne _ (Ne.symm hstep.sound)).trans hlookup

/-- A new vault is saved and holds no secrets. -/
lemma represents_create (hK : K.ReadsBack) {draws : CreateDraws} {path : PathBuf} {disk : Disk}
    (hfits : s.vault.dag.Fits K draws.save)
    (hrun : (Vault.create K draws path password).run disk = (.ok s.vault, s.disk)) :
    s.Represents K password ∅ ∧ s.vault.metadata.secretCount = 0 := by
  obtain ⟨-, hcount, hdag, hsaved⟩ := Vault.create_ok hK hfits hrun
  refine ⟨⟨?_, hsaved⟩, hcount⟩
  rw [hdag]
  exact .new _ _

/-- **The number of secrets of a vault.** In every run of successful operations from the creation of
a vault, the number of secrets is that of the stored secrets and the file gives them back under
their labels, at all times, iff no operation creates a category. -/
theorem bookkept_iff (hK : K.ReadsBack) {draws : CreateDraws} {path : PathBuf} {disk : Disk}
    {s : Session} {ops : List Op} (hfits : s.vault.dag.Fits K draws.save)
    (hcreate : (Vault.create K draws path password).run disk = (.ok s.vault, s.disk))
    (hsteps : Runs.Steps (apply K password) (Step K password) s ops) :
    Runs.Always (apply K password) (Bookkept K password) s ops ↔
      Runs.Steps (apply K password) (fun s op => op.Categorized K s) s ops := by
  obtain ⟨hstart, hcount⟩ := represents_create hK hfits hcreate
  refine Runs.always_iff_steps (fun s => ∃ contents, s.Represents K password contents ∧
    s.vault.metadata.secretCount = contents.keys.card) ?_ ?_ ?_ hsteps ⟨∅, hstart, hcount⟩
  · rintro s ⟨contents, h, hcount⟩
    exact ⟨hcount.trans h.holds.card_secrets.symm, h.opened⟩
  · rintro s op ⟨contents, h, hcount⟩ hstep hcategorized
    obtain ⟨contents', h', hiff⟩ := represents_apply hK h hstep
    exact ⟨contents', h', (hiff hcount).mpr hcategorized⟩
  · rintro s op ⟨contents, h, hcount⟩ hstep hbookkept
    obtain ⟨contents', h', hiff⟩ := represents_apply hK h hstep
    exact (hiff hcount).mp (hbookkept.count.trans h'.holds.card_secrets)

/-! ## A vault with a category -/

/-- Zeros, as in the secret keys of a placeholder key pair. -/
def zeros (n : ℕ) : List UInt8 := List.replicate n 0

/-- A binary format for files. -/
def toyFile : Codec VaultFile :=
  (Codec.u32.pair (Codec.string.pair (Codec.string.pair (Codec.byteVec.pair
    ((Codec.byteVec.pair (Codec.byteVec.pair (Codec.byteVec.pair Codec.byteVec))).option.pair
      (Codec.byteVec.pair (Codec.u32.pair (VaultDag.toyCrates.dateTime.pair
        (VaultDag.toyCrates.dateTime.pair (Codec.u64.pair Codec.string.option)))))))))).refine
    (fun p => some ⟨p.1, ⟨p.2.1, p.2.2.1⟩, p.2.2.2.1,
      p.2.2.2.2.1.map fun k => ⟨k.1, k.2.1, k.2.2.1, k.2.2.2⟩, p.2.2.2.2.2.1,
      ⟨p.2.2.2.2.2.2.1, p.2.2.2.2.2.2.2.1, p.2.2.2.2.2.2.2.2.1, p.2.2.2.2.2.2.2.2.2.1.toNat,
        p.2.2.2.2.2.2.2.2.2.2⟩⟩)
    fun f => (f.version, f.kdfContext.salt, f.kdfContext.params, f.encryptedVaultKey,
      f.keypair.map fun k =>
        (k.kemPublic, k.kemSecretEncrypted, k.dsaPublic, k.dsaSecretEncrypted),
      f.encryptedDag, f.metadata.version, f.metadata.createdAt, f.metadata.modifiedAt,
      UInt64.ofNat f.metadata.secretCount, f.metadata.description)

/-- A stand-in for the other crates. What it encrypts gets a tag in front, and the secret keys of a
placeholder key pair become tags of their own. -/
def toyVault : VaultCrates where
  aesEncrypt _ _ plaintext := .ok
    (if plaintext == zeros 2400 then [0] else if plaintext == zeros 4032 then [1]
    else 2 :: plaintext)
  aesDecrypt _ _ ciphertext :=
    match ciphertext with
    | 2 :: plaintext => .ok plaintext
    | [0] => .ok (zeros 2400)
    | [1] => .ok (zeros 4032)
    | _ => .error "aead::Error"
  dateTime := VaultDag.toyCrates.dateTime
  generateSalt _ := ⟨"salt"⟩
  saltFromB64 text := .ok ⟨text⟩
  argon2 _ _ _ _ _ := .ok (some ⟨List.replicate 32 7, rfl⟩)
  toVecPretty file :=
    if toyFile.decode (toyFile.encode file) = some (file, []) then .ok (toyFile.encode file)
    else .error "the file does not fit"
  fromSlice bytes :=
    match toyFile.decode bytes with
    | some (file, []) => .ok file
    | _ => .error "no file"
  bincodeError _ := "no value"

instance instCheckableToyVault : Codec.Checkable toyVault.dateTime :=
  inferInstanceAs (Codec.Checkable
    (Codec.u64.refine (fun n => some (n.toNat : ℤ)) fun t => UInt64.ofNat t.toNat))

/-- The stand-in reads back what it wrote. -/
lemma readsBack_toyVault : toyVault.ReadsBack where
  decrypt key nonce plaintext ciphertext h := by
    obtain rfl := Except.ok.inj h
    show toyVault.aesDecrypt key nonce (if plaintext == zeros 2400 then [0] else
      if plaintext == zeros 4032 then [1] else 2 :: plaintext) = _
    split_ifs with hkem hdsa
    · rw [beq_iff_eq.mp hkem]
      rfl
    · rw [beq_iff_eq.mp hdsa]
      rfl
    · rfl
  salt _ := rfl
  json file bytes h := by
    unfold toyVault at h ⊢
    dsimp only at h ⊢
    split_ifs at h with hread
    rw [← Except.ok.inj h, hread]

/-- A nonce. -/
def toyNonce : Nonce := ⟨List.replicate 12 9, rfl⟩

/-- What saving reads: everything is sorted, and the disk lets us write. -/
def toySave : SaveDraws where
  secrets := .sorted
  parents _ := .sorted
  fields := .sorted
  nonce := toyNonce
  write := .ok ()
  rename := .ok ()

/-- What the creation of a vault reads. -/
def toyCreate : CreateDraws where
  directory := .ok ()
  key := .ok ⟨List.replicate 32 9, rfl⟩
  salt := []
  keyNonce := toyNonce
  keypair := ⟨.ok [], .ok [], toyNonce, toyNonce⟩
  rootId := ⟨[0]⟩
  now := 1
  createdAt := 1
  modifiedAt := 1
  save := toySave

/-- What the addition of a secret reads, by a number: at most one category is missing. -/
def toyDraws (n : UInt8) : VaultDag.AddDraws where
  vertexId := ⟨[n]⟩
  nonce := toyNonce
  now := 5
  category _ := ⟨⟨[n + 1]⟩, toyNonce, 5, 5⟩
  fields := .sorted
  parents := .sorted

/-- The addition of a secret, by a number. -/
def toyAdd (n : UInt8) (label : String) : Op :=
  .addSecret ⟨"generated", 5, toyDraws n, 6, toySave⟩ label "user" (some "password")

/-- A vault that was created, and the disk. -/
def started : (r : Except VaultError Vault × Disk) → r.1.isOk = true → Session
  | (.ok vault, disk), _ => ⟨vault, disk⟩

/-- It is what was created. -/
lemma eq_started (r : Except VaultError Vault × Disk) (h : r.1.isOk = true) :
    r = (.ok (started r h).vault, (started r h).disk) := by
  rcases r with ⟨vault | vault, disk⟩
  · cases h
  · rfl

/-- A new vault. It is never unfolded. -/
@[irreducible] def toySession : Session :=
  started ((Vault.create toyVault toyCreate ["vault"] "master").run ∅) (by decide +kernel)

instance instDecidableSecretFits (fields : HashMap.Iteration String String)
    (secret : SecretEntry) : Decidable (secret.Fits toyVault fields) :=
  inferInstanceAs (Decidable ((WireEntry.codec toyVault.toCrates).Valid _))

instance instDecidableDagFits (draws : SaveDraws) (dag : VaultDag) :
    Decidable (dag.Fits toyVault draws) :=
  inferInstanceAs (Decidable ((WireDag.codec toyVault).Valid _))

instance instDecidableAddSound (dag : VaultDag) (draws : VaultDag.AddDraws) (secret : SecretEntry)
    (labels : List String) : Decidable (dag.AddSound toyVault draws secret labels) :=
  decidable_of_iff (dag.IsFresh draws.vertexId ∧ dag.FreshCategories draws labels ∧
      secret.Fits toyVault draws.fields ∧
      ∀ label ∈ labels, (Contents.placeholder draws label).Fits toyVault draws.fields)
    ⟨fun h => ⟨h.1, h.2.1, h.2.2.1, h.2.2.2⟩, fun h => ⟨h.1, h.2, h.3, h.4⟩⟩

/-- What makes an addition a step. -/
abbrev ToyStep (s : Session) (n : UInt8) (label : String) : Prop :=
  ((call toyVault "master" (toyAdd n label)).run s).1 = .ok () ∧
    s.vault.dag.AddSound toyVault (toyDraws n) (.new label "user" "password" 5)
      (parseCategories label) ∧
    (apply toyVault "master" s (toyAdd n label)).vault.dag.Fits toyVault toySave

/-- An addition that is a step. -/
lemma step_toyAdd {s : Session} {n : UInt8} {label : String} (h : ToyStep s n label) :
    Step toyVault "master" s (toyAdd n label) := ⟨h.1, h.2.1, h.2.2⟩

/-- Such an addition creates no category if the categories of its label are stored. -/
lemma categorized_toyAdd {s : Session} {n : UInt8} {label : String}
    (h : ∀ category ∈ parseCategories label, category ∈ s.vault.dag.labelIndex) :
    (toyAdd n label).Categorized toyVault s := h

/-- Opening the vault again. -/
def toyReopen : Op := .reopen ⟨fun _ => .sorted, 7⟩

/-- It is a step if it succeeds. -/
lemma step_toyReopen {s : Session} (h : ((call toyVault "master" toyReopen).run s).1 = .ok ()) :
    Step toyVault "master" s toyReopen := ⟨h, trivial, trivial⟩

/-- The deletion of a secret. -/
def toyDelete (label : String) : Op := .deleteSecret ⟨.sorted, .sorted, 8, toySave⟩ label

/-- It is a step if it succeeds and what is left fits. -/
lemma step_toyDelete {s : Session} {label : String}
    (h : ((call toyVault "master" (toyDelete label)).run s).1 = .ok ())
    (hfits : (apply toyVault "master" s (toyDelete label)).vault.dag.Fits toyVault toySave) :
    Step toyVault "master" s (toyDelete label) := ⟨h, trivial, hfits⟩

/-- The new vault was created. -/
lemma create_toySession : (Vault.create toyVault toyCreate ["vault"] "master").run ∅ =
    (.ok toySession.vault, toySession.disk) := by
  unfold toySession
  exact eq_started _ _

/-- A secret, the vault opened again, and a secret below the first one: no category is created. -/
theorem bookkept_toy : Runs.Always (apply toyVault "master") (Bookkept toyVault "master")
    toySession [toyAdd 1 "email", toyReopen, toyAdd 3 "email/work"] := by
  have hsteps : ToyStep toySession 1 "email" ∧
      ((call toyVault "master" toyReopen).run
        (apply toyVault "master" toySession (toyAdd 1 "email"))).1 = .ok () ∧
      ToyStep (apply toyVault "master" (apply toyVault "master" toySession (toyAdd 1 "email"))
        toyReopen) 3 "email/work" := by decide +kernel
  have hcategories : ∀ category ∈ parseCategories "email/work", category ∈
      (apply toyVault "master" (apply toyVault "master" toySession (toyAdd 1 "email"))
        toyReopen).vault.dag.labelIndex := by decide +kernel
  have hnone : parseCategories "email" = [] := by decide +kernel
  have hfits : toySession.vault.dag.Fits toyVault toyCreate.save := by decide +kernel
  refine (bookkept_iff readsBack_toyVault hfits create_toySession ?_).mpr ?_
  · exact ⟨step_toyAdd hsteps.1, step_toyReopen hsteps.2.1, step_toyAdd hsteps.2.2, trivial⟩
  · refine ⟨?_, trivial, ?_, trivial⟩
    · refine categorized_toyAdd ?_
      rw [hnone]
      exact fun category h => absurd h List.not_mem_nil
    · refine categorized_toyAdd ?_
      exact hcategories

/-- A secret in a category: the vault stores two secrets and counts one. When the category is
deleted, it stores one and counts none. -/
theorem not_bookkept_category :
    let ops := [toyAdd 1 "email/work", toyDelete "email"]
    Runs.Steps (apply toyVault "master") (Step toyVault "master") toySession ops ∧
      ¬ Runs.Always (apply toyVault "master") (Bookkept toyVault "master") toySession ops ∧
      (Runs.run (apply toyVault "master") toySession ops).vault.metadata.secretCount = 0 ∧
      (Runs.run (apply toyVault "master") toySession ops).vault.dag.secrets.keys.card = 1 := by
  intro ops
  have hsteps : ToyStep toySession 1 "email/work" ∧
      ((call toyVault "master" (toyDelete "email")).run
        (apply toyVault "master" toySession (toyAdd 1 "email/work"))).1 = .ok () ∧
      (apply toyVault "master" (apply toyVault "master" toySession (toyAdd 1 "email/work"))
        (toyDelete "email")).vault.dag.Fits toyVault toySave := by decide +kernel
  have hcounts : (Runs.run (apply toyVault "master") toySession
        ops).vault.metadata.secretCount = 0 ∧
      (Runs.run (apply toyVault "master") toySession ops).vault.dag.secrets.keys.card = 1 := by
    decide +kernel
  have hrun : Runs.Steps (apply toyVault "master") (Step toyVault "master") toySession ops :=
    ⟨step_toyAdd hsteps.1, step_toyDelete hsteps.2.1 hsteps.2.2, trivial⟩
  refine ⟨hrun, fun hall => ?_, hcounts⟩
  have hlast := (Runs.always_iff.mp hall ops (List.prefix_refl ops)).count
  rw [hcounts.1, hcounts.2] at hlast
  exact absurd hlast (by decide)

end Session

end QuDAG.Vault
