import QuDAG.Vault.Contents

set_option autoImplicit false
set_option linter.dupNamespace false

/-!
# Vaults on the disk

The file of a vault is opened with its password, and what is read is the vault: its key, its
metadata, and its secrets under their labels. Every operation that succeeds writes such a file, so
opening the vault again changes nothing.

## Main definitions

* `FileOf`, `Saved` — the file of a vault is on the disk.
* `Session.Represents` — a vault that is open and saved holds the secrets of a map.

## Main results

* `FileOf.open` — the file of a vault is opened.
* `saved_saveInternal`, `Session.represents_change` — saving writes it.
* `create_ok` — a new vault is saved.
-/

namespace QuDAG.Vault

open RustStd

variable {K : VaultCrates} {password : String}

/-! ## Keys -/

/-- The key that was derived is derived again. -/
lemma deriveKeyWithContext_deriveKey (hK : K.ReadsBack) {random : List UInt8} {key : VaultKey}
    {context : KdfContext} (h : deriveKey K random password = .ok (key, context)) :
    deriveKeyWithContext K password context = .ok key := by
  obtain ⟨key', hkey, h⟩ := bind_eq_ok.mp h
  obtain ⟨rfl, rfl⟩ := Prod.mk.inj (Except.ok.inj h)
  exact bind_eq_ok.mpr ⟨_, mapError_eq_ok.mpr (hK.salt random), hkey⟩

/-- **The vault key is decrypted again.** -/
lemma decryptVaultKey_encryptVaultKey (hK : K.ReadsBack) {random encrypted : List UInt8}
    {nonce : Nonce} {key : VaultKey} {context : KdfContext}
    (h : encryptVaultKey K random nonce key password = .ok (encrypted, context)) :
    decryptVaultKey K encrypted password context = .ok key := by
  obtain ⟨⟨derived, context'⟩, hderived, h⟩ := bind_eq_ok.mp h
  obtain ⟨encrypted', hencrypted, h⟩ := bind_eq_ok.mp h
  obtain ⟨rfl, rfl⟩ := Prod.mk.inj (Except.ok.inj h)
  refine bind_eq_ok.mpr ⟨derived, deriveKeyWithContext_deriveKey hK hderived, ?_⟩
  refine bind_eq_ok.mpr ⟨key.bytes, VaultCrypto.decrypt_encrypt hK hencrypted, ?_⟩
  rw [dif_pos key.length_eq]
  rfl

/-! ## Files -/

/-- The lengths and times of the graph fit the form in which it is written. -/
def VaultDag.Fits (K : VaultCrates) (draws : SaveDraws) (dag : VaultDag) : Prop :=
  (WireDag.codec K).Valid ((dag.serialize draws.secrets draws.parents).wire draws.fields)

namespace Vault

variable {disk : Disk} {vault : Vault}

/-- What is read of the graph: the same secrets under the same labels. -/
def ReadAs (dag : VaultDag) (data : SerializedVaultDag) : Prop :=
  ∀ read now, ∃ loaded, VaultDag.deserialize read now data = .ok loaded ∧
    loaded.secrets = dag.secrets ∧ loaded.labelIndex = dag.labelIndex

/-- The bytes are a file of the vault, which is opened with the password. -/
def FileOf (K : VaultCrates) (password : String) (data : List UInt8) (vault : Vault) : Prop :=
  ∃ file, K.fromSlice data = .ok file ∧ file.version = vaultVersion ∧
    decryptVaultKey K file.encryptedVaultKey password file.kdfContext =
      .ok vault.crypto.vaultKey ∧
    file.metadata = vault.metadata ∧
    ∃ dagData serialized, vault.crypto.decrypt K file.encryptedDag = .ok dagData ∧
      SerializedVaultDag.ofBytes K dagData = .ok serialized ∧ ReadAs vault.dag serialized

/-- The file of the vault is on the disk. -/
def Saved (K : VaultCrates) (password : String) (disk : Disk) (vault : Vault) : Prop :=
  ∃ data, disk.lookup vault.path = some data ∧ vault.FileOf K password data

/-- A file that is on the disk is read. -/
lemma read_of_lookup {path : PathBuf} {data : List UInt8} (h : disk.lookup path = some data) :
    Disk.read path disk = .ok data := by
  unfold Disk.read
  rw [h]

/-- A file that is read is on the disk. -/
lemma lookup_of_read {path : PathBuf} {data : List UInt8} (h : Disk.read path disk = .ok data) :
    disk.lookup path = some data := by
  unfold Disk.read at h
  cases hlookup : disk.lookup path with
  | none =>
    rw [hlookup] at h
    cases h
  | some data' =>
    rw [hlookup] at h
    rw [Except.ok.inj h]

/-- **The file of a vault is opened**, wherever it lies. -/
lemma FileOf.open {data : List UInt8} (h : vault.FileOf K password data) {path : PathBuf}
    (hpath : disk.lookup path = some data) (draws : OpenDraws) :
    ∃ dag, Vault.open K draws path password disk = .ok ⟨path, vault.crypto, dag, vault.metadata⟩ ∧
      dag.secrets = vault.dag.secrets ∧ dag.labelIndex = vault.dag.labelIndex := by
  obtain ⟨file, hfile, hversion, hkey, hmetadata, dagData, serialized, hdagData, hserialized,
    hread⟩ := h
  obtain ⟨dag, hdag, hsecrets, hindex⟩ := hread draws.parents draws.now
  refine ⟨dag, ?_, hsecrets, hindex⟩
  unfold Vault.open
  rw [if_pos (HashMap.mem_of_lookup hpath)]
  refine bind_eq_ok.mpr ⟨data, read_of_lookup hpath, ?_⟩
  refine bind_eq_ok.mpr ⟨file, mapError_eq_ok.mpr hfile, ?_⟩
  rw [if_neg (by rw [hversion]; exact UInt32.lt_irrefl _)]
  refine bind_eq_ok.mpr ⟨vault.crypto.vaultKey, hkey, ?_⟩
  refine bind_eq_ok.mpr ⟨dagData, hdagData, ?_⟩
  refine bind_eq_ok.mpr ⟨serialized, hserialized, ?_⟩
  refine bind_eq_ok.mpr ⟨dag, hdag, ?_⟩
  rw [hmetadata]
  rfl

/-- Only the key, the secrets and their labels matter to what is answered. -/
lemma getSecret_congr {other : Vault} (hcrypto : other.crypto = vault.crypto)
    (hsecrets : other.dag.secrets = vault.dag.secrets)
    (hindex : other.dag.labelIndex = vault.dag.labelIndex) (label : String) :
    other.getSecret K label = vault.getSecret K label := by
  unfold getSecret VaultDag.getSecret
  rw [hcrypto, hsecrets, hindex]

/-- A vault is read as any other one with the same secrets under the same labels. -/
lemma FileOf.congr {data : List UInt8} (h : vault.FileOf K password data) {other : Vault}
    (hcrypto : other.crypto = vault.crypto) (hmetadata : other.metadata = vault.metadata)
    (hsecrets : other.dag.secrets = vault.dag.secrets)
    (hindex : other.dag.labelIndex = vault.dag.labelIndex) : other.FileOf K password data := by
  unfold FileOf ReadAs
  rw [hcrypto, hmetadata, hsecrets, hindex]
  exact h

/-! ## Saving -/

/-- A file that is written is on the disk. -/
lemma write_ok {outcome : Except String Unit} {path : PathBuf} {data : List UInt8} {after : Disk}
    {u : Unit} (hrun : (Disk.write outcome path data).run disk = (.ok u, after)) :
    after = disk.insert path data := by
  obtain ⟨_, mid, houtcome, hrun⟩ := Fallible.run_bind_ok.mp hrun
  obtain ⟨-, rfl⟩ := Fallible.run_ofExcept_ok.mp houtcome
  exact (Fallible.run_modify_ok.mp hrun).symm

/-- A file that is renamed is found under its new name. -/
lemma rename_ok {outcome : Except String Unit} {path newPath : PathBuf} {after : Disk} {u : Unit}
    (hrun : (Disk.rename outcome path newPath).run disk = (.ok u, after)) :
    after.lookup newPath = disk.lookup path := by
  obtain ⟨_, mid, hget, hrun⟩ := Fallible.run_bind_ok.mp hrun
  obtain ⟨rfl, rfl⟩ := Fallible.run_get_ok.mp hget
  obtain ⟨data, mid, hread, hrun⟩ := Fallible.run_bind_ok.mp hrun
  obtain ⟨hdata, rfl⟩ := Fallible.run_ofExcept_ok.mp hread
  obtain ⟨_, mid, houtcome, hrun⟩ := Fallible.run_bind_ok.mp hrun
  obtain ⟨-, rfl⟩ := Fallible.run_ofExcept_ok.mp houtcome
  rw [← Fallible.run_modify_ok.mp hrun, Finmap.lookup_insert, lookup_of_read hdata]

/-- **Saving writes a file of the vault**, if the key that is written with it is its key. -/
lemma saved_saveInternal (hK : K.ReadsBack) {draws : SaveDraws} {encryptedVaultKey : List UInt8}
    {kdfContext : KdfContext} {keypair : Option VaultKeyPair} {contents : Contents} {after : Disk}
    {u : Unit}
    (hkey : decryptVaultKey K encryptedVaultKey password kdfContext = .ok vault.crypto.vaultKey)
    (hholds : vault.dag.Holds K vault.crypto contents) (hfits : vault.dag.Fits K draws)
    (hrun : (saveInternal K draws encryptedVaultKey kdfContext keypair vault).run disk =
      (.ok u, after)) : vault.Saved K password after := by
  unfold saveInternal at hrun
  obtain ⟨encryptedDag, mid, hencrypt, hrun⟩ := Fallible.run_bind_ok.mp hrun
  obtain ⟨hencrypted, rfl⟩ := Fallible.run_ofExcept_ok.mp hencrypt
  obtain ⟨data, mid, hjson, hrun⟩ := Fallible.run_bind_ok.mp hrun
  obtain ⟨hdata, rfl⟩ := Fallible.run_ofExcept_ok.mp hjson
  obtain ⟨_, mid, hwrite, hrun⟩ := Fallible.run_bind_ok.mp hrun
  obtain rfl := write_ok hwrite
  refine ⟨data, (rename_ok hrun).trans (Finmap.lookup_insert _), ?_⟩
  refine ⟨_, hK.json _ _ (mapError_eq_ok.mp hdata), rfl, hkey, rfl, ?_⟩
  exact ⟨_, _, VaultCrypto.decrypt_encrypt hK hencrypted, SerializedVaultDag.ofBytes_toBytes hfits,
    fun read now => hholds.deserialize_serialize draws.secrets draws.parents read now⟩

/-- **Saving again** writes a file of the vault, with the key that is in the file on the disk. -/
lemma saved_save (hK : K.ReadsBack) {old : Vault} (hsaved : old.Saved K password disk)
    (hpath : vault.path = old.path) (hcrypto : vault.crypto = old.crypto) {draws : SaveDraws}
    {contents : Contents} {after : Disk} {u : Unit}
    (hholds : vault.dag.Holds K vault.crypto contents) (hfits : vault.dag.Fits K draws)
    (hrun : (save K draws vault).run disk = (.ok u, after)) : vault.Saved K password after := by
  obtain ⟨data, hlookup, file, hfile, -, hkey, -⟩ := hsaved
  unfold save at hrun
  obtain ⟨_, mid, hget, hrun⟩ := Fallible.run_bind_ok.mp hrun
  obtain ⟨rfl, rfl⟩ := Fallible.run_get_ok.mp hget
  obtain ⟨data', mid, hread, hrun⟩ := Fallible.run_bind_ok.mp hrun
  obtain ⟨hdata, rfl⟩ := Fallible.run_ofExcept_ok.mp hread
  obtain ⟨file', mid, hjson, hrun⟩ := Fallible.run_bind_ok.mp hrun
  obtain ⟨hfile', rfl⟩ := Fallible.run_ofExcept_ok.mp hjson
  -- the file that is read is the one on the disk
  have hsame := lookup_of_read hdata
  rw [hpath, hlookup] at hsame
  obtain rfl := Option.some.inj hsame
  replace hfile' := mapError_eq_ok.mp hfile'
  rw [hfile] at hfile'
  obtain rfl := Except.ok.inj hfile'
  exact saved_saveInternal hK (hcrypto.symm ▸ hkey) hholds hfits hrun

/-- **A new vault** is saved. -/
lemma create_ok (hK : K.ReadsBack) {draws : CreateDraws} {path : PathBuf} {after : Disk}
    (hfits : vault.dag.Fits K draws.save)
    (hrun : (create K draws path password).run disk = (.ok vault, after)) :
    vault.path = path ∧ vault.metadata.secretCount = 0 ∧
      vault.dag = .new draws.rootId draws.now ∧ vault.Saved K password after := by
  unfold create at hrun
  obtain ⟨_, mid, hget, hrun⟩ := Fallible.run_bind_ok.mp hrun
  obtain ⟨rfl, rfl⟩ := Fallible.run_get_ok.mp hget
  by_cases hexists : path ∈ disk
  · rw [if_pos hexists, Fallible.run_fail] at hrun
    cases hrun
  rw [if_neg hexists] at hrun
  obtain ⟨_, mid, hdirectory, hrun⟩ := Fallible.run_bind_ok.mp hrun
  obtain ⟨-, rfl⟩ := Fallible.run_ofExcept_ok.mp hdirectory
  obtain ⟨key, mid, hrandom, hrun⟩ := Fallible.run_bind_ok.mp hrun
  obtain ⟨-, rfl⟩ := Fallible.run_ofExcept_ok.mp hrandom
  obtain ⟨⟨encryptedVaultKey, kdfContext⟩, mid, hencrypt, hrun⟩ := Fallible.run_bind_ok.mp hrun
  obtain ⟨hencrypted, rfl⟩ := Fallible.run_ofExcept_ok.mp hencrypt
  obtain ⟨keypair, mid, hkeypair, hrun⟩ := Fallible.run_bind_ok.mp hrun
  obtain ⟨-, rfl⟩ := Fallible.run_ofExcept_ok.mp hkeypair
  obtain ⟨_, last, hsave, hrun⟩ := Fallible.run_bind_ok.mp hrun
  obtain ⟨rfl, rfl⟩ := Fallible.run_pure_ok.mp hrun
  exact ⟨rfl, rfl, rfl, saved_saveInternal hK (decryptVaultKey_encryptVaultKey hK hencrypted)
    (VaultDag.Holds.new draws.rootId draws.now) hfits hsave⟩

end Vault

/-! ## Sessions -/

namespace Session

variable {s after : Session} {contents : Contents}

/-- The vault that is open holds the secrets of a map, and it is saved. -/
structure Represents (K : VaultCrates) (password : String) (s : Session) (contents : Contents) :
    Prop where
  /-- It holds the secrets. -/
  holds : s.vault.dag.Holds K s.vault.crypto contents
  /-- It is saved. -/
  saved : s.vault.Saved K password s.disk

/-- **A change of the graph that is saved**: the vault then holds what the new graph holds. -/
lemma represents_change {α : Type} (hK : K.ReadsBack) (h : s.Represents K password contents)
    (m : Fallible VaultError VaultDag α) (count : α → ℕ → ℕ) {now : DateTime} {draws : SaveDraws}
    {u : Unit} (hfits : after.vault.dag.Fits K draws)
    (hrun : (do
      let a ← onDag m
      Fallible.modify (stamp (count a) now)
      save K draws : Fallible VaultError Session Unit).run s = (.ok u, after)) :
    ∃ a, m.run s.vault.dag = (.ok a, after.vault.dag) ∧
      after.vault.metadata.secretCount = count a s.vault.metadata.secretCount ∧
      after.vault.path = s.vault.path ∧ after.vault.crypto = s.vault.crypto ∧
      ∀ contents', after.vault.dag.Holds K s.vault.crypto contents' →
        after.Represents K password contents' := by
  obtain ⟨a, mid, hzoom, hrun⟩ := Fallible.run_bind_ok.mp hrun
  obtain ⟨dag, hdag, rfl⟩ := Fallible.run_zoom_ok.mp hzoom
  obtain ⟨_, mid, hstamp, hrun⟩ := Fallible.run_bind_ok.mp hrun
  obtain rfl := Fallible.run_modify_ok.mp hstamp
  unfold save at hrun
  obtain ⟨_, mid, hget, hrun⟩ := Fallible.run_bind_ok.mp hrun
  obtain ⟨rfl, rfl⟩ := Fallible.run_get_ok.mp hget
  obtain ⟨disk, hsave, rfl⟩ := Fallible.run_zoom_ok.mp hrun
  refine ⟨a, hdag, rfl, rfl, rfl, fun contents' hholds => ⟨hholds, ?_⟩⟩
  refine Vault.saved_save hK h.saved ?_ ?_ hholds hfits hsave
  · rfl
  · rfl

/-- **Opening the vault again** finds the same secrets under the same labels. -/
lemma represents_reopen (h : s.Represents K password contents) {draws : OpenDraws} {u : Unit}
    (hrun : (reopen K draws password).run s = (.ok u, after)) :
    after.Represents K password contents ∧ after.disk = s.disk ∧
      after.vault.path = s.vault.path ∧ after.vault.metadata = s.vault.metadata ∧
      after.vault.dag.secrets = s.vault.dag.secrets := by
  obtain ⟨data, hlookup, hfile⟩ := h.saved
  obtain ⟨dag, hopen, hsecrets, hindex⟩ := hfile.open hlookup draws
  unfold reopen at hrun
  obtain ⟨_, mid, hget, hrun⟩ := Fallible.run_bind_ok.mp hrun
  obtain ⟨rfl, rfl⟩ := Fallible.run_get_ok.mp hget
  obtain ⟨vault, mid, hread, hrun⟩ := Fallible.run_bind_ok.mp hrun
  obtain ⟨hvault, rfl⟩ := Fallible.run_ofExcept_ok.mp hread
  obtain rfl := Fallible.run_modify_ok.mp hrun
  rw [hopen] at hvault
  obtain rfl := Except.ok.inj hvault
  exact ⟨⟨h.holds.congr hsecrets hindex, data, hlookup, hfile.congr rfl rfl hsecrets hindex⟩,
    rfl, rfl, rfl, hsecrets⟩

end Session

end QuDAG.Vault
