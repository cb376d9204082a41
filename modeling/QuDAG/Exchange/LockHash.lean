import QuDAG.Exchange.ConfigLock

/-!
# What the lock attests to

The lock holds the hash that the system configuration had when it was locked. The configuration may
still be changed until the grace period is over, and then the lock attests to another one than is
in force. It attests to the configuration in every state of a run iff no call that changes a locked
configuration changes its hash.

## Main definitions

* `ExchangeConfig.Attested` — the lock attests to the configuration.
* `ExchangeConfig.KeepsHash` — the condition on a call.

## Main results

* `ExchangeConfig.attests_iff` — the exact runs whose states with an enforced lock are attested.
-/

namespace QuDAG.Exchange.Config

open RustStd

/-- The calls that change the system configuration. -/
def Operation.edits {κ : Type} : Operation κ → Bool
  | .updateFeeParams _ => true
  | .updateNetworkConfig _ => true
  | .updateSystemConfig _ => true
  | _ => false

namespace ExchangeConfig

variable {κ : Type} {P : ConfigPrimitives κ} {c c' : ExchangeConfig} {t : Timestamp}
  {op : Operation κ}

/-- The system configuration. -/
def systemConfig (c : ExchangeConfig) : LockableConfig := c.immutableDeployment.systemConfig

/-- The lock holds the hash of the configuration in force, and its signature verifies. -/
structure Attested (P : Primitives) (c : ExchangeConfig) : Prop where
  /-- The hash of the lock is the hash of the configuration. -/
  hash : c.lock.lockSignature.map ImmutableSignature.configHash = some (c.systemConfig.hash P)
  /-- The signature of the lock verifies. -/
  verifies : c.immutableDeployment.verifyLockSignature P = .ok true

/-- Whenever the lock is enforced it attests to the configuration. -/
def Attests (P : Primitives) (c : ExchangeConfig) : Prop :=
  ∀ t, c.lock.isEnforced t = true → c.Attested P

/-- If the configuration has a lock, then a call that changes it leaves one with the hash of the
lock. -/
def KeepsHash (P : ConfigPrimitives κ) (c : ExchangeConfig) (e : Timestamp × Operation κ) : Prop :=
  ∀ signature ∈ c.lock.lockSignature, c.canModifyConfig e.1 = true → match e.2 with
    | .updateFeeParams params => params.validate = .ok () →
        { c.systemConfig with feeParams := params }.hash P.toPrimitives = signature.configHash
    | .updateNetworkConfig network =>
        { c.systemConfig with chainId := network.chainId }.hash P.toPrimitives =
          signature.configHash
    | .updateSystemConfig config => config.validate = .ok () →
        config.hash P.toPrimitives = signature.configHash
    | _ => True

/-- The invariant: a configuration with a lock is enabled and attested. -/
def LockInv (P : Primitives) (c : ExchangeConfig) : Prop :=
  ∀ signature ∈ c.lock.lockSignature, c.lock.enabled = true ∧ c.Attested P

/-- A configuration is attested iff its lock holds its hash, and a signature of it. -/
lemma attested_iff {P : Primitives} : c.Attested P ↔ ∃ sigData lockedAt,
    c.lock.lockSignature = some sigData ∧ c.lock.lockedAt = some lockedAt ∧
    P.parsePublicKey sigData.publicKey = .ok () ∧
    P.verify sigData.publicKey (ImmutableDeployment.lockMessage sigData.configHash lockedAt)
      sigData.signature = true ∧
    c.systemConfig.hash P = sigData.configHash := by
  constructor
  · exact fun h => ImmutableDeployment.verifyLockSignature_iff.mp h.verifies
  · intro h
    refine ⟨?_, ImmutableDeployment.verifyLockSignature_iff.mpr h⟩
    obtain ⟨sigData, lockedAt, hsignature, -, -, -, hhash⟩ := h
    rw [hsignature, Option.map_some, hhash]

/-- A configuration that is attested and enabled is locked, and its lock will be enforced. -/
lemma exists_isEnforced {P : Primitives} (henabled : c.lock.enabled = true) (h : c.Attested P) :
    c.lock.isLocked = true ∧ ∃ t, c.lock.isEnforced t = true := by
  obtain ⟨sigData, lockedAt, hsignature, hat, -⟩ := attested_iff.mp h
  have hlocked := ImmutableConfig.isLocked_iff.mpr ⟨henabled, ⟨_, hat⟩, ⟨_, hsignature⟩⟩
  refine ⟨hlocked, ⟨UInt64.ofNat (2 ^ 64 - 1)⟩, ?_⟩
  unfold ImmutableConfig.isEnforced ImmutableConfig.isInGracePeriod
  rw [hlocked, hat]
  simp only [Bool.true_and, Bool.not_eq_true', decide_eq_false_iff_not, UInt64.not_lt,
    UInt64.le_iff_toNat_le]
  have hlt := (lockedAt.millis + c.lock.gracePeriodSeconds).toNat_lt
  have hmax : (UInt64.ofNat (2 ^ 64 - 1)).toNat = 2 ^ 64 - 1 := rfl
  omega

/-- The invariant says that the lock attests to the configuration. -/
lemma LockInv.attests {P : Primitives} (h : c.LockInv P) : c.Attests P := by
  intro t henforced
  obtain ⟨-, -, signature, hsignature⟩ :=
    ImmutableConfig.isLocked_iff.mp (ImmutableConfig.isLocked_of_isEnforced henforced)
  exact (h signature hsignature).2

/-- A configuration without a lock has the invariant. -/
lemma lockInv_of_none {P : Primitives} (h : c.lock.lockSignature = none) : c.LockInv P := by
  intro signature hsignature
  rw [h] at hsignature
  cases hsignature

/-- **Changing the system configuration** of a configuration with the invariant keeps it iff the new
one has the hash of the lock. -/
lemma LockInv.withSystemConfig {P : Primitives} (h : c.LockInv P) (hlock : c'.lock = c.lock) :
    (c'.Attests P ↔ ∀ signature ∈ c.lock.lockSignature,
        c'.systemConfig.hash P = signature.configHash) ∧
      (c'.Attests P → c'.LockInv P) := by
  have hinv (hattests : c'.Attests P) : c'.LockInv P := by
    intro signature hsignature
    rw [hlock] at hsignature ⊢
    obtain ⟨henabled, hattested⟩ := h signature hsignature
    obtain ⟨t, henforced⟩ := (exists_isEnforced henabled hattested).2
    exact ⟨henabled, hattests t (hlock ▸ henforced)⟩
  refine ⟨⟨fun hattests signature hsignature => ?_, fun hkeeps t henforced => ?_⟩, hinv⟩
  · have hhash := (hinv hattests signature (hlock ▸ hsignature)).2.hash
    rw [hlock, Option.mem_def.mp hsignature, Option.map_some] at hhash
    exact (Option.some.inj hhash).symm
  · obtain ⟨-, -, signature, hsignature⟩ :=
      ImmutableConfig.isLocked_iff.mp (ImmutableConfig.isLocked_of_isEnforced henforced)
    rw [hlock] at hsignature
    obtain ⟨sigData, lockedAt, hsigData, hat, hparse, hverify, -⟩ :=
      attested_iff.mp (h signature hsignature).2
    refine attested_iff.mpr ⟨sigData, lockedAt, hlock ▸ hsigData, hlock ▸ hat, hparse, hverify, ?_⟩
    exact hkeeps sigData hsigData

/-- **Locking** gives a configuration that is attested. -/
lemma lockInv_lockSystem (hverify : P.SignaturesVerify) {keypair : κ} {seed : List UInt8}
    {d : ImmutableDeployment}
    (h : c.immutableDeployment.lockSystem P keypair seed t = .ok d) :
    (c.withDeployment d).LockInv P.toPrimitives := by
  obtain ⟨henabled, -, -, hparse, signature, hsign, rfl⟩ := ImmutableDeployment.lockSystem_ok h
  intro _ _
  refine ⟨henabled, attested_iff.mpr ⟨_, t, rfl, rfl, hparse, ?_, rfl⟩⟩
  exact hverify keypair _ seed signature hsign

/-- **A call that changes the system configuration**, if it is allowed. -/
lemma LockInv.apply_edit {P : Primitives} (h : c.LockInv P) (allowed : Prop) [Decidable allowed]
    (hlock : c'.lock = c.lock) :
    ((if allowed then c' else c).Attests P ↔ ∀ signature ∈ c.lock.lockSignature,
        allowed → c'.systemConfig.hash P = signature.configHash) ∧
      ((if allowed then c' else c).Attests P → (if allowed then c' else c).LockInv P) := by
  split_ifs with hallowed
  · obtain ⟨hiff, hinv⟩ := h.withSystemConfig hlock
    exact ⟨hiff.trans (forall₂_congr fun _ _ => ⟨fun h _ => h, fun h => h hallowed⟩), hinv⟩
  · exact ⟨iff_of_true h.attests fun _ _ h => absurd h hallowed, fun _ => h⟩

/-- What changes neither the system configuration nor the time and the signature of the lock, and
does not disable it, keeps the invariant. -/
lemma LockInv.congr {P : Primitives} (h : c.LockInv P)
    (hsignature : c'.lock.lockSignature = c.lock.lockSignature)
    (hat : c'.lock.lockedAt = c.lock.lockedAt) (hsystem : c'.systemConfig = c.systemConfig)
    (henabled : c.lock.enabled = true → c'.lock.enabled = true) : c'.LockInv P := by
  intro signature hmem
  obtain ⟨hon, hattested⟩ := h signature (hsignature ▸ hmem)
  refine ⟨henabled hon, ?_⟩
  rw [attested_iff] at hattested ⊢
  rw [hsignature, hat, hsystem]
  exact hattested

/-- A configuration with the invariant that is not locked has no lock. -/
lemma LockInv.lockSignature_eq_none {P : Primitives} (h : c.LockInv P)
    (hlocked : c.lock.isLocked = false) : c.lock.lockSignature = none := by
  rw [Option.eq_none_iff_forall_ne_some]
  intro signature hsignature
  obtain ⟨henabled, hattested⟩ := h signature hsignature
  rw [(exists_isEnforced henabled hattested).1] at hlocked
  cases hlocked

/-- The other calls keep the invariant. -/
lemma LockInv.apply_of_not_edits (hverify : P.SignaturesVerify) (h : c.LockInv P.toPrimitives)
    (hop : op.edits = false) : (c.apply P (t, op)).LockInv P.toPrimitives := by
  rcases apply_cases P c t op with hresult | ⟨-, hsame⟩
  swap
  · rw [hsame]
    exact h
  cases op with
  | enableImmutableMode =>
    obtain ⟨d, hd, hc⟩ := map_eq_ok.mp hresult
    obtain ⟨-, rfl⟩ := ImmutableDeployment.enableImmutableMode_ok hd
    rw [← hc]
    exact h.congr rfl rfl rfl fun _ => rfl
  | lockSystem keypair seed =>
    obtain ⟨d, hd, hc⟩ := map_eq_ok.mp hresult
    rw [← hc]
    exact lockInv_lockSystem hverify hd
  | updateSecurityConfig security =>
    rw [result] at hresult
    split_ifs at hresult
    rw [← Except.ok.inj hresult]
    exact h.congr rfl rfl rfl id
  | governanceOverride governanceKeypair =>
    obtain ⟨d, hd, hc⟩ := map_eq_ok.mp hresult
    obtain ⟨-, rfl⟩ := ImmutableDeployment.governanceOverride_ok hd
    rw [← hc]
    exact lockInv_of_none rfl
  | enableBusinessPlan plan =>
    obtain ⟨u, -, hc⟩ := bind_eq_ok.mp hresult
    rw [← Except.ok.inj hc]
    exact h.congr rfl rfl rfl id
  | disableBusinessPlan =>
    rw [← Except.ok.inj hresult]
    exact h.congr rfl rfl rfl id
  | feeRouterMut change =>
    rw [← Except.ok.inj hresult]
    exact h.congr rfl rfl rfl id
  | updateBusinessPlan plan =>
    rw [result] at hresult
    split_ifs at hresult
    obtain ⟨u, -, hc⟩ := bind_eq_ok.mp hresult
    rw [← Except.ok.inj hc]
    exact h.congr rfl rfl rfl id
  | disable =>
    obtain ⟨config, hconfig, hc⟩ := map_eq_ok.mp hresult
    obtain ⟨hlocked, rfl⟩ := ImmutableConfig.disable_ok hconfig
    rw [← hc]
    exact lockInv_of_none (h.lockSignature_eq_none hlocked)
  | setGracePeriod seconds =>
    obtain ⟨config, hconfig, hc⟩ := map_eq_ok.mp hresult
    obtain ⟨-, rfl⟩ := ImmutableConfig.setGracePeriod_ok hconfig
    rw [← hc]
    exact h.congr rfl rfl rfl id
  | setGovernanceKey key =>
    obtain ⟨config, hconfig, hc⟩ := map_eq_ok.mp hresult
    obtain ⟨-, rfl⟩ := ImmutableConfig.setGovernanceKey_ok hconfig
    rw [← hc]
    exact h.congr rfl rfl rfl id
  | updateFeeParams params => cases hop
  | updateNetworkConfig network => cases hop
  | updateSystemConfig config => cases hop

/-- **A call** on a configuration with the invariant: the lock attests to the result iff the call
keeps the hash, and then the invariant holds again. -/
lemma LockInv.apply (hverify : P.SignaturesVerify) (h : c.LockInv P.toPrimitives) :
    ((c.apply P (t, op)).Attests P.toPrimitives ↔ c.KeepsHash P (t, op)) ∧
      ((c.apply P (t, op)).Attests P.toPrimitives →
          (c.apply P (t, op)).LockInv P.toPrimitives) := by
  by_cases hop : op.edits = false
  · have hinv := h.apply_of_not_edits hverify (t := t) hop
    refine ⟨iff_of_true hinv.attests fun _ _ _ => ?_, fun _ => hinv⟩
    cases op with
    | updateFeeParams params => cases hop
    | updateNetworkConfig network => cases hop
    | updateSystemConfig config => cases hop
    | _ => trivial
  · cases op with
    | updateFeeParams params =>
      rw [apply_updateFeeParams]
      have hlock : (c.setFeeParams params).lock = c.lock := rfl
      have hedit := h.apply_edit (c.canModifyConfig t = true ∧ params.validate = .ok ()) hlock
      simp only [and_imp] at hedit
      exact hedit
    | updateNetworkConfig network =>
      rw [apply_updateNetworkConfig]
      exact h.apply_edit (c.canModifyConfig t = true) rfl
    | updateSystemConfig config =>
      rw [apply_updateSystemConfig]
      have hlock : (c.withDeployment { c.immutableDeployment with
          systemConfig := config }).lock = c.lock := rfl
      have hedit := h.apply_edit (c.canModifyConfig t = true ∧ config.validate = .ok ()) hlock
      simp only [and_imp] at hedit
      exact hedit
    | _ => exact absurd rfl hop

/-- The constructors make a configuration without a lock. -/
lemma lockSignature_of_constructed (h : Constructed P c) : c.lock.lockSignature = none := by
  cases h with
  | new h =>
    rw [new_eq] at h
    rw [← Except.ok.inj h]
    rfl
  | fromLockableConfig lockable h =>
    rw [(fromLockableConfig_ok h).2]
    rfl
  | build b h =>
    rw [(build_ok h).2]
    rfl

/-- **The lock attests to what runs**: in a run of a constructed configuration, the lock attests to
the configuration in every state in which it is enforced, at any time, iff every call keeps the
hash. -/
theorem attests_iff (hverify : P.SignaturesVerify) (h : Constructed P c)
    (ops : List (Timestamp × Operation κ)) :
    Runs.Always (apply P) (Attests P.toPrimitives) c ops ↔
      Runs.Steps (apply P) (KeepsHash P) c ops := by
  refine Runs.always_iff_steps (V := fun _ _ => True) (LockInv P.toPrimitives)
    (fun c h => h.attests) ?_ ?_ (Runs.steps_of_forall fun _ _ => trivial)
    (lockInv_of_none (lockSignature_of_constructed h))
  · intro c e h _ hkeeps
    exact (h.apply hverify).2 ((h.apply hverify).1.mpr hkeeps)
  · intro c e h _ hattests
    exact (h.apply hverify).1.mp hattests

/-- A new configuration that is locked, and whose chain is then changed. -/
def lockedThenMoved (network : NetworkConfig) : List (Timestamp × Operation (List UInt8)) :=
  [(⟨1000⟩, .enableImmutableMode), (⟨1000⟩, .lockSystem [7] []),
    (⟨2000⟩, .updateNetworkConfig network)]

/-- If the network keeps its chain then the lock attests to the configuration. -/
theorem attests_sameChain :
    Runs.Always (apply ConfigPrimitives.toy) (Attests Primitives.toy) default
      (lockedThenMoved { NetworkConfig.default with networkName := "exchange" }) := by
  refine (attests_iff ConfigPrimitives.signaturesVerify_toy (.new new_eq) _).mpr ?_
  refine ⟨fun _ _ _ => trivial, fun _ _ _ => trivial, fun signature hsignature _ => ?_, trivial⟩
  have hhash : (Runs.run (apply ConfigPrimitives.toy) default
      [(⟨1000⟩, .enableImmutableMode), (⟨1000⟩, .lockSystem [7] [])]).lock.lockSignature.map
        ImmutableSignature.configHash = some (LockableConfig.default.hash Primitives.toy) := by
    decide +kernel
  have hsigned := congrArg (Option.map ImmutableSignature.configHash) hsignature
  exact Option.some.inj (hhash.symm.trans hsigned)

/-- If it is moved to chain 42 then it does not. -/
theorem not_attests_otherChain :
    ExchangeConfig.new = .ok default ∧
      ¬ Runs.Always (apply ConfigPrimitives.toy) (Attests Primitives.toy) default
        (lockedThenMoved { NetworkConfig.default with chainId := 42 }) := by
  refine ⟨new_eq, fun h => ?_⟩
  have hend := Runs.always_iff.mp h _ (List.prefix_refl _) ⟨87400⟩ (by decide +kernel)
  have hhash := hend.hash
  revert hhash
  decide +kernel

end ExchangeConfig

end QuDAG.Exchange.Config
