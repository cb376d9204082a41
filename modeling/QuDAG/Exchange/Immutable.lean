import QuDAG.Exchange.Transaction
import QuDAG.Lib.Binary64
import QuDAG.Lib.Outcome

/-!
# Immutable deployment

The fee parameters (`fee_model.rs`) and the lock of the exchange configuration (`immutable.rs`). The
system configuration is hashed, and the hash and the time are signed, when it is locked; it may
still be changed until the grace period after that is over.

## Main definitions

* `FeeModelParams`, `LockableConfig` — what can be locked.
* `ImmutableConfig` — the lock.
* `ImmutableDeployment` — both, with `lockSystem`, `verifyLockSignature`, `updateFeeParams`,
  `updateSystemConfig` and `governanceOverride`.

## Main results

* `ImmutableConfig.isEnforced_mono` — a lock stays enforced.
* `ImmutableDeployment.lockSystem_ok` — what locking does.
* `ImmutableDeployment.verifyLockSignature_iff` — when the lock signature verifies.

## Implementation notes

A method that checks everything before it changes anything is a function to the new value or an
error. The end of the grace period is a sum of 64-bit numbers that wraps around, as it does in a
release build.
-/

namespace QuDAG.Exchange

open RustStd

/-- What the configuration uses of other crates, for key pairs `κ` of the signature scheme. -/
structure ConfigPrimitives (κ : Type) extends Primitives where
  /-- The public key of a pair. -/
  publicKey : κ → List UInt8
  /-- Sign a message, with bytes from a random generator. -/
  sign : κ → List UInt8 → List UInt8 → Except String (List UInt8)
  /-- The decimal text of a float. -/
  showFloat : Binary64 → String
  /-- The text of the error on bytes that cannot be deserialized. -/
  decodeError : List UInt8 → String

/-- The public key of a pair as a key of the scheme. -/
def ConfigPrimitives.toPublicKey {κ : Type} (P : ConfigPrimitives κ) (keypair : κ) :
    Except String (List UInt8) :=
  (P.parsePublicKey (P.publicKey keypair)).map fun _ => P.publicKey keypair

/-- What a pair signs verifies under its public key. -/
def ConfigPrimitives.SignaturesVerify {κ : Type} (P : ConfigPrimitives κ) : Prop :=
  ∀ keypair message seed signature, P.sign keypair message seed = .ok signature →
    P.verify (P.publicKey keypair) message signature = true

/-- A stand-in for the other crates: a key pair is its public key, a signature repeats the key and
the message. -/
def ConfigPrimitives.toy : ConfigPrimitives (List UInt8) where
  toPrimitives := Primitives.toy
  publicKey keypair := keypair
  sign keypair message _ := .ok (keypair ++ message)
  showFloat x := toString x.bits
  decodeError _ := "io error: unexpected end of file"

/-- The signatures of the stand-in verify. -/
lemma ConfigPrimitives.signaturesVerify_toy : ConfigPrimitives.toy.SignaturesVerify := by
  intro keypair message seed signature h
  rw [← Except.ok.inj h]
  exact decide_eq_true rfl

/-- Floats are written by their bits. -/
def floatCodec : Codec Binary64 := Codec.u64.refine (fun n => some ⟨n⟩) Binary64.bits

@[simp] lemma valid_floatCodec (x : Binary64) : floatCodec.Valid x := ⟨Codec.valid_u64 _, rfl⟩

/-! ## Fee parameters -/

/-- Fee model parameters. -/
structure FeeModelParams where
  /-- Minimum fee (introductory). -/
  fMin : Binary64
  /-- Maximum fee for unverified agents. -/
  fMax : Binary64
  /-- Minimum fee for verified agents. -/
  fMinVerified : Binary64
  /-- Maximum fee for verified agents. -/
  fMaxVerified : Binary64
  /-- Phase-in time constant. -/
  timeConstantSeconds : UInt64
  /-- Usage scale threshold. -/
  usageThresholdRuv : UInt64
  deriving DecidableEq

namespace FeeModelParams

/-- Fees of 0.1% to 1%, and 0.25% to 0.5% for verified agents. -/
def default : FeeModelParams where
  fMin := ⟨0x3F50624DD2F1A9FC⟩
  fMax := ⟨0x3F847AE147AE147B⟩
  fMinVerified := ⟨0x3F647AE147AE147B⟩
  fMaxVerified := ⟨0x3F747AE147AE147B⟩
  timeConstantSeconds := 3 * 30 * 24 * 60 * 60
  usageThresholdRuv := 10000

/-- Validate that parameters are within reasonable bounds. -/
def validate (params : FeeModelParams) : Except Error Unit :=
  if params.fMin.le .zero || Binary64.one.le params.fMin then
    .error (.other "f_min must be between 0 and 1")
  else if params.fMax.le params.fMin || Binary64.one.le params.fMax then
    .error (.other "f_max must be greater than f_min and less than 1")
  else if params.fMinVerified.le .zero || Binary64.one.le params.fMinVerified then
    .error (.other "f_min_verified must be between 0 and 1")
  else if params.fMaxVerified.le params.fMinVerified || Binary64.one.le params.fMaxVerified then
    .error (.other "f_max_verified must be greater than f_min_verified and less than 1")
  else if params.timeConstantSeconds = 0 then
    .error (.other "time_constant_seconds must be greater than 0")
  else if params.usageThresholdRuv = 0 then
    .error (.other "usage_threshold_ruv must be greater than 0")
  else .ok ()

example : default.validate = .ok () := by decide +kernel

/-- The fields of the parameters. -/
def codec : Codec FeeModelParams :=
  (floatCodec.pair (floatCodec.pair (floatCodec.pair (floatCodec.pair
    (Codec.u64.pair Codec.u64))))).refine
    (fun p => some ⟨p.1, p.2.1, p.2.2.1, p.2.2.2.1, p.2.2.2.2.1, p.2.2.2.2.2⟩)
    fun p => (p.fMin, p.fMax, p.fMinVerified, p.fMaxVerified, p.timeConstantSeconds,
      p.usageThresholdRuv)

@[simp] lemma valid_codec (params : FeeModelParams) : codec.Valid params := by
  simp [codec]

end FeeModelParams

/-! ## What is locked -/

/-- System configuration that can be made immutable. -/
structure LockableConfig where
  /-- Fee model parameters. -/
  feeParams : FeeModelParams
  /-- Maximum total supply allowed. -/
  maxTotalSupply : UInt64
  /-- Minimum balance required for accounts. -/
  minAccountBalance : UInt64
  /-- Network chain ID. -/
  chainId : UInt64
  /-- Protocol version. -/
  protocolVersion : UInt32
  /-- Whether negative balances are allowed. -/
  allowNegativeBalances : Bool
  deriving DecidableEq

namespace LockableConfig

/-- The default fees on chain 1, without a limit of the supply. -/
def default : LockableConfig :=
  ⟨.default, UInt64.ofNat (2 ^ 64 - 1), 0, 1, 1, false⟩

/-- The fields of the configuration. -/
def codec : Codec LockableConfig :=
  (FeeModelParams.codec.pair (Codec.u64.pair (Codec.u64.pair (Codec.u64.pair (Codec.u32.pair
    Codec.bool))))).refine
    (fun p => some ⟨p.1, p.2.1, p.2.2.1, p.2.2.2.1, p.2.2.2.2.1, p.2.2.2.2.2⟩)
    fun c => (c.feeParams, c.maxTotalSupply, c.minAccountBalance, c.chainId, c.protocolVersion,
      c.allowNegativeBalances)

@[simp] lemma valid_codec (config : LockableConfig) : codec.Valid config := by
  simp [codec]

/-- The hash of the configuration for signing. -/
def hash (P : Primitives) (config : LockableConfig) : Hash := P.blake3 (codec.encode config)

/-- Validate that configuration is valid. -/
def validate (config : LockableConfig) : Except Error Unit := do
  config.feeParams.validate
  if config.maxTotalSupply = 0 then
    .error (.other "max_total_supply must be greater than 0")
  else if config.chainId = 0 then
    .error (.other "chain_id must be greater than 0")
  else if config.protocolVersion = 0 then
    .error (.other "protocol_version must be greater than 0")
  else .ok ()

example : default.validate = .ok () := by decide +kernel

/-- A valid configuration has valid fee parameters and no zero where one is not allowed. -/
lemma validate_eq_ok_iff {config : LockableConfig} :
    config.validate = .ok () ↔ config.feeParams.validate = .ok () ∧
      config.maxTotalSupply ≠ 0 ∧ config.chainId ≠ 0 ∧ config.protocolVersion ≠ 0 := by
  unfold validate
  cases config.feeParams.validate with
  | error e => simp [bind, Except.bind]
  | ok u =>
    simp only [bind, Except.bind, true_and]
    split_ifs with hsupply hchain hversion
    · simp [hsupply]
    · simp [hchain]
    · simp [hversion]
    · simp [hsupply, hchain, hversion]

end LockableConfig

/-! ## The lock -/

/-- Quantum-resistant signature for immutable deployment. -/
structure ImmutableSignature where
  /-- Algorithm used. -/
  algorithm : String
  /-- Public key of the signer. -/
  publicKey : List UInt8
  /-- The signature bytes. -/
  signature : List UInt8
  /-- Hash of the signed configuration. -/
  configHash : Hash
  deriving DecidableEq

/-- Immutable deployment configuration. -/
structure ImmutableConfig where
  /-- Whether immutable mode is enabled. -/
  enabled : Bool
  /-- When the system was locked. -/
  lockedAt : Option Timestamp
  /-- Signature that locks the configuration. -/
  lockSignature : Option ImmutableSignature
  /-- Optional governance override key. -/
  governanceKey : Option (List UInt8)
  /-- Hash of the configuration that was locked. -/
  lockedConfigHash : Option Hash
  /-- Grace period in seconds before the lock takes effect. -/
  gracePeriodSeconds : UInt64
  deriving DecidableEq

namespace ImmutableConfig

/-- Not enabled, with a grace period of 24 hours. -/
def default : ImmutableConfig := ⟨false, none, none, none, none, 24 * 60 * 60⟩

variable {config : ImmutableConfig} {t t' : Timestamp}

/-- Enable immutable mode (but don't lock yet). -/
def enable (config : ImmutableConfig) : ImmutableConfig := { config with enabled := true }

/-- Is the system locked? -/
def isLocked (config : ImmutableConfig) : Bool :=
  config.enabled && config.lockedAt.isSome && config.lockSignature.isSome

/-- Is the system in its grace period? -/
def isInGracePeriod (config : ImmutableConfig) (currentTime : Timestamp) : Bool :=
  match config.lockedAt with
  | some lockedAt => decide (currentTime.millis < lockedAt.millis + config.gracePeriodSeconds)
  | none => false

/-- Is immutable mode enforced? -/
def isEnforced (config : ImmutableConfig) (currentTime : Timestamp) : Bool :=
  config.isLocked && !config.isInGracePeriod currentTime

/-- Disable immutable mode (only allowed if not locked). -/
def disable (config : ImmutableConfig) : Except Error ImmutableConfig :=
  if config.isLocked then .error (.other "Cannot disable immutable mode: system is locked")
  else .ok { config with enabled := false }

/-- Set the grace period (only allowed if not locked). -/
def setGracePeriod (config : ImmutableConfig) (seconds : UInt64) : Except Error ImmutableConfig :=
  if config.isLocked then .error (.other "Cannot change grace period: system is locked")
  else .ok { config with gracePeriodSeconds := seconds }

/-- Set the governance override key (only allowed if not locked). -/
def setGovernanceKey (config : ImmutableConfig) (key : List UInt8) : Except Error ImmutableConfig :=
  if config.isLocked then .error (.other "Cannot set governance key: system is locked")
  else .ok { config with governanceKey := some key }

/-- What is disabled is not locked. -/
lemma disable_ok {config' : ImmutableConfig} (h : config.disable = .ok config') :
    config.isLocked = false ∧ config' = { config with enabled := false } := by
  unfold disable at h
  split_ifs at h with hlocked
  exact ⟨by simpa using hlocked, (Except.ok.inj h).symm⟩

/-- The grace period is set while the configuration is not locked. -/
lemma setGracePeriod_ok {config' : ImmutableConfig} {seconds : UInt64}
    (h : config.setGracePeriod seconds = .ok config') :
    config.isLocked = false ∧ config' = { config with gracePeriodSeconds := seconds } := by
  unfold setGracePeriod at h
  split_ifs at h with hlocked
  exact ⟨by simpa using hlocked, (Except.ok.inj h).symm⟩

/-- So is the governance key. -/
lemma setGovernanceKey_ok {config' : ImmutableConfig} {key : List UInt8}
    (h : config.setGovernanceKey key = .ok config') :
    config.isLocked = false ∧ config' = { config with governanceKey := some key } := by
  unfold setGovernanceKey at h
  split_ifs at h with hlocked
  exact ⟨by simpa using hlocked, (Except.ok.inj h).symm⟩

/-- The lock is removed. -/
def unlocked (config : ImmutableConfig) : ImmutableConfig :=
  { config with lockedAt := none, lockSignature := none, lockedConfigHash := none }

/-- What is locked is enabled, and has a time and a signature. -/
lemma isLocked_iff : config.isLocked = true ↔
    config.enabled = true ∧ (∃ t, config.lockedAt = some t) ∧
      ∃ s, config.lockSignature = some s := by
  simp [isLocked, Option.isSome_iff_exists, and_assoc]

/-- What is enforced is locked. -/
lemma isLocked_of_isEnforced (h : config.isEnforced t = true) : config.isLocked = true :=
  (Bool.and_eq_true_iff.mp h).1

/-- **A lock stays enforced** as time goes on. -/
lemma isEnforced_mono (hle : t.millis ≤ t'.millis) (h : config.isEnforced t = true) :
    config.isEnforced t' = true := by
  obtain ⟨hlocked, hgrace⟩ := Bool.and_eq_true_iff.mp h
  refine Bool.and_eq_true_iff.mpr ⟨hlocked, ?_⟩
  unfold isInGracePeriod at hgrace ⊢
  cases hat : config.lockedAt with
  | none => rfl
  | some lockedAt =>
    simp only [hat, Bool.not_eq_true', decide_eq_false_iff_not, UInt64.not_lt] at hgrace ⊢
    exact UInt64.le_trans hgrace hle

end ImmutableConfig

/-! ## The deployment -/

/-- Immutable deployment manager. -/
structure ImmutableDeployment where
  /-- Immutable configuration. -/
  config : ImmutableConfig
  /-- System configuration that can be locked. -/
  systemConfig : LockableConfig
  deriving DecidableEq

namespace ImmutableDeployment

variable {κ : Type} {P : ConfigPrimitives κ} {d d' : ImmutableDeployment} {keypair : κ}
  {seed : List UInt8} {t : Timestamp}

/-- Create a new immutable deployment manager. -/
def new : ImmutableDeployment := ⟨.default, .default⟩

/-- Create with custom configuration. -/
def withConfig (systemConfig : LockableConfig) : Except Error ImmutableDeployment := do
  systemConfig.validate
  .ok ⟨.default, systemConfig⟩

/-- Enable immutable mode. -/
def enableImmutableMode (d : ImmutableDeployment) : Except Error ImmutableDeployment := do
  d.systemConfig.validate
  .ok { d with config := d.config.enable }

/-- What is signed: the hash of the configuration and the time. -/
def lockMessage (configHash : Hash) (lockedAt : Timestamp) : List UInt8 :=
  configHash.bytes ++ Codec.u64.encode lockedAt.millis

/-- The configuration with a lock. -/
def locked (d : ImmutableDeployment) (signature : ImmutableSignature) (currentTime : Timestamp) :
    ImmutableDeployment :=
  { d with config := { d.config with
      lockedAt := some currentTime
      lockSignature := some signature
      lockedConfigHash := some signature.configHash } }

/-- Lock the system with quantum-resistant signature. -/
def lockSystem (P : ConfigPrimitives κ) (keypair : κ) (seed : List UInt8) (currentTime : Timestamp)
    (d : ImmutableDeployment) : Except Error ImmutableDeployment :=
  if !d.config.enabled then .error (.other "Immutable mode not enabled")
  else if d.config.isLocked then .error (.other "System is already locked")
  else do
    d.systemConfig.validate
    let configHash := d.systemConfig.hash P.toPrimitives
    let signature ← (P.sign keypair (lockMessage configHash currentTime) seed).mapError
      fun e => .other ("Signing failed: " ++ e)
    let publicKey ← (P.toPublicKey keypair).mapError
      fun e => .other ("Public key extraction failed: " ++ e)
    .ok (d.locked ⟨"ML-DSA-87", publicKey, signature, configHash⟩ currentTime)

/-- Verify the lock signature. -/
def verifyLockSignature (P : Primitives) (d : ImmutableDeployment) : Except Error Bool := do
  let sigData ← match d.config.lockSignature with
    | some sigData => .ok sigData
    | none => .error (.other "No lock signature present")
  let lockedAt ← match d.config.lockedAt with
    | some lockedAt => .ok lockedAt
    | none => .error (.other "No lock timestamp present")
  (P.parsePublicKey sigData.publicKey).mapError fun e => .other ("Invalid public key: " ++ e)
  if P.verify sigData.publicKey (lockMessage sigData.configHash lockedAt) sigData.signature then
    .ok (d.systemConfig.hash P = sigData.configHash)
  else .ok false

/-- Are configuration changes allowed? -/
def canModifyConfig (d : ImmutableDeployment) (currentTime : Timestamp) : Bool :=
  !d.config.isEnforced currentTime

/-- The error of a change that the lock does not allow. -/
def lockedError (what : String) : Error :=
  .other ("Cannot modify " ++ what ++ ": system is immutably locked")

/-- Update fee parameters (only allowed if not locked). -/
def updateFeeParams (params : FeeModelParams) (currentTime : Timestamp) (d : ImmutableDeployment) :
    Except Error ImmutableDeployment :=
  if !d.canModifyConfig currentTime then .error (lockedError "configuration")
  else do
    params.validate
    .ok { d with systemConfig := { d.systemConfig with feeParams := params } }

/-- Update system configuration (only allowed if not locked). -/
def updateSystemConfig (config : LockableConfig) (currentTime : Timestamp)
    (d : ImmutableDeployment) : Except Error ImmutableDeployment :=
  if !d.canModifyConfig currentTime then .error (lockedError "configuration")
  else do
    config.validate
    .ok { d with systemConfig := config }

/-- Emergency governance override (only with governance key). -/
def governanceOverride (P : ConfigPrimitives κ) (governanceKeypair : κ) (d : ImmutableDeployment) :
    Except Error ImmutableDeployment :=
  match d.config.governanceKey with
  | none => .error (.other "No governance key set")
  | some governanceKey => do
    let publicKey ← (P.toPublicKey governanceKeypair).mapError
      fun e => .other ("Governance key extraction failed: " ++ e)
    if publicKey ≠ governanceKey then .error (.other "Invalid governance key")
    else .ok { d with config := d.config.unlocked }

/-! ## What the methods do -/

/-- The public key of a pair is parsed and returned. -/
lemma toPublicKey_eq_ok {publicKey : List UInt8} (h : P.toPublicKey keypair = .ok publicKey) :
    publicKey = P.publicKey keypair ∧ P.parsePublicKey publicKey = .ok () := by
  unfold ConfigPrimitives.toPublicKey at h
  cases hparse : P.parsePublicKey (P.publicKey keypair) with
  | error e => simp [hparse, Except.map] at h
  | ok u =>
    rw [hparse] at h
    obtain rfl : P.publicKey keypair = publicKey := Except.ok.inj h
    exact ⟨rfl, hparse⟩

/-- **Locking** a valid configuration that is enabled and not locked: the lock holds its hash,
signed by the key of the pair. -/
lemma lockSystem_ok (h : d.lockSystem P keypair seed t = .ok d') :
    d.config.enabled = true ∧ d.config.isLocked = false ∧ d.systemConfig.validate = .ok () ∧
      P.parsePublicKey (P.publicKey keypair) = .ok () ∧
      ∃ signature, P.sign keypair (lockMessage (d.systemConfig.hash P.toPrimitives) t) seed =
          .ok signature ∧
        d' = d.locked
          ⟨"ML-DSA-87", P.publicKey keypair, signature, d.systemConfig.hash P.toPrimitives⟩ t := by
  unfold lockSystem at h
  split_ifs at h with henabled hlocked
  obtain ⟨u, hvalid, h⟩ := bind_eq_ok.mp h
  obtain ⟨signature, hsign, h⟩ := bind_eq_ok.mp h
  obtain ⟨publicKey, hkey, h⟩ := bind_eq_ok.mp h
  obtain ⟨rfl, hparse⟩ := toPublicKey_eq_ok (mapError_eq_ok.mp hkey)
  exact ⟨by simpa using henabled, by simpa using hlocked, hvalid, hparse, signature,
    mapError_eq_ok.mp hsign, (Except.ok.inj h).symm⟩

/-- **The lock signature verifies** iff it is a signature of its hash and the time of the lock under
a key of the scheme, and its hash is that of the configuration. -/
lemma verifyLockSignature_iff {P : Primitives} :
    d.verifyLockSignature P = .ok true ↔ ∃ sigData lockedAt,
      d.config.lockSignature = some sigData ∧ d.config.lockedAt = some lockedAt ∧
      P.parsePublicKey sigData.publicKey = .ok () ∧
      P.verify sigData.publicKey (lockMessage sigData.configHash lockedAt)
        sigData.signature = true ∧
      d.systemConfig.hash P = sigData.configHash := by
  unfold verifyLockSignature
  cases hsignature : d.config.lockSignature with
  | none => simp [bind, Except.bind]
  | some sigData =>
    cases hat : d.config.lockedAt with
    | none => simp [bind, Except.bind]
    | some lockedAt =>
      simp only [bind, Except.bind, Option.some.injEq, exists_and_left, exists_eq_left']
      cases hparse : P.parsePublicKey sigData.publicKey with
      | error e => simp [Except.mapError]
      | ok u =>
        simp only [Except.mapError, true_and]
        split_ifs with hverify
        · simp [hverify]
        · simp [hverify]

/-- A valid configuration is enabled. -/
lemma enableImmutableMode_ok (h : d.enableImmutableMode = .ok d') :
    d.systemConfig.validate = .ok () ∧ d' = { d with config := d.config.enable } := by
  obtain ⟨u, hvalid, h⟩ := bind_eq_ok.mp h
  exact ⟨hvalid, (Except.ok.inj h).symm⟩

/-- Fee parameters are valid and not locked when they are updated. -/
lemma updateFeeParams_ok {params : FeeModelParams} (h : d.updateFeeParams params t = .ok d') :
    d.canModifyConfig t = true ∧ params.validate = .ok () ∧
      d' = { d with systemConfig := { d.systemConfig with feeParams := params } } := by
  unfold updateFeeParams at h
  split_ifs at h with hmodify
  obtain ⟨u, hvalid, h⟩ := bind_eq_ok.mp h
  exact ⟨by simpa using hmodify, hvalid, (Except.ok.inj h).symm⟩

/-- The system configuration is valid and not locked when it is updated. -/
lemma updateSystemConfig_ok {config : LockableConfig}
    (h : d.updateSystemConfig config t = .ok d') :
    d.canModifyConfig t = true ∧ config.validate = .ok () ∧
      d' = { d with systemConfig := config } := by
  unfold updateSystemConfig at h
  split_ifs at h with hmodify
  obtain ⟨u, hvalid, h⟩ := bind_eq_ok.mp h
  exact ⟨by simpa using hmodify, hvalid, (Except.ok.inj h).symm⟩

/-- Only the governance key overrides the lock, which is then removed. -/
lemma governanceOverride_ok (h : d.governanceOverride P keypair = .ok d') :
    d.config.governanceKey = some (P.publicKey keypair) ∧
      d' = { d with config := d.config.unlocked } := by
  unfold governanceOverride at h
  split at h
  · cases h
  · rename_i governanceKey hkey
    obtain ⟨publicKey, hpublic, hrest⟩ := bind_eq_ok.mp h
    obtain ⟨rfl, -⟩ := toPublicKey_eq_ok (mapError_eq_ok.mp hpublic)
    split_ifs at hrest with hsame
    rw [hkey, not_not.mp hsame]
    exact ⟨rfl, (Except.ok.inj hrest).symm⟩

end ImmutableDeployment

end QuDAG.Exchange
