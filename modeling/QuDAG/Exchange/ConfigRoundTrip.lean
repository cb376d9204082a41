import QuDAG.Exchange.LockHash

/-!
# Saving and loading the configuration

The fee model and the fee router are not saved. Loading makes a fee model from the fee parameters,
and a router iff the business plan is enabled and distributes automatically; but the methods make
one whether or not the plan is enabled, and may keep an old one. Loading also validates, and the
setters of the network and of the security do not.

## Main definitions

* `Config.ExchangeConfig.toBytes`, `Config.ExchangeConfig.fromBytes`.
* `Config.ExchangeConfig.RoundTrips` — the configuration is valid, and it is what is loaded after it
  was saved.
* `Config.ExchangeConfig.Sound` — the condition on a call.

## Main results

* `Config.ExchangeConfig.roundTrips_iff_coherent` — the configurations that round-trip.
* `Config.ExchangeConfig.always_roundTrips_iff` — the exact runs all of whose configurations do.
-/

namespace QuDAG.Exchange

/-! ## Formats -/

/-- The fields of a lock signature. -/
def ImmutableSignature.codec : Codec ImmutableSignature :=
  (Codec.string.pair (Codec.byteVec.pair (Codec.byteVec.pair Hash.codec))).refine
    (fun p => some ⟨p.1, p.2.1, p.2.2.1, p.2.2.2⟩)
    fun s => (s.algorithm, s.publicKey, s.signature, s.configHash)

/-- A lock signature is read back if its lengths fit. -/
lemma ImmutableSignature.valid_codec (s : ImmutableSignature) :
    codec.Valid s ↔ (Bytes.ofString s.algorithm).length < 2 ^ 64 ∧
      s.publicKey.length < 2 ^ 64 ∧ s.signature.length < 2 ^ 64 := by
  simp [codec]

/-- The fields of a lock. -/
def ImmutableConfig.codec : Codec ImmutableConfig :=
  (Codec.bool.pair (Timestamp.codec.option.pair (ImmutableSignature.codec.option.pair
    (Codec.byteVec.option.pair (Hash.codec.option.pair Codec.u64))))).refine
    (fun p => some ⟨p.1, p.2.1, p.2.2.1, p.2.2.2.1, p.2.2.2.2.1, p.2.2.2.2.2⟩)
    fun c => (c.enabled, c.lockedAt, c.lockSignature, c.governanceKey, c.lockedConfigHash,
      c.gracePeriodSeconds)

/-- The fields of a deployment. -/
def ImmutableDeployment.codec : Codec ImmutableDeployment :=
  (ImmutableConfig.codec.pair LockableConfig.codec).refine (fun p => some ⟨p.1, p.2⟩)
    fun d => (d.config, d.systemConfig)

/-- A deployment is read back if the lengths of its signature and its governance key fit. -/
lemma ImmutableDeployment.valid_codec (d : ImmutableDeployment) : codec.Valid d ↔
    (∀ s ∈ d.config.lockSignature, (Bytes.ofString s.algorithm).length < 2 ^ 64 ∧
      s.publicKey.length < 2 ^ 64 ∧ s.signature.length < 2 ^ 64) ∧
      ∀ key ∈ d.config.governanceKey, key.length < 2 ^ 64 := by
  simp [codec, ImmutableConfig.codec, Codec.valid_option_iff, ImmutableSignature.valid_codec]

namespace Config

/-- The contributor types in the order of the enumeration. -/
def contributorTypes : List ContributorType :=
  [.agent, .plugin, .node, .infrastructure, .network, .system, .bountyPoster]

/-- Contributor types are written by their number. -/
def contributorTypeCodec : Codec ContributorType :=
  Codec.enumeration contributorTypes.idxOf fun n => contributorTypes[n]?

@[simp] lemma valid_contributorTypeCodec (type : ContributorType) :
    contributorTypeCodec.Valid type := by
  cases type with
  | _ => exact ⟨by show _ < 256 ^ 4; decide, rfl⟩

/-- The percentages of a split. -/
def PayoutSplit.codec : Codec PayoutSplit :=
  (contributorTypeCodec.pair floatCodec).list.refine (fun l => some ⟨l⟩) PayoutSplit.percentages

@[simp] lemma PayoutSplit.valid_codec (split : PayoutSplit) :
    codec.Valid split ↔ split.percentages.length < 2 ^ 64 := by
  simp [codec, Codec.valid_list]

/-- The fields of the templates. -/
def PayoutSplitTemplates.codec : Codec PayoutSplitTemplates :=
  (PayoutSplit.codec.pair (PayoutSplit.codec.pair (PayoutSplit.codec.pair
    PayoutSplit.codec))).refine (fun p => some ⟨p.1, p.2.1, p.2.2.1, p.2.2.2⟩)
    fun s => (s.singleAgent, s.pluginEnhanced, s.nodeOperation, s.bountyCompletion)

/-- Templates are read back if their lengths fit. -/
lemma PayoutSplitTemplates.valid_codec (s : PayoutSplitTemplates) : codec.Valid s ↔
    s.singleAgent.percentages.length < 2 ^ 64 ∧ s.pluginEnhanced.percentages.length < 2 ^ 64 ∧
      s.nodeOperation.percentages.length < 2 ^ 64 ∧
      s.bountyCompletion.percentages.length < 2 ^ 64 := by
  simp [codec]

/-- The fields of a payout configuration. -/
def PayoutConfig.codec : Codec PayoutConfig :=
  (Codec.bool.pair (PayoutSplitTemplates.codec.pair (RUv.codec.pair (floatCodec.pair
    (floatCodec.pair (Codec.u64.pair Codec.bool)))))).refine
    (fun p => some ⟨p.1, p.2.1, p.2.2.1, p.2.2.2.1, p.2.2.2.2.1, p.2.2.2.2.2.1, p.2.2.2.2.2.2⟩)
    fun c => (c.enabled, c.defaultSplits, c.minPayoutThreshold, c.maxContributorPercentage,
      c.systemFeePercentage, c.auditRetentionSeconds, c.enableZkProofs)

/-- The fields of a governance configuration. -/
def GovernanceConfig.codec : Codec GovernanceConfig :=
  (Codec.bool.pair (RUv.codec.option.pair (Codec.bool.pair Codec.u64))).refine
    (fun p => some ⟨p.1, p.2.1, p.2.2.1, p.2.2.2⟩)
    fun g => (g.allowCustomPercentages, g.requireApprovalThreshold, g.enableVoting,
      g.minVotingPeriodSeconds)

/-- The fields of a business plan. -/
def BusinessPlanConfig.codec : Codec BusinessPlanConfig :=
  (Codec.bool.pair (PayoutConfig.codec.pair (Codec.bool.pair (Codec.bool.pair (Codec.bool.pair
    (Codec.bool.pair GovernanceConfig.codec)))))).refine
    (fun p => some ⟨p.1, p.2.1, p.2.2.1, p.2.2.2.1, p.2.2.2.2.1, p.2.2.2.2.2.1, p.2.2.2.2.2.2⟩)
    fun b => (b.enabled, b.payoutConfig, b.enableVaultManagement, b.enableAutoDistribution,
      b.enableRoleEarnings, b.enableBountyRewards, b.governance)

/-- A business plan is read back if the lengths of its templates fit. -/
lemma BusinessPlanConfig.valid_codec (b : BusinessPlanConfig) :
    codec.Valid b ↔ PayoutSplitTemplates.codec.Valid b.payoutConfig.defaultSplits := by
  simp [codec, PayoutConfig.codec, GovernanceConfig.codec, Codec.valid_option_iff]

/-- The fields of a network configuration. -/
def NetworkConfig.codec : Codec NetworkConfig :=
  (Codec.u64.pair (Codec.string.pair (Codec.string.list.pair (Codec.string.pair
    Codec.bool)))).refine (fun p => some ⟨p.1, p.2.1, p.2.2.1, p.2.2.2.1, p.2.2.2.2⟩)
    fun n => (n.chainId, n.networkName, n.bootstrapPeers, n.listenAddress, n.enableDarkAddressing)

/-- A network configuration is read back if its lengths fit. -/
lemma NetworkConfig.valid_codec (n : NetworkConfig) : codec.Valid n ↔
    (Bytes.ofString n.networkName).length < 2 ^ 64 ∧ (n.bootstrapPeers.length < 2 ^ 64 ∧
      ∀ peer ∈ n.bootstrapPeers, (Bytes.ofString peer).length < 2 ^ 64) ∧
      (Bytes.ofString n.listenAddress).length < 2 ^ 64 := by
  simp [codec, Codec.valid_list]

/-- The fields of a security configuration. -/
def SecurityConfig.codec : Codec SecurityConfig :=
  (Codec.bool.pair (Codec.string.pair (Codec.bool.pair (Codec.u64.pair (Codec.bool.pair
    Codec.u32))))).refine
    (fun p => some ⟨p.1, p.2.1, p.2.2.1, p.2.2.2.1, p.2.2.2.2.1, p.2.2.2.2.2⟩)
    fun s => (s.requireQuantumSignatures, s.minSignatureStrength, s.enableReplayProtection,
      s.defaultTxExpirySeconds, s.enableRateLimiting, s.maxTxPerMinute)

/-- A security configuration is read back if the length of its text fits. -/
lemma SecurityConfig.valid_codec (s : SecurityConfig) :
    codec.Valid s ↔ (Bytes.ofString s.minSignatureStrength).length < 2 ^ 64 := by
  simp [codec]

namespace ExchangeConfig

open RustStd

variable {κ : Type} {P : ConfigPrimitives κ} {c c' : ExchangeConfig} {t : Timestamp}
  {op : Operation κ}

/-- What is saved of a configuration: neither the fee model nor the fee router. -/
abbrev Stored : Type :=
  ImmutableDeployment × NetworkConfig × SecurityConfig × Option BusinessPlanConfig

/-- The saved fields. -/
def codec : Codec Stored :=
  ImmutableDeployment.codec.pair (NetworkConfig.codec.pair (SecurityConfig.codec.pair
    BusinessPlanConfig.codec.option))

/-- The saved fields of a configuration. -/
def stored (c : ExchangeConfig) : Stored :=
  (c.immutableDeployment, c.network, c.security, c.businessPlan)

/-- A configuration with the saved fields. -/
def ofStored (s : Stored) : ExchangeConfig := ⟨s.1, none, s.2.1, s.2.2.1, s.2.2.2, none⟩

/-- Save configuration to bytes for persistence. -/
def toBytes (c : ExchangeConfig) : List UInt8 := codec.encode c.stored

/-- The fee router that is made when a configuration is loaded. -/
def initializeFeeRouter (c : ExchangeConfig) : ExchangeConfig :=
  match c.businessPlan with
  | some plan =>
    if plan.enabled && plan.enableAutoDistribution then
      { c with feeRouter := some (.new plan.payoutConfig) }
    else c
  | none => c

/-- Load configuration from bytes. -/
def fromBytes (P : ConfigPrimitives κ) (bytes : List UInt8) : Except Error ExchangeConfig := do
  let read ← (match codec.decode bytes with
    | some read => .ok read
    | none => .error (.serializationError (P.decodeError bytes)))
  let config ← (ofStored read.1).initialized
  config.initializeFeeRouter.validate
  .ok config.initializeFeeRouter

/-- The lengths of a configuration fit in 64 bits. -/
def Fits (c : ExchangeConfig) : Prop := codec.Valid c.stored

/-- The lengths that have to fit. -/
lemma fits_iff : c.Fits ↔
    ((∀ s ∈ c.lock.lockSignature, (Bytes.ofString s.algorithm).length < 2 ^ 64 ∧
      s.publicKey.length < 2 ^ 64 ∧ s.signature.length < 2 ^ 64) ∧
      ∀ key ∈ c.lock.governanceKey, key.length < 2 ^ 64) ∧
    ((Bytes.ofString c.network.networkName).length < 2 ^ 64 ∧
      (c.network.bootstrapPeers.length < 2 ^ 64 ∧
        ∀ peer ∈ c.network.bootstrapPeers, (Bytes.ofString peer).length < 2 ^ 64) ∧
      (Bytes.ofString c.network.listenAddress).length < 2 ^ 64) ∧
    (Bytes.ofString c.security.minSignatureStrength).length < 2 ^ 64 ∧
    ∀ plan ∈ c.businessPlan,
      plan.payoutConfig.defaultSplits.singleAgent.percentages.length < 2 ^ 64 ∧
      plan.payoutConfig.defaultSplits.pluginEnhanced.percentages.length < 2 ^ 64 ∧
      plan.payoutConfig.defaultSplits.nodeOperation.percentages.length < 2 ^ 64 ∧
      plan.payoutConfig.defaultSplits.bountyCompletion.percentages.length < 2 ^ 64 := by
  unfold Fits codec stored lock
  simp only [Codec.valid_pair, ImmutableDeployment.valid_codec, NetworkConfig.valid_codec,
    SecurityConfig.valid_codec, Codec.valid_option_iff, BusinessPlanConfig.valid_codec,
    PayoutSplitTemplates.valid_codec, Option.mem_def]

instance (c : ExchangeConfig) : Decidable c.Fits := decidable_of_iff _ fits_iff.symm

/-- The business plan of a configuration is enabled and distributes automatically. -/
def distributes (c : ExchangeConfig) : Bool :=
  c.businessPlan.any fun plan => plan.enabled && plan.enableAutoDistribution

/-- The configuration is valid, and what is loaded after it was saved has the same parameters and
the same lock, and a fee router iff it has one. -/
def RoundTrips (P : ConfigPrimitives κ) (c : ExchangeConfig) : Prop :=
  c.validate = .ok () ∧ ∃ c', fromBytes P c.toBytes = .ok c' ∧
    c'.immutableDeployment = c.immutableDeployment ∧ c'.feeModel = c.feeModel ∧
    c'.network = c.network ∧ c'.security = c.security ∧ c'.businessPlan = c.businessPlan ∧
    c'.feeRouter.isSome = c.feeRouter.isSome

/-- The configuration is valid, its fee model has its fee parameters, and it has a fee router iff
its business plan is enabled and distributes automatically. -/
structure Coherent (c : ExchangeConfig) : Prop where
  /-- The configuration is valid. -/
  valid : c.validate = .ok ()
  /-- The fee model has the fee parameters. -/
  feeModel : c.feeModel = some ⟨c.systemConfig.feeParams⟩
  /-- There is a fee router iff fees are distributed. -/
  feeRouter : c.feeRouter.isSome = c.distributes

/-- A call sets only a valid network and valid security limits, distributes automatically only
under a business plan that is enabled, and without automatic distribution enables one only where
there is no fee router. A whole system configuration keeps the fee parameters. -/
def Sound (P : ConfigPrimitives κ) (c : ExchangeConfig) (e : Timestamp × Operation κ) : Prop :=
  match e.2 with
  | .updateNetworkConfig network => c.canModifyConfig e.1 = true →
      network.chainId ≠ 0 ∧ network.networkName ≠ ""
  | .updateSecurityConfig security => c.canModifyConfig e.1 = true →
      security.defaultTxExpirySeconds ≠ 0 ∧ security.maxTxPerMinute ≠ 0
  | .enableBusinessPlan plan => plan.payoutConfig.validate P = .ok () →
      if plan.enableAutoDistribution then plan.enabled = true else c.feeRouter = none
  | .updateBusinessPlan plan => c.canModifyConfig e.1 = true ∧
      plan.payoutConfig.validate P = .ok () → plan.enableAutoDistribution = true →
        plan.enabled = true
  | .updateSystemConfig config => c.canModifyConfig e.1 = true ∧ config.validate = .ok () →
      config.feeParams = c.systemConfig.feeParams
  | _ => True

/-- A configuration is valid iff its system configuration is and nothing is zero or empty that must
not be. -/
lemma validate_eq_ok_iff (c : ExchangeConfig) : c.validate = .ok () ↔
    c.systemConfig.validate = .ok () ∧ c.network.chainId ≠ 0 ∧ c.network.networkName ≠ "" ∧
      c.security.defaultTxExpirySeconds ≠ 0 ∧ c.security.maxTxPerMinute ≠ 0 := by
  unfold validate systemConfig
  cases c.immutableDeployment.systemConfig.validate with
  | error e => simp [bind, Except.bind]
  | ok u =>
    simp only [bind, Except.bind, true_and]
    split_ifs with hchain hname hexpiry hmax
    · simp [hchain]
    · simp [hname]
    · simp [hexpiry]
    · simp [hmax]
    · simp [hchain, hname, hexpiry, hmax]

/-- **The fee router that is made**: one for the business plan if it distributes. -/
lemma initializeFeeRouter_eq (c : ExchangeConfig) : c.initializeFeeRouter =
    { c with feeRouter :=
        if c.distributes then c.businessPlan.map fun plan => .new plan.payoutConfig
        else c.feeRouter } := by
  obtain ⟨deployment, model, network, security, plan, router⟩ := c
  cases plan with
  | none => rfl
  | some plan =>
    unfold initializeFeeRouter distributes
    simp only [Option.any_some, Option.map_some]
    split_ifs
    · rfl
    · rfl

/-- A configuration that distributes has a business plan. -/
lemma isSome_of_distributes (h : c.distributes = true) : c.businessPlan.isSome = true := by
  unfold distributes at h
  cases hplan : c.businessPlan with
  | none => simp [hplan] at h
  | some plan => rfl

/-- **Loading what was saved**, of a valid configuration. -/
lemma fromBytes_toBytes (hfits : c.Fits) (hvalid : c.validate = .ok ()) :
    fromBytes P c.toBytes = .ok { c with
      feeModel := some ⟨c.systemConfig.feeParams⟩
      feeRouter := if c.distributes then c.businessPlan.map fun plan => .new plan.payoutConfig
        else none } := by
  have hread : codec.decode c.toBytes = some (c.stored, []) := by
    have h := codec.decode_encode c.stored [] hfits
    rwa [List.append_nil] at h
  have hparams : c.systemConfig.feeParams.validate = .ok () :=
    (LockableConfig.validate_eq_ok_iff.mp ((validate_eq_ok_iff _).mp hvalid).1).1
  have hmodel : (ofStored c.stored).initialized =
      .ok { ofStored c.stored with feeModel := some ⟨c.systemConfig.feeParams⟩ } :=
    initialized_eq hparams
  unfold fromBytes
  rw [hread]
  refine bind_eq_ok.mpr ⟨_, rfl, bind_eq_ok.mpr ⟨_, hmodel, ?_⟩⟩
  rw [initializeFeeRouter_eq]
  exact bind_eq_ok.mpr ⟨(), hvalid, rfl⟩

/-- **What round-trips**: the coherent configurations. -/
lemma roundTrips_iff_coherent (hfits : c.Fits) : c.RoundTrips P ↔ c.Coherent := by
  constructor
  · rintro ⟨hvalid, c', hload, -, hmodel, -, -, -, hrouter⟩
    rw [fromBytes_toBytes hfits hvalid] at hload
    rw [← Except.ok.inj hload] at hmodel hrouter
    refine ⟨hvalid, hmodel.symm, hrouter.symm.trans ?_⟩
    split_ifs with hdistributes
    · rw [Option.isSome_map, isSome_of_distributes hdistributes, hdistributes]
    · simp [hdistributes]
  · intro h
    refine ⟨h.valid, _, fromBytes_toBytes hfits h.valid, rfl, h.feeModel.symm, rfl, rfl, rfl, ?_⟩
    rw [h.feeRouter]
    split_ifs with hdistributes
    · rw [Option.isSome_map, isSome_of_distributes hdistributes, hdistributes]
    · simp [hdistributes]

/-! ## Calls -/

/-- A coherent configuration with another lock is coherent. -/
lemma Coherent.withLock (h : c.Coherent) (config : ImmutableConfig) :
    (c.withDeployment { c.immutableDeployment with config := config }).Coherent :=
  ⟨h.valid, h.feeModel, h.feeRouter⟩

/-- What a business plan and a fee router make of a coherent configuration. -/
lemma Coherent.withPlan (h : c.Coherent) {plan : Option BusinessPlanConfig}
    {router : Option FeeRouter} :
    Coherent { c with businessPlan := plan, feeRouter := router } ↔
      router.isSome = plan.any fun plan => plan.enabled && plan.enableAutoDistribution :=
  ⟨fun h => h.feeRouter, fun hrouter => ⟨h.valid, h.feeModel, hrouter⟩⟩

/-- Of a coherent configuration, other fee parameters that are valid make a coherent one. -/
lemma Coherent.setFeeParams (h : c.Coherent) {params : FeeModelParams}
    (hvalid : params.validate = .ok ()) : (c.setFeeParams params).Coherent := by
  obtain ⟨hsystem, hrest⟩ := (validate_eq_ok_iff _).mp h.valid
  obtain ⟨-, hconfig⟩ := LockableConfig.validate_eq_ok_iff.mp hsystem
  have hsystem' : (c.setFeeParams params).systemConfig.validate = .ok () :=
    LockableConfig.validate_eq_ok_iff.mpr ⟨hvalid, hconfig⟩
  exact ⟨(validate_eq_ok_iff _).mpr ⟨hsystem', hrest⟩, rfl, h.feeRouter⟩

/-- Another network makes a coherent configuration iff it has a chain and a name. -/
lemma Coherent.setNetwork (h : c.Coherent) {network : NetworkConfig} :
    (c.setNetwork network).Coherent ↔ network.chainId ≠ 0 ∧ network.networkName ≠ "" := by
  obtain ⟨hsystem, -, -, hsecurity⟩ := (validate_eq_ok_iff _).mp h.valid
  obtain ⟨hparams, hsupply, -, hversion⟩ := LockableConfig.validate_eq_ok_iff.mp hsystem
  constructor
  · intro hcoherent
    obtain ⟨-, hchain, hname, -⟩ := (validate_eq_ok_iff _).mp hcoherent.valid
    exact ⟨hchain, hname⟩
  · rintro ⟨hchain, hname⟩
    have hsystem' : (c.setNetwork network).systemConfig.validate = .ok () :=
      LockableConfig.validate_eq_ok_iff.mpr ⟨hparams, hsupply, hchain, hversion⟩
    exact ⟨(validate_eq_ok_iff _).mpr ⟨hsystem', hchain, hname, hsecurity⟩, h.feeModel, h.feeRouter⟩

/-- Other security limits make a coherent configuration iff neither is zero. -/
lemma Coherent.withSecurity (h : c.Coherent) {security : SecurityConfig} :
    Coherent { c with security := security } ↔
      security.defaultTxExpirySeconds ≠ 0 ∧ security.maxTxPerMinute ≠ 0 := by
  obtain ⟨hsystem, hchain, hname, -⟩ := (validate_eq_ok_iff _).mp h.valid
  constructor
  · intro hcoherent
    obtain ⟨-, -, -, hexpiry, hmax⟩ := (validate_eq_ok_iff _).mp hcoherent.valid
    exact ⟨hexpiry, hmax⟩
  · rintro ⟨hexpiry, hmax⟩
    exact ⟨(validate_eq_ok_iff _).mpr ⟨hsystem, hchain, hname, hexpiry, hmax⟩, h.feeModel,
      h.feeRouter⟩

/-- Another valid system configuration makes a coherent configuration iff it has the same fee
parameters. -/
lemma Coherent.withSystemConfig (h : c.Coherent) {config : LockableConfig}
    (hvalid : config.validate = .ok ()) :
    (c.withDeployment { c.immutableDeployment with systemConfig := config }).Coherent ↔
      config.feeParams = c.systemConfig.feeParams := by
  obtain ⟨-, hrest⟩ := (validate_eq_ok_iff _).mp h.valid
  constructor
  · intro hcoherent
    have hmodel := h.feeModel.symm.trans hcoherent.feeModel
    exact (congrArg FeeModel.params (Option.some.inj hmodel)).symm
  · intro hparams
    refine ⟨(validate_eq_ok_iff _).mpr ⟨hvalid, hrest⟩, ?_, h.feeRouter⟩
    show c.feeModel = some ⟨config.feeParams⟩
    rw [hparams]
    exact h.feeModel

/-- The calls that change the lock. -/
def changesLock : Operation κ → Bool
  | .enableImmutableMode => true
  | .lockSystem _ _ => true
  | .governanceOverride _ => true
  | .disable => true
  | .setGracePeriod _ => true
  | .setGovernanceKey _ => true
  | _ => false

/-- They change nothing else. -/
lemma exists_withLock (P : ConfigPrimitives κ) (c : ExchangeConfig) (t : Timestamp)
    (hop : changesLock op = true) : ∃ config, c.apply P (t, op) =
      c.withDeployment { c.immutableDeployment with config := config } := by
  rcases apply_cases P c t op with hresult | ⟨-, hsame⟩
  swap
  · exact ⟨c.immutableDeployment.config, hsame⟩
  cases op with
  | enableImmutableMode =>
    obtain ⟨d, hd, hc⟩ := map_eq_ok.mp hresult
    obtain ⟨-, rfl⟩ := ImmutableDeployment.enableImmutableMode_ok hd
    exact ⟨_, hc.symm⟩
  | lockSystem keypair seed =>
    obtain ⟨d, hd, hc⟩ := map_eq_ok.mp hresult
    obtain ⟨-, -, -, -, signature, -, rfl⟩ := ImmutableDeployment.lockSystem_ok hd
    exact ⟨_, hc.symm⟩
  | governanceOverride governanceKeypair =>
    obtain ⟨d, hd, hc⟩ := map_eq_ok.mp hresult
    obtain ⟨-, rfl⟩ := ImmutableDeployment.governanceOverride_ok hd
    exact ⟨_, hc.symm⟩
  | disable =>
    obtain ⟨config, -, hc⟩ := map_eq_ok.mp hresult
    exact ⟨config, hc.symm⟩
  | setGracePeriod seconds =>
    obtain ⟨config, -, hc⟩ := map_eq_ok.mp hresult
    exact ⟨config, hc.symm⟩
  | setGovernanceKey key =>
    obtain ⟨config, -, hc⟩ := map_eq_ok.mp hresult
    exact ⟨config, hc.symm⟩
  | _ => cases hop

/-- Of a coherent configuration, another lock makes a coherent one. -/
lemma Coherent.apply_of_changesLock (h : c.Coherent) (hop : changesLock op = true) :
    (c.apply P (t, op)).Coherent := by
  obtain ⟨config, hc⟩ := exists_withLock P c t hop
  rw [hc]
  exact h.withLock config

/-- **A call** on a coherent configuration makes a coherent one iff it is sound. -/
lemma Coherent.apply_iff (h : c.Coherent) : (c.apply P (t, op)).Coherent ↔ c.Sound P (t, op) := by
  cases op with
  | updateFeeParams params =>
    rw [apply_updateFeeParams]
    refine iff_of_true ?_ trivial
    split_ifs with hdone
    · exact h.setFeeParams hdone.2
    · exact h
  | updateNetworkConfig network =>
    rw [apply_updateNetworkConfig]
    split_ifs with hdone
    · exact h.setNetwork.trans ⟨fun hvalid _ => hvalid, fun hvalid => hvalid hdone⟩
    · exact iff_of_true h fun hmodify => absurd hmodify hdone
  | updateSecurityConfig security =>
    rw [apply_updateSecurityConfig]
    split_ifs with hdone
    · exact h.withSecurity.trans ⟨fun hvalid _ => hvalid, fun hvalid => hvalid hdone⟩
    · exact iff_of_true h fun hmodify => absurd hmodify hdone
  | updateSystemConfig config =>
    rw [apply_updateSystemConfig]
    split_ifs with hdone
    · exact (h.withSystemConfig hdone.2).trans ⟨fun hsame _ => hsame, fun hsame => hsame hdone⟩
    · exact iff_of_true h fun hallowed => absurd hallowed hdone
  | enableBusinessPlan plan =>
    rw [apply_enableBusinessPlan]
    split_ifs with hdone
    · rw [setBusinessPlan, h.withPlan, Option.any_some]
      have hsound : c.Sound P (t, .enableBusinessPlan plan) ↔
          if plan.enableAutoDistribution then plan.enabled = true else c.feeRouter = none :=
        ⟨fun hsound => hsound hdone, fun hsound _ => hsound⟩
      rw [hsound]
      cases plan.enableAutoDistribution with
      | false => simp
      | true => simp
    · exact iff_of_true h fun hvalid => absurd hvalid hdone
  | updateBusinessPlan plan =>
    rw [apply_updateBusinessPlan]
    split_ifs with hdone
    · rw [replaceBusinessPlan, h.withPlan, Option.any_some]
      have hsound : c.Sound P (t, .updateBusinessPlan plan) ↔
          (plan.enableAutoDistribution = true → plan.enabled = true) :=
        ⟨fun hsound => hsound hdone, fun hsound _ => hsound⟩
      rw [hsound]
      cases plan.enableAutoDistribution with
      | false => simp
      | true => simp
    · exact iff_of_true h fun hallowed => absurd hallowed hdone
  | disableBusinessPlan =>
    rw [apply_of_result rfl]
    exact iff_of_true (h.withPlan.mpr rfl) trivial
  | feeRouterMut change =>
    rw [apply_of_result rfl]
    refine iff_of_true (h.withPlan.mpr ?_) trivial
    rw [Option.isSome_map]
    exact h.feeRouter
  | enableImmutableMode => exact iff_of_true (h.apply_of_changesLock rfl) trivial
  | lockSystem keypair seed => exact iff_of_true (h.apply_of_changesLock rfl) trivial
  | governanceOverride keypair => exact iff_of_true (h.apply_of_changesLock rfl) trivial
  | disable => exact iff_of_true (h.apply_of_changesLock rfl) trivial
  | setGracePeriod seconds => exact iff_of_true (h.apply_of_changesLock rfl) trivial
  | setGovernanceKey key => exact iff_of_true (h.apply_of_changesLock rfl) trivial

/-- A loaded configuration is coherent. -/
lemma coherent_of_fromBytes {bytes : List UInt8} (h : fromBytes P bytes = .ok c) : c.Coherent := by
  unfold fromBytes at h
  obtain ⟨read, -, h⟩ := bind_eq_ok.mp h
  obtain ⟨config, hmodel, h⟩ := bind_eq_ok.mp h
  obtain ⟨u, hvalid, h⟩ := bind_eq_ok.mp h
  obtain ⟨-, rfl⟩ := initialized_ok hmodel
  rw [← Except.ok.inj h]
  rw [initializeFeeRouter_eq] at hvalid ⊢
  refine ⟨hvalid, rfl, ?_⟩
  show (if distributes _ = true then _ else none).isSome = distributes _
  split_ifs with hdistributes
  · rw [Option.isSome_map, isSome_of_distributes hdistributes]
    exact hdistributes.symm
  · exact (Bool.not_eq_true _ ▸ hdistributes).symm

/-- A coherent configuration has a fee router only if its business plan is enabled. -/
lemma Coherent.enabled (h : c.Coherent) (hrouter : c.feeRouter.isSome = true) :
    c.businessPlan.any BusinessPlanConfig.enabled = true := by
  rw [h.feeRouter, distributes] at hrouter
  cases hplan : c.businessPlan with
  | none => simp [hplan] at hrouter
  | some plan =>
    rw [hplan, Option.any_some, Bool.and_eq_true] at hrouter
    exact hrouter.1

/-- **Constructed and loaded configurations** are coherent iff they have a fee router only if their
business plan is enabled. -/
lemma coherent_iff (h : Constructed P c ∨ ∃ bytes, fromBytes P bytes = .ok c) : c.Coherent ↔
    (c.feeRouter.isSome = true → c.businessPlan.any BusinessPlanConfig.enabled = true) := by
  refine ⟨Coherent.enabled, fun hrouter => ?_⟩
  rcases h with h | ⟨bytes, h⟩
  swap
  · exact coherent_of_fromBytes h
  cases h with
  | new h =>
    rw [new_eq] at h
    rw [← Except.ok.inj h]
    exact ⟨by decide +kernel, rfl, rfl⟩
  | fromLockableConfig lockable h =>
    obtain ⟨hvalid, rfl⟩ := fromLockableConfig_ok h
    have hchain := (LockableConfig.validate_eq_ok_iff.mp hvalid).2.2.1
    have hname : NetworkConfig.default.networkName ≠ "" := by decide
    have hexpiry : SecurityConfig.default.defaultTxExpirySeconds ≠ 0 := by decide
    have hmax : SecurityConfig.default.maxTxPerMinute ≠ 0 := by decide
    exact ⟨(validate_eq_ok_iff _).mpr ⟨hvalid, hchain, hname, hexpiry, hmax⟩, rfl, rfl⟩
  | build b h =>
    obtain ⟨hvalid, rfl⟩ := build_ok h
    refine ⟨hvalid, rfl, ?_⟩
    unfold distributes
    cases hplan : b.businessPlan with
    | none => rfl
    | some plan =>
      simp only [hplan, Option.bind_some, Option.any_some] at hrouter ⊢
      cases hauto : plan.enableAutoDistribution with
      | false => simp
      | true => simpa [hauto] using hrouter

/-- **Configuration round trip**: in a run of a constructed or loaded configuration that fits in
memory, every configuration round-trips iff the first one has a fee router only if its business plan
is enabled, and every call is sound. -/
theorem always_roundTrips_iff (h : Constructed P c ∨ ∃ bytes, fromBytes P bytes = .ok c)
    (ops : List (Timestamp × Operation κ)) (hfits : Runs.Always (apply P) Fits c ops) :
    Runs.Always (apply P) (RoundTrips P) c ops ↔
      (c.feeRouter.isSome = true → c.businessPlan.any BusinessPlanConfig.enabled = true) ∧
        Runs.Steps (apply P) (Sound P) c ops := by
  obtain ⟨hstart, hsteps⟩ := Runs.always_iff_steps_after.mp hfits
  rw [← coherent_iff h]
  have hruns (hcoherent : c.Coherent) : Runs.Always (apply P) (RoundTrips P) c ops ↔
      Runs.Steps (apply P) (Sound P) c ops := by
    refine Runs.always_iff_steps (fun c => c.Coherent ∧ c.Fits)
      (fun c h => (roundTrips_iff_coherent h.2).mpr h.1) ?_ ?_ hsteps ⟨hcoherent, hstart⟩
    · intro c e h hnext hsound
      exact ⟨h.1.apply_iff.mpr hsound, hnext⟩
    · intro c e h hnext hround
      exact h.1.apply_iff.mp ((roundTrips_iff_coherent hnext).mp hround)
  constructor
  · intro hround
    have hcoherent :=
      (roundTrips_iff_coherent hstart).mp (Runs.always_iff.mp hround [] List.nil_prefix)
    exact ⟨hcoherent, (hruns hcoherent).mp hround⟩
  · rintro ⟨hcoherent, hsound⟩
    exact (hruns hcoherent).mpr hsound

/-- A business plan that distributes automatically, enabled or not. -/
def distributingPlan (enabled : Bool) : BusinessPlanConfig :=
  { BusinessPlanConfig.default with enabled := enabled, enableAutoDistribution := true }

/-- A new configuration round-trips after its business plan is enabled. -/
theorem always_roundTrips_enabledPlan :
    Runs.Always (apply ConfigPrimitives.toy) (RoundTrips ConfigPrimitives.toy) default
      [(⟨1000⟩, .enableBusinessPlan (distributingPlan true))] :=
  (always_roundTrips_iff (.inl (.new new_eq)) _
    (Runs.always_iff_steps_after.mpr (by decide +kernel))).mpr
    ⟨by decide, fun _ => rfl, trivial⟩

/-- It does not after it is moved to a network with chain 0, nor after a business plan that
distributes but is not enabled was set. -/
theorem not_always_roundTrips :
    ExchangeConfig.new = .ok default ∧
      ¬ Runs.Always (apply ConfigPrimitives.toy) (RoundTrips ConfigPrimitives.toy) default
        [(⟨1000⟩, .updateNetworkConfig { NetworkConfig.default with chainId := 0 })] ∧
      ¬ Runs.Always (apply ConfigPrimitives.toy) (RoundTrips ConfigPrimitives.toy) default
        [(⟨1000⟩, .enableBusinessPlan (distributingPlan false))] := by
  refine ⟨new_eq, fun h => ?_, fun h => ?_⟩
  · have hvalid := (Runs.always_iff.mp h _ (List.prefix_refl _)).1
    revert hvalid
    decide +kernel
  · have hround := Runs.always_iff.mp h _ (List.prefix_refl _)
    have hrouter := ((roundTrips_iff_coherent (by decide +kernel)).mp hround).feeRouter
    revert hrouter
    decide +kernel

end ExchangeConfig

end Config

end QuDAG.Exchange
