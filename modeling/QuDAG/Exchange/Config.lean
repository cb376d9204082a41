import QuDAG.Exchange.Immutable
import QuDAG.Exchange.Payout
import QuDAG.Lib.Runs

/-!
# Configuration of the exchange

The configuration (`config.rs`) with its constructors and the methods that change it. Most methods
ask the lock whether they may; `enableBusinessPlan`, `disableBusinessPlan` and `feeRouterMut` do
not, and none of the setters validates the parts that it is given as `validate` does.

## Main definitions

* `PayoutConfig`, `FeeRouter` — payouts.
* `ExchangeConfig` — the configuration, with `validate`.
* `ExchangeConfigBuilder` — the builder, with `build`.
* `Constructed` — the results of the constructors.
* `Operation` — a call that may change a configuration.

## Main results

* `ExchangeConfig.run_method` — a call changes the configuration as a whole or not at all.

## Implementation notes

Here the payout configuration has its floats as they are stored, and not their exact values as
`PayoutConfig` has. Whoever holds the fee router mutably may change it in any way.
A builder may hold anything that its setters take.
-/

namespace QuDAG.Exchange.Config

open RustStd

/-! ## Payouts -/

/-- Payout split definition. -/
structure PayoutSplit where
  /-- Percentage allocation for each contributor type. -/
  percentages : List (ContributorType × Binary64)
  deriving DecidableEq

/-- Default payout split templates. -/
structure PayoutSplitTemplates where
  /-- Single-agent jobs. -/
  singleAgent : PayoutSplit
  /-- Plugin-enhanced jobs. -/
  pluginEnhanced : PayoutSplit
  /-- Node operation rewards. -/
  nodeOperation : PayoutSplit
  /-- Bounty completion rewards. -/
  bountyCompletion : PayoutSplit
  deriving DecidableEq

/-- The default templates. -/
def PayoutSplitTemplates.default : PayoutSplitTemplates where
  singleAgent := ⟨[(.agent, ⟨0x3FEE666666666666⟩), (.infrastructure, ⟨0x3FA999999999999A⟩)]⟩
  pluginEnhanced := ⟨[(.agent, ⟨0x3FEB333333333333⟩), (.plugin, ⟨0x3FB999999999999A⟩),
    (.infrastructure, ⟨0x3FA999999999999A⟩)]⟩
  nodeOperation := ⟨[(.node, ⟨0x3FE999999999999A⟩), (.network, ⟨0x3FC3333333333333⟩),
    (.system, ⟨0x3FA999999999999A⟩)]⟩
  bountyCompletion := ⟨[(.agent, ⟨0x3FECCCCCCCCCCCCD⟩), (.bountyPoster, ⟨0x3FA999999999999A⟩),
    (.system, ⟨0x3FA999999999999A⟩)]⟩

/-- Payout configuration. -/
structure PayoutConfig where
  /-- Enable automatic payout distribution. -/
  enabled : Bool
  /-- Default split templates. -/
  defaultSplits : PayoutSplitTemplates
  /-- Minimum payout threshold. -/
  minPayoutThreshold : RUv
  /-- Maximum payout percentage any single contributor can receive. -/
  maxContributorPercentage : Binary64
  /-- Fee retained for system operations. -/
  systemFeePercentage : Binary64
  /-- Audit trail retention period. -/
  auditRetentionSeconds : UInt64
  /-- Enable zero-knowledge proofs for distribution fairness. -/
  enableZkProofs : Bool
  deriving DecidableEq

namespace PayoutConfig

/-- The default configuration: a threshold of 10, at most 85% for one contributor and a system fee
of 0.01%. -/
def default : PayoutConfig where
  enabled := false
  defaultSplits := .default
  minPayoutThreshold := ⟨10⟩
  maxContributorPercentage := ⟨0x3FEB333333333333⟩
  systemFeePercentage := ⟨0x3F1A36E2EB1C432D⟩
  auditRetentionSeconds := 365 * 24 * 60 * 60
  enableZkProofs := false

variable {κ : Type}

/-- The percentages of a template must not add up to more than 1. -/
def validateSplit (P : ConfigPrimitives κ) (name : String) (split : PayoutSplit) :
    Except Error Unit :=
  let total := Binary64.sum (split.percentages.map Prod.snd)
  if Binary64.one.lt total then
    .error (.other ("Split template '" ++ name ++ "' percentages sum to " ++ P.showFloat total ++
      ", must be <= 1.0"))
  else .ok ()

/-- Validate payout configuration. The system fee is at most 0.1. -/
def validate (P : ConfigPrimitives κ) (config : PayoutConfig) : Except Error Unit :=
  if config.maxContributorPercentage.le .zero ||
      Binary64.one.lt config.maxContributorPercentage then
    .error (.other "max_contributor_percentage must be between 0.0 and 1.0")
  else if config.systemFeePercentage.lt .zero ||
      Binary64.lt ⟨0x3FB999999999999A⟩ config.systemFeePercentage then
    .error (.other "system_fee_percentage must be between 0.0 and 0.1 (10% max)")
  else if config.minPayoutThreshold.amount = 0 then
    .error (.other "min_payout_threshold must be greater than 0")
  else do
    validateSplit P "single_agent" config.defaultSplits.singleAgent
    validateSplit P "plugin_enhanced" config.defaultSplits.pluginEnhanced
    validateSplit P "node_operation" config.defaultSplits.nodeOperation
    validateSplit P "bounty_completion" config.defaultSplits.bountyCompletion

end PayoutConfig

/-- Fee router for automatic payout distribution. -/
structure FeeRouter where
  /-- Current payout configuration. -/
  config : PayoutConfig
  /-- Accumulated pending payouts below threshold. -/
  pendingPayouts : HashMap AccountId RUv
  /-- Payout history for auditability. -/
  payoutHistory : List PayoutTransaction
  /-- Contributor registry. -/
  contributors : HashMap String ContributorInfo

namespace FeeRouter

/-- Create a new fee router with a configuration. -/
def new (config : PayoutConfig) : FeeRouter := ⟨config, ∅, [], ∅⟩

/-- Update payout configuration. -/
def updateConfig {κ : Type} (P : ConfigPrimitives κ) (config : PayoutConfig) (router : FeeRouter) :
    Except Error FeeRouter := do
  config.validate P
  .ok { router with config := config }

end FeeRouter

/-! ## Parts of the configuration -/

/-- Dynamic fee model calculator. -/
structure FeeModel where
  /-- Model parameters. -/
  params : FeeModelParams
  deriving DecidableEq

namespace FeeModel

/-- Create a fee model with custom parameters. -/
def withParams (params : FeeModelParams) : Except Error FeeModel := do
  params.validate
  .ok ⟨params⟩

/-- Update model parameters. -/
def updateParams (params : FeeModelParams) (model : FeeModel) : Except Error FeeModel := do
  params.validate
  .ok { model with params := params }

end FeeModel

/-- Network configuration. -/
structure NetworkConfig where
  /-- Chain ID for the network. -/
  chainId : UInt64
  /-- Network name. -/
  networkName : String
  /-- Bootstrap peers for networking. -/
  bootstrapPeers : List String
  /-- Listen address for P2P networking. -/
  listenAddress : String
  /-- Enable dark addressing features. -/
  enableDarkAddressing : Bool
  deriving DecidableEq

/-- The default network. -/
def NetworkConfig.default : NetworkConfig := ⟨1, "qudag-exchange", [], "0.0.0.0:8080", true⟩

/-- Security configuration. -/
structure SecurityConfig where
  /-- Require quantum-resistant signatures for all transactions. -/
  requireQuantumSignatures : Bool
  /-- Minimum signature algorithm strength. -/
  minSignatureStrength : String
  /-- Enable transaction replay protection. -/
  enableReplayProtection : Bool
  /-- Transaction expiry time in seconds. -/
  defaultTxExpirySeconds : UInt64
  /-- Enable rate limiting. -/
  enableRateLimiting : Bool
  /-- Maximum transactions per account per minute. -/
  maxTxPerMinute : UInt32
  deriving DecidableEq

/-- The default security. -/
def SecurityConfig.default : SecurityConfig := ⟨true, "ML-DSA-87", true, 300, true, 10⟩

/-- Governance configuration for business plan features. -/
structure GovernanceConfig where
  /-- Allow contributors to override default payout percentages. -/
  allowCustomPercentages : Bool
  /-- Require governance approval for large payouts. -/
  requireApprovalThreshold : Option RUv
  /-- Enable democratic voting on payout changes. -/
  enableVoting : Bool
  /-- Minimum voting period in seconds. -/
  minVotingPeriodSeconds : UInt64
  deriving DecidableEq

/-- The default governance. -/
def GovernanceConfig.default : GovernanceConfig := ⟨true, some ⟨10000⟩, false, 7 * 24 * 60 * 60⟩

/-- Business plan features configuration. -/
structure BusinessPlanConfig where
  /-- Enable business plan features. -/
  enabled : Bool
  /-- Payout system configuration. -/
  payoutConfig : PayoutConfig
  /-- Enable contributor vault management. -/
  enableVaultManagement : Bool
  /-- Enable automatic fee distribution. -/
  enableAutoDistribution : Bool
  /-- Enable role-based earnings tracking. -/
  enableRoleEarnings : Bool
  /-- Enable bounty agent rewards. -/
  enableBountyRewards : Bool
  /-- Governance settings. -/
  governance : GovernanceConfig
  deriving DecidableEq

/-- Everything is off. -/
def BusinessPlanConfig.default : BusinessPlanConfig :=
  ⟨false, .default, false, false, false, false, .default⟩

/-! ## The configuration -/

/-- Main configuration for QuDAG Exchange. -/
structure ExchangeConfig where
  /-- Immutable deployment manager. -/
  immutableDeployment : ImmutableDeployment
  /-- Dynamic fee model calculator. -/
  feeModel : Option FeeModel
  /-- Network configuration. -/
  network : NetworkConfig
  /-- Security configuration. -/
  security : SecurityConfig
  /-- Business plan features configuration. -/
  businessPlan : Option BusinessPlanConfig
  /-- Fee router for automatic payouts. -/
  feeRouter : Option FeeRouter

namespace ExchangeConfig

variable {κ : Type}

/-- Initialize the fee model from immutable deployment parameters. -/
def initializeFeeModel : Fallible Error ExchangeConfig Unit := do
  let c ← Fallible.get
  let model ← Fallible.ofExcept (FeeModel.withParams c.immutableDeployment.systemConfig.feeParams)
  Fallible.modify fun c => { c with feeModel := some model }

/-- The configuration with its fee model initialized. -/
def initialized (c : ExchangeConfig) : Except Error ExchangeConfig :=
  match initializeFeeModel.run c with
  | (.ok (), c) => .ok c
  | (.error e, _) => .error e

/-- Create a new exchange configuration with defaults. -/
def new : Except Error ExchangeConfig :=
  initialized ⟨.new, none, .default, .default, none, none⟩

/-- With valid fee parameters the fee model is initialized. -/
lemma initialized_eq {c : ExchangeConfig}
    (h : c.immutableDeployment.systemConfig.feeParams.validate = .ok ()) :
    c.initialized =
      .ok { c with feeModel := some ⟨c.immutableDeployment.systemConfig.feeParams⟩ } := by
  have hmodel : FeeModel.withParams c.immutableDeployment.systemConfig.feeParams =
      .ok ⟨c.immutableDeployment.systemConfig.feeParams⟩ := by
    rw [FeeModel.withParams, h]
    rfl
  unfold initialized initializeFeeModel
  rw [Fallible.run_bind_of_ok (Fallible.run_get c), hmodel,
    Fallible.run_bind_of_ok (Fallible.run_ofExcept _ _)]
  rfl

/-- The default configuration. -/
def default : ExchangeConfig := ⟨.new, some ⟨.default⟩, .default, .default, none, none⟩

/-- A new configuration is the default one. -/
lemma new_eq : new = .ok default := initialized_eq (by decide +kernel)

/-- Create configuration from a lockable config. -/
def fromLockableConfig (lockable : LockableConfig) : Except Error ExchangeConfig := do
  let deployment ← ImmutableDeployment.withConfig lockable
  initialized ⟨deployment, none, { NetworkConfig.default with chainId := lockable.chainId },
    .default, none, none⟩

/-- Can the configuration be modified? -/
def canModifyConfig (c : ExchangeConfig) (currentTime : Timestamp) : Bool :=
  c.immutableDeployment.canModifyConfig currentTime

/-- The configuration with another deployment. -/
def withDeployment (c : ExchangeConfig) (d : ImmutableDeployment) : ExchangeConfig :=
  { c with immutableDeployment := d }

/-- A method of the deployment. -/
def onDeployment (method : ImmutableDeployment → Except Error ImmutableDeployment) :
    Fallible Error ExchangeConfig Unit := do
  let c ← Fallible.get
  let d ← Fallible.ofExcept (method c.immutableDeployment)
  Fallible.modify fun c => c.withDeployment d

/-- A method of the immutable configuration of the deployment. -/
def onImmutableConfig (method : ImmutableConfig → Except Error ImmutableConfig) :
    Fallible Error ExchangeConfig Unit :=
  onDeployment fun d => (method d.config).map fun config => { d with config := config }

/-- Update fee model parameters (respects immutable restrictions). -/
def updateFeeParams (params : FeeModelParams) (currentTime : Timestamp) :
    Fallible Error ExchangeConfig Unit := do
  onDeployment (ImmutableDeployment.updateFeeParams params currentTime)
  let c ← Fallible.get
  let model ← Fallible.ofExcept (match c.feeModel with
    | some model => model.updateParams params
    | none => FeeModel.withParams params)
  Fallible.modify fun c => { c with feeModel := some model }

/-- Enable immutable deployment mode. -/
def enableImmutableMode : Fallible Error ExchangeConfig Unit :=
  onDeployment ImmutableDeployment.enableImmutableMode

/-- Lock the system configuration. -/
def lockSystem (P : ConfigPrimitives κ) (keypair : κ) (seed : List UInt8)
    (currentTime : Timestamp) : Fallible Error ExchangeConfig Unit :=
  onDeployment (ImmutableDeployment.lockSystem P keypair seed currentTime)

/-- The chain ID of the network is the chain ID of the system too. -/
def setNetwork (network : NetworkConfig) (c : ExchangeConfig) : ExchangeConfig :=
  { c with
    immutableDeployment := { c.immutableDeployment with
      systemConfig := { c.immutableDeployment.systemConfig with chainId := network.chainId } }
    network := network }

/-- Update network configuration (respects immutable restrictions). -/
def updateNetworkConfig (network : NetworkConfig) (currentTime : Timestamp) :
    Fallible Error ExchangeConfig Unit := do
  let c ← Fallible.get
  if !c.canModifyConfig currentTime then
    Fallible.fail (ImmutableDeployment.lockedError "network configuration")
  else Fallible.modify (setNetwork network)

/-- Update security configuration (respects immutable restrictions). -/
def updateSecurityConfig (security : SecurityConfig) (currentTime : Timestamp) :
    Fallible Error ExchangeConfig Unit := do
  let c ← Fallible.get
  if !c.canModifyConfig currentTime then
    Fallible.fail (ImmutableDeployment.lockedError "security configuration")
  else Fallible.modify fun c => { c with security := security }

/-- Validate the entire configuration. -/
def validate (c : ExchangeConfig) : Except Error Unit := do
  c.immutableDeployment.systemConfig.validate
  if c.network.chainId = 0 then .error (.other "chain_id must be greater than 0")
  else if c.network.networkName = "" then .error (.other "network_name cannot be empty")
  else if c.security.defaultTxExpirySeconds = 0 then
    .error (.other "default_tx_expiry_seconds must be greater than 0")
  else if c.security.maxTxPerMinute = 0 then
    .error (.other "max_tx_per_minute must be greater than 0")
  else .ok ()

/-- Emergency governance override (unlock immutable system). -/
def governanceOverride (P : ConfigPrimitives κ) (governanceKeypair : κ) :
    Fallible Error ExchangeConfig Unit :=
  onDeployment (ImmutableDeployment.governanceOverride P governanceKeypair)

/-- The configuration with business plan features. A router is made if fees are distributed
automatically; otherwise the one that is there stays. -/
def setBusinessPlan (plan : BusinessPlanConfig) (c : ExchangeConfig) : ExchangeConfig :=
  { c with
    feeRouter := if plan.enableAutoDistribution then some (.new plan.payoutConfig) else c.feeRouter
    businessPlan := some plan }

/-- Enable business plan features. -/
def enableBusinessPlan (P : ConfigPrimitives κ) (config : BusinessPlanConfig) :
    Fallible Error ExchangeConfig Unit := do
  Fallible.ofExcept (config.payoutConfig.validate P)
  Fallible.modify (setBusinessPlan config)

/-- Disable business plan features. -/
def disableBusinessPlan : Fallible Error ExchangeConfig Unit :=
  Fallible.modify fun c => { c with businessPlan := none, feeRouter := none }

/-- What is done to the fee router by whoever gets it mutably. -/
def feeRouterMut (change : FeeRouter → FeeRouter) : Fallible Error ExchangeConfig Unit :=
  Fallible.modify fun c => { c with feeRouter := c.feeRouter.map change }

/-- The fee router for a new business plan: none, a new one, or the old one updated. -/
def nextRouter (P : ConfigPrimitives κ) (plan : BusinessPlanConfig) (router : Option FeeRouter) :
    Except Error (Option FeeRouter) :=
  if plan.enableAutoDistribution then
    match router with
    | some router => (router.updateConfig P plan.payoutConfig).map some
    | none => .ok (some (.new plan.payoutConfig))
  else .ok none

/-- Update business plan configuration. -/
def updateBusinessPlan (P : ConfigPrimitives κ) (config : BusinessPlanConfig)
    (currentTime : Timestamp) : Fallible Error ExchangeConfig Unit := do
  let c ← Fallible.get
  if !c.canModifyConfig currentTime then
    Fallible.fail (ImmutableDeployment.lockedError "business plan configuration")
  else do
    Fallible.ofExcept (config.payoutConfig.validate P)
    let router ← Fallible.ofExcept (nextRouter P config c.feeRouter)
    Fallible.modify fun c => { c with feeRouter := router, businessPlan := some config }

end ExchangeConfig

/-- Configuration builder. -/
structure ExchangeConfigBuilder where
  /-- Network configuration. -/
  network : NetworkConfig
  /-- Security configuration. -/
  security : SecurityConfig
  /-- Fee parameters. -/
  feeParams : FeeModelParams
  /-- Enable immutable deployment mode. -/
  enableImmutable : Bool
  /-- Business plan features. -/
  businessPlan : Option BusinessPlanConfig

namespace ExchangeConfigBuilder

/-- Create a new configuration builder. -/
def new : ExchangeConfigBuilder := ⟨.default, .default, .default, false, none⟩

/-- The calls on a configuration that the builder makes. -/
def finish {κ : Type} (P : ConfigPrimitives κ) (b : ExchangeConfigBuilder) :
    Fallible Error ExchangeConfig Unit := do
  (if b.enableImmutable then ExchangeConfig.enableImmutableMode else pure ())
  (match b.businessPlan with
    | some businessPlan => ExchangeConfig.enableBusinessPlan P businessPlan
    | none => pure ())
  let c ← Fallible.get
  Fallible.ofExcept c.validate

/-- Build the configuration. -/
def build {κ : Type} (P : ConfigPrimitives κ) (b : ExchangeConfigBuilder) :
    Except Error ExchangeConfig := do
  let config ← ExchangeConfig.fromLockableConfig
    { LockableConfig.default with feeParams := b.feeParams, chainId := b.network.chainId }
  match (finish P b).run { config with network := b.network, security := b.security } with
  | (.ok (), config) => .ok config
  | (.error e, _) => .error e

end ExchangeConfigBuilder

/-! ## Calls -/

/-- The results of the constructors. -/
inductive Constructed {κ : Type} (P : ConfigPrimitives κ) (c : ExchangeConfig) : Prop
  /-- A new configuration with defaults. -/
  | new (h : ExchangeConfig.new = .ok c)
  /-- A configuration from a lockable one. -/
  | fromLockableConfig (lockable : LockableConfig)
      (h : ExchangeConfig.fromLockableConfig lockable = .ok c)
  /-- The result of a builder. -/
  | build (b : ExchangeConfigBuilder) (h : b.build P = .ok c)

/-- A call that may change a configuration. The last four are methods of what it holds. -/
inductive Operation (κ : Type)
  /-- `update_fee_params`. -/
  | updateFeeParams (params : FeeModelParams)
  /-- `enable_immutable_mode`. -/
  | enableImmutableMode
  /-- `lock_system`, with the bytes that the random generator yields. -/
  | lockSystem (keypair : κ) (seed : List UInt8)
  /-- `update_network_config`. -/
  | updateNetworkConfig (network : NetworkConfig)
  /-- `update_security_config`. -/
  | updateSecurityConfig (security : SecurityConfig)
  /-- `governance_override`. -/
  | governanceOverride (governanceKeypair : κ)
  /-- `enable_business_plan`. -/
  | enableBusinessPlan (config : BusinessPlanConfig)
  /-- `disable_business_plan`. -/
  | disableBusinessPlan
  /-- What is done through `fee_router_mut`. -/
  | feeRouterMut (change : FeeRouter → FeeRouter)
  /-- `update_business_plan`. -/
  | updateBusinessPlan (config : BusinessPlanConfig)
  /-- `update_system_config` of the deployment. -/
  | updateSystemConfig (config : LockableConfig)
  /-- `disable` of the immutable configuration. -/
  | disable
  /-- `set_grace_period` of the immutable configuration. -/
  | setGracePeriod (seconds : UInt64)
  /-- `set_governance_key` of the immutable configuration. -/
  | setGovernanceKey (key : List UInt8)

namespace Operation

variable {κ : Type}

/-- The method that is called, with the time of the call. -/
def method (P : ConfigPrimitives κ) (t : Timestamp) :
    Operation κ → Fallible Error ExchangeConfig Unit
  | updateFeeParams params => ExchangeConfig.updateFeeParams params t
  | enableImmutableMode => ExchangeConfig.enableImmutableMode
  | lockSystem keypair seed => ExchangeConfig.lockSystem P keypair seed t
  | updateNetworkConfig network => ExchangeConfig.updateNetworkConfig network t
  | updateSecurityConfig security => ExchangeConfig.updateSecurityConfig security t
  | governanceOverride governanceKeypair => ExchangeConfig.governanceOverride P governanceKeypair
  | enableBusinessPlan config => ExchangeConfig.enableBusinessPlan P config
  | disableBusinessPlan => ExchangeConfig.disableBusinessPlan
  | feeRouterMut change => ExchangeConfig.feeRouterMut change
  | updateBusinessPlan config => ExchangeConfig.updateBusinessPlan P config t
  | updateSystemConfig config =>
    ExchangeConfig.onDeployment (ImmutableDeployment.updateSystemConfig config t)
  | disable => ExchangeConfig.onImmutableConfig ImmutableConfig.disable
  | setGracePeriod seconds => ExchangeConfig.onImmutableConfig (·.setGracePeriod seconds)
  | setGovernanceKey key => ExchangeConfig.onImmutableConfig (·.setGovernanceKey key)

end Operation

namespace ExchangeConfig

variable {κ : Type}

/-- The configuration after a call at a time. -/
def apply (P : ConfigPrimitives κ) (c : ExchangeConfig) (e : Timestamp × Operation κ) :
    ExchangeConfig :=
  ((e.2.method P e.1).run c).2

/-- The configuration with other fee parameters. -/
def setFeeParams (params : FeeModelParams) (c : ExchangeConfig) : ExchangeConfig :=
  { c with
    immutableDeployment := { c.immutableDeployment with
      systemConfig := { c.immutableDeployment.systemConfig with feeParams := params } }
    feeModel := some ⟨params⟩ }

/-- The configuration with another business plan. There is a router iff fees are distributed
automatically, and it keeps what the one before has recorded. -/
def replaceBusinessPlan (plan : BusinessPlanConfig) (c : ExchangeConfig) : ExchangeConfig :=
  { c with
    feeRouter :=
      if plan.enableAutoDistribution then
        some { c.feeRouter.getD (.new plan.payoutConfig) with config := plan.payoutConfig }
      else none
    businessPlan := some plan }

/-- What a call makes of a configuration if it succeeds, or its error. -/
def result (P : ConfigPrimitives κ) (c : ExchangeConfig) (t : Timestamp) :
    Operation κ → Except Error ExchangeConfig
  | .updateFeeParams params => do
    let _ ← c.immutableDeployment.updateFeeParams params t
    return c.setFeeParams params
  | .enableImmutableMode => c.immutableDeployment.enableImmutableMode.map c.withDeployment
  | .lockSystem keypair seed =>
    (c.immutableDeployment.lockSystem P keypair seed t).map c.withDeployment
  | .updateNetworkConfig network =>
    if c.canModifyConfig t then .ok (c.setNetwork network)
    else .error (ImmutableDeployment.lockedError "network configuration")
  | .updateSecurityConfig security =>
    if c.canModifyConfig t then .ok { c with security := security }
    else .error (ImmutableDeployment.lockedError "security configuration")
  | .governanceOverride governanceKeypair =>
    (c.immutableDeployment.governanceOverride P governanceKeypair).map c.withDeployment
  | .enableBusinessPlan config => do
    config.payoutConfig.validate P
    return c.setBusinessPlan config
  | .disableBusinessPlan => .ok { c with businessPlan := none, feeRouter := none }
  | .feeRouterMut change => .ok { c with feeRouter := c.feeRouter.map change }
  | .updateBusinessPlan config =>
    if c.canModifyConfig t then do
      config.payoutConfig.validate P
      return c.replaceBusinessPlan config
    else .error (ImmutableDeployment.lockedError "business plan configuration")
  | .updateSystemConfig config =>
    (c.immutableDeployment.updateSystemConfig config t).map c.withDeployment
  | .disable => c.immutableDeployment.config.disable.map fun config =>
      c.withDeployment { c.immutableDeployment with config := config }
  | .setGracePeriod seconds =>
    (c.immutableDeployment.config.setGracePeriod seconds).map fun config =>
      c.withDeployment { c.immutableDeployment with config := config }
  | .setGovernanceKey key => (c.immutableDeployment.config.setGovernanceKey key).map fun config =>
      c.withDeployment { c.immutableDeployment with config := config }

/-- The outcome of a call that changes the state only if it succeeds. -/
def settled (c : ExchangeConfig) : Except Error ExchangeConfig → Except Error Unit × ExchangeConfig
  | .ok c' => (.ok (), c')
  | .error e => (.error e, c)

variable {P : ConfigPrimitives κ} {c c' : ExchangeConfig} {t : Timestamp} {op : Operation κ}

/-- A call that succeeds leaves its result. -/
lemma settled_eq_ok {r : Except Error ExchangeConfig} {u : Unit} :
    c.settled r = (.ok u, c') ↔ r = .ok c' := by
  cases r with
  | error e => simp [settled]
  | ok c'' => simp [settled]

/-- A method of the deployment changes the deployment if it succeeds. -/
lemma run_onDeployment (method : ImmutableDeployment → Except Error ImmutableDeployment)
    (c : ExchangeConfig) : (onDeployment method).run c =
      c.settled ((method c.immutableDeployment).map c.withDeployment) := by
  unfold onDeployment
  rw [Fallible.run_bind_of_ok (Fallible.run_get c)]
  cases hmethod : method c.immutableDeployment with
  | error e => rw [Fallible.run_bind_of_error (Fallible.run_ofExcept _ _)]; rfl
  | ok d => rw [Fallible.run_bind_of_ok (Fallible.run_ofExcept _ _)]; rfl

/-- So does one of its immutable configuration. -/
lemma run_onImmutableConfig (method : ImmutableConfig → Except Error ImmutableConfig)
    (c : ExchangeConfig) : (onImmutableConfig method).run c =
      c.settled ((method c.immutableDeployment.config).map fun config =>
        c.withDeployment { c.immutableDeployment with config := config }) := by
  unfold onImmutableConfig
  rw [run_onDeployment]
  cases method c.immutableDeployment.config with
  | error e => rfl
  | ok config => rfl

/-- Fee parameters that the deployment takes are taken by the fee model too. -/
lemma run_updateFeeParams (params : FeeModelParams) (t : Timestamp) (c : ExchangeConfig) :
    (updateFeeParams params t).run c = c.settled (c.result P t (.updateFeeParams params)) := by
  rw [result]
  unfold updateFeeParams
  cases hd : c.immutableDeployment.updateFeeParams params t with
  | error e =>
    have hrun : (onDeployment (ImmutableDeployment.updateFeeParams params t)).run c =
        (.error e, c) := by
      rw [run_onDeployment, hd]
      rfl
    rw [Fallible.run_bind_of_error hrun]
    rfl
  | ok d =>
    have hrun : (onDeployment (ImmutableDeployment.updateFeeParams params t)).run c =
        (.ok (), c.withDeployment d) := by
      rw [run_onDeployment, hd]
      rfl
    obtain ⟨-, hvalid, hd'⟩ := ImmutableDeployment.updateFeeParams_ok hd
    have hmodel : (match (c.withDeployment d).feeModel with
        | some model => model.updateParams params
        | none => FeeModel.withParams params) = .ok ⟨params⟩ := by
      split
      · rw [FeeModel.updateParams, hvalid]
        rfl
      · rw [FeeModel.withParams, hvalid]
        rfl
    rw [Fallible.run_bind_of_ok hrun, Fallible.run_bind_of_ok (Fallible.run_get _), hmodel,
      Fallible.run_bind_of_ok (Fallible.run_ofExcept _ _), hd']
    rfl

/-- A payout configuration that is valid is taken by the router too. -/
lemma nextRouter_of_valid {plan : BusinessPlanConfig} (h : plan.payoutConfig.validate P = .ok ())
    (c : ExchangeConfig) : nextRouter P plan c.feeRouter =
      .ok (c.replaceBusinessPlan plan).feeRouter := by
  unfold nextRouter replaceBusinessPlan
  split_ifs
  · cases c.feeRouter with
    | none => rfl
    | some router =>
      unfold FeeRouter.updateConfig
      rw [h]
      rfl
  · rfl

/-- Updating the business plan changes the plan and the router, or nothing. -/
lemma run_updateBusinessPlan (config : BusinessPlanConfig) (t : Timestamp) (c : ExchangeConfig) :
    (updateBusinessPlan P config t).run c =
      c.settled (c.result P t (.updateBusinessPlan config)) := by
  rw [result]
  unfold updateBusinessPlan
  rw [Fallible.run_bind_of_ok (Fallible.run_get c)]
  cases hmodify : c.canModifyConfig t with
  | false => rfl
  | true =>
    simp only [Bool.not_true, Bool.false_eq_true, if_false, if_true]
    cases hvalid : config.payoutConfig.validate P with
    | error e => rw [Fallible.run_bind_of_error (Fallible.run_ofExcept _ _)]; rfl
    | ok u =>
      rw [Fallible.run_bind_of_ok (Fallible.run_ofExcept _ _), nextRouter_of_valid hvalid,
        Fallible.run_bind_of_ok (Fallible.run_ofExcept _ _)]
      rfl

/-- Updating the network changes it, or nothing. -/
lemma run_updateNetworkConfig (network : NetworkConfig) (t : Timestamp) (c : ExchangeConfig) :
    (updateNetworkConfig network t).run c =
      c.settled (c.result P t (.updateNetworkConfig network)) := by
  rw [result]
  unfold updateNetworkConfig
  rw [Fallible.run_bind_of_ok (Fallible.run_get c)]
  cases c.canModifyConfig t with
  | false => rfl
  | true => rfl

/-- So does updating the security. -/
lemma run_updateSecurityConfig (security : SecurityConfig) (t : Timestamp) (c : ExchangeConfig) :
    (updateSecurityConfig security t).run c =
      c.settled (c.result P t (.updateSecurityConfig security)) := by
  rw [result]
  unfold updateSecurityConfig
  rw [Fallible.run_bind_of_ok (Fallible.run_get c)]
  cases c.canModifyConfig t with
  | false => rfl
  | true => rfl

/-- Enabling a business plan whose payouts are valid sets it. -/
lemma run_enableBusinessPlan (config : BusinessPlanConfig) (t : Timestamp) (c : ExchangeConfig) :
    (enableBusinessPlan P config).run c =
      c.settled (c.result P t (.enableBusinessPlan config)) := by
  rw [result]
  unfold enableBusinessPlan
  cases hvalid : config.payoutConfig.validate P with
  | error e => rw [Fallible.run_bind_of_error (Fallible.run_ofExcept _ _)]; rfl
  | ok u => rw [Fallible.run_bind_of_ok (Fallible.run_ofExcept _ _)]; rfl

/-- **What a call does**: it makes its result of the configuration, or it fails and changes
nothing. -/
theorem run_method (P : ConfigPrimitives κ) (c : ExchangeConfig) (t : Timestamp)
    (op : Operation κ) : (op.method P t).run c = c.settled (c.result P t op) := by
  cases op with
  | updateFeeParams params => exact run_updateFeeParams params t c
  | enableImmutableMode => exact run_onDeployment _ c
  | lockSystem keypair seed => exact run_onDeployment _ c
  | updateNetworkConfig network => exact run_updateNetworkConfig network t c
  | updateSecurityConfig security => exact run_updateSecurityConfig security t c
  | governanceOverride governanceKeypair => exact run_onDeployment _ c
  | enableBusinessPlan config => exact run_enableBusinessPlan config t c
  | disableBusinessPlan => rfl
  | feeRouterMut change => rfl
  | updateBusinessPlan config => exact run_updateBusinessPlan config t c
  | updateSystemConfig config => exact run_onDeployment _ c
  | disable => exact run_onImmutableConfig _ c
  | setGracePeriod seconds => exact run_onImmutableConfig (·.setGracePeriod seconds) c
  | setGovernanceKey key => exact run_onImmutableConfig (·.setGovernanceKey key) c

/-- The configuration after a call that succeeds is its result. -/
lemma apply_of_result (h : c.result P t op = .ok c') : c.apply P (t, op) = c' := by
  rw [apply, run_method, h]
  rfl

/-- The configuration after a call that fails is the one before. -/
lemma apply_of_error {e : Error} (h : c.result P t op = .error e) : c.apply P (t, op) = c := by
  rw [apply, run_method, h]
  rfl

/-- **A call** leads to its result, or it has none and leaves the configuration alone. -/
lemma apply_cases (P : ConfigPrimitives κ) (c : ExchangeConfig) (t : Timestamp)
    (op : Operation κ) : c.result P t op = .ok (c.apply P (t, op)) ∨
      (∃ e, c.result P t op = .error e) ∧ c.apply P (t, op) = c := by
  cases h : c.result P t op with
  | ok c' => exact .inl (congrArg Except.ok (apply_of_result h).symm)
  | error e => exact .inr ⟨⟨e, rfl⟩, apply_of_error h⟩

/-! ## Constructed configurations -/

/-- Initializing the fee model takes the fee parameters of the deployment. -/
lemma initialized_ok (h : c.initialized = .ok c') :
    c.immutableDeployment.systemConfig.feeParams.validate = .ok () ∧
      c' = { c with feeModel := some ⟨c.immutableDeployment.systemConfig.feeParams⟩ } := by
  unfold initialized initializeFeeModel at h
  rw [Fallible.run_bind_of_ok (Fallible.run_get c)] at h
  cases hmodel : FeeModel.withParams c.immutableDeployment.systemConfig.feeParams with
  | error e =>
    rw [hmodel, Fallible.run_bind_of_error (Fallible.run_ofExcept _ _)] at h
    cases h
  | ok model =>
    rw [hmodel, Fallible.run_bind_of_ok (Fallible.run_ofExcept _ _)] at h
    obtain ⟨u, hvalid, hmodel⟩ := bind_eq_ok.mp hmodel
    rw [← Except.ok.inj hmodel] at h
    exact ⟨hvalid, (Except.ok.inj h).symm⟩

/-- A configuration from a lockable one has its valid system configuration, and defaults. -/
lemma fromLockableConfig_ok {lockable : LockableConfig}
    (h : fromLockableConfig lockable = .ok c) : lockable.validate = .ok () ∧
      c = ⟨⟨.default, lockable⟩, some ⟨lockable.feeParams⟩,
        { NetworkConfig.default with chainId := lockable.chainId }, .default, none, none⟩ := by
  obtain ⟨d, hd, h⟩ := bind_eq_ok.mp h
  obtain ⟨u, hvalid, hd⟩ := bind_eq_ok.mp hd
  rw [← Except.ok.inj hd] at h
  exact ⟨hvalid, (initialized_ok h).2⟩

/-- What the builder's calls leave of a configuration without a business plan and a router. -/
lemma finish_ok {b : ExchangeConfigBuilder} (hplan : c.businessPlan = none)
    (hrouter : c.feeRouter = none) (h : (b.finish P).run c = (.ok (), c')) :
    c'.validate = .ok () ∧ c' = { c with
      immutableDeployment := { c.immutableDeployment with
        config := { c.immutableDeployment.config with
          enabled := b.enableImmutable || c.immutableDeployment.config.enabled } }
      businessPlan := b.businessPlan
      feeRouter := b.businessPlan.bind fun plan =>
        if plan.enableAutoDistribution then some (.new plan.payoutConfig) else none } := by
  unfold ExchangeConfigBuilder.finish at h
  obtain ⟨u₁, c₁, henable, h⟩ := Fallible.run_bind_ok.mp h
  obtain ⟨u₂, c₂, hbusiness, h⟩ := Fallible.run_bind_ok.mp h
  rw [Fallible.run_bind_of_ok (Fallible.run_get c₂)] at h
  obtain ⟨hvalid, rfl⟩ := Prod.mk.inj h
  refine ⟨hvalid, ?_⟩
  have hc₁ : c₁ = { c with
      immutableDeployment := { c.immutableDeployment with
        config := { c.immutableDeployment.config with
          enabled := b.enableImmutable || c.immutableDeployment.config.enabled } } } := by
    cases hb : b.enableImmutable with
    | false =>
      rw [hb] at henable
      exact (Prod.mk.inj henable).2.symm
    | true =>
      rw [hb] at henable
      have hrun := settled_eq_ok.mp ((run_onDeployment _ c).symm.trans henable)
      obtain ⟨d, hd, hc⟩ := map_eq_ok.mp hrun
      obtain ⟨-, rfl⟩ := ImmutableDeployment.enableImmutableMode_ok hd
      exact hc.symm
  rw [hc₁] at hbusiness
  cases hb : b.businessPlan with
  | none =>
    rw [hb] at hbusiness
    rw [← (Prod.mk.inj hbusiness).2]
    simp [hplan, hrouter]
  | some plan =>
    rw [hb] at hbusiness
    have hrun := settled_eq_ok.mp ((run_enableBusinessPlan plan ⟨0⟩ _).symm.trans hbusiness)
    obtain ⟨u, -, hc⟩ := bind_eq_ok.mp hrun
    rw [← Except.ok.inj hc]
    simp [setBusinessPlan, hrouter]

/-- A built configuration is valid, and holds what the builder holds. -/
lemma build_ok {b : ExchangeConfigBuilder} (h : b.build P = .ok c) : c.validate = .ok () ∧
    c = ⟨⟨{ ImmutableConfig.default with enabled := b.enableImmutable },
      { LockableConfig.default with feeParams := b.feeParams, chainId := b.network.chainId }⟩,
      some ⟨b.feeParams⟩, b.network, b.security, b.businessPlan,
      b.businessPlan.bind fun plan =>
        if plan.enableAutoDistribution then some (.new plan.payoutConfig) else none⟩ := by
  unfold ExchangeConfigBuilder.build at h
  obtain ⟨base, hbase, h⟩ := bind_eq_ok.mp h
  obtain ⟨-, rfl⟩ := fromLockableConfig_ok hbase
  split at h
  · rename_i hrun
    obtain ⟨hvalid, hc⟩ := finish_ok rfl rfl hrun
    rw [← Except.ok.inj h]
    refine ⟨hvalid, hc.trans ?_⟩
    simp [ImmutableConfig.default]
  · cases h

/-! ## The configuration after each setter -/

/-- Fee parameters are updated if they are valid and the lock allows it. -/
lemma apply_updateFeeParams (params : FeeModelParams) :
    c.apply P (t, .updateFeeParams params) =
      if c.canModifyConfig t = true ∧ params.validate = .ok () then c.setFeeParams params
      else c := by
  split_ifs with h
  · refine apply_of_result ?_
    have hmodify : c.immutableDeployment.canModifyConfig t = true := h.1
    rw [result, ImmutableDeployment.updateFeeParams, hmodify, h.2]
    rfl
  · rcases apply_cases P c t (.updateFeeParams params) with hresult | ⟨-, hsame⟩
    · obtain ⟨d, hd, -⟩ := bind_eq_ok.mp hresult
      obtain ⟨hmodify, hvalid, -⟩ := ImmutableDeployment.updateFeeParams_ok hd
      exact absurd ⟨hmodify, hvalid⟩ h
    · exact hsame

/-- So is the system configuration. -/
lemma apply_updateSystemConfig (config : LockableConfig) :
    c.apply P (t, .updateSystemConfig config) =
      if c.canModifyConfig t = true ∧ config.validate = .ok () then
        c.withDeployment { c.immutableDeployment with systemConfig := config }
      else c := by
  split_ifs with h
  · refine apply_of_result ?_
    have hmodify : c.immutableDeployment.canModifyConfig t = true := h.1
    rw [result, ImmutableDeployment.updateSystemConfig, hmodify, h.2]
    rfl
  · rcases apply_cases P c t (.updateSystemConfig config) with hresult | ⟨-, hsame⟩
    · obtain ⟨d, hd, -⟩ := map_eq_ok.mp hresult
      obtain ⟨hmodify, hvalid, -⟩ := ImmutableDeployment.updateSystemConfig_ok hd
      exact absurd ⟨hmodify, hvalid⟩ h
    · exact hsame

/-- The network is updated if the lock allows it. -/
lemma apply_updateNetworkConfig (network : NetworkConfig) :
    c.apply P (t, .updateNetworkConfig network) =
      if c.canModifyConfig t = true then c.setNetwork network else c := by
  split_ifs with h
  · exact apply_of_result (if_pos h)
  · exact apply_of_error (if_neg h)

/-- So is the security. -/
lemma apply_updateSecurityConfig (security : SecurityConfig) :
    c.apply P (t, .updateSecurityConfig security) =
      if c.canModifyConfig t = true then { c with security := security } else c := by
  split_ifs with h
  · exact apply_of_result (if_pos h)
  · exact apply_of_error (if_neg h)

/-- A business plan with valid payouts is enabled, whatever the lock says. -/
lemma apply_enableBusinessPlan (plan : BusinessPlanConfig) :
    c.apply P (t, .enableBusinessPlan plan) =
      if plan.payoutConfig.validate P = .ok () then c.setBusinessPlan plan else c := by
  split_ifs with h
  · refine apply_of_result ?_
    rw [result, h]
    rfl
  · rcases apply_cases P c t (.enableBusinessPlan plan) with hresult | ⟨-, hsame⟩
    · obtain ⟨u, hvalid, -⟩ := bind_eq_ok.mp hresult
      exact absurd hvalid h
    · exact hsame

/-- It is updated if the lock allows it. -/
lemma apply_updateBusinessPlan (plan : BusinessPlanConfig) :
    c.apply P (t, .updateBusinessPlan plan) =
      if c.canModifyConfig t = true ∧ plan.payoutConfig.validate P = .ok () then
        c.replaceBusinessPlan plan
      else c := by
  split_ifs with h
  · refine apply_of_result ?_
    rw [result, h.1, h.2]
    rfl
  · rcases apply_cases P c t (.updateBusinessPlan plan) with hresult | ⟨-, hsame⟩
    · rw [result] at hresult
      split_ifs at hresult with hmodify
      obtain ⟨u, hvalid, -⟩ := bind_eq_ok.mp hresult
      exact absurd ⟨hmodify, hvalid⟩ h
    · exact hsame

end ExchangeConfig

end QuDAG.Exchange.Config
