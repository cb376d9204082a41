import QuDAG.Exchange.Config

/-!
# Changes of a locked configuration

Once the lock is enforced, the methods that ask it change nothing. The methods that do not ask it
change the business plan and the payout settings all the same. A run keeps the configuration that
it was locked with, until the governance key overrides the lock, iff none of them does.

## Main definitions

* `Settings` — the parts of a configuration that the lock is to protect.
* `Watched` — a configuration, and what it was when its lock was enforced.
* `ExchangeConfig.Guarded` — the condition on a call.

## Main results

* `ExchangeConfig.frozen_iff` — which calls leave a locked configuration as it is.
* `Watched.immutable_iff` — the exact runs that keep it.
-/

namespace QuDAG.Exchange.Config

open RustStd

/-- The parts of a configuration that the lock is to protect. -/
structure Settings where
  /-- System configuration. -/
  systemConfig : LockableConfig
  /-- Dynamic fee model calculator. -/
  feeModel : Option FeeModel
  /-- Network configuration. -/
  network : NetworkConfig
  /-- Security configuration. -/
  security : SecurityConfig
  /-- Business plan features configuration. -/
  businessPlan : Option BusinessPlanConfig
  /-- The configuration of the fee router. -/
  payouts : Option PayoutConfig
  deriving DecidableEq

/-- The calls that ask the lock. -/
def Operation.asksLock {κ : Type} : Operation κ → Bool
  | .enableImmutableMode => false
  | .governanceOverride _ => false
  | .enableBusinessPlan _ => false
  | .disableBusinessPlan => false
  | .feeRouterMut _ => false
  | _ => true

namespace ExchangeConfig

variable {κ : Type} {P : ConfigPrimitives κ} {c c' : ExchangeConfig} {t : Timestamp}
  {op : Operation κ}

/-- The settings of a configuration. -/
def settings (c : ExchangeConfig) : Settings :=
  ⟨c.immutableDeployment.systemConfig, c.feeModel, c.network, c.security, c.businessPlan,
    c.feeRouter.map FeeRouter.config⟩

/-- The lock of a configuration. -/
def lock (c : ExchangeConfig) : ImmutableConfig := c.immutableDeployment.config

/-- The call presents the governance key that the lock has. -/
def Overrides (P : ConfigPrimitives κ) (c : ExchangeConfig) : Operation κ → Bool
  | .governanceOverride governanceKeypair =>
    decide (c.lock.governanceKey = some (P.publicKey governanceKeypair))
  | _ => false

/-- The settings and the lock are the same. -/
def Frozen (c c' : ExchangeConfig) : Prop := c'.settings = c.settings ∧ c'.lock = c.lock

instance (c c' : ExchangeConfig) : Decidable (c.Frozen c') := inferInstanceAs (Decidable (_ ∧ _))

/-- While the lock is enforced, the calls that do not ask it change nothing: a business plan with
valid payouts is enabled only if it is there already, one is disabled only if there is none, and
the fee router keeps its payout configuration. -/
def Guarded (P : ConfigPrimitives κ) (c : ExchangeConfig) (e : Timestamp × Operation κ) : Prop :=
  c.lock.isEnforced e.1 = true → match e.2 with
    | .enableBusinessPlan plan => plan.payoutConfig.validate P = .ok () →
        c.businessPlan = some plan ∧ (plan.enableAutoDistribution = true →
          c.feeRouter.map FeeRouter.config = some plan.payoutConfig)
    | .disableBusinessPlan => c.businessPlan = none ∧ c.feeRouter = none
    | .feeRouterMut change =>
        (c.feeRouter.map change).map FeeRouter.config = c.feeRouter.map FeeRouter.config
    | _ => True

/-- Every configuration is frozen with respect to itself. -/
@[simp] lemma Frozen.refl (c : ExchangeConfig) : c.Frozen c := ⟨rfl, rfl⟩

/-- What leads away from a frozen one leads away from the first. -/
lemma Frozen.trans_iff {c'' : ExchangeConfig} (h : c.Frozen c') : c.Frozen c'' ↔ c'.Frozen c'' := by
  unfold Frozen
  rw [h.1, h.2]

/-- Another business plan and another router leave the settings alone iff the plan is the same and
the router has the same configuration. -/
lemma frozen_plan_iff {plan : Option BusinessPlanConfig} {router : Option FeeRouter} :
    c.Frozen { c with businessPlan := plan, feeRouter := router } ↔
      c.businessPlan = plan ∧ c.feeRouter.map FeeRouter.config = router.map FeeRouter.config := by
  unfold Frozen settings lock
  simp [eq_comm]

/-- While the lock is enforced the configuration is locked. -/
lemma isLocked_of_enforced (henforced : c.lock.isEnforced t = true) :
    c.immutableDeployment.config.isLocked = true :=
  ImmutableConfig.isLocked_of_isEnforced henforced

/-- While the lock is enforced the configuration cannot be modified. -/
lemma canModifyConfig_of_enforced (henforced : c.lock.isEnforced t = true) :
    c.canModifyConfig t = false := congrArg Bool.not henforced

/-- **Calls that ask the lock** change nothing while it is enforced: they fail. -/
lemma apply_of_asksLock (henforced : c.lock.isEnforced t = true) (hasks : op.asksLock = true) :
    c.apply P (t, op) = c := by
  have hmodify := canModifyConfig_of_enforced henforced
  have hlocked := isLocked_of_enforced henforced
  have henabled := (ImmutableConfig.isLocked_iff.mp hlocked).1
  have hdeployment : c.immutableDeployment.canModifyConfig t = false := hmodify
  cases op with
  | updateFeeParams params =>
    refine apply_of_error (e := ImmutableDeployment.lockedError "configuration") ?_
    rw [result, ImmutableDeployment.updateFeeParams, hdeployment]
    rfl
  | updateNetworkConfig network => exact apply_of_error (if_neg (by simp [hmodify]))
  | updateSecurityConfig security => exact apply_of_error (if_neg (by simp [hmodify]))
  | updateBusinessPlan plan => exact apply_of_error (if_neg (by simp [hmodify]))
  | updateSystemConfig config =>
    refine apply_of_error (e := ImmutableDeployment.lockedError "configuration") ?_
    rw [result, ImmutableDeployment.updateSystemConfig, hdeployment]
    rfl
  | lockSystem keypair seed =>
    refine apply_of_error (e := .other "System is already locked") ?_
    rw [result, ImmutableDeployment.lockSystem, henabled, hlocked]
    rfl
  | disable =>
    refine apply_of_error (e := .other "Cannot disable immutable mode: system is locked") ?_
    rw [result, ImmutableConfig.disable, hlocked]
    rfl
  | setGracePeriod seconds =>
    refine apply_of_error (e := .other "Cannot change grace period: system is locked") ?_
    rw [result, ImmutableConfig.setGracePeriod, hlocked]
    rfl
  | setGovernanceKey key =>
    refine apply_of_error (e := .other "Cannot set governance key: system is locked") ?_
    rw [result, ImmutableConfig.setGovernanceKey, hlocked]
    rfl
  | enableImmutableMode => cases hasks
  | governanceOverride governanceKeypair => cases hasks
  | enableBusinessPlan plan => cases hasks
  | disableBusinessPlan => cases hasks
  | feeRouterMut change => cases hasks

/-- Calls that ask the lock are guarded. -/
lemma guarded_of_asksLock (hasks : op.asksLock = true) : c.Guarded P (t, op) := by
  intro _
  cases op with
  | enableBusinessPlan plan => cases hasks
  | disableBusinessPlan => cases hasks
  | feeRouterMut change => cases hasks
  | _ => trivial

/-- So is an override of the lock. -/
lemma guarded_of_overrides (h : c.Overrides P op = true) : c.Guarded P (t, op) := by
  intro _
  cases op with
  | governanceOverride governanceKeypair => trivial
  | _ => cases h

/-- While the lock is enforced, enabling immutable mode changes nothing. -/
lemma apply_enableImmutableMode (henforced : c.lock.isEnforced t = true) :
    c.apply P (t, .enableImmutableMode) = c := by
  have henabled := (ImmutableConfig.isLocked_iff.mp (isLocked_of_enforced henforced)).1
  rcases apply_cases P c t .enableImmutableMode with h | ⟨-, h⟩
  · obtain ⟨d, hd, hc⟩ := map_eq_ok.mp h
    obtain ⟨-, rfl⟩ := ImmutableDeployment.enableImmutableMode_ok hd
    rw [← hc, ImmutableConfig.enable, ← henabled]
    rfl
  · exact h

/-- An override with another key than the governance key changes nothing. -/
lemma apply_governanceOverride {governanceKeypair : κ}
    (hnot : c.Overrides P (.governanceOverride governanceKeypair) = false) :
    c.apply P (t, .governanceOverride governanceKeypair) = c := by
  rcases apply_cases P c t (.governanceOverride governanceKeypair) with h | ⟨-, h⟩
  · obtain ⟨d, hd, -⟩ := map_eq_ok.mp h
    obtain ⟨hkey, -⟩ := ImmutableDeployment.governanceOverride_ok hd
    exact absurd hkey (of_decide_eq_false hnot)
  · exact h

/-- Enabling a business plan leaves the settings alone iff it is there already, or not valid. -/
lemma frozen_enableBusinessPlan_iff {plan : BusinessPlanConfig} :
    c.Frozen (c.apply P (t, .enableBusinessPlan plan)) ↔
      (plan.payoutConfig.validate P = .ok () → c.businessPlan = some plan ∧
        (plan.enableAutoDistribution = true →
          c.feeRouter.map FeeRouter.config = some plan.payoutConfig)) := by
  cases hvalid : plan.payoutConfig.validate P with
  | error e =>
    have hfails : c.result P t (.enableBusinessPlan plan) = .error e := by
      rw [result, hvalid]
      rfl
    rw [apply_of_error hfails]
    simp
  | ok u =>
    have hsets : c.result P t (.enableBusinessPlan plan) = .ok (c.setBusinessPlan plan) := by
      rw [result, hvalid]
      rfl
    rw [apply_of_result hsets, setBusinessPlan, frozen_plan_iff]
    cases plan.enableAutoDistribution with
    | false => simp
    | true => simp [FeeRouter.new]

/-- **Calls while the lock is enforced** that do not override it: they leave the settings and the
lock alone iff they are guarded.

**Proof sketch.** The calls that ask the lock fail, and so does an override with another key.
Enabling immutable mode enables what is enabled. The other calls do what they do without a lock. -/
lemma frozen_iff (henforced : c.lock.isEnforced t = true) (hnot : c.Overrides P op = false) :
    c.Frozen (c.apply P (t, op)) ↔ c.Guarded P (t, op) := by
  have hsame (h : c.apply P (t, op) = c) (hguarded : c.Guarded P (t, op)) :
      c.Frozen (c.apply P (t, op)) ↔ c.Guarded P (t, op) :=
    iff_of_true (h.symm ▸ Frozen.refl c) hguarded
  by_cases hasks : op.asksLock = true
  · exact hsame (apply_of_asksLock henforced hasks) (guarded_of_asksLock hasks)
  · cases op with
    | enableImmutableMode => exact hsame (apply_enableImmutableMode henforced) fun _ => trivial
    | governanceOverride governanceKeypair =>
      exact hsame (apply_governanceOverride hnot) fun _ => trivial
    | enableBusinessPlan plan =>
      rw [frozen_enableBusinessPlan_iff]
      exact ⟨fun h _ => h, fun h => h henforced⟩
    | disableBusinessPlan =>
      rw [apply_of_result rfl, frozen_plan_iff, Option.map_none, Option.map_eq_none_iff]
      exact ⟨fun h _ => h, fun h => h henforced⟩
    | feeRouterMut change =>
      have hplan : c.Frozen (c.apply P (t, .feeRouterMut change)) ↔
          c.businessPlan = c.businessPlan ∧
            c.feeRouter.map FeeRouter.config = (c.feeRouter.map change).map FeeRouter.config :=
        frozen_plan_iff
      rw [hplan, eq_self, true_and, eq_comm]
      exact ⟨fun h _ => h, fun h => h henforced⟩
    | _ => exact absurd rfl hasks

end ExchangeConfig

/-! ## Runs -/

/-- A configuration with the time of its last call, and what it was when its lock was enforced. -/
structure Watched where
  /-- The configuration. -/
  config : ExchangeConfig
  /-- The time of the last call. -/
  now : Timestamp
  /-- The configuration at the first call at which the lock was enforced, since the governance key
  was last presented. -/
  enforced : Option ExchangeConfig

namespace Watched

variable {κ : Type} {P : ConfigPrimitives κ} {s : Watched} {e : Timestamp × Operation κ}

/-- What the configuration was when its lock was enforced, as a call at a time sees it. -/
def enforcedAt (s : Watched) (t : Timestamp) : Option ExchangeConfig :=
  match s.enforced with
  | some c => some c
  | none => if s.config.lock.isEnforced t then some s.config else none

/-- The state after a call. -/
def applyOperation (P : ConfigPrimitives κ) (s : Watched) (e : Timestamp × Operation κ) :
    Watched where
  config := s.config.apply P e
  now := e.1
  enforced := if s.config.Overrides P e.2 then none else s.enforcedAt e.1

/-- A configuration at its construction. -/
def start (c : ExchangeConfig) : Watched := ⟨c, ⟨0⟩, none⟩

/-- The settings and the lock are those of the configuration when its lock was enforced. -/
def Immutable (s : Watched) : Prop := ∀ c ∈ s.enforced, c.Frozen s.config

instance (s : Watched) : Decidable s.Immutable :=
  match h : s.enforced with
  | some c => decidable_of_iff (c.Frozen s.config) (by simp [Immutable, h])
  | none => isTrue (by simp [Immutable, h])

/-- The invariant: the configuration is immutable, and a lock that was enforced is enforced now. -/
structure Inv (s : Watched) : Prop where
  /-- The configuration is immutable. -/
  immutable : s.Immutable
  /-- The lock is enforced now. -/
  enforced : ∀ c ∈ s.enforced, c.lock.isEnforced s.now = true

/-- What a call sees of an enforced lock is the present one, and the configuration is still the one
that was locked. -/
lemma Inv.enforcedAt (h : s.Inv) {t : Timestamp} (hle : s.now.millis ≤ t.millis)
    {c : ExchangeConfig} (hc : c ∈ s.enforcedAt t) :
    c.Frozen s.config ∧ s.config.lock.isEnforced t = true := by
  unfold Watched.enforcedAt at hc
  cases henforced : s.enforced with
  | some c' =>
    rw [henforced] at hc
    obtain rfl : c' = c := Option.some.inj hc
    have hfrozen := h.immutable c' henforced
    refine ⟨hfrozen, ?_⟩
    rw [hfrozen.2]
    exact ImmutableConfig.isEnforced_mono hle (h.enforced c' henforced)
  | none =>
    rw [henforced] at hc
    simp only [Option.mem_def, Option.ite_none_right_eq_some, Option.some.injEq] at hc
    obtain ⟨hnow, rfl⟩ := hc
    exact ⟨ExchangeConfig.Frozen.refl _, hnow⟩

/-- Where the lock is enforced, a call sees it. -/
lemma exists_enforcedAt {t : Timestamp} (h : s.config.lock.isEnforced t = true) :
    ∃ c, c ∈ s.enforcedAt t := by
  unfold Watched.enforcedAt
  cases s.enforced with
  | some c => exact ⟨c, rfl⟩
  | none => exact ⟨s.config, if_pos h⟩

/-- **A call** at a later time: the configuration is still immutable iff the call is guarded, and
then the invariant holds again. -/
lemma Inv.applyOperation (h : s.Inv) (hle : s.now.millis ≤ e.1.millis) :
    ((s.applyOperation P e).Immutable ↔ s.config.Guarded P e) ∧
      ((s.applyOperation P e).Immutable → (s.applyOperation P e).Inv) := by
  by_cases hover : s.config.Overrides P e.2 = true
  · have hnone : (s.applyOperation P e).enforced = none := if_pos hover
    have himmutable : (s.applyOperation P e).Immutable := by simp [Immutable, hnone]
    exact ⟨iff_of_true himmutable (ExchangeConfig.guarded_of_overrides hover), fun _ =>
      ⟨himmutable, by simp [hnone]⟩⟩
  · have hseen : (s.applyOperation P e).enforced = s.enforcedAt e.1 := if_neg hover
    have hinv (himmutable : (s.applyOperation P e).Immutable) : (s.applyOperation P e).Inv := by
      refine ⟨himmutable, fun c hc => ?_⟩
      obtain ⟨hfrozen, hnow⟩ := h.enforcedAt hle (hseen ▸ hc)
      rw [← hfrozen.2]
      exact hnow
    refine ⟨?_, hinv⟩
    by_cases hnow : s.config.lock.isEnforced e.1 = true
    · obtain ⟨c, hc⟩ := exists_enforcedAt hnow
      rw [← ExchangeConfig.frozen_iff hnow (Bool.not_eq_true _ ▸ hover),
        ← (h.enforcedAt hle hc).1.trans_iff]
      unfold Immutable
      rw [hseen, Option.mem_def.mp hc]
      simp only [Option.mem_def, Option.some.injEq, forall_eq']
      exact Iff.rfl
    · refine iff_of_true (fun c hc => ?_) fun henforced => absurd henforced hnow
      exact absurd (h.enforcedAt hle (hseen ▸ hc)).2 hnow

/-- **Immutable deployment**: in a run whose calls are made in the order of time, no call changes
the settings or the lock of a configuration whose lock is enforced, unless the governance key is
presented, iff every call is guarded. -/
theorem immutable_iff (P : ConfigPrimitives κ) (c : ExchangeConfig)
    (ops : List (Timestamp × Operation κ))
    (hclock : Runs.Steps (applyOperation P) (fun s e => s.now.millis ≤ e.1.millis) (start c) ops) :
    Runs.Always (applyOperation P) Immutable (start c) ops ↔
      Runs.Steps (applyOperation P) (fun s e => s.config.Guarded P e) (start c) ops := by
  refine Runs.always_iff_steps Inv (fun s h => h.immutable) ?_ ?_ hclock
    ⟨by simp [Immutable, start], by simp [start]⟩
  · intro s e h hle hguarded
    exact (h.applyOperation hle).2 ((h.applyOperation hle).1.mpr hguarded)
  · intro s e h hle himmutable
    exact (h.applyOperation hle).1.mp himmutable

/-- A call a day after a configuration was locked. -/
def dayAfterLock (op : Operation (List UInt8)) : List (Timestamp × Operation (List UInt8)) :=
  [(⟨1000⟩, .enableImmutableMode), (⟨1000⟩, .lockSystem [7] []), (⟨87400⟩, op)]

/-- Updating the business plan then leaves the configuration as it was. -/
theorem immutable_updateBusinessPlan :
    Runs.Always (applyOperation ConfigPrimitives.toy) Immutable (start .default)
      (dayAfterLock (.updateBusinessPlan .default)) :=
  (immutable_iff ConfigPrimitives.toy .default _ (by decide +kernel)).mpr
    ⟨fun _ => trivial, fun _ => trivial, fun _ => trivial, trivial⟩

/-- Enabling one then does not. -/
theorem not_immutable_enableBusinessPlan :
    ExchangeConfig.new = .ok .default ∧
      Runs.Steps (applyOperation ConfigPrimitives.toy) (fun s e => s.now.millis ≤ e.1.millis)
        (start .default) (dayAfterLock (.enableBusinessPlan .default)) ∧
      ¬ Runs.Always (applyOperation ConfigPrimitives.toy) Immutable (start .default)
        (dayAfterLock (.enableBusinessPlan .default)) := by
  refine ⟨ExchangeConfig.new_eq, by decide +kernel, fun h => ?_⟩
  have hend := Runs.always_iff.mp h _ (List.prefix_refl _)
  revert hend
  decide +kernel

end Watched

end QuDAG.Exchange.Config
