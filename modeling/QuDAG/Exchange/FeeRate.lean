import QuDAG.Exchange.Ledger
import QuDAG.Lib.Outcome
import QuDAG.Lib.Saturation

/-!
# The fee rate (`fee_model.rs`)

The fee model phases a rate in with the time since the first transaction and the monthly usage. The
time constant is in seconds, but the times are in milliseconds and their difference is not
converted, so a day counts as a thousand days.

## Main definitions

* `ExactFeeModel` — the fee model, with exact numbers for floats.
* `ExactFeeModel.calculateFeeRate`, `ExactFeeModel.calculateFeeAmount`.
* `ExactFeeModel.documentedRate` — the documented formula.
* `ExactFeeModel.Documented` — the rate is that of the formula, with what follows from it.

## Main results

* `ExactFeeModel.documented_iff` — the agents and times at which it is.

## Implementation notes

The definitions are over any ordered field with some function for the exponential; the results are
about the real numbers with theirs.
-/

namespace QuDAG.Exchange

open RustStd

/-- Fee model parameters, with exact numbers for floats. -/
structure ExactFeeParams (F : Type) where
  /-- Minimum fee (introductory). -/
  fMin : F
  /-- Maximum fee for unverified agents. -/
  fMax : F
  /-- Minimum fee for verified agents. -/
  fMinVerified : F
  /-- Maximum fee for verified agents. -/
  fMaxVerified : F
  /-- Phase-in time constant. -/
  timeConstantSeconds : UInt64
  /-- Usage scale threshold. -/
  usageThresholdRuv : UInt64

/-- Validate that parameters are within reasonable bounds. -/
def ExactFeeParams.validate {F : Type} [Field F] [LinearOrder F] (params : ExactFeeParams F) :
    Except Error Unit :=
  if params.fMin ≤ 0 ∨ 1 ≤ params.fMin then
    .error (.other "f_min must be between 0 and 1")
  else if params.fMax ≤ params.fMin ∨ 1 ≤ params.fMax then
    .error (.other "f_max must be greater than f_min and less than 1")
  else if params.fMinVerified ≤ 0 ∨ 1 ≤ params.fMinVerified then
    .error (.other "f_min_verified must be between 0 and 1")
  else if params.fMaxVerified ≤ params.fMinVerified ∨ 1 ≤ params.fMaxVerified then
    .error (.other "f_max_verified must be greater than f_min_verified and less than 1")
  else if params.timeConstantSeconds = 0 then
    .error (.other "time_constant_seconds must be greater than 0")
  else if params.usageThresholdRuv = 0 then
    .error (.other "usage_threshold_ruv must be greater than 0")
  else .ok ()

/-- A fee model has valid parameters. -/
structure ExactFeeModel (F : Type) [Field F] [LinearOrder F] where
  /-- Model parameters. -/
  params : ExactFeeParams F
  /-- They were accepted. -/
  valid : params.validate = .ok ()

namespace ExactFeeModel

/-! ## The code -/

section Code

variable {F : Type} [Field F] [LinearOrder F] (exp : F → F) (model : ExactFeeModel F)
  (status : AgentStatus) (now : Timestamp)

/-- Time phase-in function. -/
def timePhaseIn (timeSeconds : F) : F :=
  let tNormalized := timeSeconds / (model.params.timeConstantSeconds.toNat : F)
  1 - exp (-tNormalized)

/-- Usage scaling function. -/
def usageScaling (usageRuv : F) : F :=
  let uNormalized := usageRuv / (model.params.usageThresholdRuv.toNat : F)
  1 - exp (-uNormalized)

/-- The time since the first transaction, zero if the clock is before it. -/
def timeSinceFirst : ℕ :=
  if status.firstTransactionTimestamp.millis ≤ now.millis then
    now.millis.toNat - status.firstTransactionTimestamp.millis.toNat
  else 0

/-- Calculate fee rate for a transaction. -/
def calculateFeeRate : Except Error F :=
  let alpha := timePhaseIn exp model (timeSinceFirst status now : F)
  let beta := usageScaling exp model (status.monthlyUsageRuv.toNat : F)
  let feeRate :=
    if status.verified then
      -- the fee decreases with usage
      model.params.fMinVerified +
        (model.params.fMaxVerified - model.params.fMinVerified) * alpha * (1 - beta)
    else
      -- the fee increases with usage and time
      model.params.fMin + (model.params.fMax - model.params.fMin) * alpha * beta
  .ok (min (max feeRate 0) 1)

/-- Calculate actual fee amount for a transaction. The product is cast to an integer. -/
def calculateFeeAmount [FloorSemiring F] (amount : RUv) : Except Error RUv := do
  let feeRate ← calculateFeeRate exp model status now
  .ok ⟨UInt64.ofNat (min ⌊(amount.val : F) * feeRate⌋₊ (2 ^ 64 - 1))⟩

/-- The fee model of a ledger. -/
def feeModel [FloorSemiring F] : FeeModel :=
  ⟨fun amount status now => calculateFeeAmount exp model status now amount⟩

/-! ## The documentation -/

/-- The documented formula, for a time in seconds. -/
def documentedRate (verified : Bool) (seconds usage : F) : F :=
  let alpha := 1 - exp (-(seconds / (model.params.timeConstantSeconds.toNat : F)))
  let beta := 1 - exp (-(usage / (model.params.usageThresholdRuv.toNat : F)))
  if verified then
    model.params.fMinVerified +
      (model.params.fMaxVerified - model.params.fMinVerified) * alpha * (1 - beta)
  else model.params.fMin + (model.params.fMax - model.params.fMin) * alpha * beta

/-- The lowest rate of an agent. -/
def lowest (verified : Bool) : F :=
  if verified then model.params.fMinVerified else model.params.fMin

/-- The bound of the rates of an agent. -/
def highest (verified : Bool) : F :=
  if verified then model.params.fMaxVerified else model.params.fMax

end Code

/-- The rate that is calculated. -/
noncomputable def rate (model : ExactFeeModel ℝ) (status : AgentStatus) (now : Timestamp) : ℝ :=
  ((calculateFeeRate Real.exp model status now).toOption).getD 0

/-- The fee rate is that of the documentation, with the time in seconds. It is within the bounds,
never decreases in time, never decreases in usage for an agent that is not verified and never
increases for one that is, and a fee is at most the amount. -/
structure Documented (model : ExactFeeModel ℝ) (status : AgentStatus) (now : Timestamp) : Prop where
  formula : calculateFeeRate Real.exp model status now =
    .ok (documentedRate Real.exp model status.verified ((timeSinceFirst status now : ℝ) / 1000)
      status.monthlyUsageRuv.toNat)
  bounds : model.lowest status.verified ≤ model.rate status now ∧
    model.rate status now < model.highest status.verified
  time : ∀ (status' : AgentStatus) (now' : Timestamp), status'.verified = status.verified →
    status'.monthlyUsageRuv = status.monthlyUsageRuv →
    timeSinceFirst status now ≤ timeSinceFirst status' now' →
      model.rate status now ≤ model.rate status' now'
  usage : ∀ (status' : AgentStatus) (now' : Timestamp), status'.verified = status.verified →
    timeSinceFirst status' now' = timeSinceFirst status now →
    status.monthlyUsageRuv ≤ status'.monthlyUsageRuv →
      if status.verified then model.rate status' now' ≤ model.rate status now
      else model.rate status now ≤ model.rate status' now'
  fee : ∀ (ledger : Ledger) (account : AccountId) (amount fee : RUv),
    ledger.feeModel = some (feeModel Real.exp model) → ledger.getAgentStatus account = .ok status →
    ledger.calculateFee account amount now = .ok fee → fee.val ≤ amount.val

/-! ## The parameters -/

variable {model : ExactFeeModel ℝ} {status status' : AgentStatus} {now now' : Timestamp}
  {verified : Bool} {seconds usage : ℝ}

/-- The bounds of a valid model are in order. -/
lemma lowest_lt_highest (model : ExactFeeModel ℝ) (verified : Bool) :
    0 < model.lowest verified ∧ model.lowest verified < model.highest verified ∧
      model.highest verified < 1 := by
  have hvalid := model.valid
  unfold ExactFeeParams.validate at hvalid
  split_ifs at hvalid with hmin hmax hminVerified hmaxVerified
  rw [not_or, not_le, not_le] at hmin hmax hminVerified hmaxVerified
  cases verified with
  | false => exact ⟨hmin.1, hmax.1, hmax.2⟩
  | true => exact ⟨hminVerified.1, hmaxVerified.1, hmaxVerified.2⟩

/-- The scales of a valid model are positive. -/
lemma scales_pos (model : ExactFeeModel ℝ) : (0 : ℝ) < model.params.timeConstantSeconds.toNat ∧
    (0 : ℝ) < model.params.usageThresholdRuv.toNat := by
  have hvalid := model.valid
  unfold ExactFeeParams.validate at hvalid
  split_ifs at hvalid with _ _ _ _ htime husage
  have hpos : ∀ n : UInt64, n ≠ 0 → 0 < n.toNat := fun n hn =>
    Nat.pos_of_ne_zero fun hzero => hn (UInt64.toNat_inj.mp hzero)
  exact ⟨Nat.cast_pos.mpr (hpos _ htime), Nat.cast_pos.mpr (hpos _ husage)⟩

/-! ## The rate -/

/-- The share that the usage contributes: what is reached, or for a verified agent what is left. -/
noncomputable def usageShare (model : ExactFeeModel ℝ) (verified : Bool) (usage : ℝ) : ℝ :=
  let reached := Saturation.reached (usage / model.params.usageThresholdRuv.toNat)
  if verified then 1 - reached else reached

/-- The share of the difference of the bounds. -/
noncomputable def share (model : ExactFeeModel ℝ) (verified : Bool) (seconds usage : ℝ) : ℝ :=
  Saturation.reached (seconds / model.params.timeConstantSeconds.toNat) *
    model.usageShare verified usage

/-- The formula places the rate between the bounds. -/
lemma documentedRate_eq : documentedRate Real.exp model verified seconds usage =
    Saturation.between (model.lowest verified) (model.highest verified)
      (model.share verified seconds usage) := by
  unfold documentedRate Saturation.between share usageShare Saturation.reached lowest highest
  cases verified with
  | false => exact congrArg _ (mul_assoc _ _ _)
  | true => exact congrArg _ (mul_assoc _ _ _)

/-- The share of the usage. -/
lemma usageShare_mem (h : 0 ≤ usage) :
    0 ≤ model.usageShare verified usage ∧ model.usageShare verified usage ≤ 1 := by
  have hnonneg := Saturation.reached_nonneg (div_nonneg h model.scales_pos.2.le)
  have hlt := Saturation.reached_lt_one (usage / model.params.usageThresholdRuv.toNat)
  unfold usageShare
  cases verified with
  | false => exact ⟨hnonneg, hlt.le⟩
  | true => exact ⟨sub_nonneg.mpr hlt.le, sub_le_self 1 hnonneg⟩

/-- The share is one. -/
lemma share_mem (hseconds : 0 ≤ seconds) (husage : 0 ≤ usage) :
    0 ≤ model.share verified seconds usage ∧ model.share verified seconds usage < 1 :=
  Saturation.mul_share ⟨Saturation.reached_nonneg (div_nonneg hseconds model.scales_pos.1.le),
    Saturation.reached_lt_one _⟩ (usageShare_mem husage)

/-- **What the code calculates**: the formula, with the milliseconds as seconds. -/
lemma calculateFeeRate_eq (model : ExactFeeModel ℝ) (status : AgentStatus) (now : Timestamp) :
    calculateFeeRate Real.exp model status now =
      .ok (documentedRate Real.exp model status.verified (timeSinceFirst status now)
        status.monthlyUsageRuv.toNat) := by
  obtain ⟨hlow, hlt, hhigh⟩ := model.lowest_lt_highest status.verified
  have hmem := Saturation.between_mem hlt (@share_mem model status.verified
    (timeSinceFirst status now) status.monthlyUsageRuv.toNat (Nat.cast_nonneg _)
    (Nat.cast_nonneg _))
  have hrate : calculateFeeRate Real.exp model status now = .ok (min (max
      (documentedRate Real.exp model status.verified (timeSinceFirst status now)
        status.monthlyUsageRuv.toNat) 0) 1) := rfl
  rw [hrate, documentedRate_eq, max_eq_left (hlow.le.trans hmem.1),
    min_eq_left (hmem.2.trans hhigh).le]

/-- The rate, between the bounds. -/
lemma rate_eq (model : ExactFeeModel ℝ) (status : AgentStatus) (now : Timestamp) :
    model.rate status now =
      Saturation.between (model.lowest status.verified) (model.highest status.verified)
        (model.share status.verified (timeSinceFirst status now)
          status.monthlyUsageRuv.toNat) := by
  rw [rate, calculateFeeRate_eq, documentedRate_eq]
  rfl

/-- A rate is within the bounds. -/
lemma rate_mem (model : ExactFeeModel ℝ) (status : AgentStatus) (now : Timestamp) :
    model.lowest status.verified ≤ model.rate status now ∧
      model.rate status now < model.highest status.verified := by
  rw [rate_eq]
  exact Saturation.between_mem (model.lowest_lt_highest _).2.1
    (share_mem (Nat.cast_nonneg _) (Nat.cast_nonneg _))

/-- A rate does not decrease in time. -/
lemma rate_le_of_time (hverified : status'.verified = status.verified)
    (husage : status'.monthlyUsageRuv = status.monthlyUsageRuv)
    (htime : timeSinceFirst status now ≤ timeSinceFirst status' now') :
    model.rate status now ≤ model.rate status' now' := by
  rw [rate_eq, rate_eq, hverified, husage]
  refine Saturation.between_mono (model.lowest_lt_highest _).2.1 ?_
  refine mul_le_mul_of_nonneg_right ?_ (usageShare_mem (Nat.cast_nonneg _)).1
  refine Saturation.reached_strictMono.monotone ?_
  exact div_le_div_of_nonneg_right (Nat.cast_le.mpr htime) model.scales_pos.1.le

/-- A rate does not decrease in usage, or for a verified agent does not increase. -/
lemma rate_le_of_usage (hverified : status'.verified = status.verified)
    (htime : timeSinceFirst status' now' = timeSinceFirst status now)
    (husage : status.monthlyUsageRuv ≤ status'.monthlyUsageRuv) :
    if status.verified then model.rate status' now' ≤ model.rate status now
    else model.rate status now ≤ model.rate status' now' := by
  have hreached : Saturation.reached (status.monthlyUsageRuv.toNat /
        model.params.usageThresholdRuv.toNat) ≤
      Saturation.reached (status'.monthlyUsageRuv.toNat /
        model.params.usageThresholdRuv.toNat) :=
    Saturation.reached_strictMono.monotone (div_le_div_of_nonneg_right
      (Nat.cast_le.mpr (UInt64.le_iff_toNat_le.mp husage)) model.scales_pos.2.le)
  have htimes : 0 ≤ Saturation.reached ((timeSinceFirst status now : ℝ) /
      model.params.timeConstantSeconds.toNat) :=
    Saturation.reached_nonneg (div_nonneg (Nat.cast_nonneg _) model.scales_pos.1.le)
  rw [rate_eq, rate_eq, hverified, htime]
  cases hcase : status.verified with
  | false =>
    rw [if_neg (by simp)]
    exact Saturation.between_mono (model.lowest_lt_highest _).2.1
      (mul_le_mul_of_nonneg_left hreached htimes)
  | true =>
    rw [if_pos rfl]
    exact Saturation.between_mono (model.lowest_lt_highest _).2.1
      (mul_le_mul_of_nonneg_left (sub_le_sub_left hreached 1) htimes)

/-- **A fee** is at most the amount. -/
lemma calculateFee_le {ledger : Ledger} {account : AccountId} {amount fee : RUv}
    (hmodel : ledger.feeModel = some (feeModel Real.exp model))
    (hstatus : ledger.getAgentStatus account = .ok status)
    (h : ledger.calculateFee account amount now = .ok fee) : fee.val ≤ amount.val := by
  unfold Ledger.calculateFee at h
  rw [hmodel] at h
  obtain ⟨status', hstatus', hamount⟩ := bind_eq_ok.mp h
  obtain rfl := Except.ok.inj (hstatus.symm.trans hstatus')
  obtain ⟨feeRate, hrate, hfee⟩ := bind_eq_ok.mp hamount
  have heq : feeRate = model.rate status now := by
    rw [rate, hrate]
    rfl
  have hle : feeRate ≤ 1 := by
    rw [heq]
    exact (rate_mem model status now).2.le.trans (model.lowest_lt_highest _).2.2.le
  have hfloor : ⌊(amount.val : ℝ) * feeRate⌋₊ ≤ amount.val := by
    refine Nat.floor_le_of_le ?_
    exact mul_le_of_le_one_right (Nat.cast_nonneg _) hle
  have hval : fee.val = min ⌊(amount.val : ℝ) * feeRate⌋₊ (2 ^ 64 - 1) := by
    rw [← Except.ok.inj hfee]
    refine UInt64.toNat_ofNat_of_lt' ?_
    exact lt_of_le_of_lt (min_le_right _ _) (by norm_num)
  rw [hval]
  exact (min_le_left _ _).trans hfloor

/-! ## Milliseconds for seconds -/

/-- The clock is not after the first transaction. -/
lemma timeSinceFirst_eq_zero_iff :
    timeSinceFirst status now = 0 ↔ now.millis ≤ status.firstTransactionTimestamp.millis := by
  rw [UInt64.le_iff_toNat_le]
  unfold timeSinceFirst
  split_ifs with h
  · exact Nat.sub_eq_zero_iff_le
  · exact iff_of_true rfl (le_of_lt (not_le.mp h))

/-- The usage contributes nothing only for an agent that is not verified and has none. -/
lemma usageShare_eq_zero_iff {usageRuv : UInt64} :
    model.usageShare verified usageRuv.toNat = 0 ↔ verified = false ∧ usageRuv = 0 := by
  unfold usageShare
  cases verified with
  | false =>
    have hzero : (usageRuv.toNat : ℝ) = 0 ↔ usageRuv = 0 := by
      rw [Nat.cast_eq_zero]
      exact @UInt64.toNat_inj usageRuv 0
    rw [if_neg (by simp), Saturation.reached_eq_zero_iff, div_eq_zero_iff, hzero]
    simp [model.scales_pos.2.ne']
  | true =>
    have hlt := Saturation.reached_lt_one (usageRuv.toNat / model.params.usageThresholdRuv.toNat)
    rw [if_pos rfl]
    exact iff_of_false (sub_pos.mpr hlt).ne' (by simp)

/-- **Milliseconds count as seconds** unless there are none, or time does not matter. -/
lemma formula_iff :
    calculateFeeRate Real.exp model status now = .ok (documentedRate Real.exp model
        status.verified ((timeSinceFirst status now : ℝ) / 1000) status.monthlyUsageRuv.toNat) ↔
      now.millis ≤ status.firstTransactionTimestamp.millis ∨
        (status.verified = false ∧ status.monthlyUsageRuv = 0) := by
  have htimes : (timeSinceFirst status now : ℝ) / model.params.timeConstantSeconds.toNat =
      (timeSinceFirst status now : ℝ) / 1000 / model.params.timeConstantSeconds.toNat ↔
      timeSinceFirst status now = 0 := by
    rw [div_left_inj' model.scales_pos.1.ne', ← @Nat.cast_eq_zero ℝ]
    constructor
    · intro h
      linarith
    · intro h
      linarith
  rw [calculateFeeRate_eq, Except.ok.injEq, documentedRate_eq, documentedRate_eq,
    Saturation.between_inj (model.lowest_lt_highest _).2.1]
  unfold share
  rw [mul_eq_mul_right_iff, Saturation.reached_strictMono.injective.eq_iff, htimes,
    timeSinceFirst_eq_zero_iff, usageShare_eq_zero_iff]

/-- **Exactly when the fee rate is the documented one**: for every valid model, agent and time, iff
the clock is not after the first transaction, or the agent is not verified and has no usage. -/
theorem documented_iff (model : ExactFeeModel ℝ) (status : AgentStatus) (now : Timestamp) :
    Documented model status now ↔
      now.millis ≤ status.firstTransactionTimestamp.millis ∨
        (status.verified = false ∧ status.monthlyUsageRuv = 0) := by
  rw [← @formula_iff model]
  constructor
  · exact fun h => h.formula
  · exact fun h => ⟨h, rate_mem model status now,
      fun _ _ hverified husage htime => rate_le_of_time hverified husage htime,
      fun _ _ hverified htime husage => rate_le_of_usage hverified htime husage,
      fun _ _ _ _ hmodel hstatus hfee => calculateFee_le hmodel hstatus hfee⟩

/-- The default parameters. -/
noncomputable def default : ExactFeeModel ℝ where
  params := ⟨1 / 1000, 1 / 100, 25 / 10000, 5 / 1000, 3 * 30 * 24 * 60 * 60, 10000⟩
  valid := by
    unfold ExactFeeParams.validate
    norm_num
    rw [if_neg (by decide), if_neg (by decide)]

/-- An agent that was used for a day. -/
def dayAgent : AgentStatus := { AgentStatus.newUnverified ⟨0⟩ with monthlyUsageRuv := 10000 }

/-- After one day the rate is not the documented one. -/
theorem not_documented_day : ¬ Documented default dayAgent ⟨86400000⟩ := by
  intro h
  rcases formula_iff.mp h.formula with hbefore | ⟨-, hnone⟩
  · exact absurd hbefore (by decide)
  · exact absurd hnone (by decide)

end ExactFeeModel

end QuDAG.Exchange
