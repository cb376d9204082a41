import QuDAG.Exchange.Types
import QuDAG.Lib.Binary64
import QuDAG.Lib.Bytes

/-!
# Resource metering

The cost of an operation (`metering.rs`): a base cost, a cost per unit, a multiplier and a
minimum fee.

## Main definitions

* `OperationType`, `OperationCost`, `UsageStatistics`, `ResourceMeter`.
* `ResourceMeter.calculateCost` — the cost of an operation.
* `ResourceMeter.estimateTransferUnits` — the size of a transaction in units.

## Main results

* `ResourceMeter.minFee_le_calculateCost` — the cost is at least the minimum fee.

## Implementation notes

A table by operation type is a function, as there are finitely many types; the ordered map of
the code iterates over them in the order of the enumeration.
-/

namespace QuDAG.Exchange

/-- Types of operations that can be metered. -/
inductive OperationType
  | transfer
  | mint
  | burn
  | createAccount
  | updateAccount
  | storeData
  | executeComputation
  | verifySignature
  | queryBalance
  | queryTransaction
  deriving DecidableEq, Repr

/-- Cost configuration of an operation. -/
structure OperationCost where
  /-- Base cost for the operation. -/
  baseCost : RUv
  /-- Cost per unit. -/
  perUnitCost : RUv
  /-- Minimum fee required. -/
  minFee : RUv
  /-- Maximum allowed units (0 = unlimited). -/
  maxUnits : UInt64
  deriving DecidableEq, Repr

/-- Usage statistics for monitoring. -/
structure UsageStatistics where
  /-- Total operations metered. -/
  totalOperations : UInt64
  /-- Total amount consumed. -/
  totalRuvConsumed : RUv
  /-- Operations by type. -/
  operationsByType : OperationType → Option UInt64
  /-- Amount consumed by type. -/
  ruvByType : OperationType → Option RUv

/-- No operation has been metered. -/
def UsageStatistics.default : UsageStatistics := ⟨0, RUv.zero, fun _ => none, fun _ => none⟩

/-- Resource meter for tracking and calculating costs. -/
structure ResourceMeter where
  /-- Cost configuration for each operation type. -/
  costTable : OperationType → Option OperationCost
  /-- Global multiplier for all costs. -/
  costMultiplier : Binary64
  /-- Usage statistics. -/
  usageStats : UsageStatistics

namespace ResourceMeter

/-- The default operation costs. -/
def defaultCosts : OperationType → OperationCost
  | .transfer => ⟨⟨1⟩, ⟨0⟩, ⟨1⟩, 10 * 1024⟩
  | .mint => ⟨⟨10⟩, RUv.zero, ⟨10⟩, 0⟩
  | .burn => ⟨⟨5⟩, RUv.zero, ⟨5⟩, 0⟩
  | .createAccount => ⟨⟨100⟩, RUv.zero, ⟨100⟩, 0⟩
  | .updateAccount => ⟨⟨5⟩, RUv.zero, ⟨5⟩, 0⟩
  | .storeData => ⟨⟨1⟩, ⟨1⟩, ⟨1⟩, 1024 * 1024⟩
  | .executeComputation => ⟨⟨1⟩, ⟨1⟩, ⟨1⟩, 1000000⟩
  | .verifySignature => ⟨⟨2⟩, RUv.zero, ⟨2⟩, 0⟩
  | .queryBalance => ⟨⟨0⟩, RUv.zero, ⟨1⟩, 0⟩
  | .queryTransaction => ⟨⟨0⟩, RUv.zero, ⟨1⟩, 0⟩

/-- A new resource meter with default costs. -/
def new : ResourceMeter :=
  ⟨fun operation => some (defaultCosts operation), Binary64.one, UsageStatistics.default⟩

/-- The cost of an operation. -/
def calculateCost (meter : ResourceMeter) (operation : OperationType) (units : UInt64) :
    Except Error RUv :=
  match meter.costTable operation with
  | none => .error (.other "Unknown operation type")
  | some costConfig =>
    if 0 < costConfig.maxUnits ∧ costConfig.maxUnits < units then
      .error (.resourceLimitExceeded "operation_units" costConfig.maxUnits units)
    else
      match costConfig.perUnitCost.checkedMul units with
      | none => .error (.other "Cost calculation overflow")
      | some unitCost =>
        match costConfig.baseCost.checkedAdd unitCost with
        | none => .error (.other "Cost calculation overflow")
        | some rawCost =>
          let finalCost : RUv := ⟨Binary64.mulTruncate rawCost.amount meter.costMultiplier⟩
          .ok (if finalCost < costConfig.minFee then costConfig.minFee else finalCost)

/-- The size of a transaction in units of a kilobyte, rounded up, from the size of its memo. -/
def estimateTransferUnits (memo : Option String) : UInt64 :=
  let baseSize := 200
  let memoSize := (memo.map fun m => (Bytes.ofString m).length).getD 0
  let totalBytes := baseSize + memoSize
  UInt64.ofNat ((totalBytes + 1023) / 1024)

/-- The cost of an operation is at least its minimum fee. -/
lemma minFee_le_calculateCost {meter : ResourceMeter} {operation : OperationType}
    {units : UInt64} {cost : RUv} {costConfig : OperationCost}
    (hconfig : meter.costTable operation = some costConfig)
    (h : meter.calculateCost operation units = .ok cost) : costConfig.minFee ≤ cost := by
  unfold calculateCost at h
  rw [hconfig] at h
  simp only at h
  split_ifs at h
  split at h
  · contradiction
  · split at h
    · contradiction
    · obtain rfl := Except.ok.inj h
      split_ifs with hlt
      · exact le_refl costConfig.minFee.val
      · rw [RUv.lt_def] at hlt
        rw [RUv.le_def]
        omega

example : new.calculateCost .transfer (estimateTransferUnits (some "rent")) = .ok ⟨1⟩ := by
  decide +kernel

end ResourceMeter

end QuDAG.Exchange
