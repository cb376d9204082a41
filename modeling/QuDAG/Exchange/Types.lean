import Mathlib.Algebra.Ring.Nat

/-!
# Amounts, times, hashes and errors of the exchange

The fundamental types of the exchange (`types.rs`) and its error type (`error.rs`). Amounts are
64-bit numbers; the lemmas say what the checked and saturating operations do to the exact value.

## Main definitions

* `RUv` — an amount of resource utilization vouchers.
* `Timestamp`, `Nonce`, `Hash`.
* `Error` — the errors of the exchange, with their texts.

## Main results

* `RUv.checkedAdd_eq_some`, `RUv.checkedSub_eq_some` — a checked operation returns the exact result.
-/

namespace QuDAG.Exchange

/-- The fundamental unit of resource credits. -/
structure RUv where
  /-- The raw amount. -/
  amount : UInt64
  deriving DecidableEq, Repr

namespace RUv

/-- The exact value of an amount. -/
def val (r : RUv) : ℕ := r.amount.toNat

/-- Zero tokens. -/
def zero : RUv := ⟨0⟩

/-- One token. -/
def one : RUv := ⟨1⟩

/-- Is the amount zero? -/
def isZero (r : RUv) : Bool := r.amount == 0

/-- Addition, or nothing if the sum does not fit. -/
def checkedAdd (a b : RUv) : Option RUv :=
  if a.val + b.val < 2 ^ 64 then some ⟨a.amount + b.amount⟩ else none

/-- Subtraction, or nothing if the difference is negative. -/
def checkedSub (a b : RUv) : Option RUv :=
  if b.val ≤ a.val then some ⟨a.amount - b.amount⟩ else none

/-- Multiplication by a number, or nothing if the product does not fit. -/
def checkedMul (a : RUv) (scalar : UInt64) : Option RUv :=
  if a.val * scalar.toNat < 2 ^ 64 then some ⟨a.amount * scalar⟩ else none

/-- Subtraction that stops at zero. -/
def saturatingSub (a b : RUv) : RUv := if b.val ≤ a.val then ⟨a.amount - b.amount⟩ else zero

/-- Amounts are compared by value. -/
instance instLERUv : LE RUv := ⟨fun a b => a.val ≤ b.val⟩

instance instLTRUv : LT RUv := ⟨fun a b => a.val < b.val⟩

instance instDecidableLERUv (a b : RUv) : Decidable (a ≤ b) := Nat.decLe a.val b.val

instance instDecidableLTRUv (a b : RUv) : Decidable (a < b) := Nat.decLt a.val b.val

lemma le_def {a b : RUv} : a ≤ b ↔ a.val ≤ b.val := Iff.rfl

lemma lt_def {a b : RUv} : a < b ↔ a.val < b.val := Iff.rfl

/-- An amount fits in 64 bits. -/
lemma val_lt (r : RUv) : r.val < 2 ^ 64 := r.amount.toNat_lt

/-- An amount is determined by its value. -/
lemma ext_val {a b : RUv} (h : a.val = b.val) : a = b := by
  cases a
  cases b
  exact congrArg RUv.mk (UInt64.toNat_inj.mp h)

/-- Every number that fits in 64 bits is the value of an amount. -/
lemma exists_val {n : ℕ} (h : n < 2 ^ 64) : ∃ r : RUv, r.val = n :=
  ⟨⟨UInt64.ofNat n⟩, UInt64.toNat_ofNat_of_lt' h⟩

@[simp] lemma val_zero : zero.val = 0 := rfl

@[simp] lemma isZero_iff {r : RUv} : r.isZero = true ↔ r.val = 0 := by
  rw [isZero, beq_iff_eq, val, ← UInt64.toNat_inj]
  rfl

/-- The value of a sum that fits. -/
lemma val_add {a b : RUv} (h : a.val + b.val < 2 ^ 64) :
    (RUv.mk (a.amount + b.amount)).val = a.val + b.val := by
  show (a.amount + b.amount).toNat = a.amount.toNat + b.amount.toNat
  rw [UInt64.toNat_add]
  exact Nat.mod_eq_of_lt h

/-- The value of a difference that is not negative. -/
lemma val_sub {a b : RUv} (h : b.val ≤ a.val) :
    (RUv.mk (a.amount - b.amount)).val = a.val - b.val := by
  show (a.amount - b.amount).toNat = a.amount.toNat - b.amount.toNat
  exact UInt64.toNat_sub_of_le _ _ (UInt64.le_iff_toNat_le.mpr h)

/-- A checked sum is the exact sum. -/
lemma checkedAdd_eq_some {a b c : RUv} :
    a.checkedAdd b = some c ↔ c.val = a.val + b.val := by
  have hc := c.val_lt
  unfold checkedAdd
  constructor
  · intro h
    split_ifs at h with hlt
    rw [← Option.some.inj h, val_add hlt]
  · intro h
    rw [if_pos (by omega)]
    exact congrArg some (ext_val ((val_add (by omega)).trans h.symm))

/-- A checked sum fails iff the exact sum does not fit. -/
lemma checkedAdd_eq_none {a b : RUv} :
    a.checkedAdd b = none ↔ 2 ^ 64 ≤ a.val + b.val := by
  unfold checkedAdd
  split_ifs with hlt
  · simp only [false_iff]
    omega
  · simp only [true_iff]
    omega

/-- A checked difference is the exact difference. -/
lemma checkedSub_eq_some {a b c : RUv} :
    a.checkedSub b = some c ↔ c.val + b.val = a.val := by
  unfold checkedSub
  constructor
  · intro h
    split_ifs at h with hle
    rw [← Option.some.inj h, val_sub hle]
    omega
  · intro h
    rw [if_pos (by omega)]
    exact congrArg some (ext_val ((val_sub (by omega)).trans (by omega)))

/-- A checked difference fails iff the exact difference is negative. -/
lemma checkedSub_eq_none {a b : RUv} : a.checkedSub b = none ↔ a.val < b.val := by
  unfold checkedSub
  split_ifs with hle
  · simp only [false_iff]
    omega
  · simp only [true_iff]
    omega

/-- A saturating difference is the truncated one. -/
@[simp] lemma val_saturatingSub (a b : RUv) : (a.saturatingSub b).val = a.val - b.val := by
  unfold saturatingSub
  split_ifs with hle
  · exact val_sub hle
  · rw [val_zero]
    omega

end RUv

/-- Milliseconds since the epoch. -/
structure Timestamp where
  /-- The number of milliseconds. -/
  millis : UInt64
  deriving DecidableEq, Repr

/-- A number for the ordering of transactions. -/
structure Nonce where
  /-- The number. -/
  value : UInt64
  deriving DecidableEq, Repr

/-- A hash: 32 bytes. -/
structure Hash where
  /-- The bytes. -/
  bytes : List UInt8
  /-- There are 32 of them. -/
  length_eq : bytes.length = 32
  deriving DecidableEq

/-- Errors of the exchange (`error.rs`). -/
inductive Error
  /-- Insufficient balance for an operation. -/
  | insufficientBalance (account : String) (required available : UInt64)
  /-- Account not found. -/
  | accountNotFound (id : String)
  /-- Transaction validation failed. -/
  | invalidTransaction (message : String)
  /-- Signature verification failed. -/
  | signatureVerificationFailed
  /-- A resource limit is exceeded. -/
  | resourceLimitExceeded (resourceType : String) (limit requested : UInt64)
  /-- Consensus error. -/
  | consensusError (message : String)
  /-- State corruption detected. -/
  | stateCorruption (message : String)
  /-- A vault operation failed. -/
  | vaultError (message : String)
  /-- Serialization or deserialization error. -/
  | serializationError (message : String)
  /-- The operation is not supported. -/
  | notSupported (message : String)
  /-- A generic error with a message. -/
  | other (message : String)
  deriving DecidableEq, Repr

/-- The text of an error. -/
def Error.display : Error → String
  | insufficientBalance account required available =>
    "Insufficient balance for account " ++ account ++ ": required " ++ toString required ++
      ", available " ++ toString available
  | accountNotFound id => "Account not found: " ++ id
  | invalidTransaction message => "Invalid transaction: " ++ message
  | signatureVerificationFailed => "Signature verification failed"
  | resourceLimitExceeded resourceType limit requested =>
    "Resource limit exceeded for " ++ resourceType ++ ": limit " ++ toString limit ++
      ", requested " ++ toString requested
  | consensusError message => "Consensus error: " ++ message
  | stateCorruption message => "State corruption: " ++ message
  | vaultError message => "Vault error: " ++ message
  | serializationError message => "Serialization error: " ++ message
  | notSupported message => "Operation not supported: " ++ message
  | other message => "Error: " ++ message

end QuDAG.Exchange
