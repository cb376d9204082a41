import QuDAG.Exchange.Types
import QuDAG.Lib.Fallible

/-!
# Accounts

Accounts of the exchange (`account.rs`). Crediting and debiting are fallible computations on the
account; both fail before they change anything.

## Main definitions

* `AccountId`, `Account`.
* `Account.credit`, `Account.debit`.

## Main results

* `Account.run_credit`, `Account.run_debit` — what the two operations do.

## Implementation notes

The wall-clock stamps of an account (creation, last activity) are left out: operations write
them and none reads them.
-/

namespace QuDAG.Exchange

/-- A unique id for each account. -/
structure AccountId where
  /-- The id as a string. -/
  value : String
  deriving DecidableEq, Repr

/-- The two hexadecimal digits of a byte. -/
def hexByte (b : UInt8) : List Char :=
  [Nat.digitChar (b.toNat / 16), Nat.digitChar (b.toNat % 16)]

/-- The account id of a public key: `acc_` and the first 16 hexadecimal digits of its hash. -/
def AccountId.fromPublicKey (blake3 : List UInt8 → Hash) (publicKey : List UInt8) : AccountId :=
  ⟨"acc_" ++ String.ofList (((blake3 publicKey).bytes.flatMap hexByte).take 16)⟩

/-- Account flags for special statuses. -/
structure AccountFlags where
  /-- The account is frozen (cannot send transactions). -/
  frozen : Bool
  /-- The account has special privileges. -/
  privileged : Bool
  /-- The account requires additional verification. -/
  requiresVerification : Bool
  deriving DecidableEq, Repr

/-- No flag is set. -/
def AccountFlags.default : AccountFlags := ⟨false, false, false⟩

/-- Account metadata. -/
structure AccountMetadata where
  /-- Account flags. -/
  flags : AccountFlags
  deriving DecidableEq, Repr

/-- A user in the system. -/
structure Account where
  /-- Unique account identifier. -/
  id : AccountId
  /-- Current balance. -/
  balance : RUv
  /-- Transaction nonce for ordering. -/
  nonce : Nonce
  /-- Public key associated with the account. -/
  publicKey : Option (List UInt8)
  /-- Account metadata. -/
  metadata : AccountMetadata
  deriving DecidableEq, Repr

namespace Account

/-- A new account with a balance. -/
def withBalance (id : AccountId) (balance : RUv) : Account where
  id := id
  balance := balance
  nonce := ⟨0⟩
  publicKey := none
  metadata := ⟨AccountFlags.default⟩

/-- A new account with zero balance. -/
def new (id : AccountId) : Account := withBalance id RUv.zero

/-- Add to the balance. -/
def credit (amount : RUv) : Fallible Error Account Unit := do
  let account ← Fallible.get
  match account.balance.checkedAdd amount with
  | none => Fallible.fail (.other "Balance overflow")
  | some balance => Fallible.modify fun account => { account with balance := balance }

/-- Subtract from the balance, unless the account is frozen. -/
def debit (amount : RUv) : Fallible Error Account Unit := do
  let account ← Fallible.get
  if account.metadata.flags.frozen then
    Fallible.fail (.other "Account is frozen")
  else
    match account.balance.checkedSub amount with
    | none =>
      Fallible.fail (.insufficientBalance account.id.value amount.amount account.balance.amount)
    | some balance => Fallible.modify fun account => { account with balance := balance }

/-- Set the public key of the account. -/
def setPublicKey (account : Account) (publicKey : List UInt8) : Account :=
  { account with publicKey := some publicKey }

/-- The error of a credit that fails. -/
def creditError : Error := .other "Balance overflow"

/-- The error of a debit that fails. -/
def debitError (account : Account) (amount : RUv) : Error :=
  if account.metadata.flags.frozen then .other "Account is frozen"
  else .insufficientBalance account.id.value amount.amount account.balance.amount

/-- The account can be debited the amount. -/
def canAfford (account : Account) (amount : RUv) : Bool :=
  !account.metadata.flags.frozen && decide (amount ≤ account.balance)

/-- An account that can afford an amount is not frozen and holds it. -/
lemma canAfford_iff {account : Account} {amount : RUv} :
    account.canAfford amount = true ↔
      account.metadata.flags.frozen = false ∧ amount.val ≤ account.balance.val := by
  simp [canAfford, RUv.le_def]

/-- The account with another balance. -/
def setBalance (account : Account) (balance : RUv) : Account := { account with balance := balance }

@[simp] lemma balance_setBalance (account : Account) (balance : RUv) :
    (account.setBalance balance).balance = balance := rfl

/-- A credit adds the amount if the sum fits, and changes nothing otherwise. -/
lemma run_credit (amount : RUv) (account : Account) :
    (credit amount).run account = match account.balance.checkedAdd amount with
      | none => (.error creditError, account)
      | some balance => (.ok (), account.setBalance balance) := by
  rw [credit, Fallible.run_bind_of_ok (Fallible.run_get account)]
  cases account.balance.checkedAdd amount with
  | none => rfl
  | some balance => rfl

/-- A debit takes the amount from an account that can afford it, and changes nothing otherwise. -/
lemma run_debit (amount : RUv) (account : Account) :
    (debit amount).run account = if account.canAfford amount then
        (.ok (), account.setBalance (account.balance.saturatingSub amount))
      else (.error (account.debitError amount), account) := by
  rw [debit, Fallible.run_bind_of_ok (Fallible.run_get account)]
  cases hf : account.metadata.flags.frozen with
  | true => simp [canAfford, debitError, hf]
  | false =>
    by_cases hle : amount.val ≤ account.balance.val
    · have hsub : account.balance.checkedSub amount =
          some (account.balance.saturatingSub amount) := by
        rw [RUv.checkedSub_eq_some, RUv.val_saturatingSub]
        omega
      simp [canAfford, hf, RUv.le_def, hle, hsub, setBalance]
    · have hsub : account.balance.checkedSub amount = none :=
        RUv.checkedSub_eq_none.mpr (by omega)
      simp [canAfford, debitError, hf, RUv.le_def, hle, hsub]

end Account

end QuDAG.Exchange
