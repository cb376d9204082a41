import QuDAG.Exchange.Account
import QuDAG.Lib.Collections

/-!
# The ledger

The ledger of the exchange (`ledger.rs`): accounts by id, the total supply and an optional fee
model. Every operation is a fallible computation on the ledger, so that an error keeps what was
written before it.

## Main definitions

* `AgentStatus`, `FeeModel` — what a fee depends on. The fee function is arbitrary.
* `Ledger` and its operations `createAccount`, `mint`, `burn`, `transfer`, `transferWithFee`.
* `Ledger.checkInvariants` — the check that the balances add up to the supply.

## Main results

* `Ledger.run_updateAccount` — an account update that fails leaves the ledger as it was.
* `Ledger.mint_ok_iff`, `Ledger.burn_ok_iff`, `Ledger.transfer_ok_iff` — when the operations
  succeed, and with what effect.
* `Ledger.Stable` — a property of ledgers that every operation keeps.
-/

namespace QuDAG.Exchange

open RustStd

/-- Agent verification status and usage statistics. -/
structure AgentStatus where
  /-- Whether the agent is verified. -/
  verified : Bool
  /-- Time of the first transaction. -/
  firstTransactionTimestamp : Timestamp
  /-- Monthly usage. -/
  monthlyUsageRuv : UInt64
  /-- Verification proof data. -/
  verificationProof : Option (List UInt8)
  deriving DecidableEq, Repr

/-- The status of an agent that is not verified. -/
def AgentStatus.newUnverified (firstTransaction : Timestamp) : AgentStatus :=
  ⟨false, firstTransaction, 0, none⟩

/-- The status of a verified agent. -/
def AgentStatus.newVerified (firstTransaction : Timestamp) (proof : List UInt8) : AgentStatus :=
  ⟨true, firstTransaction, 0, some proof⟩

/-- A fee model: any function from an amount, an agent and a time to a fee. -/
structure FeeModel where
  /-- The fee of a transaction. -/
  calculateFeeAmount : RUv → AgentStatus → Timestamp → Except Error RUv

/-- Ledger configuration. -/
structure LedgerConfig where
  /-- Minimum balance required to keep an account active. -/
  minBalance : RUv
  /-- Maximum total supply allowed. -/
  maxSupply : RUv
  /-- Allow negative balances. -/
  allowNegative : Bool
  deriving DecidableEq, Repr

/-- The default configuration. -/
def LedgerConfig.default : LedgerConfig := ⟨RUv.zero, ⟨UInt64.ofNat (2 ^ 64 - 1)⟩, false⟩

/-- The main ledger structure that maintains all account states. -/
structure Ledger where
  /-- Accounts by id. -/
  accounts : HashMap AccountId Account
  /-- Agent status tracking for fee calculation. -/
  agentStatuses : HashMap AccountId AgentStatus
  /-- Total supply in circulation. -/
  totalSupply : RUv
  /-- Configuration of the ledger. -/
  config : LedgerConfig
  /-- Fee model for calculating transaction fees. -/
  feeModel : Option FeeModel

namespace Ledger

/-- An empty ledger with a configuration. -/
def withConfig (config : LedgerConfig) : Ledger := ⟨∅, ∅, RUv.zero, config, none⟩

/-- A new empty ledger. -/
def new : Ledger := withConfig LedgerConfig.default

/-- An empty ledger with a fee model. -/
def withFeeModel (config : LedgerConfig) (feeModel : FeeModel) : Ledger :=
  { withConfig config with feeModel := some feeModel }

/-- Get an account by id. -/
def getAccount (id : AccountId) (l : Ledger) : Except Error Account :=
  match l.accounts.lookup id with
  | none => .error (.accountNotFound id.value)
  | some account => .ok account

/-- Get an account balance. -/
def getBalance (id : AccountId) (l : Ledger) : Except Error RUv :=
  (l.getAccount id).map Account.balance

/-- Create a new account with zero balance. -/
def createAccount (id : AccountId) : Fallible Error Ledger Unit := do
  let l ← Fallible.get
  if id ∈ l.accounts then
    Fallible.fail (.other "Account already exists")
  else
    Fallible.modify fun l => { l with accounts := l.accounts.insert id (Account.new id) }

/-- Update an account with a computation. The computation works on the account in place, so
what it wrote before an error stays. -/
def updateAccount (id : AccountId) (f : Fallible Error Account Unit) :
    Fallible Error Ledger Unit := fun l =>
  match l.accounts.lookup id with
  | none => (.error (.accountNotFound id.value), l)
  | some account =>
    let outcome := f.run account
    (outcome.1, { l with accounts := l.accounts.insert id outcome.2 })

/-- Credit an account and raise the supply. -/
def mint (account : AccountId) (amount : RUv) : Fallible Error Ledger Unit := do
  let l ← Fallible.get
  match l.totalSupply.checkedAdd amount with
  | none => Fallible.fail (.other "Supply overflow")
  | some newSupply =>
    if l.config.maxSupply < newSupply then
      Fallible.fail
        (.resourceLimitExceeded "total_supply" l.config.maxSupply.amount newSupply.amount)
    else
      updateAccount account (Account.credit amount)
      Fallible.modify fun l => { l with totalSupply := newSupply }

/-- Debit an account and lower the supply. -/
def burn (account : AccountId) (amount : RUv) : Fallible Error Ledger Unit := do
  updateAccount account (Account.debit amount)
  Fallible.modify fun l => { l with totalSupply := l.totalSupply.saturatingSub amount }

/-- Create agent status for an account. -/
def createAgentStatus (account : AccountId) (verified : Bool) (firstTxTime : Timestamp) :
    Fallible Error Ledger Unit :=
  let status :=
    if verified then AgentStatus.newVerified firstTxTime []
    else AgentStatus.newUnverified firstTxTime
  Fallible.modify fun l => { l with agentStatuses := l.agentStatuses.insert account status }

/-- Get agent status. -/
def getAgentStatus (account : AccountId) (l : Ledger) : Except Error AgentStatus :=
  match l.agentStatuses.lookup account with
  | none => .error (.other "Agent status not found")
  | some status => .ok status

/-- Calculate the fee of a transaction. -/
def calculateFee (account : AccountId) (amount : RUv) (currentTime : Timestamp) (l : Ledger) :
    Except Error RUv :=
  match l.feeModel with
  | none => .error (.other "Fee model not set")
  | some feeModel => do
    let status ← l.getAgentStatus account
    feeModel.calculateFeeAmount amount status currentTime

/-- Move an amount between two accounts. Both accounts are looked up before either changes. -/
def transfer (sender recipient : AccountId) (amount : RUv) : Fallible Error Ledger Unit := do
  if sender = recipient then
    Fallible.fail (.invalidTransaction "Cannot transfer to self")
  else if amount.isZero then
    Fallible.fail (.invalidTransaction "Cannot transfer zero amount")
  else
    let l ← Fallible.get
    let _ ← Fallible.ofExcept (l.getAccount sender)
    let _ ← Fallible.ofExcept (l.getAccount recipient)
    updateAccount sender (Account.debit amount)
    updateAccount recipient (Account.credit amount)

/-- Transfer with automatic fee calculation: the recipient gets the amount, the fee is burned. -/
def transferWithFee (sender recipient : AccountId) (amount : RUv) (currentTime : Timestamp) :
    Fallible Error Ledger RUv := do
  if sender = recipient then
    Fallible.fail (.invalidTransaction "Cannot transfer to self")
  else if amount.isZero then
    Fallible.fail (.invalidTransaction "Cannot transfer zero amount")
  else
    let l ← Fallible.get
    let fee ← Fallible.ofExcept (l.calculateFee sender amount currentTime)
    match amount.checkedAdd fee with
    | none => Fallible.fail (.other "Transaction cost overflow")
    | some totalCost =>
      let senderBalance ← Fallible.ofExcept (l.getBalance sender)
      if senderBalance < totalCost then
        Fallible.fail
          (.insufficientBalance sender.value totalCost.amount senderBalance.amount)
      else
        transfer sender recipient amount
        if fee.isZero then pure fee
        else
          burn sender fee
          pure fee

/-- Add the balances up in some order of iteration, or fail when they do not fit. -/
def totalBalance : RUv → List (AccountId × Account) → Except Error RUv
  | total, [] => .ok total
  | total, entry :: rest =>
    match total.checkedAdd entry.2.balance with
    | none => .error (.stateCorruption "Balance overflow in invariant check")
    | some total' => totalBalance total' rest

/-- Check that the balances add up to the total supply. The list is the order in which the
iteration over the accounts happens to go. -/
def checkInvariants (order : List (AccountId × Account)) (l : Ledger) : Except Error Unit := do
  let total ← totalBalance RUv.zero order
  if total = l.totalSupply then .ok ()
  else
    .error (.stateCorruption ("Total balance " ++ toString total.amount ++ " != total supply " ++
      toString l.totalSupply.amount))

/-! ## What the operations do -/

/-- The ledger with an account written. -/
def put (id : AccountId) (account : Account) (l : Ledger) : Ledger :=
  { l with accounts := l.accounts.insert id account }

/-- The ledger with another supply. -/
def setSupply (supply : RUv) (l : Ledger) : Ledger := { l with totalSupply := supply }

@[simp] lemma accounts_put (id : AccountId) (account : Account) (l : Ledger) :
    (l.put id account).accounts = l.accounts.insert id account := rfl

@[simp] lemma totalSupply_put (id : AccountId) (account : Account) (l : Ledger) :
    (l.put id account).totalSupply = l.totalSupply := rfl

@[simp] lemma accounts_setSupply (supply : RUv) (l : Ledger) :
    (l.setSupply supply).accounts = l.accounts := rfl

@[simp] lemma totalSupply_setSupply (supply : RUv) (l : Ledger) :
    (l.setSupply supply).totalSupply = supply := rfl

/-- Writing back an account that is there changes nothing. -/
lemma put_of_lookup {id : AccountId} {account : Account} {l : Ledger}
    (h : l.accounts.lookup id = some account) : l.put id account = l := by
  rw [put, HashMap.insert_of_lookup h]

/-- A lookup after a write to another account. -/
lemma lookup_put_of_ne {id id' : AccountId} {l : Ledger} (account : Account) (h : id' ≠ id) :
    (l.put id account).accounts.lookup id' = l.accounts.lookup id' :=
  Finmap.lookup_insert_of_ne _ h

variable {id sender recipient : AccountId} {amount : RUv} {l l' : Ledger} {e : Error}

lemma getAccount_eq_ok {account : Account} :
    l.getAccount id = .ok account ↔ l.accounts.lookup id = some account := by
  unfold getAccount
  cases l.accounts.lookup id with
  | none => simp
  | some account' => simp

/-- Updating an account that is there. -/
lemma run_updateAccount {account : Account} (f : Fallible Error Account Unit)
    (h : l.accounts.lookup id = some account) :
    (updateAccount id f).run l = ((f.run account).1, l.put id (f.run account).2) := by
  show updateAccount id f l = _
  rw [updateAccount, h]
  rfl

/-- Updating an account that is missing. -/
lemma run_updateAccount_none (f : Fallible Error Account Unit)
    (h : l.accounts.lookup id = none) :
    (updateAccount id f).run l = (.error (.accountNotFound id.value), l) := by
  show updateAccount id f l = _
  rw [updateAccount, h]

/-- A credit succeeds iff the account exists and the sum fits. -/
lemma credit_ok_iff :
    (updateAccount id (Account.credit amount)).run l = (.ok (), l') ↔
      ∃ account balance, l.accounts.lookup id = some account ∧
        balance.val = account.balance.val + amount.val ∧
        l' = l.put id (account.setBalance balance) := by
  cases hid : l.accounts.lookup id with
  | none => simp [run_updateAccount_none _ hid]
  | some account =>
    rw [run_updateAccount _ hid, Account.run_credit]
    cases hb : account.balance.checkedAdd amount with
    | none =>
      rw [RUv.checkedAdd_eq_none] at hb
      simp only [Prod.mk.injEq, reduceCtorEq, false_and, false_iff]
      rintro ⟨account', balance, heq, hval, -⟩
      obtain rfl := Option.some.inj heq
      have := balance.val_lt
      omega
    | some balance =>
      rw [RUv.checkedAdd_eq_some] at hb
      constructor
      · intro h
        exact ⟨account, balance, rfl, hb, (Prod.mk.inj h).2.symm⟩
      · rintro ⟨account', balance', heq, hval, rfl⟩
        obtain rfl := Option.some.inj heq
        rw [RUv.ext_val (hb.trans hval.symm)]

/-- A credit that fails leaves the ledger as it was. -/
lemma credit_atomicAt : (updateAccount id (Account.credit amount)).AtomicAt l := by
  intro e l' h
  cases hid : l.accounts.lookup id with
  | none =>
    rw [run_updateAccount_none _ hid] at h
    exact (Prod.mk.inj h).2.symm
  | some account =>
    rw [run_updateAccount _ hid, Account.run_credit] at h
    cases hb : account.balance.checkedAdd amount with
    | none =>
      rw [hb] at h
      rw [← (Prod.mk.inj h).2]
      exact put_of_lookup hid
    | some balance =>
      rw [hb] at h
      simp at h

/-- A debit succeeds iff the account exists and can afford it. -/
lemma debit_ok_iff :
    (updateAccount id (Account.debit amount)).run l = (.ok (), l') ↔
      ∃ account, l.accounts.lookup id = some account ∧ account.canAfford amount = true ∧
        l' = l.put id (account.setBalance (account.balance.saturatingSub amount)) := by
  cases hid : l.accounts.lookup id with
  | none => simp [run_updateAccount_none _ hid]
  | some account =>
    rw [run_updateAccount _ hid, Account.run_debit]
    cases hc : account.canAfford amount with
    | false => simp [hc]
    | true =>
      constructor
      · intro h
        exact ⟨account, rfl, hc, (Prod.mk.inj h).2.symm⟩
      · rintro ⟨account', heq, -, rfl⟩
        obtain rfl := Option.some.inj heq
        rfl

/-- A debit that fails leaves the ledger as it was. -/
lemma debit_atomicAt : (updateAccount id (Account.debit amount)).AtomicAt l := by
  intro e l' h
  cases hid : l.accounts.lookup id with
  | none =>
    rw [run_updateAccount_none _ hid] at h
    exact (Prod.mk.inj h).2.symm
  | some account =>
    rw [run_updateAccount _ hid, Account.run_debit] at h
    cases hc : account.canAfford amount with
    | false =>
      rw [hc] at h
      rw [← (Prod.mk.inj h).2]
      exact put_of_lookup hid
    | true =>
      rw [hc] at h
      simp at h

/-- An account is created iff its id is free. -/
lemma createAccount_ok_iff :
    (createAccount id).run l = (.ok (), l') ↔
      id ∉ l.accounts ∧ l' = l.put id (Account.new id) := by
  rw [createAccount, Fallible.run_bind_of_ok (Fallible.run_get l)]
  by_cases hid : id ∈ l.accounts
  · simp [hid]
  · rw [if_neg hid, Fallible.run_modify]
    constructor
    · exact fun h => ⟨hid, (Prod.mk.inj h).2.symm⟩
    · rintro ⟨-, rfl⟩
      rfl

/-- A creation that fails leaves the ledger as it was. -/
lemma createAccount_atomicAt : (createAccount id).AtomicAt l := by
  refine Fallible.atomicAt_bind_of_run_eq rfl fun l₀ => ?_
  split_ifs
  · exact Fallible.atomicAt_fail _ _
  · exact Fallible.atomicAt_modify _ _

/-- A mint succeeds iff the supply stays within its limit and the credit succeeds. -/
lemma mint_ok_iff :
    (mint id amount).run l = (.ok (), l') ↔
      ∃ account balance supply, l.accounts.lookup id = some account ∧
        balance.val = account.balance.val + amount.val ∧
        supply.val = l.totalSupply.val + amount.val ∧ supply.val ≤ l.config.maxSupply.val ∧
        l' = (l.put id (account.setBalance balance)).setSupply supply := by
  rw [mint, Fallible.run_bind_of_ok (Fallible.run_get l)]
  cases hs : l.totalSupply.checkedAdd amount with
  | none =>
    rw [RUv.checkedAdd_eq_none] at hs
    simp only [Fallible.run_fail, Prod.mk.injEq, reduceCtorEq, false_and, false_iff]
    rintro ⟨account, balance, supply, -, -, hsupply, -⟩
    have := supply.val_lt
    omega
  | some supply =>
    rw [RUv.checkedAdd_eq_some] at hs
    by_cases hmax : l.config.maxSupply < supply
    · simp only [hmax, if_true, Fallible.run_fail, Prod.mk.injEq, reduceCtorEq, false_and,
        false_iff]
      rintro ⟨account, balance, supply', -, -, hsupply, hle, -⟩
      rw [RUv.lt_def] at hmax
      omega
    · simp only [hmax, if_false]
      rw [RUv.lt_def] at hmax
      constructor
      · intro h
        obtain ⟨_, l₁, hcredit, hmod⟩ := Fallible.run_bind_ok.mp h
        obtain ⟨account, balance, hid, hval, rfl⟩ := credit_ok_iff.mp hcredit
        exact ⟨account, balance, supply, hid, hval, hs, by omega, (Prod.mk.inj hmod).2.symm⟩
      · rintro ⟨account, balance, supply', hid, hval, hsupply, -, rfl⟩
        obtain rfl : supply' = supply := RUv.ext_val (hsupply.trans hs.symm)
        rw [Fallible.run_bind_of_ok (credit_ok_iff.mpr ⟨account, balance, hid, hval, rfl⟩)]
        rfl

/-- A mint that fails leaves the ledger as it was. -/
lemma mint_atomicAt : (mint id amount).AtomicAt l := by
  refine Fallible.atomicAt_bind_of_run_eq rfl fun l₀ => ?_
  split
  · exact Fallible.atomicAt_fail _ _
  · split_ifs
    · exact Fallible.atomicAt_fail _ _
    · exact Fallible.atomicAt_bind_of_total credit_atomicAt fun _ _ _ => ⟨(), rfl⟩

/-- A burn succeeds iff the debit does. -/
lemma burn_ok_iff :
    (burn id amount).run l = (.ok (), l') ↔
      ∃ account, l.accounts.lookup id = some account ∧ account.canAfford amount = true ∧
        l' = (l.put id (account.setBalance (account.balance.saturatingSub amount))).setSupply
          (l.totalSupply.saturatingSub amount) := by
  rw [burn]
  constructor
  · intro h
    obtain ⟨_, l₁, hdebit, hmod⟩ := Fallible.run_bind_ok.mp h
    obtain ⟨account, hid, hc, rfl⟩ := debit_ok_iff.mp hdebit
    exact ⟨account, hid, hc, (Prod.mk.inj hmod).2.symm⟩
  · rintro ⟨account, hid, hc, rfl⟩
    rw [Fallible.run_bind_of_ok (debit_ok_iff.mpr ⟨account, hid, hc, rfl⟩)]
    rfl

/-- A burn that fails leaves the ledger as it was. -/
lemma burn_atomicAt : (burn id amount).AtomicAt l :=
  Fallible.atomicAt_bind_of_total debit_atomicAt fun _ _ _ => ⟨(), rfl⟩

/-- A transfer between two different accounts that exist debits one and credits the other. -/
lemma run_transfer {a b : Account} (hne : sender ≠ recipient) (hz : amount.val ≠ 0)
    (ha : l.accounts.lookup sender = some a) (hb : l.accounts.lookup recipient = some b) :
    (transfer sender recipient amount).run l =
      (do
        updateAccount sender (Account.debit amount)
        updateAccount recipient (Account.credit amount)).run l := by
  have hget : (Fallible.ofExcept (l.getAccount sender) : Fallible Error Ledger Account).run l =
      (.ok a, l) := by
    rw [Fallible.run_ofExcept, getAccount_eq_ok.mpr ha]
  have hget' : (Fallible.ofExcept (l.getAccount recipient) : Fallible Error Ledger Account).run l =
      (.ok b, l) := by
    rw [Fallible.run_ofExcept, getAccount_eq_ok.mpr hb]
  rw [transfer, if_neg hne, if_neg (by simpa using hz),
    Fallible.run_bind_of_ok (Fallible.run_get l), Fallible.run_bind_of_ok hget,
    Fallible.run_bind_of_ok hget']

/-- A transfer ends at a check that changes nothing, or reaches its debit. -/
lemma transfer_cases (sender recipient : AccountId) (amount : RUv) (l : Ledger) :
    (∃ e, (transfer sender recipient amount).run l = (.error e, l)) ∨
      sender ≠ recipient ∧ amount.val ≠ 0 ∧ ∃ a b, l.accounts.lookup sender = some a ∧
        l.accounts.lookup recipient = some b := by
  by_cases hne : sender = recipient
  · exact .inl ⟨_, by rw [transfer, if_pos hne]; rfl⟩
  by_cases hz : amount.val = 0
  · exact .inl ⟨_, by rw [transfer, if_neg hne, if_pos (by simpa using hz)]; rfl⟩
  have hrun : (transfer sender recipient amount).run l =
      (do
        let _ ← Fallible.ofExcept (l.getAccount sender)
        let _ ← Fallible.ofExcept (l.getAccount recipient)
        updateAccount sender (Account.debit amount)
        updateAccount recipient (Account.credit amount)).run l := by
    rw [transfer, if_neg hne, if_neg (by simpa using hz),
      Fallible.run_bind_of_ok (Fallible.run_get l)]
  cases ha : l.accounts.lookup sender with
  | none =>
    refine .inl ⟨.accountNotFound sender.value, hrun.trans (Fallible.run_bind_of_error ?_)⟩
    simp [getAccount, ha]
  | some a =>
    cases hb : l.accounts.lookup recipient with
    | none =>
      have hget : (Fallible.ofExcept (l.getAccount sender) :
          Fallible Error Ledger Account).run l = (.ok a, l) := by
        rw [Fallible.run_ofExcept, getAccount_eq_ok.mpr ha]
      refine .inl ⟨.accountNotFound recipient.value, hrun.trans ?_⟩
      rw [Fallible.run_bind_of_ok hget]
      refine Fallible.run_bind_of_error ?_
      simp [getAccount, hb]
    | some b => exact .inr ⟨hne, hz, a, b, rfl, rfl⟩

/-- A transfer succeeds iff the accounts are different and exist, the amount is not zero, the
sender can afford it and the recipient's balance does not overflow. -/
lemma transfer_ok_iff :
    (transfer sender recipient amount).run l = (.ok (), l') ↔
      sender ≠ recipient ∧ amount.val ≠ 0 ∧ ∃ a b balance,
        l.accounts.lookup sender = some a ∧ l.accounts.lookup recipient = some b ∧
        a.canAfford amount = true ∧ balance.val = b.balance.val + amount.val ∧
        l' = (l.put sender (a.setBalance (a.balance.saturatingSub amount))).put recipient
          (b.setBalance balance) := by
  constructor
  · intro h
    rcases transfer_cases sender recipient amount l with ⟨e, he⟩ | ⟨hne, hz, a, b, ha, hb⟩
    · rw [he] at h
      simp at h
    · rw [run_transfer hne hz ha hb] at h
      obtain ⟨_, l₁, hdebit, hcredit⟩ := Fallible.run_bind_ok.mp h
      obtain ⟨a', ha', hc, rfl⟩ := debit_ok_iff.mp hdebit
      obtain ⟨b', balance, hb', hval, rfl⟩ := credit_ok_iff.mp hcredit
      rw [lookup_put_of_ne _ hne.symm, hb] at hb'
      rw [ha] at ha'
      obtain rfl := Option.some.inj ha'
      obtain rfl := Option.some.inj hb'
      exact ⟨hne, hz, a, b, balance, ha, hb, hc, hval, rfl⟩
  · rintro ⟨hne, hz, a, b, balance, ha, hb, hc, hval, rfl⟩
    rw [run_transfer hne hz ha hb, Fallible.run_bind_of_ok (debit_ok_iff.mpr ⟨a, ha, hc, rfl⟩)]
    exact credit_ok_iff.mpr
      ⟨b, balance, by rw [lookup_put_of_ne _ hne.symm, hb], hval, rfl⟩

/-- A transfer that fails leaves the ledger as it was, or has debited the sender and then
overflows the recipient's balance. -/
lemma transfer_error_cases (h : (transfer sender recipient amount).run l = (.error e, l')) :
    l' = l ∨ sender ≠ recipient ∧ amount.val ≠ 0 ∧ ∃ a b,
      l.accounts.lookup sender = some a ∧ l.accounts.lookup recipient = some b ∧
      a.canAfford amount = true ∧ 2 ^ 64 ≤ b.balance.val + amount.val ∧
      l' = l.put sender (a.setBalance (a.balance.saturatingSub amount)) := by
  rcases transfer_cases sender recipient amount l with ⟨e', he⟩ | ⟨hne, hz, a, b, ha, hb⟩
  · rw [he] at h
    exact .inl (Prod.mk.inj h).2.symm
  · rw [run_transfer hne hz ha hb] at h
    rcases Fallible.run_bind_error.mp h with hdebit | ⟨_, l₁, hdebit, hcredit⟩
    · exact .inl (debit_atomicAt _ _ hdebit)
    · obtain ⟨a', ha', hc, rfl⟩ := debit_ok_iff.mp hdebit
      rw [ha] at ha'
      obtain rfl := Option.some.inj ha'
      refine .inr ⟨hne, hz, a, b, ha, hb, hc, ?_, credit_atomicAt _ _ hcredit⟩
      by_contra hlt
      have hfits : b.balance.checkedAdd amount ≠ none := by
        rw [ne_eq, RUv.checkedAdd_eq_none]
        omega
      obtain ⟨balance, hsome⟩ := Option.ne_none_iff_exists'.mp hfits
      have hok := credit_ok_iff.mpr ⟨b, balance,
        (lookup_put_of_ne (a.setBalance (a.balance.saturatingSub amount)) hne.symm).trans hb,
        RUv.checkedAdd_eq_some.mp hsome, rfl⟩
      rw [hok] at hcredit
      simp at hcredit

variable {now : Timestamp}

/-- A transfer with a fee ends at a check that changes nothing, or reaches its transfer with a
sender that holds the amount and the fee. -/
lemma transferWithFee_cases (sender recipient : AccountId) (amount : RUv) (now : Timestamp)
    (l : Ledger) :
    (∃ e, (transferWithFee sender recipient amount now).run l = (.error e, l)) ∨
      ∃ fee a, l.calculateFee sender amount now = .ok fee ∧
        l.accounts.lookup sender = some a ∧ amount.val + fee.val ≤ a.balance.val ∧
        (transferWithFee sender recipient amount now).run l =
          (do
            transfer sender recipient amount
            if fee.isZero then pure fee
            else
              burn sender fee
              pure fee).run l := by
  by_cases hne : sender = recipient
  · exact .inl ⟨_, by rw [transferWithFee, if_pos hne]; rfl⟩
  by_cases hz : amount.isZero = true
  · exact .inl ⟨_, by rw [transferWithFee, if_neg hne, if_pos hz]; rfl⟩
  rw [transferWithFee, if_neg hne, if_neg hz, Fallible.run_bind_of_ok (Fallible.run_get l)]
  cases hfee : l.calculateFee sender amount now with
  | error e => exact .inl ⟨e, rfl⟩
  | ok fee =>
    rw [Fallible.run_bind_of_ok (Fallible.run_ofExcept (.ok fee) l)]
    cases hcost : amount.checkedAdd fee with
    | none => exact .inl ⟨_, rfl⟩
    | some totalCost =>
      rw [RUv.checkedAdd_eq_some] at hcost
      cases ha : l.accounts.lookup sender with
      | none =>
        refine .inl ⟨.accountNotFound sender.value, Fallible.run_bind_of_error ?_⟩
        simp [getBalance, getAccount, ha, Except.map]
      | some a =>
        have hbal : l.getBalance sender = .ok a.balance := by
          simp [getBalance, getAccount, ha, Except.map]
        simp only [hbal]
        rw [Fallible.run_bind_of_ok (Fallible.run_ofExcept (.ok a.balance) l)]
        by_cases hlt : a.balance < totalCost
        · exact .inl ⟨_, by rw [if_pos hlt]; rfl⟩
        · rw [if_neg hlt]
          rw [RUv.lt_def] at hlt
          exact .inr ⟨fee, a, rfl, rfl, by omega, rfl⟩

/-! ## What the calls keep -/

section Keeps

variable {Inv : Ledger → Prop}

/-- A mint keeps what its credit and its new supply keep. -/
lemma keeps_mint_of_writes
    (hcredit : Fallible.Keeps Inv (updateAccount id (Account.credit amount)))
    (hsupply : ∀ l supply, Inv l → Inv (l.setSupply supply)) :
    Fallible.Keeps Inv (mint id amount) := by
  refine Fallible.keeps_bind (fun _ hl => hl) fun l => ?_
  split
  · exact Fallible.keeps_fail _
  · split_ifs
    · exact Fallible.keeps_fail _
    · exact Fallible.keeps_bind hcredit fun _ l hl => hsupply l _ hl

/-- A burn keeps what its debit and its lower supply keep. -/
lemma keeps_burn_of_writes
    (hdebit : Fallible.Keeps Inv (updateAccount id (Account.debit amount)))
    (hsupply : ∀ l, Inv l → Inv (l.setSupply (l.totalSupply.saturatingSub amount))) :
    Fallible.Keeps Inv (burn id amount) :=
  Fallible.keeps_bind hdebit fun _ l hl => hsupply l hl

/-- A transfer keeps what its debit and its credit keep. -/
lemma keeps_transfer_of_writes
    (hdebit : Fallible.Keeps Inv (updateAccount sender (Account.debit amount)))
    (hcredit : Fallible.Keeps Inv (updateAccount recipient (Account.credit amount))) :
    Fallible.Keeps Inv (transfer sender recipient amount) := by
  unfold transfer
  split_ifs
  · exact Fallible.keeps_fail _
  · exact Fallible.keeps_fail _
  · refine Fallible.keeps_bind (fun _ hl => hl) fun l => ?_
    refine Fallible.keeps_bind (Fallible.keeps_ofExcept _) fun _ => ?_
    refine Fallible.keeps_bind (Fallible.keeps_ofExcept _) fun _ => ?_
    exact Fallible.keeps_bind hdebit fun _ => hcredit

end Keeps

/-! ## Stable properties -/

/-- A property of ledgers that every elementary write keeps: a new balance of an account, a new
account, a new supply. -/
structure Stable (Inv : Ledger → Prop) : Prop where
  /-- A new balance keeps the property. -/
  put : ∀ l id a balance, Inv l → l.accounts.lookup id = some a →
    Inv (l.put id (a.setBalance balance))
  /-- A new account keeps the property. -/
  create : ∀ l id, Inv l → id ∉ l.accounts → Inv (l.put id (Account.new id))
  /-- A new supply keeps the property. -/
  setSupply : ∀ l supply, Inv l → Inv (l.setSupply supply)

namespace Stable

variable {Inv : Ledger → Prop}

/-- A credit keeps a stable property. -/
lemma credit (h : Stable Inv) :
    Fallible.Keeps Inv (updateAccount id (Account.credit amount)) := by
  refine Fallible.keeps_of_atomicAt (fun _ _ => credit_atomicAt) fun l _ l' hl hok => ?_
  obtain ⟨a, balance, ha, -, rfl⟩ := credit_ok_iff.mp hok
  exact h.put l id a balance hl ha

/-- A debit keeps a stable property. -/
lemma debit (h : Stable Inv) :
    Fallible.Keeps Inv (updateAccount id (Account.debit amount)) := by
  refine Fallible.keeps_of_atomicAt (fun _ _ => debit_atomicAt) fun l _ l' hl hok => ?_
  obtain ⟨a, ha, -, rfl⟩ := debit_ok_iff.mp hok
  exact h.put l id a _ hl ha

/-- The creation of an account keeps a stable property. -/
lemma createAccount (h : Stable Inv) : Fallible.Keeps Inv (createAccount id) := by
  refine Fallible.keeps_of_atomicAt (fun _ _ => createAccount_atomicAt) fun l _ l' hl hok => ?_
  obtain ⟨hid, rfl⟩ := createAccount_ok_iff.mp hok
  exact h.create l id hl hid

/-- A mint keeps a stable property. -/
lemma mint (h : Stable Inv) : Fallible.Keeps Inv (mint id amount) :=
  keeps_mint_of_writes h.credit h.setSupply

/-- A burn keeps a stable property. -/
lemma burn (h : Stable Inv) : Fallible.Keeps Inv (burn id amount) :=
  keeps_burn_of_writes h.debit fun l hl => h.setSupply l _ hl

/-- A transfer keeps a stable property. -/
lemma transfer (h : Stable Inv) : Fallible.Keeps Inv (transfer sender recipient amount) :=
  keeps_transfer_of_writes h.debit h.credit

/-- A transfer with a fee keeps a stable property. -/
lemma transferWithFee (h : Stable Inv) :
    Fallible.Keeps Inv (transferWithFee sender recipient amount now) := by
  intro l hl
  rcases transferWithFee_cases sender recipient amount now l with
    ⟨e, he⟩ | ⟨fee, a, -, -, -, hrun⟩
  · rw [he]
    exact hl
  · rw [hrun]
    refine Fallible.keeps_bind h.transfer (fun _ => ?_) l hl
    split_ifs
    · exact fun _ hl => hl
    · exact Fallible.keeps_bind h.burn fun _ _ hl => hl

end Stable

end Ledger

end QuDAG.Exchange
