import Mathlib.Algebra.Order.Ring.Int
import QuDAG.Exchange.Atomicity
import QuDAG.Exchange.Reachable

/-!
# The meaning of transactions

What a transaction is for, told on an abstract book of accounts: the sender pays the cost, which
leaves the supply, and then the type of the transaction says who gains or loses how much, which
account is opened and which key is registered. The ledger of the code is one such book, and a
transaction that is applied with success does to it what it means, except for one: an update with
a public key does not register it.

## Main definitions

* `Book` — accounts with unbounded balances, and a supply.
* `Book.charge`, `Book.perform` — paying the cost, and what a transaction type means.
* `Ledger.book` — the book that a ledger is.
* `LedgerState.Reference` — the new state is the one that the transaction means.

## Main results

* `LedgerState.book_executeTransaction` — what a successful execution does to the book.
* `LedgerState.applyTransaction_reference_iff` — from a reachable state the new state is the one
  meant iff the transaction does not register a key.
-/

namespace QuDAG.Exchange

open RustStd

/-- What a book says of an account. -/
@[ext] structure Entry where
  /-- The balance. -/
  balance : ℤ
  /-- The registered key. -/
  publicKey : Option (List UInt8)
  /-- The nonce. -/
  nonce : Nonce
  /-- The metadata. -/
  metadata : AccountMetadata

/-- A book of accounts. -/
@[ext] structure Book where
  /-- What is said of an account, if there is one. -/
  entries : AccountId → Option Entry
  /-- The amount in circulation. -/
  supply : ℤ

namespace Book

/-- Change the entry of one account. -/
def update (id : AccountId) (f : Entry → Entry) (b : Book) : Book :=
  { b with entries := fun id' => if id' = id then (b.entries id).map f else b.entries id' }

/-- Add to a balance; a negative number takes from it. -/
def add (id : AccountId) (amount : ℤ) : Book → Book :=
  update id fun e => { e with balance := e.balance + amount }

/-- Register a key. -/
def register (id : AccountId) (publicKey : List UInt8) : Book → Book :=
  update id fun e => { e with publicKey := some publicKey }

/-- Open an account that holds an amount. -/
def openAccount (id : AccountId) (amount : ℤ) (b : Book) : Book :=
  { b with entries := fun id' =>
      if id' = id then some ⟨amount, none, ⟨0⟩, ⟨AccountFlags.default⟩⟩ else b.entries id' }

/-- Add to the supply. -/
def addSupply (amount : ℤ) (b : Book) : Book := { b with supply := b.supply + amount }

/-- Take an amount out of circulation. -/
def burn (id : AccountId) (amount : ℤ) (b : Book) : Book :=
  (b.add id (-amount)).addSupply (-amount)

/-- Pay the cost of a transaction, if it has a sender. -/
def charge (sender : Option AccountId) (cost : ℤ) (b : Book) : Book :=
  match sender with
  | some id => b.burn id cost
  | none => b

/-- What a transaction type means. -/
def perform : TransactionType → Book → Book
  | .transfer sender recipient amount, b => (b.add sender (-amount.val)).add recipient amount.val
  | .mint recipient amount, b => (b.add recipient amount.val).addSupply amount.val
  | .burn sender amount, b => b.burn sender amount.val
  | .createAccount account initialBalance, b =>
    (b.openAccount account initialBalance.val).addSupply initialBalance.val
  | .updateAccount account (some publicKey), b => b.register account publicKey
  | .updateAccount _ none, b => b

variable {b : Book} {id : AccountId} {amount amount' : ℤ}

/-- An account that is opened and credited is opened with more. -/
lemma add_openAccount : (b.openAccount id amount).add id amount' =
    b.openAccount id (amount + amount') := by
  ext id' : 2
  · show (if id' = id then ((b.openAccount id amount).entries id).map _ else _) = _
    by_cases h : id' = id
    · simp [openAccount, h]
    · simp [openAccount, h]
  · rfl

/-- Adding nothing to the supply. -/
lemma addSupply_zero : b.addSupply 0 = b := by
  simp [addSupply]

end Book

/-- What a book says of an account of the code. -/
def Account.entry (a : Account) : Entry := ⟨a.balance.val, a.publicKey, a.nonce, a.metadata⟩

namespace Ledger

/-- The book that a ledger is. -/
def book (l : Ledger) : Book where
  entries id := (l.accounts.lookup id).map Account.entry
  supply := l.totalSupply.val

variable {id sender recipient : AccountId} {amount : RUv} {l l' : Ledger}

/-- A new balance is an addition of the difference. -/
lemma book_put {a : Account} (balance : RUv) (ha : l.accounts.lookup id = some a) :
    (l.put id (a.setBalance balance)).book = l.book.add id (balance.val - a.balance.val) := by
  ext id' : 2
  · show ((l.accounts.insert id (a.setBalance balance)).lookup id').map Account.entry =
      if id' = id then ((l.accounts.lookup id).map Account.entry).map _
      else (l.accounts.lookup id').map Account.entry
    rw [HashMap.lookup_insert_ite, ha]
    split_ifs
    · simp [Account.entry, Account.setBalance]
    · rfl
  · rfl

/-- A new account is opened with nothing. -/
lemma book_put_new (id : AccountId) (l : Ledger) :
    (l.put id (Account.new id)).book = l.book.openAccount id 0 := by
  ext id' : 2
  · show ((l.accounts.insert id (Account.new id)).lookup id').map Account.entry =
      if id' = id then some _ else (l.accounts.lookup id').map Account.entry
    rw [HashMap.lookup_insert_ite]
    split_ifs
    · rfl
    · rfl
  · rfl

/-- A new supply is an addition of the difference. -/
lemma book_setSupply (supply : RUv) (l : Ledger) :
    (l.setSupply supply).book = l.book.addSupply (supply.val - l.totalSupply.val) := by
  ext id' : 2
  · rfl
  · show (supply.val : ℤ) = l.totalSupply.val + (supply.val - l.totalSupply.val)
    omega

/-- A successful burn takes its amount out of circulation. -/
lemma book_burn (h : l.Conserves) (hok : (burn id amount).run l = (.ok (), l')) :
    l'.book = l.book.burn id amount.val := by
  obtain ⟨a, ha, hc, rfl⟩ := burn_ok_iff.mp hok
  have hafford := (Account.canAfford_iff.mp hc).2
  have hle := h.balance_le ha
  rw [book_setSupply, book_put _ ha, totalSupply_put, RUv.val_saturatingSub,
    RUv.val_saturatingSub, Book.burn]
  congr 2 <;> omega

/-- A successful mint adds its amount to an account and to the supply. -/
lemma book_mint (hok : (mint id amount).run l = (.ok (), l')) :
    l'.book = (l.book.add id amount.val).addSupply amount.val := by
  obtain ⟨a, balance, supply, ha, hval, hsupply, -, rfl⟩ := mint_ok_iff.mp hok
  rw [book_setSupply, book_put _ ha, totalSupply_put]
  congr 2 <;> omega

/-- A successful transfer takes its amount from one account and adds it to another. -/
lemma book_transfer (hok : (transfer sender recipient amount).run l = (.ok (), l')) :
    l'.book = (l.book.add sender (-amount.val)).add recipient amount.val := by
  obtain ⟨hne, -, a, b, balance, ha, hb, hc, hval, rfl⟩ := transfer_ok_iff.mp hok
  have hafford := (Account.canAfford_iff.mp hc).2
  rw [book_put _ ((lookup_put_of_ne _ hne.symm).trans hb), book_put _ ha,
    RUv.val_saturatingSub]
  congr 2 <;> omega

/-- No call touches what is not an account or the supply. -/
lemma stable_frame (l₀ : Ledger) : Stable fun l =>
    l.agentStatuses = l₀.agentStatuses ∧ l.config = l₀.config ∧ l.feeModel = l₀.feeModel where
  put _ _ _ _ h _ := h
  create _ _ h _ := h
  setSupply _ _ h := h

end Ledger

namespace LedgerState

variable {P : Primitives} {tx : Transaction} {startTime now : Timestamp} {s s' : LedgerState}
  {l l₁ l' : Ledger} {cost : RUv} {record : TransactionRecord}

/-- The transaction registers a public key. -/
def RegistersKey (tx : Transaction) : Prop :=
  ∃ account publicKey, tx.txType = .updateAccount account (some publicKey)

/-- What an execution performs of a transaction type: all but the registration of a key. -/
def performed (txType : TransactionType) (b : Book) : Book :=
  match txType with
  | .updateAccount _ _ => b
  | other => b.perform other

/-- A successful deduction of the fee charges the sender. -/
lemma book_deductFee (h : l.Conserves) (hok : (deductFee tx cost).run l = (.ok (), l')) :
    l'.Conserves ∧ l'.book = l.book.charge tx.sender cost.val := by
  unfold deductFee at hok
  cases hs : tx.sender with
  | none =>
    rw [hs] at hok
    obtain rfl : l = l' := (Prod.mk.inj hok).2
    exact ⟨h, rfl⟩
  | some sender =>
    rw [hs] at hok
    exact ⟨h.burn hok, Ledger.book_burn h hok⟩

/-- A successful execution of the type performs it, up to the registration of a key. -/
lemma book_executeType {txType : TransactionType} (h : l.Conserves)
    (hok : (executeType txType).run l = (.ok (), l')) : l'.book = performed txType l.book := by
  cases txType with
  | transfer sender recipient amount => exact Ledger.book_transfer hok
  | mint recipient amount => exact Ledger.book_mint hok
  | burn sender amount => exact Ledger.book_burn h hok
  | createAccount account initialBalance =>
    obtain ⟨_, l₁, hcreate, hmint⟩ := Fallible.run_bind_ok.mp hok
    obtain ⟨-, rfl⟩ := Ledger.createAccount_ok_iff.mp hcreate
    show _ = (l.book.openAccount account initialBalance.val).addSupply initialBalance.val
    split_ifs at hmint with hlt
    · rw [Ledger.book_mint hmint, Ledger.book_put_new, Book.add_openAccount, zero_add]
    · obtain rfl : l.put account (Account.new account) = l' := (Prod.mk.inj hmint).2
      have hzero : initialBalance.val = 0 := by
        rw [RUv.lt_def, RUv.val_zero] at hlt
        omega
      rw [Ledger.book_put_new, hzero, Nat.cast_zero, Book.addSupply_zero]
  | updateAccount account publicKey =>
    obtain ⟨_, l₁, hget, hrest⟩ := Fallible.run_bind_ok.mp hok
    obtain ⟨_, l₂, haccount, hrest⟩ := Fallible.run_bind_ok.mp hrest
    obtain rfl : l = l₁ := (Prod.mk.inj hget).2
    obtain rfl : l = l₂ := (Prod.mk.inj haccount).2
    obtain rfl : l = l' := (Prod.mk.inj hrest).2
    rfl

/-- **The effect of a transaction**: a successful execution charges the sender and performs the
type, up to the registration of a key. -/
theorem book_executeTransaction (h : l.Conserves)
    (hok : (executeTransaction tx cost).run l = (.ok (), l')) :
    l'.book = performed tx.txType (l.book.charge tx.sender cost.val) := by
  obtain ⟨_, l₁, hfee, htype⟩ := Fallible.run_bind_ok.mp hok
  obtain ⟨h₁, hcharge⟩ := book_deductFee h hfee
  rw [book_executeType h₁ htype, hcharge]

/-- An account that is updated with success is in the book after the fee. -/
lemma exists_entry_of_updateAccount {account : AccountId} {publicKey : Option (List UInt8)}
    (htype : tx.txType = .updateAccount account publicKey)
    (hok : (executeTransaction tx cost).run l = (.ok (), l')) :
    ∃ a, l'.accounts.lookup account = some a := by
  obtain ⟨_, l₁, hfee, hrest⟩ := Fallible.run_bind_ok.mp hok
  rw [htype] at hrest
  obtain ⟨_, l₂, hget, hrest⟩ := Fallible.run_bind_ok.mp hrest
  obtain ⟨a, l₃, haccount, hrest⟩ := Fallible.run_bind_ok.mp hrest
  obtain ⟨hstate, rfl⟩ := Prod.mk.inj hget
  obtain rfl := Except.ok.inj hstate
  obtain ⟨hlookup, rfl⟩ := Prod.mk.inj haccount
  obtain rfl := (Prod.mk.inj hrest).2
  exact ⟨a, Ledger.getAccount_eq_ok.mp hlookup⟩

/-- The cost is the larger of the fee and the metered cost. -/
lemma calculateTransactionCost_eq_ok (h : s.calculateTransactionCost tx = .ok cost) :
    ∃ metered, s.meter.calculateCost (operationType tx.txType)
        (ResourceMeter.estimateTransferUnits tx.metadata.memo) = .ok metered ∧
      cost.val = max tx.fee.val metered.val := by
  unfold calculateTransactionCost at h
  simp only at h
  cases hm : s.meter.calculateCost (operationType tx.txType)
      (ResourceMeter.estimateTransferUnits tx.metadata.memo) with
  | error e =>
    rw [hm] at h
    simp at h
  | ok metered =>
    rw [hm] at h
    refine ⟨metered, rfl, ?_⟩
    rw [← Except.ok.inj h]
    split_ifs with hlt
    · rw [RUv.lt_def] at hlt
      omega
    · rw [RUv.lt_def] at hlt
      omega

/-- The new state is the one that the transaction means. -/
structure Reference (P : Primitives) (tx : Transaction) (record : TransactionRecord)
    (s s' : LedgerState) : Prop where
  /-- The record is that of a success of this transaction. -/
  record_eq : record.id = tx.id P ∧ record.transaction = tx ∧ record.result = .success
  /-- The cost is the larger of the fee and the metered cost. -/
  cost_eq : ∃ metered, s.meter.calculateCost (operationType tx.txType)
      (ResourceMeter.estimateTransferUnits tx.metadata.memo) = .ok metered ∧
    record.cost.val = max tx.fee.val metered.val
  /-- The sender has paid the cost and the transaction was performed, and no other account,
  balance, key or amount in circulation has changed. -/
  book_eq : s'.ledger.book = (s.ledger.book.charge tx.sender record.cost.val).perform tx.txType
  /-- Nothing else has changed in the ledger. -/
  frame : s'.ledger.agentStatuses = s.ledger.agentStatuses ∧
    s'.ledger.config = s.ledger.config ∧ s'.ledger.feeModel = s.ledger.feeModel
  /-- The height has grown by one. -/
  height_eq : s'.metadata.height = s.metadata.height + 1
  /-- The history has gained the record. -/
  history : ∃ dropped, dropped ++ s'.recentTransactions = s.recentTransactions ++ [record]
  /-- The oldest records were dropped only beyond the limit. -/
  history_length : s'.recentTransactions.length = min 1000 (s.recentTransactions.length + 1)

/-- A successful call executed the transaction with success. -/
lemma applyTransaction_ok (h : (applyTransaction P tx startTime now).run s = (.ok record, s')) :
    ∃ cost l', s.calculateTransactionCost tx = .ok cost ∧
      (executeTransaction tx cost).run s.ledger = (.ok (), l') ∧
      record = recordOf P tx startTime (.ok ()) cost ∧ s' = s.afterTransaction record now l' := by
  cases hcost : s.calculateTransactionCost tx with
  | error e =>
    rw [run_applyTransaction_error hcost] at h
    simp at h
  | ok cost =>
    rw [run_applyTransaction hcost] at h
    rcases Fallible.run_cases (executeTransaction tx cost) s.ledger with
      ⟨_, l', hok⟩ | ⟨e, l', herr⟩
    · rw [hok] at h
      obtain ⟨hrecord, rfl⟩ := Prod.mk.inj h
      obtain rfl := Except.ok.inj hrecord
      exact ⟨cost, l', rfl, hok, rfl, rfl⟩
    · rw [herr] at h
      simp [Except.map] at h

/-- Without a registration the type is performed as it is meant. -/
lemma performed_of_not_registersKey (h : ¬ RegistersKey tx) (b : Book) :
    performed tx.txType b = b.perform tx.txType := by
  unfold performed
  split
  · next account publicKey heq =>
    cases publicKey with
    | none =>
      rw [heq]
      rfl
    | some key => exact absurd ⟨account, key, heq⟩ h
  · rfl

/-- **The meaning of transactions**: from a state reached from genesis, a transaction that is
applied with success leads to the state that it means iff it does not register a public key.

**Proof sketch.** The balances add up to the supply, so a burn never saturates and the exact
amounts of the book are those of the ledger. An update works on a copy of the account; no account
of a reachable state has a key, so the key that the transaction registers is missing after it. -/
theorem applyTransaction_reference_iff (hs : Reached P s)
    (hok : (applyTransaction P tx startTime now).run s = (.ok record, s')) :
    Reference P tx record s s' ↔ ¬ RegistersKey tx := by
  obtain ⟨cost, l', hcost, hexecute, rfl, rfl⟩ := applyTransaction_ok hok
  have hbook := book_executeTransaction hs.sound.conserves hexecute
  constructor
  · rintro h ⟨account, publicKey, htype⟩
    obtain ⟨a, ha⟩ := exists_entry_of_updateAccount htype hexecute
    have hkeyless := Ledger.stable_keyless.callsKeep.executeTransaction tx cost _
      hs.sound.keyless
    rw [hexecute] at hkeyless
    have hentry := congrFun (congrArg Book.entries h.book_eq) account
    rw [htype] at hentry
    -- the registered key is `none`, and the transaction means `some publicKey`
    have hkey := congrArg (Option.map Entry.publicKey) hentry
    rw [ledger_afterTransaction] at hkey
    simp [Ledger.book, ha, Account.entry, hkeyless account a ha, Book.perform, Book.register,
      Book.update, eq_comm] at hkey
  · intro h
    have hframe := (Ledger.stable_frame s.ledger).callsKeep.executeTransaction tx cost s.ledger
      ⟨rfl, rfl, rfl⟩
    rw [hexecute] at hframe
    exact ⟨⟨rfl, rfl, rfl⟩, calculateTransactionCost_eq_ok hcost,
      hbook.trans (performed_of_not_registersKey h _), hframe, rfl,
      exists_dropped _ now l' s, length_recentTransactions_afterTransaction _ now l' s⟩

/-! ## A key that is not registered -/

/-- The genesis state with one account, which holds 1000. -/
def fundedGenesis : LedgerState :=
  updateStateRoot Primitives.toy { new 1 ⟨0⟩ with ledger := fundedLedger }

/-- An update of the account with a public key. -/
def keyRegistration : Transaction where
  txType := .updateAccount ⟨"alice"⟩ (some [1, 2, 3])
  nonce := ⟨1⟩
  timestamp := ⟨0⟩
  fee := ⟨5⟩
  expiresAt := none
  signature := none
  metadata := TransactionMetadata.default

lemma reached_fundedGenesis : Reached Primitives.toy fundedGenesis :=
  ⟨1, [(⟨"alice"⟩, ⟨1000⟩)], ⟨0⟩, fundedGenesis, [], rfl, rfl⟩

/-- A burn of 100 with a fee of 5. -/
def tokenBurn : Transaction := { keyRegistration with txType := .burn ⟨"alice"⟩ ⟨100⟩ }

/-- The state after the burn. -/
def afterTokenBurn : LedgerState :=
  ((applyTransaction Primitives.toy tokenBurn ⟨0⟩ ⟨0⟩).run fundedGenesis).2

/-- The burn leads to the state that it means. -/
theorem applyTransaction_reference_tokenBurn :
    Reference Primitives.toy tokenBurn (recordOf Primitives.toy tokenBurn ⟨0⟩ (.ok ()) ⟨5⟩)
      fundedGenesis afterTokenBurn := by
  have hok : (applyTransaction Primitives.toy tokenBurn ⟨0⟩ ⟨0⟩).run fundedGenesis =
      (.ok (recordOf Primitives.toy tokenBurn ⟨0⟩ (.ok ()) ⟨5⟩), afterTokenBurn) := rfl
  refine (applyTransaction_reference_iff reached_fundedGenesis hok).mpr ?_
  rintro ⟨account, publicKey, htype⟩
  simp [tokenBurn] at htype

/-- A transaction that is applied with success may not lead to the state that it means. -/
theorem not_applyTransaction_reference :
    ¬ ∀ (P : Primitives) (s s' : LedgerState) (tx : Transaction) (startTime now : Timestamp)
      (record : TransactionRecord), Reached P s →
      (applyTransaction P tx startTime now).run s = (.ok record, s') →
      Reference P tx record s s' := by
  intro h
  have hbook := (h Primitives.toy fundedGenesis _ keyRegistration ⟨0⟩ ⟨0⟩ _
    reached_fundedGenesis rfl).book_eq
  have hentry := congrArg (fun b : Book => (b.entries ⟨"alice"⟩).map Entry.publicKey) hbook
  have hkey : (none : Option (List UInt8)) = some [1, 2, 3] := Option.some.inj hentry
  simp at hkey

end LedgerState

end QuDAG.Exchange
