import QuDAG.Exchange.Encoding

/-!
# The state machine of the exchange

The operations on the exchange state (`state.rs`): genesis, applying a transaction, rooting,
checkpoints and the integrity check. A reading of the wall clock is an argument of the operation
that reads it.

## Main definitions

* `LedgerState.genesis` — the initial state with its accounts.
* `LedgerState.executeTransaction` — what a transaction does to the ledger.
* `LedgerState.applyTransaction` — execute a transaction and record it.
* `LedgerState.updateStateRoot`, `LedgerState.createCheckpoint`, `LedgerState.verifyIntegrity`.
* `LedgerState.Operation` — a call on the state.

## Main results

* `LedgerState.run_applyTransaction` — what a call of `applyTransaction` does.
* `LedgerState.frame_applyTransaction` — what it leaves alone.

## Implementation notes

Serialization cannot fail here, so rooting and checkpointing always succeed.
-/

namespace QuDAG.Exchange

open RustStd

namespace LedgerState

/-- A new ledger state. -/
def new (chainId : UInt64) (now : Timestamp) : LedgerState where
  ledger := Ledger.new
  meter := ResourceMeter.new
  metadata := ⟨1, chainId, now, now, 0, none⟩
  recentTransactions := []
  checkpoints := []

/-- Update the state root hash. The hashed bytes contain the previous root. -/
def updateStateRoot (P : Primitives) (s : LedgerState) : LedgerState :=
  { s with metadata := { s.metadata with stateRoot := some (P.blake3 (s.toBytes P)) } }

/-- Create the initial accounts. -/
def createAccounts : List (AccountId × RUv) → Fallible Error Ledger Unit
  | [] => pure ()
  | (id, balance) :: rest => do
    Ledger.createAccount id
    if RUv.zero < balance then
      Ledger.mint id balance
      createAccounts rest
    else
      createAccounts rest

/-- The genesis state with initial accounts. -/
def genesis (P : Primitives) (chainId : UInt64) (initialAccounts : List (AccountId × RUv))
    (now : Timestamp) : Except Error LedgerState :=
  let state := new chainId now
  let outcome := (createAccounts initialAccounts).run state.ledger
  match outcome.1 with
  | .error e => .error e
  | .ok _ => .ok (updateStateRoot P { state with ledger := outcome.2 })

/-! ## Transactions -/

/-- The metered operation of a transaction type. -/
def operationType : TransactionType → OperationType
  | .transfer _ _ _ => .transfer
  | .mint _ _ => .mint
  | .burn _ _ => .burn
  | .createAccount _ _ => .createAccount
  | .updateAccount _ _ => .updateAccount

/-- The cost of a transaction: the higher of its metered cost and its fee. -/
def calculateTransactionCost (s : LedgerState) (tx : Transaction) : Except Error RUv :=
  let units := ResourceMeter.estimateTransferUnits tx.metadata.memo
  match s.meter.calculateCost (operationType tx.txType) units with
  | .error e => .error e
  | .ok meteredCost => .ok (if meteredCost < tx.fee then tx.fee else meteredCost)

/-- Deduct the fee from the sender, if there is one. -/
def deductFee (tx : Transaction) (cost : RUv) : Fallible Error Ledger Unit :=
  match tx.sender with
  | some sender => Ledger.burn sender cost
  | none => pure ()

/-- Execute the transaction type. An account update works on a copy of the account, which is
dropped. -/
def executeType : TransactionType → Fallible Error Ledger Unit
  | .transfer sender recipient amount => Ledger.transfer sender recipient amount
  | .mint recipient amount => Ledger.mint recipient amount
  | .burn sender amount => Ledger.burn sender amount
  | .createAccount account initialBalance => do
    Ledger.createAccount account
    if RUv.zero < initialBalance then Ledger.mint account initialBalance else pure ()
  | .updateAccount account publicKey => do
    let l ← Fallible.get
    let acc ← Fallible.ofExcept (l.getAccount account)
    let _copy := match publicKey with
      | some pk => acc.setPublicKey pk
      | none => acc
    pure ()

/-- Execute a transaction. -/
def executeTransaction (tx : Transaction) (cost : RUv) : Fallible Error Ledger Unit := do
  deductFee tx cost
  executeType tx.txType

/-- The most records that are kept. -/
def maxHistory : ℕ := 1000

/-- Add a transaction record to the history, and drop the oldest ones beyond the limit. -/
def addTransactionRecord (record : TransactionRecord) (s : LedgerState) : LedgerState :=
  let recent := s.recentTransactions ++ [record]
  { s with recentTransactions := recent.drop (recent.length - maxHistory) }

/-- The result that is recorded. -/
def recordedResult : Except Error Unit → TransactionResult
  | .ok _ => .success
  | .error e => .failed e.display

/-- The record of a transaction. -/
def recordOf (P : Primitives) (tx : Transaction) (startTime : Timestamp)
    (result : Except Error Unit) (cost : RUv) : TransactionRecord :=
  ⟨tx.id P, tx, startTime, recordedResult result, cost⟩

/-- The state after a transaction was executed: its ledger, its record, its metadata. -/
def afterTransaction (record : TransactionRecord) (now : Timestamp) (ledger : Ledger)
    (s : LedgerState) : LedgerState :=
  let s' := addTransactionRecord record { s with ledger := ledger }
  { s' with metadata :=
    { s'.metadata with lastUpdated := now, height := s'.metadata.height + 1 } }

/-- Apply a transaction to the state. The two times are read before and after its execution. -/
def applyTransaction (P : Primitives) (tx : Transaction) (startTime now : Timestamp) :
    Fallible Error LedgerState TransactionRecord := fun s =>
  match s.calculateTransactionCost tx with
  | .error e => (.error e, s)
  | .ok cost =>
    let outcome := (executeTransaction tx cost).run s.ledger
    let record := recordOf P tx startTime outcome.1 cost
    (outcome.1.map fun _ => record, s.afterTransaction record now outcome.2)

/-! ## Checkpoints and integrity -/

/-- The most checkpoints that are kept. -/
def maxCheckpoints : ℕ := 10

/-- The checkpoint of a state that has just been rooted. -/
def checkpointOf (P : Primitives) (now : Timestamp) (s : LedgerState) : StateCheckpoint :=
  ⟨s.metadata.height, now, P.blake3 (s.toBytes P), (s.updateStateRoot P).toBytes P⟩

/-- Create a checkpoint: root the state, take the snapshot, and keep the newest checkpoints. -/
def createCheckpoint (P : Primitives) (now : Timestamp) (s : LedgerState) :
    StateCheckpoint × LedgerState :=
  let rooted := s.updateStateRoot P
  let checkpoint := checkpointOf P now s
  let all := rooted.checkpoints ++ [checkpoint]
  (checkpoint, { rooted with checkpoints := all.drop (all.length - maxCheckpoints) })

/-- Restore a state from a checkpoint. -/
def restoreFromCheckpoint (P : Primitives) (checkpoint : StateCheckpoint) : Option LedgerState :=
  fromBytes P checkpoint.snapshot

/-- The state without its root. -/
def withoutRoot (s : LedgerState) : LedgerState :=
  { s with metadata := { s.metadata with stateRoot := none } }

/-- Verify state integrity. The list is the order in which the iteration over the accounts
happens to go. -/
def verifyIntegrity (P : Primitives) (order : List (AccountId × Account)) (s : LedgerState) :
    Except Error Unit := do
  s.ledger.checkInvariants order
  match s.metadata.stateRoot with
  | none => .ok ()
  | some expectedRoot =>
    if P.blake3 (s.withoutRoot.toBytes P) ≠ expectedRoot then
      .error (.stateCorruption "State root mismatch")
    else .ok ()

/-! ## Runs -/

/-- A call on the state. -/
inductive Operation
  /-- Apply a transaction. -/
  | applyTransaction (tx : Transaction) (startTime now : Timestamp)
  /-- Update the state root. -/
  | updateStateRoot
  /-- Create a checkpoint. -/
  | createCheckpoint (now : Timestamp)

/-- The state after a call. -/
def applyOperation (P : Primitives) (s : LedgerState) : Operation → LedgerState
  | .applyTransaction tx startTime now => ((applyTransaction P tx startTime now).run s).2
  | .updateStateRoot => s.updateStateRoot P
  | .createCheckpoint now => (s.createCheckpoint P now).2

/-! ## What a transaction does -/

variable {P : Primitives} {tx : Transaction} {startTime now : Timestamp} {s s' : LedgerState}

/-- A transaction without a cost changes nothing. -/
lemma run_applyTransaction_error {e : Error} (h : s.calculateTransactionCost tx = .error e) :
    (applyTransaction P tx startTime now).run s = (.error e, s) := by
  show applyTransaction P tx startTime now s = _
  rw [applyTransaction, h]

/-- A transaction with a cost is executed and recorded. -/
lemma run_applyTransaction {cost : RUv} (h : s.calculateTransactionCost tx = .ok cost) :
    (applyTransaction P tx startTime now).run s =
      (((executeTransaction tx cost).run s.ledger).1.map fun _ =>
          recordOf P tx startTime ((executeTransaction tx cost).run s.ledger).1 cost,
        s.afterTransaction
          (recordOf P tx startTime ((executeTransaction tx cost).run s.ledger).1 cost) now
          ((executeTransaction tx cost).run s.ledger).2) := by
  show applyTransaction P tx startTime now s = _
  rw [applyTransaction, h]

/-- The fields of the state after a transaction. -/
@[simp] lemma ledger_afterTransaction (record : TransactionRecord) (now : Timestamp)
    (ledger : Ledger) (s : LedgerState) :
    (s.afterTransaction record now ledger).ledger = ledger := rfl

/-- The ledger after a transaction. -/
lemma ledger_applyTransaction {cost : RUv} (h : s.calculateTransactionCost tx = .ok cost) :
    ((applyTransaction P tx startTime now).run s).2.ledger =
      ((executeTransaction tx cost).run s.ledger).2 := by
  rw [run_applyTransaction h]
  rfl

/-- The frame: a transaction leaves the meter and the chain id alone. -/
lemma frame_applyTransaction (P : Primitives) (tx : Transaction) (startTime now : Timestamp)
    (s : LedgerState) : ((applyTransaction P tx startTime now).run s).2.meter = s.meter ∧
      ((applyTransaction P tx startTime now).run s).2.metadata.chainId = s.metadata.chainId := by
  cases hcost : s.calculateTransactionCost tx with
  | error e =>
    rw [run_applyTransaction_error hcost]
    exact ⟨rfl, rfl⟩
  | ok cost =>
    rw [run_applyTransaction hcost]
    exact ⟨rfl, rfl⟩

end LedgerState

end QuDAG.Exchange
