import QuDAG.Exchange.Ledger
import QuDAG.Exchange.Metering
import QuDAG.Exchange.Transaction

/-!
# The state and its serialization

The data of the exchange state (`state.rs`) and its bytes. The serialization attributes of the
code decide what is written: the accounts, the agent statuses and the fee model of the ledger are
skipped, and the transaction history is left out when it is empty, although the reader always
expects it.

## Main definitions

* `LedgerState` — the state, with its metadata, history and checkpoints.
* `LedgerState.toBytes`, `LedgerState.fromBytes`.
* `LedgerState.Fits` — the lengths fit their prefixes.

## Main results

* `LedgerState.fromBytes_toBytes` — a state with a history is read back without its skipped parts.
* `LedgerState.fromBytes_toBytes_of_nil` — a state without a history is never read back with an
  empty one.
* `LedgerState.toBytes_inj` — what the bytes determine.

## Implementation notes

The height is an unbounded number here; `Fits` has the bound of its 64-bit counter. A byte string
that is not read is `none`: the text of that error is the deserializer's.
-/

namespace QuDAG.Exchange

open RustStd

/-- State metadata. -/
structure StateMetadata where
  /-- State version for migrations. -/
  version : UInt32
  /-- Chain ID. -/
  chainId : UInt64
  /-- Genesis timestamp. -/
  genesisTime : Timestamp
  /-- Last update timestamp. -/
  lastUpdated : Timestamp
  /-- Current block/round height. -/
  height : ℕ
  /-- State root hash. -/
  stateRoot : Option Hash
  deriving DecidableEq

/-- Result of transaction execution. -/
inductive TransactionResult
  /-- Transaction succeeded. -/
  | success
  /-- Transaction failed with error. -/
  | failed (message : String)
  /-- Transaction reverted (state unchanged). -/
  | reverted (message : String)
  deriving DecidableEq

/-- Record of a processed transaction. -/
structure TransactionRecord where
  /-- Transaction ID. -/
  id : TransactionId
  /-- The transaction. -/
  transaction : Transaction
  /-- Execution timestamp. -/
  executedAt : Timestamp
  /-- Execution result. -/
  result : TransactionResult
  /-- Resource cost. -/
  cost : RUv
  deriving DecidableEq

/-- State checkpoint for recovery. -/
structure StateCheckpoint where
  /-- Checkpoint height. -/
  height : ℕ
  /-- Checkpoint timestamp. -/
  timestamp : Timestamp
  /-- State root at this checkpoint. -/
  stateRoot : Hash
  /-- Serialized state snapshot. -/
  snapshot : List UInt8
  deriving DecidableEq

/-- Main ledger state containing all exchange data. -/
structure LedgerState where
  /-- The ledger with account balances. -/
  ledger : Ledger
  /-- Resource meter for tracking costs. -/
  meter : ResourceMeter
  /-- State metadata. -/
  metadata : StateMetadata
  /-- Transaction history (limited to recent). -/
  recentTransactions : List TransactionRecord
  /-- Checkpoint history. -/
  checkpoints : List StateCheckpoint

/-! ## Tables by operation type -/

namespace OperationType

/-- The operation types in the order of the enumeration. -/
def all : List OperationType :=
  [transfer, mint, burn, createAccount, updateAccount, storeData, executeComputation,
    verifySignature, queryBalance, queryTransaction]

/-- The number of an operation type. -/
def toNumber (operation : OperationType) : ℕ := all.idxOf operation

/-- An operation type is written as its number. -/
def codec : Codec OperationType := (Codec.word 4).refine (fun n => all[n]?) toNumber

lemma valid_codec (operation : OperationType) : codec.Valid operation := by
  cases operation <;> exact ⟨by show _ < 256 ^ 4; decide, by decide⟩

variable {α : Type}

/-- The entries of a table in order. -/
def entries (table : OperationType → Option α) : List (OperationType × α) :=
  all.filterMap fun operation => (table operation).map fun a => (operation, a)

/-- The table with one more entry, which replaces an earlier one. -/
def putEntry (table : OperationType → Option α) (entry : OperationType × α) :
    OperationType → Option α := fun operation =>
  if operation = entry.1 then some entry.2 else table operation

/-- The table with the given entries. -/
def ofEntries (l : List (OperationType × α)) : OperationType → Option α :=
  l.foldl putEntry fun _ => none

/-- Filling in entries changes the table at their operation types. -/
lemma foldl_putEntry_filterMap (table : OperationType → Option α) (operation : OperationType) :
    ∀ {ops : List OperationType} {start : OperationType → Option α}, ops.Nodup →
      (ops.filterMap fun o => (table o).map fun a => (o, a)).foldl putEntry start operation =
      if operation ∈ ops ∧ (table operation).isSome then table operation else start operation := by
  intro ops
  induction ops with
  | nil => simp
  | cons o ops ih =>
    intro start hnd
    obtain ⟨hmem, hnd⟩ := List.nodup_cons.mp hnd
    cases ho : table o with
    | none =>
      rw [List.filterMap_cons_none (by rw [ho]; rfl), ih hnd]
      by_cases heq : operation = o
      · simp [heq, ho]
      · simp [heq]
    | some a =>
      rw [List.filterMap_cons_some (by rw [ho]; rfl), List.foldl_cons, ih hnd]
      by_cases heq : operation = o
      · subst heq
        simp [hmem, ho, putEntry]
      · simp [heq, putEntry]

/-- A table is rebuilt from its entries. -/
lemma ofEntries_entries (table : OperationType → Option α) : ofEntries (entries table) = table := by
  funext operation
  have hall : operation ∈ all := by cases operation <;> decide
  unfold ofEntries entries
  rw [foldl_putEntry_filterMap table operation (by decide)]
  cases h : table operation with
  | none => simp
  | some a => simp [hall]

/-- A table is written as its entries. -/
def tableCodec (c : Codec α) : Codec (OperationType → Option α) :=
  (codec.pair c).list.refine (fun l => some (ofEntries l)) entries

lemma valid_tableCodec (c : Codec α) (hc : ∀ a, c.Valid a) (table : OperationType → Option α) :
    (tableCodec c).Valid table := by
  refine ⟨⟨?_, fun e _ => ⟨valid_codec e.1, hc e.2⟩⟩, congrArg some (ofEntries_entries table)⟩
  have hle : (entries table).length ≤ all.length := List.length_filterMap_le _ _
  exact lt_of_le_of_lt hle (by decide)

end OperationType

/-! ## Records -/

/-- The fields of an operation cost. -/
def OperationCost.codec : Codec OperationCost :=
  (RUv.codec.pair (RUv.codec.pair (RUv.codec.pair Codec.u64))).refine
    (fun p => some ⟨p.1, p.2.1, p.2.2.1, p.2.2.2⟩)
    fun c => (c.baseCost, c.perUnitCost, c.minFee, c.maxUnits)

/-- The fields of the usage statistics. -/
def UsageStatistics.codec : Codec UsageStatistics :=
  (Codec.u64.pair (RUv.codec.pair ((OperationType.tableCodec Codec.u64).pair
    (OperationType.tableCodec RUv.codec)))).refine
    (fun p => some ⟨p.1, p.2.1, p.2.2.1, p.2.2.2⟩)
    fun u => (u.totalOperations, u.totalRuvConsumed, u.operationsByType, u.ruvByType)

/-- The fields of the resource meter; the multiplier is written as its bits. -/
def ResourceMeter.codec : Codec ResourceMeter :=
  ((OperationType.tableCodec OperationCost.codec).pair (Codec.u64.pair
    UsageStatistics.codec)).refine
    (fun p => some ⟨p.1, ⟨p.2.1⟩, p.2.2⟩)
    fun m => (m.costTable, m.costMultiplier.bits, m.usageStats)

/-- The fields of the ledger configuration. -/
def LedgerConfig.codec : Codec LedgerConfig :=
  (RUv.codec.pair (RUv.codec.pair Codec.bool)).refine
    (fun p => some ⟨p.1, p.2.1, p.2.2⟩) fun c => (c.minBalance, c.maxSupply, c.allowNegative)

namespace Ledger

/-- The fields of the ledger that are written: its supply and its configuration. -/
def written (l : Ledger) : RUv × LedgerConfig := (l.totalSupply, l.config)

/-- The ledger that is read: the skipped fields have their default values. -/
def ofWritten (p : RUv × LedgerConfig) : Ledger := ⟨∅, ∅, p.1, p.2, none⟩

/-- The format of the written fields. -/
def codec : Codec (RUv × LedgerConfig) := RUv.codec.pair LedgerConfig.codec

end Ledger

/-- The fields of the state metadata. -/
def StateMetadata.codec : Codec StateMetadata :=
  (Codec.u32.pair (Codec.u64.pair (Timestamp.codec.pair (Timestamp.codec.pair
    ((Codec.word 8).pair Hash.codec.option))))).refine
    (fun p => some ⟨p.1, p.2.1, p.2.2.1, p.2.2.2.1, p.2.2.2.2.1, p.2.2.2.2.2⟩)
    fun m => (m.version, m.chainId, m.genesisTime, m.lastUpdated, m.height, m.stateRoot)

/-- A result is written as its number and its text. -/
def TransactionResult.codec : Codec TransactionResult :=
  Codec.variant
    (fun
      | .success => 0
      | .failed _ => 1
      | .reverted _ => 2)
    (fun
      | 0 => Codec.const .success
      | 1 => Codec.string.case .failed fun
          | .failed message => some message
          | _ => none
      | 2 => Codec.string.case .reverted fun
          | .reverted message => some message
          | _ => none
      | _ => Codec.reject)

/-- The fields of a transaction record. -/
def TransactionRecord.codec : Codec TransactionRecord :=
  (Hash.codec.pair (Transaction.codec.pair (Timestamp.codec.pair (TransactionResult.codec.pair
    RUv.codec)))).refine
    (fun p => some ⟨⟨p.1⟩, p.2.1, p.2.2.1, p.2.2.2.1, p.2.2.2.2⟩)
    fun r => (r.id.hash, r.transaction, r.executedAt, r.result, r.cost)

/-- The fields of a checkpoint; the snapshot is written as base64 text. -/
def StateCheckpoint.codec (P : Primitives) : Codec StateCheckpoint :=
  ((Codec.word 8).pair (Timestamp.codec.pair (Hash.codec.pair
    (Codec.string.refine P.decodeBase64 P.encodeBase64)))).refine
    (fun p => some ⟨p.1, p.2.1, p.2.2.1, p.2.2.2⟩)
    fun c => (c.height, c.timestamp, c.stateRoot, c.snapshot)

namespace LedgerState

/-- The format of the part that is always written in front. -/
def headCodec : Codec ((RUv × LedgerConfig) × ResourceMeter × StateMetadata) :=
  Ledger.codec.pair (ResourceMeter.codec.pair StateMetadata.codec)

/-- The part that is always written in front. -/
def head (s : LedgerState) : (RUv × LedgerConfig) × ResourceMeter × StateMetadata :=
  (s.ledger.written, s.meter, s.metadata)

/-- The bytes of the transaction history: nothing when it is empty. -/
def historyBytes (records : List TransactionRecord) : List UInt8 :=
  match records with
  | [] => []
  | _ => TransactionRecord.codec.list.encode records

/-- Serialize the state to bytes. -/
def toBytes (P : Primitives) (s : LedgerState) : List UInt8 :=
  headCodec.encode s.head ++
    (historyBytes s.recentTransactions ++ (StateCheckpoint.codec P).list.encode s.checkpoints)

/-- Deserialize a state from bytes. Bytes after the state are ignored. -/
def fromBytes (P : Primitives) (bytes : List UInt8) : Option LedgerState := do
  let (head, rest) ← headCodec.decode bytes
  let (records, rest') ← TransactionRecord.codec.list.decode rest
  let (checkpoints, _) ← (StateCheckpoint.codec P).list.decode rest'
  some ⟨Ledger.ofWritten head.1, head.2.1, head.2.2, records, checkpoints⟩

/-- The lengths of the state fit their prefixes and the counters their width, as they do for
every state in memory. -/
structure Fits (P : Primitives) (s : LedgerState) : Prop where
  /-- The height fits in 64 bits. -/
  head : headCodec.Valid s.head
  /-- The strings and byte vectors of the history are not too long. -/
  recentTransactions : TransactionRecord.codec.list.Valid s.recentTransactions
  /-- The snapshots are not too long. -/
  checkpoints : (StateCheckpoint.codec P).list.Valid s.checkpoints

/-- The state without the parts that are not written. -/
def withoutSkipped (s : LedgerState) : LedgerState :=
  { s with ledger := Ledger.ofWritten s.ledger.written }

variable {P : Primitives} {s t : LedgerState}

/-- The front part fits as soon as the height does. -/
lemma valid_head_iff : headCodec.Valid s.head ↔ s.metadata.height < 2 ^ 64 := by
  have hledger : Ledger.codec.Valid s.ledger.written := by
    simp [Ledger.codec, LedgerConfig.codec]
  have hcost : ∀ c : OperationCost, OperationCost.codec.Valid c := by
    simp [OperationCost.codec]
  have hmeter : ResourceMeter.codec.Valid s.meter := by
    simp [ResourceMeter.codec, UsageStatistics.codec,
      OperationType.valid_tableCodec OperationCost.codec hcost,
      OperationType.valid_tableCodec Codec.u64 Codec.valid_u64,
      OperationType.valid_tableCodec RUv.codec RUv.valid_codec]
  have hmetadata : StateMetadata.codec.Valid s.metadata ↔ s.metadata.height < 2 ^ 64 := by
    simp [StateMetadata.codec, Codec.valid_option_iff, Codec.word]
  show Ledger.codec.Valid s.ledger.written ∧ ResourceMeter.codec.Valid s.meter ∧
    StateMetadata.codec.Valid s.metadata ↔ _
  rw [hmetadata]
  exact ⟨fun h => h.2.2, fun h => ⟨hledger, hmeter, h⟩⟩

/-- A state with a history is read back, without the skipped parts of its ledger. -/
theorem fromBytes_toBytes (hfits : s.Fits P) (hhistory : s.recentTransactions ≠ []) :
    fromBytes P (s.toBytes P) = some s.withoutSkipped := by
  have hbytes : historyBytes s.recentTransactions =
      TransactionRecord.codec.list.encode s.recentTransactions := by
    unfold historyBytes
    split
    · contradiction
    · rfl
  have hlast := (StateCheckpoint.codec P).list.decode_encode s.checkpoints [] hfits.checkpoints
  rw [List.append_nil] at hlast
  unfold fromBytes toBytes
  simp only [hbytes, headCodec.decode_encode _ _ hfits.head, Option.bind_eq_bind,
    Option.bind_some, TransactionRecord.codec.list.decode_encode _ _ hfits.recentTransactions,
    hlast]
  rfl

/-- A state without a history is never read back with an empty one: the reader takes the
checkpoints for the history, and where there are none it reaches the end of the input. -/
theorem fromBytes_toBytes_of_nil (hfits : s.Fits P) (hhistory : s.recentTransactions = [])
    (h : fromBytes P (s.toBytes P) = some t) : t.recentTransactions ≠ [] := by
  intro hnil
  unfold fromBytes toBytes at h
  simp only [hhistory, historyBytes, List.nil_append, headCodec.decode_encode _ _ hfits.head,
    Option.bind_eq_bind, Option.bind_some] at h
  obtain ⟨⟨records, rest⟩, hrecords, h⟩ := Option.bind_eq_some_iff.mp h
  obtain ⟨⟨checkpoints, rest'⟩, hcheckpoints, h⟩ := Option.bind_eq_some_iff.mp h
  obtain rfl := Option.some.inj h
  obtain rfl : records = [] := hnil
  -- the prefix of the checkpoints was read as that of the history
  have hlen := Codec.length_of_decode_list _ hfits.checkpoints.1 hrecords
  have hempty : s.checkpoints = [] := List.length_eq_zero_iff.mp hlen.symm
  have hread := TransactionRecord.codec.list.decode_encode [] [] ⟨by decide, by simp⟩
  have hsame : TransactionRecord.codec.list.encode [] ++ [] =
      (StateCheckpoint.codec P).list.encode s.checkpoints := by
    rw [hempty]
    rfl
  rw [hsame, hrecords] at hread
  obtain ⟨-, rfl⟩ := Prod.mk.inj (Option.some.inj hread)
  exact absurd hcheckpoints (by simp [Codec.list, Codec.word, Codec.readWord])

/-- The bytes determine the written parts of a state, as far as it is known whether it has a
history. -/
theorem toBytes_inj (hs : s.Fits P) (ht : t.Fits P)
    (hhistory : s.recentTransactions = [] ↔ t.recentTransactions = [])
    (h : s.toBytes P = t.toBytes P) :
    s.withoutSkipped = t.withoutSkipped := by
  obtain ⟨hhead, hrest⟩ := headCodec.encode_append_inj hs.head ht.head h
  have hparts : s.recentTransactions = t.recentTransactions ∧ s.checkpoints = t.checkpoints := by
    have hcheckpoints : ∀ {rest rest'}, (StateCheckpoint.codec P).list.encode s.checkpoints ++ rest
        = (StateCheckpoint.codec P).list.encode t.checkpoints ++ rest' →
        s.checkpoints = t.checkpoints := fun heq =>
      ((StateCheckpoint.codec P).list.encode_append_inj hs.checkpoints ht.checkpoints heq).1
    cases hrs : s.recentTransactions with
    | nil =>
      have hrt := hhistory.mp hrs
      rw [hrs, hrt] at hrest
      exact ⟨hrt.symm, hcheckpoints (congrArg (· ++ []) hrest)⟩
    | cons r rs =>
      cases hrt : t.recentTransactions with
      | nil => exact absurd (hhistory.mpr hrt) (by simp [hrs])
      | cons r' rs' =>
        have hvs := hs.recentTransactions
        have hvt := ht.recentTransactions
        rw [hrs] at hvs hrest
        rw [hrt] at hvt hrest
        obtain ⟨hrecords, hlast⟩ :=
          TransactionRecord.codec.list.encode_append_inj hvs hvt hrest
        exact ⟨hrecords, hcheckpoints (congrArg (· ++ []) hlast)⟩
  unfold withoutSkipped
  obtain ⟨hledger, hmeter, hmetadata⟩ : s.ledger.written = t.ledger.written ∧
      s.meter = t.meter ∧ s.metadata = t.metadata := by
    simpa [head] using hhead
  rw [hledger, hmeter, hmetadata, hparts.1, hparts.2]

end LedgerState

end QuDAG.Exchange
