import QuDAG.Exchange.Reachable
import QuDAG.Lib.Framing

/-!
# How long snapshots are

The snapshot of a checkpoint is the serialized state (`create_checkpoint` in `state.rs`), and the
state contains the checkpoints that are stored. So a snapshot is as long as the contents of the
state where none is stored, and otherwise contains the text of the earlier snapshots. Dropping the
oldest checkpoints does not help: they are inside those that are kept.

## Main definitions

* `LedgerState.contentSize` — the serialized size of what a snapshot is about.
* `LedgerState.Proportionate` — a step that takes no snapshot, or one within a linear function of
  that size.

## Main results

* `LedgerState.length_snapshot` — how long a snapshot is.
* `LedgerState.proportionate_iff` — which runs take snapshots no longer than the contents and a
  constant.
* `LedgerState.exists_le_length_snapshot` — how snapshots of one state grow.
-/

namespace QuDAG.Exchange

open RustStd

namespace LedgerState

variable {P : Primitives} {s s₀ : LedgerState}

/-- The serialized size of the ledger, the metadata and the transaction history. -/
def contentSize (s : LedgerState) : ℕ :=
  (Ledger.codec.encode s.ledger.written).length +
    (StateMetadata.codec.encode s.metadata).length + (historyBytes s.recentTransactions).length

/-- What else is written: the resource meter, and the number of checkpoints. -/
def overhead : ℕ := (ResourceMeter.codec.encode ResourceMeter.new).length + 8

/-- The bytes of the checkpoints. -/
def checkpointBytes (P : Primitives) (s : LedgerState) : List UInt8 :=
  s.checkpoints.flatMap (StateCheckpoint.codec P).encode

/-- A step that creates no checkpoint, or one whose snapshot is within a linear function of the size
of the contents. -/
def Proportionate (P : Primitives) (slope offset : ℕ) (s : LedgerState) : Operation → Prop
  | .createCheckpoint now =>
    (s.createCheckpoint P now).1.snapshot.length ≤
      slope * (s.createCheckpoint P now).2.contentSize + offset
  | _ => True

/-- A step that creates no checkpoint, or one where none is stored. -/
def FirstCheckpoint (s : LedgerState) : Operation → Prop
  | .createCheckpoint _ => s.checkpoints = []
  | _ => True

/-! ## One snapshot -/

/-- The bytes of a state by what they are about. -/
lemma length_toBytes (P : Primitives) (s : LedgerState) :
    (s.toBytes P).length = s.contentSize + (ResourceMeter.codec.encode s.meter).length + 8 +
      (s.checkpointBytes P).length := by
  have hhead : headCodec.encode s.head = Ledger.codec.encode s.ledger.written ++
      (ResourceMeter.codec.encode s.meter ++ StateMetadata.codec.encode s.metadata) := rfl
  have hcheckpoints : (StateCheckpoint.codec P).list.encode s.checkpoints =
      Codec.wordBytes 8 s.checkpoints.length ++ s.checkpointBytes P := rfl
  rw [toBytes, hhead, hcheckpoints, contentSize]
  simp only [List.length_append, Framing.length_wordBytes]
  omega

/-- **How long a snapshot is**: the contents, the meter, and the checkpoints stored before. -/
lemma length_snapshot (P : Primitives) (now : Timestamp) (s : LedgerState) :
    (s.createCheckpoint P now).1.snapshot.length =
      (s.createCheckpoint P now).2.contentSize + (ResourceMeter.codec.encode s.meter).length + 8 +
        (s.checkpointBytes P).length :=
  length_toBytes P (s.updateStateRoot P)

/-- Bytes are written as they are. -/
lemma length_flatMap_u8 (bytes : List UInt8) :
    (bytes.flatMap Codec.u8.encode).length = bytes.length := by
  induction bytes with
  | nil => rfl
  | cons b bytes ih =>
    rw [List.flatMap_cons, List.length_append, ih, List.length_cons, Nat.add_comm]
    rfl

/-- The bytes of a hash. -/
lemma length_encode_hash (hash : Hash) : (Hash.codec.encode hash).length = 32 :=
  (length_flatMap_u8 hash.bytes).trans hash.length_eq

/-- The bytes of a checkpoint: 56 and the text of the snapshot. -/
lemma length_encode_checkpoint (P : Primitives) (checkpoint : StateCheckpoint) :
    ((StateCheckpoint.codec P).encode checkpoint).length =
      56 + (Bytes.ofString (P.encodeBase64 checkpoint.snapshot)).length := by
  have hencode : (StateCheckpoint.codec P).encode checkpoint =
      Codec.wordBytes 8 checkpoint.height ++ (Codec.wordBytes 8 checkpoint.timestamp.millis.toNat ++
        (Hash.codec.encode checkpoint.stateRoot ++ (Codec.wordBytes 8
          (Bytes.ofString (P.encodeBase64 checkpoint.snapshot)).length ++
          (Bytes.ofString (P.encodeBase64 checkpoint.snapshot)).flatMap Codec.u8.encode))) := rfl
  rw [hencode]
  simp only [List.length_append, Framing.length_wordBytes, length_encode_hash, length_flatMap_u8]
  omega

/-- Stored checkpoints have bytes. -/
lemma checkpointBytes_eq_nil : s.checkpointBytes P = [] ↔ s.checkpoints = [] := by
  have hpos : ∀ checkpoint, (StateCheckpoint.codec P).encode checkpoint ≠ [] := by
    intro checkpoint hnil
    have hlength := length_encode_checkpoint P checkpoint
    rw [hnil, List.length_nil] at hlength
    omega
  rw [checkpointBytes, List.flatMap_eq_nil_iff]
  constructor
  · exact fun h => List.eq_nil_iff_forall_not_mem.mpr fun c hc => hpos c (h c hc)
  · intro h
    simp [h]

/-- With the meter of the first states, a snapshot is within the contents and the constant iff no
checkpoint is stored. -/
lemma proportionate_createCheckpoint_iff (hmeter : s.meter = ResourceMeter.new)
    (op : Operation) : Proportionate P 1 overhead s op ↔ FirstCheckpoint s op := by
  cases op with
  | applyTransaction tx startTime now => exact Iff.rfl
  | updateStateRoot => exact Iff.rfl
  | createCheckpoint now =>
    show _ ≤ _ ↔ s.checkpoints = []
    rw [length_snapshot, hmeter, ← checkpointBytes_eq_nil (P := P), ← List.length_eq_zero_iff,
      overhead]
    omega

/-! ## Runs -/

/-- No operation changes the meter. -/
lemma meter_applyOperation (s : LedgerState) (op : Operation) :
    (applyOperation P s op).meter = s.meter := by
  cases op with
  | applyTransaction tx startTime now => exact (frame_applyTransaction P tx startTime now s).1
  | updateStateRoot => rfl
  | createCheckpoint now => rfl

/-- The meter of a first state. -/
lemma Initial.meter (h : Initial P s) : s.meter = ResourceMeter.new := by
  cases h with
  | new chainId now => rfl
  | genesis h =>
    obtain ⟨l, -, rfl⟩ := genesis_eq_ok h
    rfl

/-- **Which runs take proportionate snapshots**: those in which a checkpoint is created only where
none is stored. -/
theorem proportionate_iff (hinit : Initial P s₀) (ops : List Operation) :
    Runs.Steps (applyOperation P) (Proportionate P 1 overhead) s₀ ops ↔
      Runs.Steps (applyOperation P) FirstCheckpoint s₀ ops := by
  refine Runs.steps_iff_steps (fun s => s.meter = ResourceMeter.new) ?_ ?_ hinit.meter
  · exact fun s op hmeter => proportionate_createCheckpoint_iff hmeter op
  · exact fun s op hmeter _ => (meter_applyOperation s op).trans hmeter

/-- The first checkpoint of a new state is proportionate. -/
theorem proportionate_iff_first :
    Runs.Steps (applyOperation Primitives.toy) (Proportionate Primitives.toy 1 overhead)
      (new 1 ⟨0⟩) [.createCheckpoint ⟨0⟩] :=
  (proportionate_iff (.new 1 ⟨0⟩) [.createCheckpoint ⟨0⟩]).mpr ⟨rfl, trivial⟩

/-! ## Snapshots of a state that does not change -/

/-- Checkpoints of a new state, one after the other. -/
def repeated (n : ℕ) : List Operation := List.replicate n (.createCheckpoint ⟨0⟩)

/-- The state has the contents of a new one, but for the root. -/
structure SameAsNew (s : LedgerState) : Prop where
  /-- The ledger. -/
  ledger : s.ledger = Ledger.new
  /-- There is no history. -/
  recentTransactions : s.recentTransactions = []
  /-- The metadata but for the root. -/
  metadata : ∃ root, s.metadata = ⟨1, 1, ⟨0⟩, ⟨0⟩, 0, root⟩

/-- The contents of such a state are short. -/
lemma SameAsNew.contentSize_le (h : SameAsNew s) : s.contentSize ≤ 100 := by
  obtain ⟨root, hmetadata⟩ := h.metadata
  have hledger : (Ledger.codec.encode Ledger.new.written).length = 25 := by decide
  have hroot : (Hash.codec.option.encode root).length ≤ 33 := by
    cases root with
    | none => decide
    | some hash =>
      have hsome : Hash.codec.option.encode (some hash) = 1 :: Hash.codec.encode hash := rfl
      rw [hsome, List.length_cons, length_encode_hash]
  have hencode : StateMetadata.codec.encode ⟨1, 1, ⟨0⟩, ⟨0⟩, 0, root⟩ =
      Codec.u32.encode 1 ++ (Codec.u64.encode 1 ++ (Codec.u64.encode 0 ++ (Codec.u64.encode 0 ++
        (Codec.wordBytes 8 0 ++ Hash.codec.option.encode root)))) := rfl
  have hwords : (Codec.u32.encode 1).length = 4 ∧ (Codec.u64.encode 1).length = 8 ∧
      (Codec.u64.encode 0).length = 8 := by decide
  obtain ⟨hversion, hone, hzero⟩ := hwords
  rw [contentSize, h.ledger, h.recentTransactions, hmetadata, hledger, hencode]
  simp only [List.length_append, Framing.length_wordBytes, hversion, hone, hzero, historyBytes,
    List.length_nil]
  omega

/-- A new checkpoint is kept. -/
lemma mem_checkpoints_createCheckpoint (P : Primitives) (now : Timestamp) (s : LedgerState) :
    (s.createCheckpoint P now).1 ∈ (s.createCheckpoint P now).2.checkpoints := by
  show _ ∈ (s.checkpoints ++ [checkpointOf P now s]).drop _
  rw [List.drop_append_of_le_length]
  · exact List.mem_append_right _ (List.mem_singleton.mpr rfl)
  · have hlength : (s.checkpoints ++ [checkpointOf P now s]).length = s.checkpoints.length + 1 := by
      simp
    show (s.checkpoints ++ [checkpointOf P now s]).length - maxCheckpoints ≤ _
    rw [hlength, maxCheckpoints]
    omega

/-- The base64 text of a snapshot is at least as long as the snapshot. -/
lemma length_le_encodeBase64 (bytes : List UInt8) :
    bytes.length ≤ (Bytes.ofString (Primitives.toy.encodeBase64 bytes)).length := by
  show _ ≤ (Bytes.ofString (String.ofList (Base64.encodeChars bytes))).length
  exact le_trans (Base64.length_le_encodeChars bytes)
    (Bytes.length_le_ofString (Base64.encodeChars bytes))

/-- A snapshot is longer than every snapshot that is stored. -/
lemma length_lt_length_snapshot (now : Timestamp) {checkpoint : StateCheckpoint}
    (h : checkpoint ∈ s.checkpoints) :
    checkpoint.snapshot.length < (s.createCheckpoint Primitives.toy now).1.snapshot.length := by
  have hpart : ((StateCheckpoint.codec Primitives.toy).encode checkpoint).length ≤
      (s.checkpointBytes Primitives.toy).length := by
    rw [checkpointBytes, List.flatMap_def]
    exact (List.sublist_flatten_of_mem (List.mem_map_of_mem h)).length_le
  have hencode := length_encode_checkpoint Primitives.toy checkpoint
  have htext := length_le_encodeBase64 checkpoint.snapshot
  rw [length_snapshot]
  omega

/-- Checkpoints leave the contents as they are, but for the root. -/
lemma SameAsNew.createCheckpoint (h : SameAsNew s) (P : Primitives) (now : Timestamp) :
    SameAsNew (s.createCheckpoint P now).2 where
  ledger := h.ledger
  recentTransactions := h.recentTransactions
  metadata := by
    obtain ⟨root, hmetadata⟩ := h.metadata
    refine ⟨some (P.blake3 (s.toBytes P)), ?_⟩
    show { s.metadata with stateRoot := some (P.blake3 (s.toBytes P)) } = _
    rw [hmetadata]

/-- After a number of checkpoints one of them has a snapshot at least as long as that number. -/
lemma exists_le_length_snapshot (n : ℕ) :
    SameAsNew (Runs.run (applyOperation Primitives.toy) (new 1 ⟨0⟩) (repeated n)) ∧
      (n = 0 ∨ ∃ checkpoint ∈
        (Runs.run (applyOperation Primitives.toy) (new 1 ⟨0⟩) (repeated n)).checkpoints,
        n ≤ checkpoint.snapshot.length) := by
  induction n with
  | zero => exact ⟨⟨rfl, rfl, none, rfl⟩, .inl rfl⟩
  | succ n ih =>
    obtain ⟨hsame, hlong⟩ := ih
    rw [repeated, List.replicate_succ', Runs.run_concat]
    refine ⟨hsame.createCheckpoint Primitives.toy ⟨0⟩, .inr ⟨_,
      mem_checkpoints_createCheckpoint Primitives.toy ⟨0⟩ _, ?_⟩⟩
    rcases hlong with rfl | ⟨checkpoint, hmem, hle⟩
    · rw [length_snapshot]
      omega
    · exact lt_of_le_of_lt hle (length_lt_length_snapshot ⟨0⟩ hmem)

/-- No linear function of the contents bounds the snapshots of all runs. -/
theorem not_proportionate_repeated :
    ¬ ∃ slope offset, ∀ ops : List Operation,
      Runs.Steps (applyOperation Primitives.toy) (Proportionate Primitives.toy slope offset)
        (new 1 ⟨0⟩) ops := by
  rintro ⟨slope, offset, hall⟩
  have hsteps := hall (repeated (slope * 100 + offset + 1) ++ [.createCheckpoint ⟨0⟩])
  have hbound := (hsteps.of_append).2.1
  obtain ⟨hsame, hlong⟩ := exists_le_length_snapshot (slope * 100 + offset + 1)
  obtain ⟨checkpoint, hmem, hle⟩ := hlong.resolve_left (Nat.succ_ne_zero _)
  have hlt := length_lt_length_snapshot ⟨0⟩ hmem
  have hcontent := Nat.mul_le_mul_left slope
    (hsame.createCheckpoint Primitives.toy ⟨0⟩).contentSize_le
  have hlast : _ ≤ slope * _ + offset := hbound
  omega

end LedgerState

end QuDAG.Exchange
