import QuDAG.Lib.Pieces
import QuDAG.Network.MessageQueue

/-!
# Message chunking (`optimized/message_chunking.rs`)

A message that is too long is sent in chunks. The receiver collects the chunks of a message until it
has them all, and puts them together. If compression is enabled, the payload may have been
compressed before it was cut. The chunks do not say so: the receiver takes the data for compressed
if they are shorter than the payload was. Data that compression does not make shorter are handed
out as they are, still compressed.

## Main definitions

* `MessageChunker`, with `chunkMessage` and `processChunk`.
* `MessageChunker.Delivery` — chunks that complete a message with the last of them.
* `MessageChunker.RoundTrips` — every delivery of the chunks of a message hands out its payload, and
  not before the last chunk.
* `MessageChunker.Shortens` — if the payload is compressed, it gets shorter.

## Main results

* `MessageChunker.chunks_roundTrip_iff` — the messages whose chunks do.

## Implementation notes

`zstd` and `blake3` are parameters. The times of a reassembly are left out, as only
`cleanup_expired` reads them. Calls are made one after the other. Lengths do not overflow: neither
the payload nor the compressed data are longer than 2 ^ 63 bytes, and chunks are shorter than the
payload.
-/

namespace QuDAG.Network

open RustStd

/-- What chunking uses of other crates. -/
structure ChunkCrates where
  /-- Compression. -/
  encodeAll : List UInt8 → Except String (List UInt8)
  /-- Decompression. -/
  decodeAll : List UInt8 → Except String (List UInt8)
  /-- The hash of a message. -/
  blake3 : Blake3

/-- Errors of the chunker. -/
inductive ChunkError
  | validationError (reason : String)
  | internal (reason : String)
  deriving DecidableEq, Repr

/-- Maximum chunks per message. -/
def maxChunks : ℕ := 10000

/-- Message chunk header. -/
structure ChunkHeader where
  /-- Message ID. -/
  messageId : String
  /-- Total number of chunks. -/
  totalChunks : UInt32
  /-- Current chunk index. -/
  chunkIndex : UInt32
  /-- Chunk size. -/
  chunkSize : ℕ
  /-- Message hash (for verification). -/
  messageHash : SerializableHash
  /-- Original message size. -/
  originalSize : ℕ
  deriving DecidableEq

/-- Chunked message wrapper. -/
structure ChunkedMessage where
  /-- Chunk header. -/
  header : ChunkHeader
  /-- Chunk data. -/
  data : List UInt8
  deriving DecidableEq

/-- Message reassembly state. -/
structure ReassemblyState where
  /-- Received chunks. -/
  chunks : HashMap UInt32 (List UInt8)
  /-- Total expected chunks. -/
  totalChunks : UInt32
  /-- Original message size. -/
  originalSize : ℕ
  /-- Message hash for verification. -/
  messageHash : SerializableHash

/-- Chunker configuration. -/
structure ChunkerConfig where
  /-- Maximum chunk size. -/
  maxChunkSize : ℕ
  /-- Enable compression. -/
  enableCompression : Bool
  /-- Compression threshold. -/
  compressionThreshold : ℕ
  /-- Cache size. -/
  cacheSize : ℕ
  /-- A cache without entries cannot be built. -/
  cacheSize_pos : 0 < cacheSize

/-- The default configuration. -/
def ChunkerConfig.default : ChunkerConfig := ⟨65536, true, 1024, 1000, by decide⟩

/-- Message chunking and reassembly system. -/
structure MessageChunker where
  /-- Reassembly states for incoming messages. -/
  reassemblyStates : HashMap String ReassemblyState
  /-- Chunk cache for optimization. -/
  chunkCache : LruCache String (List UInt8)
  /-- Configuration. -/
  config : ChunkerConfig

namespace MessageChunker

variable (crates : ChunkCrates)

/-- Create a new message chunker. -/
def new (config : ChunkerConfig) : MessageChunker :=
  ⟨∅, .new config.cacheSize config.cacheSize_pos, config⟩

/-- Compress data. -/
def compressData (data : List UInt8) : Except ChunkError (List UInt8) :=
  (crates.encodeAll data).mapError fun e => .internal ("Compression failed: " ++ e)

/-- Decompress data. -/
def decompressData (data : List UInt8) : Except ChunkError (List UInt8) :=
  (crates.decodeAll data).mapError fun e => .internal ("Decompression failed: " ++ e)

/-- Whether a payload is compressed before it is cut. -/
def compresses (config : ChunkerConfig) (payload : List UInt8) : Bool :=
  config.enableCompression && decide (config.compressionThreshold < payload.length)

/-- The data of a payload that are cut. -/
def dataToSend (config : ChunkerConfig) (payload : List UInt8) : Except ChunkError (List UInt8) :=
  if compresses config payload then compressData crates payload else .ok payload

/-- A chunk of a message. -/
def chunkOf (message : QueuedMessage) (data : List UInt8) (totalChunks : UInt32) (index : ℕ)
    (chunkData : List UInt8) : ChunkedMessage where
  header :=
    { messageId := message.id
      totalChunks
      chunkIndex := UInt32.ofNat index
      chunkSize := chunkData.length
      messageHash := crates.blake3 data
      originalSize := message.payload.length }
  data := chunkData

/-- Chunk a message for transmission. With a chunk size of 0 the number of chunks is a division by
zero. -/
def chunkMessage (message : QueuedMessage) (self : MessageChunker) :
    Outcome ChunkError (List ChunkedMessage) :=
  if message.payload.length ≤ self.config.maxChunkSize then .ok []
  else
    match dataToSend crates self.config message.payload with
    | .error e => .err e
    | .ok data =>
      if self.config.maxChunkSize = 0 then .panic
      else
        let totalChunks := UInt32.ofNat
          ((data.length + self.config.maxChunkSize - 1) / self.config.maxChunkSize)
        if UInt32.ofNat maxChunks < totalChunks then
          .err (.validationError ("Message too large: " ++ toString totalChunks.toNat ++
            " chunks exceeds maximum " ++ toString maxChunks))
        else
          .ok ((Pieces.chunks self.config.maxChunkSize data).zipIdx.map fun e =>
            chunkOf crates message data totalChunks e.2 e.1)

/-- Validate a chunk. -/
def validateChunk (chunk : ChunkedMessage) (self : MessageChunker) : Except ChunkError Unit :=
  if chunk.header.totalChunks ≤ chunk.header.chunkIndex then
    .error (.validationError "Invalid chunk index")
  else if chunk.data.length ≠ chunk.header.chunkSize then
    .error (.validationError "Chunk size mismatch")
  else if self.config.maxChunkSize < chunk.header.chunkSize then
    .error (.validationError "Chunk size exceeds maximum")
  else .ok ()

/-- Reassemble chunks into original message. -/
def reassembleMessage (config : ChunkerConfig) (state : ReassemblyState) :
    Except ChunkError (List UInt8) :=
  match Pieces.join UInt32.ofNat
    (fun i => ChunkError.validationError ("Missing chunk " ++ toString i))
    state.chunks state.totalChunks.toNat with
  | .error e => .error e
  | .ok data =>
    if crates.blake3 data ≠ state.messageHash then
      .error (.validationError "Message hash verification failed")
    else if config.enableCompression && decide (data.length < state.originalSize) then
      decompressData crates data
    else .ok data

/-- The state in which the reassembly of a message starts. -/
def freshState (header : ChunkHeader) : ReassemblyState :=
  ⟨∅, header.totalChunks, header.originalSize, header.messageHash⟩

/-- Add a chunk to the reassembly of its message, and put the message together if it was the last
one missing. -/
def addChunk (chunk : ChunkedMessage) (self : MessageChunker) :
    Except ChunkError (Option (List UInt8)) × MessageChunker :=
  let messageId := chunk.header.messageId
  let state := (self.reassemblyStates.lookup messageId).getD (freshState chunk.header)
  if state.totalChunks ≠ chunk.header.totalChunks then
    (.error (.validationError "Inconsistent chunk count"),
      { self with reassemblyStates := self.reassemblyStates.insert messageId state })
  else
    let state :=
      { state with chunks := state.chunks.insert chunk.header.chunkIndex chunk.data }
    let reassemblyStates := self.reassemblyStates.insert messageId state
    if state.chunks.keys.card = state.totalChunks.toNat then
      match reassembleMessage crates self.config state with
      | .error e => (.error e, { self with reassemblyStates })
      | .ok reassembled =>
        (.ok (some reassembled),
          { self with
            reassemblyStates := reassemblyStates.erase messageId
            chunkCache := self.chunkCache.put messageId reassembled })
    else (.ok none, { self with reassemblyStates })

/-- Process an incoming chunk. -/
def processChunk (self : MessageChunker) (chunk : ChunkedMessage) :
    Except ChunkError (Option (List UInt8)) × MessageChunker :=
  match self.validateChunk chunk with
  | .error e => (.error e, self)
  | .ok _ =>
    let found := self.chunkCache.get chunk.header.messageId
    let self := { self with chunkCache := found.2 }
    match found.1 with
    | some cached => (.ok (some cached), self)
    | none => self.addChunk crates chunk

/-! ## Deliveries -/

/-- The state after a chunk. -/
def receive (self : MessageChunker) (chunk : ChunkedMessage) : MessageChunker :=
  (self.processChunk crates chunk).2

/-- Chunks are delivered, those of a message among chunks of others. Those of the message may come
in any order and repeatedly. The last chunk is the one of the message that was missing. -/
structure Delivery (id : String) (own before : List ChunkedMessage) (last : ChunkedMessage) :
    Prop where
  others : ∀ chunk ∈ before, chunk ∈ own ∨ chunk.header.messageId ≠ id
  last_mem : last ∈ own
  missing : last ∉ before
  complete : ∀ chunk ∈ own, chunk ∈ before ∨ chunk = last

/-- A receiver that has seen nothing of a message. -/
structure Unaware (config : ChunkerConfig) (id : String) (receiver : MessageChunker) : Prop where
  config_eq : receiver.config = config
  no_state : receiver.reassemblyStates.lookup id = none
  not_cached : receiver.chunkCache.peek id = none

/-- For every delivery of the chunks of a message to a receiver that has seen nothing of it, its
chunks hand out nothing but for the last one, and that hands out the payload. -/
def RoundTrips (config : ChunkerConfig) (message : QueuedMessage) (own : List ChunkedMessage) :
    Prop :=
  ∀ receiver before last, Unaware config message.id receiver →
    Delivery message.id own before last →
      Runs.Steps (receive crates)
        (fun s chunk => chunk ∈ own → (s.processChunk crates chunk).1 = .ok none) receiver before ∧
      ((Runs.run (receive crates) receiver before).processChunk crates last).1 =
        .ok (some message.payload)

/-- If a payload is compressed, the compressed data are shorter, or they are the payload itself. -/
def Shortens (config : ChunkerConfig) (payload : List UInt8) : Prop :=
  compresses config payload = true → ∀ data, crates.encodeAll payload = .ok data →
    data.length < payload.length ∨ data = payload

/-! ## The chunks of a message -/

/-- The chunks of a message whose data are cut. -/
def chunksOf (config : ChunkerConfig) (message : QueuedMessage) (data : List UInt8) :
    List ChunkedMessage :=
  (Pieces.chunks config.maxChunkSize data).zipIdx.map fun e =>
    chunkOf crates message data
      (UInt32.ofNat (Pieces.chunks config.maxChunkSize data).length) e.2 e.1

/-- What is put together from the data of a message. -/
def restored (config : ChunkerConfig) (message : QueuedMessage) (data : List UInt8) :
    Except ChunkError (List UInt8) :=
  if config.enableCompression && decide (data.length < message.payload.length) then
    decompressData crates data
  else .ok data

variable {crates} {config : ChunkerConfig} {message : QueuedMessage} {data : List UInt8}

lemma chunkMessage_eq_ok {own : List ChunkedMessage}
    (hlong : config.maxChunkSize < message.payload.length)
    (h : (new config).chunkMessage crates message = .ok own) :
    0 < config.maxChunkSize ∧ ∃ data, dataToSend crates config message.payload = .ok data ∧
      own = chunksOf crates config message data := by
  have hnew : (new config).config = config := rfl
  rw [chunkMessage, hnew, if_neg (Nat.not_le.mpr hlong)] at h
  cases hdata : dataToSend crates config message.payload with
  | error e => rw [hdata] at h; cases h
  | ok data =>
    simp only [hdata] at h
    split_ifs at h with hzero hmany
    cases h
    refine ⟨Nat.pos_of_ne_zero hzero, data, rfl, ?_⟩
    rw [chunksOf, Pieces.length_chunks]

/-- A chunk of a message is made of a piece of its data. -/
lemma mem_chunksOf {chunk : ChunkedMessage} :
    chunk ∈ chunksOf crates config message data ↔
      ∃ i piece, (Pieces.chunks config.maxChunkSize data)[i]? = some piece ∧
        chunk = chunkOf crates message data
          (UInt32.ofNat (Pieces.chunks config.maxChunkSize data).length) i piece := by
  simp only [chunksOf, List.mem_map, Prod.exists, List.mem_zipIdx_iff_getElem?]
  constructor
  · rintro ⟨piece, i, hpiece, rfl⟩
    exact ⟨i, piece, hpiece, rfl⟩
  · rintro ⟨i, piece, hpiece, rfl⟩
    exact ⟨piece, i, hpiece, rfl⟩

/-! ## Chunks of other messages -/

/-- A chunk of another message leaves the reassembly of a message alone, and does not bring it into
the cache. -/
lemma addChunk_of_ne {self : MessageChunker} {chunk : ChunkedMessage} {id : String}
    (hne : chunk.header.messageId ≠ id) :
    (self.addChunk crates chunk).2.config = self.config ∧
      (self.addChunk crates chunk).2.reassemblyStates.lookup id =
        self.reassemblyStates.lookup id ∧
      (self.chunkCache.peek id = none →
        (self.addChunk crates chunk).2.chunkCache.peek id = none) := by
  have hinsert : ∀ state, (self.reassemblyStates.insert chunk.header.messageId state).lookup id =
      self.reassemblyStates.lookup id := fun state => Finmap.lookup_insert_of_ne _ hne.symm
  simp only [addChunk]
  split_ifs with htotal hcard
  · exact ⟨rfl, hinsert _, fun h => h⟩
  · split
    · exact ⟨rfl, hinsert _, fun h => h⟩
    · refine ⟨rfl, ?_, fun h => ?_⟩
      · rw [Finmap.lookup_erase_ne hne.symm, hinsert]
      · -- what the cache finds under another key it found before
        refine Option.eq_none_iff_forall_ne_some.mpr fun found hfound => ?_
        rcases LruCache.peek_of_put hfound with ⟨heq, -⟩ | ⟨-, hpeek⟩
        · exact hne heq.symm
        · rw [h] at hpeek
          cases hpeek
  · exact ⟨rfl, hinsert _, fun h => h⟩

lemma receive_of_ne {self : MessageChunker} {chunk : ChunkedMessage} {id : String}
    (hne : chunk.header.messageId ≠ id) :
    (self.receive crates chunk).config = self.config ∧
      (self.receive crates chunk).reassemblyStates.lookup id = self.reassemblyStates.lookup id ∧
      (self.chunkCache.peek id = none → (self.receive crates chunk).chunkCache.peek id = none) := by
  simp only [receive, processChunk]
  split
  · exact ⟨rfl, rfl, fun h => h⟩
  · split
    · exact ⟨rfl, rfl, fun h => by rwa [LruCache.peek_get]⟩
    · obtain ⟨hconfig, hlookup, hpeek⟩ := @addChunk_of_ne crates
        { self with chunkCache := (self.chunkCache.get chunk.header.messageId).2 } chunk id hne
      exact ⟨hconfig, hlookup, fun h => hpeek (by rwa [LruCache.peek_get])⟩

/-! ## Chunks of the message -/

section Own

variable (crates config message data)

/-- The pieces of the data. -/
def pieces : List (List UInt8) := Pieces.chunks config.maxChunkSize data

/-- The reassembly of the message, with the pieces that have arrived. -/
def stateOf (chunks : HashMap UInt32 (List UInt8)) : ReassemblyState :=
  ⟨chunks, UInt32.ofNat (pieces config data).length, message.payload.length, crates.blake3 data⟩

/-- The receiver collects the message: it holds the pieces of the chunks that were delivered. -/
structure Collects (delivered : List ChunkedMessage) (s : MessageChunker) : Prop where
  config_eq : s.config = config
  not_cached : s.chunkCache.peek message.id = none
  state : ∃ chunks,
    (s.reassemblyStates.lookup message.id).getD (stateOf crates config message data ∅) =
      stateOf crates config message data chunks ∧
    Pieces.Gathers UInt32.ofNat (pieces config data) chunks ∧
    ∀ i piece, (pieces config data)[i]? = some piece →
      (chunks.lookup (UInt32.ofNat i) = some piece ↔
        chunkOf crates message data (UInt32.ofNat (pieces config data).length) i piece ∈ delivered)

end Own

/-- An index fits into a machine word. -/
lemma toNat_ofNat_of_le {n : ℕ} (h : n ≤ maxChunks) : (UInt32.ofNat n).toNat = n := by
  refine UInt32.toNat_ofNat_of_lt' (Nat.lt_of_le_of_lt h ?_)
  decide

variable (hcount : (pieces config data).length ≤ maxChunks)

include hcount in
/-- The indices of the chunks are different. -/
lemma injOn_ofNat : Set.InjOn UInt32.ofNat { i | i < (pieces config data).length } := by
  intro i hi j hj heq
  have hi' : i ≤ maxChunks := (Nat.le_of_lt hi).trans hcount
  have hj' : j ≤ maxChunks := (Nat.le_of_lt hj).trans hcount
  rw [← toNat_ofNat_of_le hi', heq, toNat_ofNat_of_le hj']

variable {delivered : List ChunkedMessage} {s : MessageChunker} {i : ℕ} {piece : List UInt8}

include hcount in
/-- The chunks of a message are valid. -/
lemma validateChunk_chunkOf (hconfig : s.config = config)
    (hpiece : (pieces config data)[i]? = some piece) :
    s.validateChunk
        (chunkOf crates message data (UInt32.ofNat (pieces config data).length) i piece) =
      .ok () := by
  obtain ⟨hi, -⟩ := List.getElem?_eq_some_iff.mp hpiece
  have hindex : ¬ UInt32.ofNat (pieces config data).length ≤ UInt32.ofNat i := by
    rw [UInt32.not_le, UInt32.lt_iff_toNat_lt, toNat_ofNat_of_le hcount,
      toNat_ofNat_of_le ((Nat.le_of_lt hi).trans hcount)]
    exact hi
  have hsize : ¬ config.maxChunkSize < piece.length :=
    Nat.not_lt.mpr (Pieces.length_le_of_mem_chunks (List.mem_of_getElem? hpiece))
  simp only [validateChunk, chunkOf, hindex, hconfig, hsize, if_false, ne_eq, not_true_eq_false]

include hcount in
/-- The message is put together from its pieces. -/
lemma reassembleMessage_of_complete (hmax : 0 < config.maxChunkSize)
    {chunks : HashMap UInt32 (List UInt8)}
    (hall : ∀ i piece, (pieces config data)[i]? = some piece →
      chunks.lookup (UInt32.ofNat i) = some piece) :
    reassembleMessage crates config (stateOf crates config message data chunks) =
      restored crates config message data := by
  have hjoin := Pieces.join_eq
    (fun i => ChunkError.validationError ("Missing chunk " ++ toString i)) hall
  have hflat : (pieces config data).flatten = data := Pieces.flatten_chunks hmax data
  rw [hflat] at hjoin
  simp only [reassembleMessage, stateOf, toNat_ofNat_of_le hcount, hjoin, ne_eq,
    not_true_eq_false, if_false, restored]
  rfl

include hcount in
/-- The pieces that are held after a chunk has arrived. -/
lemma lookup_insert_iff {chunks : HashMap UInt32 (List UInt8)}
    (hheld : ∀ j p, (pieces config data)[j]? = some p →
      (chunks.lookup (UInt32.ofNat j) = some p ↔
        chunkOf crates message data (UInt32.ofNat (pieces config data).length) j p ∈ delivered))
    (hpiece : (pieces config data)[i]? = some piece) {j : ℕ} {p : List UInt8}
    (hp : (pieces config data)[j]? = some p) :
    (chunks.insert (UInt32.ofNat i) piece).lookup (UInt32.ofNat j) = some p ↔
      chunkOf crates message data (UInt32.ofNat (pieces config data).length) j p ∈
        delivered ++
          [chunkOf crates message data (UInt32.ofNat (pieces config data).length) i piece] := by
  rw [HashMap.lookup_insert_ite, List.mem_append, List.mem_singleton]
  by_cases hij : j = i
  · subst hij
    obtain rfl : piece = p := Option.some.inj (hpiece.symm.trans hp)
    simp
  · have hkey : UInt32.ofNat j ≠ UInt32.ofNat i := fun heq =>
      hij (injOn_ofNat hcount (List.getElem?_eq_some_iff.mp hp).1
        (List.getElem?_eq_some_iff.mp hpiece).1 heq)
    have hne : chunkOf crates message data (UInt32.ofNat (pieces config data).length) j p ≠
        chunkOf crates message data (UInt32.ofNat (pieces config data).length) i piece :=
      fun heq => hkey (congrArg (fun c => c.header.chunkIndex) heq)
    rw [if_neg hkey, hheld j p hp]
    exact (or_iff_left hne).symm

include hcount in
/-- **A chunk of the message** is added to the pieces that have arrived. If it was the last one the
result is what is put together; else there is no result, and the receiver has one more piece. -/
lemma processChunk_own (hmax : 0 < config.maxChunkSize)
    (h : Collects crates config message data delivered s)
    (hpiece : (pieces config data)[i]? = some piece) {chunk : ChunkedMessage}
    (hchunk : chunk =
      chunkOf crates message data (UInt32.ofNat (pieces config data).length) i piece) :
    ((∀ c ∈ chunksOf crates config message data, c ∈ delivered ++ [chunk]) ∧
      (s.processChunk crates chunk).1 = (restored crates config message data).map some) ∨
    (¬ (∀ c ∈ chunksOf crates config message data, c ∈ delivered ++ [chunk]) ∧
      (s.processChunk crates chunk).1 = .ok none ∧
      Collects crates config message data (delivered ++ [chunk]) (s.receive crates chunk)) := by
  obtain ⟨hconfig, hcache, chunks, hstate, hgathers, hheld⟩ := h
  have hvalid : s.validateChunk chunk = .ok () :=
    hchunk ▸ validateChunk_chunkOf hcount hconfig hpiece
  have hid : chunk.header.messageId = message.id := hchunk ▸ rfl
  have hget : (s.chunkCache.get message.id).1 = none := by rw [LruCache.get_fst, hcache]
  have hstate' : (s.reassemblyStates.lookup chunk.header.messageId).getD (freshState chunk.header) =
      stateOf crates config message data chunks := by
    rw [hchunk]
    exact hstate
  have htotal : chunk.header.totalChunks = UInt32.ofNat (pieces config data).length := hchunk ▸ rfl
  have hindex : chunk.header.chunkIndex = UInt32.ofNat i := hchunk ▸ rfl
  have hdata : chunk.data = piece := hchunk ▸ rfl
  -- the pieces with the new one, and when they are all there
  have hgathers' := hgathers.insert hpiece
  have hheld' := fun j p (hp : (pieces config data)[j]? = some p) =>
    hchunk ▸ lookup_insert_iff hcount hheld hpiece hp
  have hcomplete : (∀ c ∈ chunksOf crates config message data, c ∈ delivered ++ [chunk]) ↔
      (chunks.insert (UInt32.ofNat i) piece).keys.card = (pieces config data).length := by
    rw [hgathers'.card_eq_iff (injOn_ofNat hcount)]
    constructor
    · exact fun hall j p hp => (hheld' j p hp).mpr (hall _ (mem_chunksOf.mpr ⟨j, p, hp, rfl⟩))
    · intro hall c hc
      obtain ⟨j, p, hp, rfl⟩ := mem_chunksOf.mp hc
      exact (hheld' j p hp).mp (hall j p hp)
  have hprocess : s.processChunk crates chunk =
      ({ s with chunkCache := (s.chunkCache.get message.id).2 } : MessageChunker).addChunk
        crates chunk := by
    simp only [processChunk, hvalid, hid, hget]
  simp only [receive, hprocess, addChunk, hstate', ne_eq, htotal, not_true_eq_false, if_false,
    hindex, hdata, stateOf, toNat_ofNat_of_le hcount, hconfig]
  by_cases hall : ∀ c ∈ chunksOf crates config message data, c ∈ delivered ++ [chunk]
  · refine .inl ⟨hall, ?_⟩
    rw [if_pos (hcomplete.mp hall)]
    have hreassemble := @reassembleMessage_of_complete crates config message data hcount hmax _
      ((hgathers'.card_eq_iff (injOn_ofNat hcount)).mp (hcomplete.mp hall))
    rw [stateOf] at hreassemble
    rw [hreassemble]
    cases restored crates config message data <;> rfl
  · refine .inr ⟨hall, ?_⟩
    rw [if_neg fun hcard => hall (hcomplete.mpr hcard)]
    refine ⟨rfl, rfl, ?_, _, ?_, hgathers', hheld'⟩
    · rw [LruCache.peek_get, hcache]
    · rw [hid, Finmap.lookup_insert, Option.getD_some]
      rfl

/-! ## Whole deliveries -/

/-- A chunk of another message changes nothing for the message. -/
lemma collects_other (h : Collects crates config message data delivered s) {chunk : ChunkedMessage}
    (hne : chunk.header.messageId ≠ message.id) :
    Collects crates config message data (delivered ++ [chunk]) (s.receive crates chunk) := by
  obtain ⟨hconfig, hcache, chunks, hstate, hgathers, hheld⟩ := h
  obtain ⟨hconfig', hlookup, hpeek⟩ := @receive_of_ne crates s chunk message.id hne
  refine ⟨hconfig'.trans hconfig, hpeek hcache, chunks, ?_, hgathers, fun i piece hpiece => ?_⟩
  · rw [hlookup]
    exact hstate
  · rw [hheld i piece hpiece, List.mem_append, List.mem_singleton]
    refine (or_iff_left fun heq => hne ?_).symm
    rw [← heq]
    rfl

include hcount in
/-- **As long as a chunk is missing** nothing is handed out, and the receiver collects. -/
lemma collects_run (hmax : 0 < config.maxChunkSize) {last : ChunkedMessage}
    (hlast : last ∈ chunksOf crates config message data) :
    ∀ {before delivered : List ChunkedMessage} {s : MessageChunker},
      Collects crates config message data delivered s →
      (∀ chunk ∈ before, chunk ∈ chunksOf crates config message data ∨
        chunk.header.messageId ≠ message.id) →
      last ∉ delivered ++ before →
      Runs.Steps (receive crates) (fun s chunk => chunk ∈ chunksOf crates config message data →
          (s.processChunk crates chunk).1 = .ok none) s before ∧
        Collects crates config message data (delivered ++ before)
          (Runs.run (receive crates) s before) := by
  intro before
  induction before with
  | nil => exact fun h _ _ => ⟨trivial, by simpa using h⟩
  | cons chunk before ih =>
    intro delivered s h hothers hmissing
    have hmissing' : last ∉ delivered ++ [chunk] ++ before := by simpa using hmissing
    have hothers' := fun c hc => hothers c (List.mem_cons_of_mem _ hc)
    by_cases hown : chunk ∈ chunksOf crates config message data
    · obtain ⟨i, piece, hpiece, hchunk⟩ := mem_chunksOf.mp hown
      rcases processChunk_own hcount hmax h hpiece hchunk with ⟨hall, -⟩ | ⟨-, hnone, hnext⟩
      · exact absurd (List.mem_append_left _ (hall last hlast)) hmissing'
      · obtain ⟨hsteps, hcollects⟩ := ih hnext hothers' hmissing'
        exact ⟨⟨fun _ => hnone, hsteps⟩, by simpa using hcollects⟩
    · have hne := (hothers chunk List.mem_cons_self).resolve_left hown
      obtain ⟨hsteps, hcollects⟩ := ih (collects_other h hne) hothers' hmissing'
      exact ⟨⟨fun h => absurd h hown, hsteps⟩, by simpa using hcollects⟩

/-- A receiver that has seen nothing of a message holds none of its pieces. -/
lemma collects_of_unaware {receiver : MessageChunker} (h : Unaware config message.id receiver) :
    Collects crates config message data [] receiver where
  config_eq := h.config_eq
  not_cached := h.not_cached
  state := by
    refine ⟨∅, by rw [h.no_state]; rfl, Pieces.gathers_empty, fun i piece _ => ?_⟩
    simp

include hcount in
/-- **A delivery** hands out what is put together, with the last chunk. -/
theorem deliver (hmax : 0 < config.maxChunkSize) {receiver : MessageChunker}
    {before : List ChunkedMessage} {last : ChunkedMessage}
    (hreceiver : Unaware config message.id receiver)
    (h : Delivery message.id (chunksOf crates config message data) before last) :
    Runs.Steps (receive crates) (fun s chunk => chunk ∈ chunksOf crates config message data →
        (s.processChunk crates chunk).1 = .ok none) receiver before ∧
      ((Runs.run (receive crates) receiver before).processChunk crates last).1 =
        (restored crates config message data).map some := by
  obtain ⟨hsteps, hcollects⟩ := collects_run hcount hmax h.last_mem
    (collects_of_unaware hreceiver) h.others (by simpa using h.missing)
  refine ⟨hsteps, ?_⟩
  obtain ⟨i, piece, hpiece, hchunk⟩ := mem_chunksOf.mp h.last_mem
  rcases processChunk_own hcount hmax hcollects hpiece hchunk with ⟨-, hresult⟩ | ⟨hnot, -⟩
  · exact hresult
  · refine absurd (fun c hc => ?_) hnot
    rcases h.complete c hc with hmem | rfl
    · exact List.mem_append_left _ (by simpa using hmem)
    · exact List.mem_append_right _ (List.mem_singleton_self _)

/-- There is a delivery that ends with any given chunk. -/
lemma delivery_of_mem (id : String) {own : List ChunkedMessage} {last : ChunkedMessage}
    (hlast : last ∈ own) : Delivery id own (own.filter (· ≠ last)) last := by
  refine ⟨fun c hc => .inl (List.mem_of_mem_filter hc), hlast, by simp, fun c hc => ?_⟩
  by_cases hc' : c = last
  · exact .inr hc'
  · exact .inl (List.mem_filter.mpr ⟨hc, by simpa using hc'⟩)

include hcount in
/-- The chunks of a message bring it back iff there are none, or the payload is put together. -/
lemma roundTrips_iff_restored (hmax : 0 < config.maxChunkSize) :
    RoundTrips crates config message (chunksOf crates config message data) ↔
      data = [] ∨ restored crates config message data = .ok message.payload := by
  constructor
  · intro h
    cases hchunks : chunksOf crates config message data with
    | nil =>
      have hnone : pieces config data = [] := by
        simpa [chunksOf, pieces, List.zipIdx_eq_nil_iff] using hchunks
      left
      rw [← Pieces.flatten_chunks hmax data, ← pieces, hnone, List.flatten_nil]
    | cons last rest =>
      have hdelivery := delivery_of_mem message.id
        (show last ∈ chunksOf crates config message data by simp [hchunks])
      have hnew : Unaware config message.id (new config) := ⟨rfl, rfl, rfl⟩
      have hresult := (h _ _ _ hnew hdelivery).2
      rw [(deliver hcount hmax hnew hdelivery).2, map_eq_ok] at hresult
      obtain ⟨payload, hpayload, hsome⟩ := hresult
      right
      rw [hpayload, Option.some.inj hsome]
  · rintro h receiver before last hreceiver hdelivery
    obtain ⟨hsteps, hresult⟩ := deliver hcount hmax hreceiver hdelivery
    refine ⟨hsteps, ?_⟩
    rcases h with rfl | h
    · -- without data there is no last chunk
      obtain ⟨i, piece, hpiece, -⟩ := mem_chunksOf.mp hdelivery.last_mem
      have hpos := (List.getElem?_eq_some_iff.mp hpiece).1
      rw [Pieces.length_chunks, List.length_nil, Nat.zero_add,
        Nat.div_eq_of_lt (Nat.sub_lt hmax Nat.one_pos)] at hpos
      exact absurd hpos (Nat.not_lt_zero _)
    · rw [hresult, h]
      rfl

/-- The payload is put together iff it was not compressed, or got shorter. -/
lemma restored_eq_iff
    (hzstd : ∀ payload data, crates.encodeAll payload = .ok data →
      crates.decodeAll data = .ok payload)
    (hdata : dataToSend crates config message.payload = .ok data) :
    restored crates config message data = .ok message.payload ↔
      Shortens crates config message.payload := by
  unfold dataToSend at hdata
  unfold Shortens restored
  split_ifs at hdata with hcompress
  · have hencode : crates.encodeAll message.payload = .ok data := mapError_eq_ok.mp hdata
    have henable : config.enableCompression = true := by
      simp only [compresses, Bool.and_eq_true] at hcompress
      exact hcompress.1
    simp only [hcompress, hencode, henable, Except.ok.injEq, forall_const, Bool.true_and,
      decide_eq_true_eq, forall_eq']
    split_ifs with hshort
    · rw [decompressData, mapError_eq_ok]
      exact ⟨fun _ => .inl hshort, fun _ => hzstd _ _ hencode⟩
    · simp [hshort]
  · cases hdata
    simp [hcompress]

/-- **The round trip of chunks**: a message comes back from its chunks, in whichever order they
arrive, iff its payload is not compressed or gets shorter. -/
theorem chunks_roundTrip_iff (crates : ChunkCrates)
    (hzstd : ∀ payload data, crates.encodeAll payload = .ok data →
      crates.decodeAll data = .ok payload)
    (config : ChunkerConfig) (message : QueuedMessage) (own : List ChunkedMessage)
    (hlong : config.maxChunkSize < message.payload.length)
    (hown : (new config).chunkMessage crates message = .ok own) (hcount : own.length ≤ maxChunks) :
    RoundTrips crates config message own ↔ Shortens crates config message.payload := by
  obtain ⟨hmax, data, hdata, rfl⟩ := chunkMessage_eq_ok hlong hown
  have hpieces : (pieces config data).length ≤ maxChunks := by
    simpa [chunksOf, pieces] using hcount
  rw [roundTrips_iff_restored hpieces hmax, restored_eq_iff hzstd hdata, or_iff_right_iff_imp]
  -- compressed data that are empty are shorter than the payload
  rintro rfl hcompress data' hdata'
  rw [dataToSend, if_pos hcompress, compressData, hdata'] at hdata
  cases hdata
  exact .inl (Nat.zero_lt_of_lt hlong)

/-! ## A message that does not get shorter -/

/-- Data framed as they are. -/
def storedFrame (payload : List UInt8) : List UInt8 :=
  [0x28, 0xb5, 0x2f, 0xfd, 0, 0x58] ++ Codec.wordBytes 3 (8 * payload.length + 1) ++ payload

/-- Crates that store what they should compress. -/
def storing : ChunkCrates where
  encodeAll payload := .ok (storedFrame payload)
  decodeAll data := .ok (data.drop 9)
  blake3 := fun _ => ⟨List.replicate 32 0, List.length_replicate⟩

lemma decodeAll_storing {payload data : List UInt8} (h : storing.encodeAll payload = .ok data) :
    storing.decodeAll data = .ok payload := by
  cases h
  rfl

/-- A message of three bytes. -/
def sampleMessage : QueuedMessage where
  source := [1]
  destination := [2]
  payload := [7, 8, 9]
  id := "1"
  priority := .normal
  ttl := 60 * 10 ^ 9
  ttl_lt := by decide

/-- Chunks of two bytes, with or without compression. -/
def sampleConfig (enableCompression : Bool) : ChunkerConfig :=
  ⟨2, enableCompression, 1, 10, by decide⟩

/-- Without compression the message comes back. -/
theorem chunks_roundTrip_iff_sampleMessage :
    RoundTrips storing (sampleConfig false) sampleMessage
      (chunksOf storing (sampleConfig false) sampleMessage [7, 8, 9]) :=
  (chunks_roundTrip_iff storing (fun _ _ => decodeAll_storing) (sampleConfig false) sampleMessage _
    (by decide) rfl (by decide)).mpr nofun

/-- With compression, the message is sent and comes back as the compressed data. -/
theorem not_roundTrips_sampleMessage : ∃ own,
    (sampleConfig true).maxChunkSize < sampleMessage.payload.length ∧
      (new (sampleConfig true)).chunkMessage storing sampleMessage = .ok own ∧
      own.length ≤ maxChunks ∧ ¬ RoundTrips storing (sampleConfig true) sampleMessage own := by
  refine ⟨chunksOf storing (sampleConfig true) sampleMessage (storedFrame [7, 8, 9]), by decide,
    rfl, by decide, fun h => ?_⟩
  rcases (roundTrips_iff_restored (by decide) (by decide)).mp h with hnil | hrestored
  · cases hnil
  · cases hrestored

end MessageChunker

end QuDAG.Network
