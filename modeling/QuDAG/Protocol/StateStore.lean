import QuDAG.Lib.Runs
import QuDAG.Vault.Vault

/-!
# Stores for dark domain records (`persistence.rs`)

A record of a dark domain is saved under its owner, in a file of its own or in a map. A file is
replaced as a whole: the new one is written next to it and then renamed, unless the store was told
to write in place.

## Main definitions

* `FileStateStore`, `MemoryStateStore` — the two stores.
* `StoreOp` — a save or a removal.
* `FileStateStore.apply` — what an operation does to the disk.

## Implementation notes

JSON is a parameter. The order of the metadata, the outcome of each access to the disk and the order
in which a directory is listed are arguments. Reading and listing succeed. A write that fails leaves
a first part of its data.
-/

namespace QuDAG.Protocol

open RustStd
open QuDAG.Vault (PathBuf Disk fileStem)

/-! ## Records -/

/-- Peer identification: 32 bytes. -/
structure PeerId where
  /-- The bytes. -/
  bytes : List UInt8
  /-- There are 32 of them. -/
  length_eq : bytes.length = 32

/-- Peers are the same if their bytes are. -/
lemma PeerId.ext_iff_bytes {p q : PeerId} : p = q ↔ p.bytes = q.bytes := by
  cases p
  cases q
  simp

instance : DecidableEq PeerId := fun _ _ => decidable_of_iff _ PeerId.ext_iff_bytes.symm

/-- An IP address: the bytes of version 4 or the segments of version 6. -/
inductive IpAddr
  | v4 (a b c d : UInt8)
  | v6 (segments : Fin 8 → UInt16)
  deriving DecidableEq

/-- A network address. -/
structure NetworkAddress where
  /-- IP address. -/
  ip : IpAddr
  /-- Port number. -/
  port : UInt16
  deriving DecidableEq

/-- A resolved dark domain record with quantum-resistant signatures. -/
structure DarkDomainRecord where
  /-- ML-DSA public key for signature verification. -/
  signingPublicKey : List UInt8
  /-- ML-KEM public key for encryption. -/
  encryptionPublicKey : List UInt8
  /-- Network addresses. -/
  addresses : List NetworkAddress
  /-- Human-readable alias. -/
  «alias» : Option String
  /-- Time-to-live in seconds. -/
  ttl : UInt32
  /-- Registration timestamp. -/
  registeredAt : UInt64
  /-- Expiration timestamp. -/
  expiresAt : UInt64
  /-- Owner's PeerId. -/
  ownerId : PeerId
  /-- Record signature using ML-DSA. -/
  signature : List UInt8
  /-- Additional metadata. -/
  metadata : HashMap String String
  deriving DecidableEq

/-- Errors that can occur during persistence operations. -/
inductive PersistenceError
  | io (reason : String)
  | serialization (reason : String)
  | corruption (reason : String)
  | directoryCreation (reason : String)
  | fileNotFound (path : String)
  | invalidFormat (reason : String)
  | lockTimeout
  deriving DecidableEq, Repr

/-- The JSON crate, as far as records go. -/
structure RecordJson where
  /-- Write a record, its metadata in the order of an iteration. -/
  toStringPretty : HashMap.Iteration String String → DarkDomainRecord → Except String (List UInt8)
  /-- Read a record. -/
  fromStr : List UInt8 → Except String DarkDomainRecord

/-- What is written is read back. -/
def RecordJson.ReadsBack (J : RecordJson) : Prop :=
  ∀ order record text, J.toStringPretty order record = .ok text → J.fromStr text = .ok record

/-! ## The store of files -/

/-- The extension of a file name: what follows its last dot, where a dot in front does not
count. -/
def fileExtension (name : String) : Option String :=
  if name = ".." ∨ '.' ∉ name.toList.tail then none
  else some (String.ofList (name.toList.reverse.takeWhile (· ≠ '.')).reverse)

/-- File-based storage implementation using JSON files. -/
structure FileStateStore where
  /-- Base directory for data storage. -/
  dataDir : PathBuf
  /-- Whether to use atomic writes. -/
  atomicWrites : Bool

/-- What a save reads from outside. -/
structure StoreDraws where
  /-- The order of the metadata. -/
  order : HashMap.Iteration String String
  /-- The outcome of creating the file. -/
  create : Except String Unit
  /-- If writing fails: how many bytes were written, and the error. -/
  failure : Option (ℕ × String)
  /-- The outcome of renaming the file. -/
  rename : Except String Unit

/-- Create a file and write it. -/
def writeAll (draws : StoreDraws) (path : PathBuf) (data : List UInt8) :
    Fallible PersistenceError Disk Unit := do
  Fallible.ofExcept (draws.create.mapError .io)
  match draws.failure with
  | none => Fallible.modify fun disk => disk.insert path data
  | some (written, e) => do
    Fallible.modify fun disk => disk.insert path (data.take written)
    Fallible.fail (.io e)

/-- Rename a file that is there. A file with the new name is replaced. -/
def renameFile (outcome : Except String Unit) (path newPath : PathBuf) :
    Fallible PersistenceError Disk Unit := do
  let disk ← Fallible.get
  match disk.lookup path with
  | none => Fallible.fail (.io "No such file or directory (os error 2)")
  | some data => do
    Fallible.ofExcept (outcome.mapError .io)
    Fallible.modify fun disk => (disk.erase path).insert newPath data

namespace FileStateStore

/-- The directory of the records. -/
def domainsDir (store : FileStateStore) : PathBuf := store.dataDir ++ ["domains"]

/-- The file of an owner. -/
def ownerPath (store : FileStateStore) (ownerId : PeerId) : PathBuf :=
  store.domainsDir ++ [Hex.encode ownerId.bytes ++ ".json"]

/-- Get path for a dark domain file. The owner is the filename. -/
def domainPath (store : FileStateStore) (record : DarkDomainRecord) : PathBuf :=
  store.ownerPath record.ownerId

variable (J : RecordJson)

/-- Write data to file atomically. -/
def writeFileAtomic (draws : StoreDraws) (path : PathBuf) (data : DarkDomainRecord)
    (store : FileStateStore) : Fallible PersistenceError Disk Unit := do
  let json ← Fallible.ofExcept ((J.toStringPretty draws.order data).mapError .serialization)
  if store.atomicWrites then do
    -- write to a temporary file first, then rename it to the final location
    let tempPath := PathBuf.withExtension "tmp" path
    writeAll draws tempPath json
    renameFile draws.rename tempPath path
  else
    writeAll draws path json

/-- Read data from file. -/
def readFile (path : PathBuf) (disk : Disk) :
    Except PersistenceError (Option DarkDomainRecord) :=
  match disk.lookup path with
  | none => .ok none
  | some contents => ((J.fromStr contents).mapError .serialization).map some

/-- Save a dark domain record to storage. -/
def saveDarkRecord (draws : StoreDraws) (record : DarkDomainRecord) (store : FileStateStore) :
    Fallible PersistenceError Disk Unit :=
  store.writeFileAtomic J draws (store.domainPath record) record

/-- Remove a dark domain record from storage by owner ID. -/
def removeDarkRecord (outcome : Except String Unit) (ownerId : PeerId) (store : FileStateStore) :
    Fallible PersistenceError Disk Unit := do
  let disk ← Fallible.get
  if store.ownerPath ownerId ∈ disk then do
    Fallible.ofExcept (outcome.mapError .io)
    Fallible.modify fun disk => disk.erase (store.ownerPath ownerId)
  else pure ()

/-- The paths in the directory of the records, as they are listed. -/
def listing (entries : HashMap.Iteration PathBuf (List UInt8)) (disk : Disk)
    (store : FileStateStore) : List PathBuf :=
  ((entries.order disk).map Prod.fst).filter fun path => path.dropLast = store.domainsDir

/-- The file has the extension of a record. -/
def IsJson (path : PathBuf) : Prop := path.getLast?.bind fileExtension = some "json"

instance instDecidableIsJson (path : PathBuf) : Decidable (IsJson path) :=
  inferInstanceAs (Decidable (_ = _))

/-- Read the records of the listed files, one after the other. -/
def loadFiles (disk : Disk) : List PathBuf → Except PersistenceError (List DarkDomainRecord)
  | [] => .ok []
  | path :: paths => do
    if IsJson path then
      match ← readFile J path disk with
      | none => loadFiles disk paths
      | some record => return record :: (← loadFiles disk paths)
    else loadFiles disk paths

/-- Load all dark domain records from storage. -/
def loadDarkRecords (entries : HashMap.Iteration PathBuf (List UInt8)) (disk : Disk)
    (store : FileStateStore) : Except PersistenceError (List DarkDomainRecord) :=
  loadFiles J disk (store.listing entries disk)

end FileStateStore

/-! ## The store in memory -/

/-- In-memory storage implementation for testing. -/
structure MemoryStateStore where
  /-- Stored dark domain records. -/
  darkRecords : HashMap String DarkDomainRecord

namespace MemoryStateStore

/-- Create a new memory-based state store. -/
def new : MemoryStateStore := ⟨∅⟩

/-- Save a dark domain record to storage. -/
def saveDarkRecord (record : DarkDomainRecord) (store : MemoryStateStore) : MemoryStateStore :=
  ⟨store.darkRecords.insert (Hex.encode record.ownerId.bytes) record⟩

/-- Remove a dark domain record from storage by owner ID. -/
def removeDarkRecord (ownerId : PeerId) (store : MemoryStateStore) : MemoryStateStore :=
  ⟨store.darkRecords.erase (Hex.encode ownerId.bytes)⟩

/-- Load all dark domain records from storage. -/
def loadDarkRecords (entries : HashMap.Iteration String DarkDomainRecord)
    (store : MemoryStateStore) : List DarkDomainRecord :=
  (entries.order store.darkRecords).map Prod.snd

end MemoryStateStore

/-! ## Operations -/

/-- A save or a removal. -/
inductive StoreOp
  | save (draws : StoreDraws) (record : DarkDomainRecord)
  | remove (outcome : Except String Unit) (ownerId : PeerId)

/-- What the operation does to the files. -/
def FileStateStore.perform (J : RecordJson) (store : FileStateStore) :
    StoreOp → Fallible PersistenceError Disk Unit
  | .save draws record => store.saveDarkRecord J draws record
  | .remove outcome ownerId => store.removeDarkRecord outcome ownerId

/-- What it does in memory. -/
def MemoryStateStore.perform (store : MemoryStateStore) : StoreOp → MemoryStateStore
  | .save _ record => store.saveDarkRecord record
  | .remove _ ownerId => store.removeDarkRecord ownerId

/-- The disk, and the operations that succeeded so far. -/
structure StoreRun where
  disk : Disk
  done : List StoreOp

/-- Whether an operation succeeds. -/
def FileStateStore.succeeds (J : RecordJson) (store : FileStateStore) (s : StoreRun)
    (op : StoreOp) : Bool :=
  ((store.perform J op).run s.disk).1.isOk

/-- Perform an operation. -/
def FileStateStore.apply (J : RecordJson) (store : FileStateStore) (s : StoreRun)
    (op : StoreOp) : StoreRun :=
  ⟨((store.perform J op).run s.disk).2, if store.succeeds J s op then s.done ++ [op] else s.done⟩

end QuDAG.Protocol
