import QuDAG.Lib.FileTree
import QuDAG.Protocol.DarkRecords

/-!
# Backups of the state (`persistence.rs`)

The store of files keeps vertices, peers, dark domain records and the state of the node, each in a
file of its own below its directory. A backup copies the directory to another place, and restoring
it clears the directory and copies everything back. A backup that was made before at the same place
is not cleared: the new one is laid over it.

## Main definitions

* `StateBackup.save`, `StateBackup.remove`, `StateBackup.createBackup`, `StateBackup.restoreBackup`.
* `StateBackup.loadPeers`, `StateBackup.loadDarkRecords` — what is read back.
* `StateBackup.apply` — what a call does.

## Implementation notes

JSON, the order in which a directory is listed and the outcome of each access in a save or a removal
are arguments. The other operations fail if what is at their paths makes them fail.
-/

namespace QuDAG.Protocol

open RustStd
open QuDAG.Vault (PathBuf Disk fileStem)

/-! ## Entries -/

/-- Information about a peer for persistence. -/
structure StoredPeerInfo where
  /-- Peer's network address. -/
  address : String
  /-- Last seen timestamp. -/
  lastSeen : UInt64
  /-- Reputation score (0-100). -/
  reputation : UInt8
  /-- Whether the peer is trusted. -/
  trusted : Bool
  /-- Connection statistics. -/
  connectionCount : UInt64
  /-- Total bytes exchanged. -/
  bytesExchanged : UInt64
  /-- Additional metadata. -/
  metadata : HashMap String String
  deriving DecidableEq

/-- What an entry is stored under. -/
inductive StoreKey
  | vertex (id : VertexId)
  | peer (peerId : PeerId)
  | record (ownerId : PeerId)
  | state
  deriving DecidableEq

namespace StoreKey

/-- What is stored there. The complete state is a parameter. -/
def Content (σ : Type) : StoreKey → Type
  | .vertex _ => Vertex
  | .peer _ => StoredPeerInfo
  | .record _ => DarkDomainRecord
  | .state => σ

/-- The directory of an entry, from that of the store. -/
def dir : StoreKey → PathBuf
  | .vertex _ => ["vertices"]
  | .peer _ => ["peers"]
  | .record _ => ["domains"]
  | .state => []

/-- The name of its file, without the extension. -/
def stem : StoreKey → String
  | .vertex id => Hex.encode id.asBytes
  | .peer peerId => Hex.encode peerId.bytes
  | .record ownerId => Hex.encode ownerId.bytes
  | .state => "state"

/-- Its file. -/
def file (key : StoreKey) : PathBuf := key.dir ++ [key.stem ++ ".json"]

end StoreKey

/-- JSON of a type whose values hold hash maps, which are iterated in some order. -/
structure TextFormat (ω α : Type) where
  toStringPretty : ω → α → Except String (List UInt8)
  fromStr : List UInt8 → Except String α

/-- What is written is read back. -/
def TextFormat.ReadsBack {ω α : Type} (J : TextFormat ω α) : Prop :=
  ∀ order a text, J.toStringPretty order a = .ok text → J.fromStr text = .ok a

/-- The JSON crate, as far as the store goes. -/
structure StoreJson (σ ω : Type) where
  vertex : TextFormat Unit Vertex
  peer : TextFormat (HashMap.Iteration String String) StoredPeerInfo
  record : RecordJson
  state : TextFormat ω σ

/-- What a call reads from outside: as `StoreDraws`, with the order of the state and the outcome of
removing a file. -/
structure CallDraws (ω : Type) extends StoreDraws where
  stateOrder : ω
  remove : Except String Unit

namespace StoreJson

variable {σ ω : Type} (J : StoreJson σ ω)

/-- Write an entry. -/
def toStringPretty (draws : CallDraws ω) :
    (key : StoreKey) → key.Content σ → Except String (List UInt8)
  | .vertex _, vertex => J.vertex.toStringPretty () vertex
  | .peer _, info => J.peer.toStringPretty draws.order info
  | .record _, record => J.record.toStringPretty draws.order record
  | .state, state => J.state.toStringPretty draws.stateOrder state

/-- Read an entry. -/
def fromStr : (key : StoreKey) → List UInt8 → Except String (key.Content σ)
  | .vertex _ => J.vertex.fromStr
  | .peer _ => J.peer.fromStr
  | .record _ => J.record.fromStr
  | .state => J.state.fromStr

/-- What is written is read back. -/
structure ReadsBack : Prop where
  vertex : J.vertex.ReadsBack
  peer : J.peer.ReadsBack
  record : J.record.ReadsBack
  state : J.state.ReadsBack

/-- Every entry is read back. -/
lemma ReadsBack.fromStr {J : StoreJson σ ω} (h : J.ReadsBack) {draws : CallDraws ω} :
    ∀ {key : StoreKey} {value : key.Content σ} {text : List UInt8},
      J.toStringPretty draws key value = .ok text → J.fromStr key text = .ok value
  | .vertex _, _, _, htext => h.vertex _ _ _ htext
  | .peer _, _, _, htext => h.peer _ _ _ htext
  | .record _, _, _, htext => h.record _ _ _ htext
  | .state, _, _, htext => h.state _ _ _ htext

end StoreJson

/-! ## Files -/

/-- The directories and files of the machine. -/
abbrev StoreTree : Type := FileTree String (List UInt8)

/-- What the store uses besides: how directories are listed, how deep directories go, and the texts
of two errors. -/
structure TreeEnv where
  lister : FileTree.Lister String (List UInt8)
  depth : ℕ
  debugPath : PathBuf → String
  hexError : String → String

/-- The text of an error of the operating system. -/
def ioError : FileTree.Fault String → String
  | .blocked path file =>
    if file = path then "File exists (os error 17)" else "Not a directory (os error 20)"
  | .missing _ => "No such file or directory (os error 2)"
  | .notDirectory _ => "Not a directory (os error 20)"
  | .isDirectory _ => "Is a directory (os error 21)"
  | .unfinished => "File name too long (os error 36)"

namespace StateBackup

/-- A change of the files. -/
def onFiles (m : Fallible PersistenceError Disk Unit) :
    Fallible PersistenceError StoreTree Unit :=
  Fallible.zoom FileTree.files (fun files t => { t with files := files }) m

/-- Create a file in its directory and write it. -/
def writeFile (draws : StoreDraws) (path : PathBuf) (data : List UInt8) :
    Fallible PersistenceError StoreTree Unit := do
  let t ← Fallible.get
  if path ∈ t.dirs then Fallible.fail (.io (ioError (.isDirectory path)))
  else if path.dropLast ∉ t.dirs then Fallible.fail (.io (ioError (.missing path)))
  else onFiles (writeAll draws path data)

/-- Rename a file. -/
def rename (outcome : Except String Unit) (path newPath : PathBuf) :
    Fallible PersistenceError StoreTree Unit := do
  let t ← Fallible.get
  if newPath ∈ t.dirs then Fallible.fail (.io (ioError (.isDirectory newPath)))
  else onFiles (renameFile outcome path newPath)

/-- Write data to file atomically. -/
def writeFileAtomic (draws : StoreDraws) (path : PathBuf) (json : Except String (List UInt8))
    (store : FileStateStore) : Fallible PersistenceError StoreTree Unit := do
  let text ← Fallible.ofExcept (json.mapError .serialization)
  if store.atomicWrites then do
    let tempPath := PathBuf.withExtension "tmp" path
    writeFile draws tempPath text
    rename draws.rename tempPath path
  else
    writeFile draws path text

/-- Read data from file. -/
def readFile {α : Type} (fromStr : List UInt8 → Except String α) (path : PathBuf) (t : StoreTree) :
    Except PersistenceError (Option α) :=
  match t.files.lookup path with
  | some contents => ((fromStr contents).mapError .serialization).map some
  | none => if path ∈ t.dirs then .error (.io (ioError (.isDirectory path))) else .ok none

/-- Remove the file if there is one. -/
def removeFile (outcome : Except String Unit) (path : PathBuf) :
    Fallible PersistenceError StoreTree Unit := do
  let t ← Fallible.get
  if path ∈ t.dirs then Fallible.fail (.io (ioError (.isDirectory path)))
  else if path ∈ t.files then do
    Fallible.ofExcept (outcome.mapError .io)
    Fallible.modify fun t => { t with files := t.files.erase path }
  else pure ()

/-- Create a directory, whose kind is told in the error. -/
def createDir (what : String) (path : PathBuf) : Fallible PersistenceError StoreTree Unit :=
  (FileTree.createDirAll path).mapError fun fault =>
    .directoryCreation ("Failed to create " ++ what ++ ": " ++ ioError fault)

/-- An error of a copy. -/
def copyError : FileTree.Fault String → PersistenceError
  | .blocked path file =>
    .directoryCreation ("Failed to create destination directory: " ++ ioError (.blocked path file))
  | fault => .io (ioError fault)

/-- Copy directory contents recursively. -/
def copyDirAll (env : TreeEnv) (src dst : PathBuf) : Fallible PersistenceError StoreTree Unit :=
  (FileTree.copyDirAll env.lister env.depth src dst).mapError copyError

/-! ## The store -/

/-- Create a new file-based state store. -/
def new (dataDir : PathBuf) : Fallible PersistenceError StoreTree FileStateStore := do
  createDir "data dir" dataDir
  createDir "vertices dir" (dataDir ++ ["vertices"])
  createDir "peers dir" (dataDir ++ ["peers"])
  createDir "domains dir" (dataDir ++ ["domains"])
  pure ⟨dataDir, true⟩

variable {σ ω : Type} (J : StoreJson σ ω) (env : TreeEnv) (draws : CallDraws ω)

/-- The file of an entry. -/
def path (key : StoreKey) (store : FileStateStore) : PathBuf := store.dataDir ++ key.file

/-- Save an entry to storage. -/
def save (key : StoreKey) (value : key.Content σ) (store : FileStateStore) :
    Fallible PersistenceError StoreTree Unit :=
  writeFileAtomic draws.toStoreDraws (path key store) (J.toStringPretty draws key value) store

/-- Save a DAG vertex to storage. -/
def saveVertex (vertex : Vertex) : FileStateStore → Fallible PersistenceError StoreTree Unit :=
  save J draws (.vertex vertex.id) vertex

/-- Save peer information to storage. -/
def savePeer (peerId : PeerId) (info : StoredPeerInfo) :
    FileStateStore → Fallible PersistenceError StoreTree Unit :=
  save J draws (.peer peerId) info

/-- Save a dark domain record to storage. -/
def saveDarkRecord (record : DarkDomainRecord) :
    FileStateStore → Fallible PersistenceError StoreTree Unit :=
  save J draws (.record record.ownerId) record

/-- Save complete persisted state. -/
def saveState (state : σ) : FileStateStore → Fallible PersistenceError StoreTree Unit :=
  save J draws .state state

/-- Remove an entry from storage. -/
def remove (key : StoreKey) (store : FileStateStore) : Fallible PersistenceError StoreTree Unit :=
  removeFile draws.remove (path key store)

/-- Remove a vertex from storage. -/
def removeVertex (id : VertexId) : FileStateStore → Fallible PersistenceError StoreTree Unit :=
  remove draws (.vertex id)

/-- Remove a peer from storage. -/
def removePeer (peerId : PeerId) : FileStateStore → Fallible PersistenceError StoreTree Unit :=
  remove draws (.peer peerId)

/-- Remove a dark domain record from storage by owner ID. -/
def removeDarkRecord (ownerId : PeerId) :
    FileStateStore → Fallible PersistenceError StoreTree Unit :=
  remove draws (.record ownerId)

/-- The file of a health check. -/
def healthFile : PathBuf := [".health_check"]

/-- Check if storage is healthy. The file is removed again, if that succeeds. -/
def healthCheck (store : FileStateStore) : Fallible PersistenceError StoreTree Bool := fun t =>
  let testFile := store.dataDir ++ healthFile
  match (writeFile { draws.toStoreDraws with failure := none } testFile []).run t with
  | (.ok _, t') => (.ok true, ((removeFile draws.remove testFile).run t').2)
  | (.error _, t') => (.ok false, t')

/-- Create backup of the entire state. -/
def createBackup (backupPath : PathBuf) (store : FileStateStore) :
    Fallible PersistenceError StoreTree Unit := do
  createDir "backup dir" backupPath
  createDir "backup data dir" (backupPath ++ ["data"])
  copyDirAll env store.dataDir (backupPath ++ ["data"])

/-- Clear current data directory. -/
def clear (store : FileStateStore) : Fallible PersistenceError StoreTree Unit := do
  let t ← Fallible.get
  if store.dataDir ∈ t.dirs then Fallible.modify (FileTree.removeDirAll store.dataDir)
  else if store.dataDir ∈ t.files then
    Fallible.fail (.io (ioError (.notDirectory store.dataDir)))
  else pure ()

/-- Restore from backup. -/
def restoreBackup (backupPath : PathBuf) (store : FileStateStore) :
    Fallible PersistenceError StoreTree Unit := do
  let t ← Fallible.get
  if backupPath ++ ["data"] ∉ t.dirs ∧ backupPath ++ ["data"] ∉ t.files then
    Fallible.fail (.fileNotFound
      ("Backup data directory not found: " ++ env.debugPath (backupPath ++ ["data"])))
  else do
    clear store
    copyDirAll env (backupPath ++ ["data"]) store.dataDir

/-! ### Loading -/

/-- Load a DAG vertex from storage by ID. -/
def loadVertex (id : VertexId) (t : StoreTree) (store : FileStateStore) :
    Except PersistenceError (Option Vertex) :=
  readFile (J.fromStr (.vertex id)) (path (.vertex id) store) t

/-- Recover complete persisted state. -/
def recoverState (t : StoreTree) (store : FileStateStore) : Except PersistenceError (Option σ) :=
  readFile (J.fromStr .state) (path .state store) t

/-- The names in a directory. -/
def entries (dir : PathBuf) (t : StoreTree) : Except PersistenceError (List String) :=
  (((FileTree.readDir env.lister dir).run t).1).mapError fun fault => .io (ioError fault)

/-- The name is one of an entry. -/
abbrev IsEntry (name : String) : Prop := FileStateStore.IsJson [name]

/-- The peer of a file name. -/
def peerOfName (name : String) : Except PersistenceError PeerId :=
  match Hex.decode (fileStem name) with
  | none => .error (.invalidFormat ("Invalid peer ID: " ++ env.hexError (fileStem name)))
  | some bytes =>
    if h : bytes.length = 32 then .ok ⟨bytes, h⟩
    else .error (.invalidFormat "Invalid peer ID length")

/-- Read the peers of the files, one after the other. -/
def loadPeerFiles (t : StoreTree) (dir : PathBuf) :
    List String → Except PersistenceError (List (PeerId × StoredPeerInfo))
  | [] => .ok []
  | name :: names =>
    if IsEntry name then do
      let peerId ← peerOfName env name
      match ← readFile J.peer.fromStr (dir ++ [name]) t with
      | none => loadPeerFiles t dir names
      | some info => return (peerId, info) :: (← loadPeerFiles t dir names)
    else loadPeerFiles t dir names

/-- Load all peers from storage. -/
def loadPeers (t : StoreTree) (store : FileStateStore) :
    Except PersistenceError (List (PeerId × StoredPeerInfo)) := do
  loadPeerFiles J env t (store.dataDir ++ ["peers"]) (← entries env (store.dataDir ++ ["peers"]) t)

/-- Read the records of the files, one after the other. -/
def loadRecordFiles (t : StoreTree) (dir : PathBuf) :
    List String → Except PersistenceError (List DarkDomainRecord)
  | [] => .ok []
  | name :: names =>
    if IsEntry name then do
      match ← readFile J.record.fromStr (dir ++ [name]) t with
      | none => loadRecordFiles t dir names
      | some record => return record :: (← loadRecordFiles t dir names)
    else loadRecordFiles t dir names

/-- Load all dark domain records from storage. -/
def loadDarkRecords (t : StoreTree) (store : FileStateStore) :
    Except PersistenceError (List DarkDomainRecord) := do
  loadRecordFiles J t (store.dataDir ++ ["domains"])
    (← entries env (store.dataDir ++ ["domains"]) t)

/-- Count the entries of a directory. -/
def count (dir : PathBuf) (t : StoreTree) : Except PersistenceError ℕ :=
  (entries env dir t).map fun names => names.countP fun name => IsEntry name

/-- Get total number of stored vertices. -/
def vertexCount (t : StoreTree) (store : FileStateStore) : Except PersistenceError ℕ :=
  count env (store.dataDir ++ ["vertices"]) t

/-- Get total number of stored peers. -/
def peerCount (t : StoreTree) (store : FileStateStore) : Except PersistenceError ℕ :=
  count env (store.dataDir ++ ["peers"]) t

/-- Get total number of stored dark records. -/
def darkRecordCount (t : StoreTree) (store : FileStateStore) : Except PersistenceError ℕ :=
  count env (store.dataDir ++ ["domains"]) t

end StateBackup

/-! ## Calls -/

/-- A call that changes the store or a backup. -/
inductive StoreCall (σ : Type)
  | saveVertex (vertex : Vertex)
  | savePeer (peerId : PeerId) (info : StoredPeerInfo)
  | saveDarkRecord (record : DarkDomainRecord)
  | saveState (state : σ)
  | removeVertex (id : VertexId)
  | removePeer (peerId : PeerId)
  | removeDarkRecord (ownerId : PeerId)
  | healthCheck
  | createBackup (backupPath : PathBuf)
  | restoreBackup (backupPath : PathBuf)

/-- The files, and the calls that succeeded so far. -/
structure BackupRun (σ : Type) where
  tree : StoreTree
  done : List (StoreCall σ)

namespace StateBackup

variable {σ ω : Type} (J : StoreJson σ ω) (env : TreeEnv) (store : FileStateStore)

/-- What a call does to the files. -/
def perform (draws : CallDraws ω) : StoreCall σ → Fallible PersistenceError StoreTree Unit
  | .saveVertex vertex => saveVertex J draws vertex store
  | .savePeer peerId info => savePeer J draws peerId info store
  | .saveDarkRecord record => saveDarkRecord J draws record store
  | .saveState state => saveState J draws state store
  | .removeVertex id => removeVertex draws id store
  | .removePeer peerId => removePeer draws peerId store
  | .removeDarkRecord ownerId => removeDarkRecord draws ownerId store
  | .healthCheck => do
    let _ ← healthCheck draws store
    pure ()
  | .createBackup backupPath => createBackup env backupPath store
  | .restoreBackup backupPath => restoreBackup env backupPath store

/-- Perform a call. -/
def apply (s : BackupRun σ) (call : CallDraws ω × StoreCall σ) : BackupRun σ :=
  let r := (perform J env store call.1 call.2).run s.tree
  ⟨r.2, if r.1.isOk then s.done ++ [call.2] else s.done⟩

end StateBackup

end QuDAG.Protocol
