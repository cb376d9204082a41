import QuDAG.Protocol.StateStore

/-!
# Records of dark domains are kept by owner

Both stores keep one record for each owner: the one that this owner saved last. So an owner that
saves records for several domains finds only the last of them, in the files as in memory.

## Main definitions

* `lastSaved` — what each owner saved last.
* `FileStateStore.Holds` — the files hold given records.
* `FileStateStore.LoadsEverySaved` — every record that was saved for a domain is loaded.

## Main results

* `FileStateStore.holds_apply` — what one operation does to the files.
* `FileStateStore.loadDarkRecords_run` — after any operations the files and the memory hold the same
  records, the last one of each owner.
-/

namespace QuDAG.Protocol

open RustStd
open QuDAG.Vault (PathBuf Disk fileStem)

/-! ## Names of files -/

section Names

variable {stem extension : String}

/-- The characters of a name with an extension, from the end. -/
lemma reverse_toList_name : (stem ++ "." ++ extension).toList.reverse =
    extension.toList.reverse ++ '.' :: stem.toList.reverse := by
  simp

/-- A name with an extension has it. -/
lemma fileExtension_append (hstem : stem ≠ "") (hne : extension ≠ "")
    (hdot : '.' ∉ extension.toList) :
    fileExtension (stem ++ "." ++ extension) = some extension := by
  have hnil : stem.toList ≠ [] := by simpa using hstem
  have htail : '.' ∈ (stem ++ "." ++ extension).toList.tail := by
    rw [String.toList_append, String.toList_append, List.append_assoc,
      List.tail_append_of_ne_nil hnil]
    simp
  have hdots : stem ++ "." ++ extension ≠ ".." := by
    intro heq
    have hnil' : extension.toList.reverse ≠ [] := by simpa using hne
    -- the last character of the extension would be a dot
    have hhead := congrArg (fun s : String => s.toList.reverse.head?) heq
    simp only [reverse_toList_name, List.head?_append_of_ne_nil _ hnil'] at hhead
    exact hdot (List.mem_reverse.mp (List.mem_of_head? hhead))
  have htake : (stem ++ "." ++ extension).toList.reverse.takeWhile (· ≠ '.') =
      extension.toList.reverse := by
    rw [reverse_toList_name, List.takeWhile_append_of_pos]
    · simp
    · intro c hc
      have hne : c ≠ '.' := fun h => hdot (List.mem_reverse.mp (h ▸ hc))
      simpa using hne
  rw [fileExtension, if_neg (not_or.mpr ⟨hdots, not_not.mpr htail⟩), htake, List.reverse_reverse,
    String.ofList_toList]

/-- A name without its extension is its stem. -/
lemma fileStem_append (hstem : stem ≠ "") (hdot : '.' ∉ extension.toList) :
    fileStem (stem ++ "." ++ extension) = stem := by
  have hdrop : ((stem ++ "." ++ extension).toList.reverse.dropWhile (· ≠ '.')).tail.reverse =
      stem.toList := by
    rw [reverse_toList_name, List.dropWhile_append_of_pos]
    · simp
    · intro c hc
      have hne : c ≠ '.' := fun h => hdot (List.mem_reverse.mp (h ▸ hc))
      simpa using hne
  unfold fileStem
  rw [hdrop]
  split
  · next h => exact absurd (by simpa using h) hstem
  · rw [String.ofList_toList]

end Names

/-- An owner has a name. -/
lemma PeerId.encode_ne (ownerId : PeerId) : Hex.encode ownerId.bytes ≠ "" := by
  intro h
  have hbytes := congrArg Hex.decode h
  rw [Hex.decode_encode] at hbytes
  have hlength := ownerId.length_eq
  rw [Option.some.inj (hbytes.trans (by rfl : Hex.decode "" = some []))] at hlength
  simp at hlength

/-- Owners with the same name are the same. -/
lemma PeerId.encode_inj {a b : PeerId} (h : Hex.encode a.bytes = Hex.encode b.bytes) : a = b := by
  have hbytes := congrArg Hex.decode h
  rw [Hex.decode_encode, Hex.decode_encode] at hbytes
  cases a
  cases b
  simpa using hbytes

namespace FileStateStore

variable (store : FileStateStore) (ownerId : PeerId)

lemma json_eq :
    Hex.encode ownerId.bytes ++ ".json" = Hex.encode ownerId.bytes ++ "." ++ "json" := by
  rw [String.append_assoc]
  rfl

/-- The file of an owner is a record. -/
lemma isJson_ownerPath : IsJson (store.ownerPath ownerId) := by
  rw [IsJson, ownerPath, List.getLast?_concat, json_eq]
  exact fileExtension_append ownerId.encode_ne (by decide) (by decide)

/-- The temporary file of an owner. -/
lemma withExtension_ownerPath : PathBuf.withExtension "tmp" (store.ownerPath ownerId) =
    store.domainsDir ++ [Hex.encode ownerId.bytes ++ "." ++ "tmp"] := by
  have hextension : fileExtension (Hex.encode ownerId.bytes ++ "." ++ "json") = some "json" :=
    fileExtension_append ownerId.encode_ne (by decide) (by decide)
  have hname : ¬(Hex.encode ownerId.bytes ++ "." ++ "json" = "" ∨
      Hex.encode ownerId.bytes ++ "." ++ "json" = "." ∨
      Hex.encode ownerId.bytes ++ "." ++ "json" = "..") := by
    -- these three names have no extension
    rintro (h | h | h) <;> rw [h] at hextension <;> revert hextension <;> decide
  rw [PathBuf.withExtension, ownerPath, List.getLast?_concat, json_eq]
  simp only
  rw [if_neg hname, List.dropLast_concat, fileStem_append ownerId.encode_ne (by decide)]

/-- The temporary file of an owner is no record. -/
lemma not_isJson_tmp : ¬IsJson (PathBuf.withExtension "tmp" (store.ownerPath ownerId)) := by
  rw [withExtension_ownerPath, IsJson, List.getLast?_concat]
  show fileExtension _ ≠ _
  rw [fileExtension_append ownerId.encode_ne (by decide) (by decide)]
  decide

/-- Every owner has its own file. -/
lemma ownerPath_inj {a b : PeerId} : store.ownerPath a = store.ownerPath b ↔ a = b := by
  constructor
  · intro h
    simp only [ownerPath, List.append_cancel_left_eq, List.cons.injEq, and_true] at h
    exact PeerId.encode_inj (by simpa using h)
  · rintro rfl
    rfl

end FileStateStore

/-! ## Single operations -/

section Writes

variable {disk : Disk} {draws : StoreDraws} {path : PathBuf} {data : List UInt8}

/-- Writing a file leaves the other ones alone. -/
lemma lookup_writeAll_ne {other : PathBuf} (h : other ≠ path) :
    ((writeAll draws path data).run disk).2.lookup other = disk.lookup other := by
  unfold writeAll
  cases hcreate : draws.create with
  | error e => rfl
  | ok u =>
    cases hfailure : draws.failure with
    | none => exact Finmap.lookup_insert_of_ne disk h
    | some failure => exact Finmap.lookup_insert_of_ne disk h

/-- A file that is written holds the data. -/
lemma writeAll_ok {after : Disk} {u : Unit}
    (hrun : (writeAll draws path data).run disk = (.ok u, after)) :
    after = disk.insert path data := by
  unfold writeAll at hrun
  obtain ⟨_, mid, hcreate, hrun⟩ := Fallible.run_bind_ok.mp hrun
  obtain ⟨-, rfl⟩ := Fallible.run_ofExcept_ok.mp hcreate
  cases hfailure : draws.failure with
  | none =>
    rw [hfailure] at hrun
    exact (Fallible.run_modify_ok.mp hrun).symm
  | some failure =>
    rw [hfailure] at hrun
    obtain ⟨_, mid, -, hfail⟩ := Fallible.run_bind_ok.mp hrun
    simp at hfail

/-- Renaming a file moves the data, or it changes nothing. -/
lemma run_renameFile {outcome : Except String Unit} {newPath : PathBuf}
    (hlookup : disk.lookup path = some data) :
    (renameFile outcome path newPath).run disk =
      match outcome with
      | .ok _ => (.ok (), (disk.erase path).insert newPath data)
      | .error e => (.error (.io e), disk) := by
  rw [renameFile, Fallible.run_bind_of_ok (Fallible.run_get disk), hlookup]
  cases outcome <;> rfl

end Writes

namespace FileStateStore

variable {J : RecordJson} {store : FileStateStore} {disk : Disk}

/-- A record that is saved is in the file of its owner, and the other records are where they
were. -/
lemma saveDarkRecord_ok {draws : StoreDraws} {record : DarkDomainRecord} {after : Disk} {u : Unit}
    (hrun : (store.saveDarkRecord J draws record).run disk = (.ok u, after)) :
    ∃ text, J.toStringPretty draws.order record = .ok text ∧
      after.lookup (store.ownerPath record.ownerId) = some text ∧
      ∀ path, IsJson path → path ≠ store.ownerPath record.ownerId →
        after.lookup path = disk.lookup path := by
  unfold saveDarkRecord writeFileAtomic domainPath at hrun
  obtain ⟨text, mid, hjson, hrun⟩ := Fallible.run_bind_ok.mp hrun
  obtain ⟨htext, rfl⟩ := Fallible.run_ofExcept_ok.mp hjson
  refine ⟨text, mapError_eq_ok.mp htext, ?_⟩
  have htmp := store.not_isJson_tmp record.ownerId
  split_ifs at hrun with hatomic
  · obtain ⟨_, mid, hwrite, hrun⟩ := Fallible.run_bind_ok.mp hrun
    obtain rfl := writeAll_ok hwrite
    rw [run_renameFile (Finmap.lookup_insert _)] at hrun
    cases hrename : draws.rename with
    | error e =>
      rw [hrename] at hrun
      simp at hrun
    | ok u =>
      rw [hrename, Prod.mk.injEq] at hrun
      obtain ⟨-, rfl⟩ := hrun
      refine ⟨Finmap.lookup_insert _, fun path hjson hne => ?_⟩
      have hother : path ≠ PathBuf.withExtension "tmp" (store.ownerPath record.ownerId) := by
        rintro rfl
        exact htmp hjson
      rw [Finmap.lookup_insert_of_ne _ hne, Finmap.lookup_erase_ne hother,
        Finmap.lookup_insert_of_ne _ hother]
  · obtain rfl := writeAll_ok hrun
    exact ⟨Finmap.lookup_insert _, fun path _ hne => Finmap.lookup_insert_of_ne _ hne⟩

/-- A save that fails leaves every record where it was, if the writes are atomic. -/
lemma saveDarkRecord_error (hatomic : store.atomicWrites = true) {draws : StoreDraws}
    {record : DarkDomainRecord} {after : Disk} {e : PersistenceError}
    (hrun : (store.saveDarkRecord J draws record).run disk = (.error e, after)) {path : PathBuf}
    (hpath : IsJson path) : after.lookup path = disk.lookup path := by
  unfold saveDarkRecord writeFileAtomic domainPath at hrun
  have hother : path ≠ PathBuf.withExtension "tmp" (store.ownerPath record.ownerId) := by
    rintro rfl
    exact store.not_isJson_tmp record.ownerId hpath
  rcases Fallible.run_bind_error.mp hrun with hjson | ⟨text, mid, hjson, hrun⟩
  · rw [Fallible.run_ofExcept, Prod.mk.injEq] at hjson
    rw [hjson.2]
  · obtain ⟨-, rfl⟩ := Fallible.run_ofExcept_ok.mp hjson
    rw [if_pos hatomic] at hrun
    rcases Fallible.run_bind_error.mp hrun with hwrite | ⟨_, mid, hwrite, hrun⟩
    · have hkept := @lookup_writeAll_ne disk draws _ text path hother
      rwa [hwrite] at hkept
    · obtain rfl := writeAll_ok hwrite
      rw [run_renameFile (Finmap.lookup_insert _)] at hrun
      cases hrename : draws.rename with
      | error e =>
        rw [hrename, Prod.mk.injEq] at hrun
        rw [← hrun.2, Finmap.lookup_insert_of_ne _ hother]
      | ok u =>
        rw [hrename] at hrun
        simp at hrun

/-- A record that is removed is gone, and the others are where they were. -/
lemma removeDarkRecord_ok {outcome : Except String Unit} {ownerId : PeerId} {after : Disk}
    {u : Unit} (hrun : (store.removeDarkRecord outcome ownerId).run disk = (.ok u, after)) :
    after.lookup (store.ownerPath ownerId) = none ∧
      ∀ path ≠ store.ownerPath ownerId, after.lookup path = disk.lookup path := by
  rw [removeDarkRecord, Fallible.run_bind_of_ok (Fallible.run_get disk)] at hrun
  split_ifs at hrun with hmem
  · obtain ⟨_, mid, houtcome, hrun⟩ := Fallible.run_bind_ok.mp hrun
    obtain ⟨-, rfl⟩ := Fallible.run_ofExcept_ok.mp houtcome
    obtain rfl := Fallible.run_modify_ok.mp hrun
    exact ⟨Finmap.lookup_erase _ _, fun path hne => Finmap.lookup_erase_ne hne⟩
  · obtain ⟨-, rfl⟩ := Fallible.run_pure_ok.mp hrun
    exact ⟨Finmap.lookup_eq_none.mpr hmem, fun _ _ => rfl⟩

/-- A removal that fails changes nothing. -/
lemma removeDarkRecord_error {outcome : Except String Unit} {ownerId : PeerId} {after : Disk}
    {e : PersistenceError}
    (hrun : (store.removeDarkRecord outcome ownerId).run disk = (.error e, after)) :
    after = disk := by
  rw [removeDarkRecord, Fallible.run_bind_of_ok (Fallible.run_get disk)] at hrun
  split_ifs at hrun with hmem
  · rcases Fallible.run_bind_error.mp hrun with houtcome | ⟨_, mid, -, hmodify⟩
    · exact (Prod.mk.inj houtcome).2.symm
    · simp at hmodify
  · simp at hrun

end FileStateStore

/-! ## What the stores hold -/

/-- What an operation does to the record of each owner. -/
def StoreOp.update (records : PeerId → Option DarkDomainRecord) :
    StoreOp → PeerId → Option DarkDomainRecord
  | .save _ record => Function.update records record.ownerId (some record)
  | .remove _ ownerId => Function.update records ownerId none

/-- What each owner saved last, and did not remove after that. -/
def lastSaved (ops : List StoreOp) : PeerId → Option DarkDomainRecord :=
  ops.foldl StoreOp.update fun _ => none

/-- The files of the store hold the records. -/
structure FileStateStore.Holds (J : RecordJson) (store : FileStateStore) (disk : Disk)
    (records : PeerId → Option DarkDomainRecord) : Prop where
  saved : ∀ ownerId record, records ownerId = some record → record.ownerId = ownerId ∧
    ∃ order text, J.toStringPretty order record = .ok text ∧
      disk.lookup (store.ownerPath ownerId) = some text
  only : ∀ path ∈ disk, path.dropLast = store.domainsDir → IsJson path →
    ∃ ownerId, (records ownerId).isSome ∧ path = store.ownerPath ownerId

/-- The map of the store holds the records. -/
structure MemoryStateStore.Holds (store : MemoryStateStore)
    (records : PeerId → Option DarkDomainRecord) : Prop where
  saved : ∀ ownerId, store.darkRecords.lookup (Hex.encode ownerId.bytes) = records ownerId
  only : ∀ key ∈ store.darkRecords, ∃ ownerId : PeerId, key = Hex.encode ownerId.bytes
  owner : ∀ ownerId record, records ownerId = some record → record.ownerId = ownerId

/-- Only the records of a directory matter to what it holds. -/
lemma FileStateStore.Holds.congr {J : RecordJson} {store : FileStateStore} {disk after : Disk}
    {records : PeerId → Option DarkDomainRecord} (h : store.Holds J disk records)
    (hsame : ∀ path, IsJson path → after.lookup path = disk.lookup path) :
    store.Holds J after records := by
  constructor
  · intro ownerId record hrecord
    obtain ⟨howner, order, text, htext, hlookup⟩ := h.saved ownerId record hrecord
    exact ⟨howner, order, text, htext, (hsame _ (store.isJson_ownerPath ownerId)).trans hlookup⟩
  · intro path hpath hdir hjson
    rw [HashMap.mem_iff_exists, hsame path hjson, ← HashMap.mem_iff_exists] at hpath
    exact h.only path hpath hdir hjson

/-- The files after a save: the new record is in the file of its owner. -/
lemma FileStateStore.Holds.save {J : RecordJson} {store : FileStateStore} {disk after : Disk}
    {records : PeerId → Option DarkDomainRecord} (h : store.Holds J disk records)
    {draws : StoreDraws} {record : DarkDomainRecord} {u : Unit}
    (hrun : (store.saveDarkRecord J draws record).run disk = (.ok u, after)) :
    store.Holds J after (StoreOp.update records (.save draws record)) := by
  obtain ⟨text, htext, hnew, hsame⟩ := saveDarkRecord_ok hrun
  dsimp only [StoreOp.update]
  constructor
  · intro ownerId other hother
    by_cases howner : ownerId = record.ownerId
    · rw [howner, Function.update_self, Option.some.injEq] at hother
      rw [← hother, howner]
      exact ⟨rfl, draws.order, text, htext, hnew⟩
    · rw [Function.update_of_ne howner] at hother
      obtain ⟨hown, order, text', htext', hlookup⟩ := h.saved ownerId other hother
      refine ⟨hown, order, text', htext', ?_⟩
      rw [hsame _ (store.isJson_ownerPath ownerId) (by simpa [ownerPath_inj] using howner), hlookup]
  · intro path hpath hdir hjson
    by_cases heq : path = store.ownerPath record.ownerId
    · exact ⟨record.ownerId, by simp, heq⟩
    · rw [HashMap.mem_iff_exists, hsame path hjson heq, ← HashMap.mem_iff_exists] at hpath
      obtain ⟨ownerId, hsome, rfl⟩ := h.only path hpath hdir hjson
      refine ⟨ownerId, ?_, rfl⟩
      rwa [Function.update_of_ne (by simpa [ownerPath_inj] using heq)]

/-- The files after a removal. -/
lemma FileStateStore.Holds.remove {J : RecordJson} {store : FileStateStore} {disk after : Disk}
    {records : PeerId → Option DarkDomainRecord} (h : store.Holds J disk records)
    {outcome : Except String Unit} {ownerId : PeerId} {u : Unit}
    (hrun : (store.removeDarkRecord outcome ownerId).run disk = (.ok u, after)) :
    store.Holds J after (StoreOp.update records (.remove outcome ownerId)) := by
  obtain ⟨hgone, hsame⟩ := removeDarkRecord_ok hrun
  dsimp only [StoreOp.update]
  constructor
  · intro other record hrecord
    have hne : other ≠ ownerId := by
      rintro rfl
      simp at hrecord
    rw [Function.update_of_ne hne] at hrecord
    obtain ⟨hown, order, text, htext, hlookup⟩ := h.saved other record hrecord
    refine ⟨hown, order, text, htext, ?_⟩
    rw [hsame _ (by simpa [ownerPath_inj] using hne), hlookup]
  · intro path hpath hdir hjson
    have hne : path ≠ store.ownerPath ownerId := by
      rintro rfl
      exact Finmap.lookup_eq_none.mp hgone hpath
    rw [HashMap.mem_iff_exists, hsame path hne, ← HashMap.mem_iff_exists] at hpath
    obtain ⟨other, hsome, rfl⟩ := h.only path hpath hdir hjson
    refine ⟨other, ?_, rfl⟩
    rwa [Function.update_of_ne (by simpa [ownerPath_inj] using hne)]

/-- The map after an operation. -/
lemma MemoryStateStore.Holds.perform {store : MemoryStateStore}
    {records : PeerId → Option DarkDomainRecord} (h : store.Holds records) (op : StoreOp) :
    (store.perform op).Holds (StoreOp.update records op) := by
  cases op with
  | save draws record =>
    dsimp only [MemoryStateStore.perform, saveDarkRecord, StoreOp.update]
    refine ⟨fun ownerId => ?_, fun key hkey => ?_, fun ownerId other hother => ?_⟩
    · rw [HashMap.lookup_insert_ite, Function.update_apply]
      split_ifs with hkey howner howner
      · rfl
      · exact absurd (PeerId.encode_inj hkey) howner
      · exact absurd (congrArg (fun i : PeerId => Hex.encode i.bytes) howner) hkey
      · exact h.saved ownerId
    · rcases Finmap.mem_insert.mp hkey with rfl | hkey
      · exact ⟨_, rfl⟩
      · exact h.only key hkey
    · by_cases howner : ownerId = record.ownerId
      · rw [howner, Function.update_self, Option.some.injEq] at hother
        rw [← hother, howner]
      · rw [Function.update_of_ne howner] at hother
        exact h.owner ownerId other hother
  | remove outcome owner =>
    dsimp only [MemoryStateStore.perform, removeDarkRecord, StoreOp.update]
    refine ⟨fun ownerId => ?_, fun key hkey => ?_, fun ownerId other hother => ?_⟩
    · by_cases howner : ownerId = owner
      · rw [howner, Finmap.lookup_erase, Function.update_self]
      · rw [Finmap.lookup_erase_ne fun hkey => howner (PeerId.encode_inj hkey),
          Function.update_of_ne howner]
        exact h.saved ownerId
    · exact h.only key (Finmap.mem_erase.mp hkey).2
    · have hne : ownerId ≠ owner := by
        rintro rfl
        simp at hother
      rw [Function.update_of_ne hne] at hother
      exact h.owner ownerId other hother

/-! ## Runs -/

lemma lastSaved_concat (ops : List StoreOp) (op : StoreOp) :
    lastSaved (ops ++ [op]) = StoreOp.update (lastSaved ops) op := by
  rw [lastSaved, List.foldl_append]
  rfl

/-- In memory, every operation succeeds. -/
lemma MemoryStateStore.holds_foldl (ops : List StoreOp) :
    (ops.foldl MemoryStateStore.perform .new).Holds (lastSaved ops) := by
  induction ops using List.reverseRecOn with
  | nil =>
    constructor
    · exact fun _ => Finmap.lookup_empty _
    · exact fun key hkey => absurd hkey Finmap.notMem_empty
    · simp [lastSaved]
  | append_singleton ops op ih =>
    rw [List.foldl_append, lastSaved_concat]
    exact ih.perform op

namespace FileStateStore

variable {J : RecordJson} {store : FileStateStore}

/-- The operation succeeds, or it leaves the files whole. -/
def Safe (J : RecordJson) (store : FileStateStore) (s : StoreRun) (op : StoreOp) : Prop :=
  store.atomicWrites = true ∨ store.succeeds J s op = true

/-- **What one operation does to the files**: if it succeeds, what it says, and otherwise
nothing. -/
lemma holds_apply {s : StoreRun} {op : StoreOp} (h : store.Holds J s.disk (lastSaved s.done))
    (hsafe : store.Safe J s op) :
    store.Holds J (store.apply J s op).disk (lastSaved (store.apply J s op).done) := by
  rcases Fallible.run_cases (store.perform J op) s.disk with ⟨u, after, hrun⟩ | ⟨e, after, hrun⟩
  · have hdone : store.succeeds J s op = true := by rw [succeeds, hrun]; rfl
    rw [apply, hrun, if_pos hdone, lastSaved_concat]
    cases op with
    | save draws record => exact h.save hrun
    | remove outcome ownerId => exact h.remove hrun
  · have hdone : store.succeeds J s op = false := by rw [succeeds, hrun]; rfl
    have hatomic : store.atomicWrites = true := hsafe.resolve_right (by simp [hdone])
    rw [apply, hrun, if_neg (by simp [hdone])]
    cases op with
    | save draws record => exact h.congr fun path hpath => saveDarkRecord_error hatomic hrun hpath
    | remove outcome ownerId =>
      obtain rfl := removeDarkRecord_error hrun
      exact h

/-- A directory without records. -/
def Fresh (store : FileStateStore) (disk : Disk) : Prop :=
  ∀ path ∈ disk, path.dropLast = store.domainsDir → ¬IsJson path

/-- After any operations the files hold what each owner saved last. -/
lemma holds_run {disk : Disk} (hfresh : store.Fresh disk) {ops : List StoreOp}
    (hsafe : Runs.Steps (store.apply J) (store.Safe J) ⟨disk, []⟩ ops) :
    store.Holds J (Runs.run (store.apply J) ⟨disk, []⟩ ops).disk
      (lastSaved (Runs.run (store.apply J) ⟨disk, []⟩ ops).done) := by
  refine Runs.run_rule (fun s => store.Holds J s.disk (lastSaved s.done))
    (fun s op h hsafe => holds_apply h hsafe) hsafe ⟨?_, ?_⟩
  · simp [lastSaved]
  · exact fun path hpath hdir hjson => absurd hjson (hfresh path hpath hdir)

end FileStateStore

/-! ## Loading -/

/-- The list has one record for each owner that has one. -/
def Lists (records : PeerId → Option DarkDomainRecord) (l : List DarkDomainRecord) : Prop :=
  (l.map DarkDomainRecord.ownerId).Nodup ∧ ∀ record, record ∈ l ↔
    records record.ownerId = some record

/-- Two such lists differ in their order only. -/
lemma Lists.perm {records : PeerId → Option DarkDomainRecord} {l l' : List DarkDomainRecord}
    (h : Lists records l) (h' : Lists records l') : l.Perm l' :=
  (List.perm_ext_iff_of_nodup h.1.of_map h'.1.of_map).mpr fun record => by rw [h.2, h'.2]

/-- The memory is loaded in full. -/
lemma MemoryStateStore.Holds.lists {store : MemoryStateStore}
    {records : PeerId → Option DarkDomainRecord} (h : store.Holds records)
    (entries : HashMap.Iteration String DarkDomainRecord) :
    Lists records (store.loadDarkRecords entries) := by
  have henum := entries.enumerates store.darkRecords
  have hkey : ∀ e ∈ entries.order store.darkRecords, e.1 = Hex.encode e.2.ownerId.bytes := by
    intro e he
    have hlookup := (henum.2 e.1 e.2).mp he
    obtain ⟨ownerId, hname⟩ := h.only e.1 (HashMap.mem_of_lookup hlookup)
    rw [hname, h.saved] at hlookup
    rw [h.owner ownerId e.2 hlookup, hname]
  constructor
  · -- the owners are those of the keys
    have hnodup := henum.1
    rw [List.map_congr_left hkey] at hnodup
    rw [loadDarkRecords, List.map_map]
    refine List.Nodup.of_map (fun i : PeerId => Hex.encode i.bytes) ?_
    rwa [List.map_map]
  · intro record
    rw [loadDarkRecords, List.mem_map]
    constructor
    · rintro ⟨e, he, rfl⟩
      rw [← h.saved, ← hkey e he]
      exact (henum.2 e.1 e.2).mp he
    · intro hrecord
      rw [← h.saved] at hrecord
      exact ⟨(_, record), (henum.2 _ _).mpr hrecord, rfl⟩

namespace FileStateStore

variable {J : RecordJson} {store : FileStateStore} {disk : Disk}
  {records : PeerId → Option DarkDomainRecord}

/-- The file of an owner is read. -/
lemma Holds.readFile (h : store.Holds J disk records) (hJ : J.ReadsBack) {ownerId : PeerId}
    {record : DarkDomainRecord} (hrecord : records ownerId = some record) :
    readFile J (store.ownerPath ownerId) disk = .ok (some record) := by
  obtain ⟨-, order, text, htext, hlookup⟩ := h.saved ownerId record hrecord
  rw [FileStateStore.readFile, hlookup]
  simp only [hJ order record text htext]
  rfl

/-- The records in listed files: those of the owners that the files belong to. -/
lemma Holds.loadFiles (h : store.Holds J disk records) (hJ : J.ReadsBack) :
    ∀ {paths : List PathBuf}, paths.Nodup →
      (∀ path ∈ paths, path ∈ disk ∧ path.dropLast = store.domainsDir) →
      ∃ l, loadFiles J disk paths = .ok l ∧ (l.map DarkDomainRecord.ownerId).Nodup ∧
        ∀ record, record ∈ l ↔ records record.ownerId = some record ∧
          store.ownerPath record.ownerId ∈ paths
  | [], _, _ => ⟨[], rfl, by simp⟩
  | path :: paths, hnodup, hlisted => by
    rw [List.nodup_cons] at hnodup
    rw [List.forall_mem_cons] at hlisted
    obtain ⟨l, hload, hl, hmem⟩ := h.loadFiles hJ hnodup.2 hlisted.2
    by_cases hjson : IsJson path
    · obtain ⟨ownerId, hsome, rfl⟩ := h.only path hlisted.1.1 hlisted.1.2 hjson
      obtain ⟨record, hrecord⟩ := Option.isSome_iff_exists.mp hsome
      have howner := (h.saved ownerId record hrecord).1
      refine ⟨record :: l, ?_, ?_, fun other => ?_⟩
      · simp only [FileStateStore.loadFiles, if_pos hjson, h.readFile hJ hrecord, hload]
        rfl
      · rw [List.map_cons, List.nodup_cons]
        refine ⟨fun hold => ?_, hl⟩
        obtain ⟨other, hother, hsame⟩ := List.mem_map.mp hold
        rw [hmem, hsame, howner] at hother
        exact hnodup.1 hother.2
      · rw [List.mem_cons, List.mem_cons, hmem, ownerPath_inj]
        constructor
        · rintro (rfl | hother)
          · exact ⟨howner ▸ hrecord, .inl howner⟩
          · exact ⟨hother.1, .inr hother.2⟩
        · rintro ⟨hother, hsame | hother'⟩
          · rw [hsame, hrecord] at hother
            exact .inl (Option.some.inj hother).symm
          · exact .inr ⟨hother, hother'⟩
    · refine ⟨l, ?_, hl, fun record => ?_⟩
      · rw [FileStateStore.loadFiles, if_neg hjson, hload]
      · have hne : store.ownerPath record.ownerId ≠ path := by
          rintro rfl
          exact hjson (store.isJson_ownerPath _)
        rw [hmem, List.mem_cons, or_iff_right hne]

/-- **The files are loaded in full**, whatever order they are listed in. -/
lemma Holds.lists (h : store.Holds J disk records) (hJ : J.ReadsBack)
    (entries : HashMap.Iteration PathBuf (List UInt8)) :
    ∃ l, store.loadDarkRecords J entries disk = .ok l ∧ Lists records l := by
  have henum := entries.enumerates disk
  have hlisted : ∀ path ∈ store.listing entries disk,
      path ∈ disk ∧ path.dropLast = store.domainsDir := by
    intro path hpath
    rw [listing, List.mem_filter] at hpath
    exact ⟨henum.mem_keys.mp hpath.1, of_decide_eq_true hpath.2⟩
  have honce : (store.listing entries disk).Nodup := henum.1.filter _
  obtain ⟨l, hload, hnodup, hmem⟩ := h.loadFiles hJ honce hlisted
  refine ⟨l, hload, hnodup, fun record => ?_⟩
  rw [hmem, and_iff_left_iff_imp]
  intro hrecord
  obtain ⟨-, order, text, -, hlookup⟩ := h.saved _ record hrecord
  rw [listing, List.mem_filter, henum.mem_keys]
  refine ⟨HashMap.mem_of_lookup hlookup, ?_⟩
  simp [ownerPath]

/-- **The files and the memory agree**: after any saves and removals through a store of files that
started empty, either all of which succeeded or whose writes are atomic, the loaded records are
those of the store in memory after the operations that succeeded: for each owner, the one that
it saved last. -/
theorem loadDarkRecords_run (hJ : J.ReadsBack) (hfresh : store.Fresh disk) (ops : List StoreOp)
    (hsafe : Runs.Steps (store.apply J) (store.Safe J) ⟨disk, []⟩ ops)
    (files : HashMap.Iteration PathBuf (List UInt8))
    (entries : HashMap.Iteration String DarkDomainRecord) :
    let s := Runs.run (store.apply J) ⟨disk, []⟩ ops
    ∃ l, store.loadDarkRecords J files s.disk = .ok l ∧
      l.Perm ((s.done.foldl MemoryStateStore.perform .new).loadDarkRecords entries) ∧
      (l.map DarkDomainRecord.ownerId).Nodup ∧
      ∀ record, record ∈ l ↔ lastSaved s.done record.ownerId = some record := by
  intro s
  obtain ⟨l, hload, hl⟩ := (holds_run hfresh hsafe).lists hJ files
  exact ⟨l, hload, hl.perm ((MemoryStateStore.holds_foldl s.done).lists entries), hl.1, hl.2⟩

/-! ## Records of one owner -/

/-- A save for a domain. -/
structure DomainSave where
  domain : String
  draws : StoreDraws
  record : DarkDomainRecord

/-- If the records were saved for different domains and every save succeeded, then every record is
loaded. -/
def LoadsEverySaved (J : RecordJson) (store : FileStateStore) (saves : List DomainSave) : Prop :=
  let ops := saves.map fun save => StoreOp.save save.draws save.record
  (saves.map DomainSave.domain).Nodup → (Runs.run (store.apply J) ⟨∅, []⟩ ops).done = ops →
    ∀ files, ∃ l, store.loadDarkRecords J files (Runs.run (store.apply J) ⟨∅, []⟩ ops).disk =
      .ok l ∧ ∀ save ∈ saves, save.record ∈ l

/-- The record of an owner, for a number of seconds. -/
def sampleRecord (owner seconds : UInt8) : DarkDomainRecord :=
  ⟨[1, 2, 3, 4], [5, 6, 7, 8], [⟨.v4 127 0 0 1, 8080⟩], some "test.dark", seconds.toUInt32, 0,
    seconds.toUInt64, ⟨List.replicate 32 owner, List.length_replicate⟩, [], ∅⟩

/-- A writer of such records. -/
def sampleJson : RecordJson where
  toStringPretty _ record :=
    let owner := record.ownerId.bytes.headD 0
    let seconds := record.ttl.toUInt8
    if record = sampleRecord owner seconds then .ok [owner, seconds] else .error "another record"
  fromStr
    | [owner, seconds] => .ok (sampleRecord owner seconds)
    | _ => .error "invalid type"

lemma sampleJson_readsBack : sampleJson.ReadsBack := by
  intro order record text h
  dsimp only [sampleJson] at h
  split_ifs at h with hrecord
  cases h
  exact congrArg Except.ok hrecord.symm

lemma toStringPretty_sampleRecord (order : HashMap.Iteration String String)
    (owner seconds : UInt8) :
    sampleJson.toStringPretty order (sampleRecord owner seconds) = .ok [owner, seconds] := by
  simp [sampleJson, sampleRecord]

/-- Everything succeeds. -/
noncomputable def sampleDraws : StoreDraws := ⟨.arbitrary, .ok (), none, .ok ()⟩

/-- A save of such a record. -/
noncomputable def sampleSave (owner seconds : UInt8) : StoreOp :=
  .save sampleDraws (sampleRecord owner seconds)

/-- A save without a failure succeeds. -/
lemma succeeds_sampleSave (s : StoreRun) (owner seconds : UInt8) :
    store.succeeds sampleJson s (sampleSave owner seconds) = true := by
  rw [succeeds, sampleSave, perform, saveDarkRecord, writeFileAtomic, sampleDraws,
    toStringPretty_sampleRecord]
  generalize PathBuf.withExtension "tmp" (store.domainPath _) = temp
  cases store.atomicWrites with
  | false => rfl
  | true =>
    show ((renameFile (.ok ()) temp _).run (s.disk.insert temp [owner, seconds])).1.isOk = true
    rw [run_renameFile (Finmap.lookup_insert s.disk)]
    rfl

/-- Three saves of two owners: the files and the memory agree. -/
theorem loadDarkRecords_run_twoOwners :
    let store : FileStateStore := ⟨["data"], true⟩
    let s := Runs.run (store.apply sampleJson) ⟨∅, []⟩
      [sampleSave 1 1, sampleSave 2 1, sampleSave 1 2]
    ∃ l, store.loadDarkRecords sampleJson .arbitrary s.disk = .ok l ∧
      l.Perm ((s.done.foldl MemoryStateStore.perform .new).loadDarkRecords .arbitrary) ∧
      (l.map DarkDomainRecord.ownerId).Nodup ∧
      ∀ record, record ∈ l ↔ lastSaved s.done record.ownerId = some record :=
  loadDarkRecords_run sampleJson_readsBack (fun _ hpath => absurd hpath Finmap.notMem_empty) _
    (Runs.steps_of_forall fun _ _ => .inl rfl) .arbitrary .arbitrary

/-- What was saved for one domain is lost when the same owner saves for another. -/
theorem not_loadsEverySaved_oneOwner :
    ¬LoadsEverySaved sampleJson ⟨["data"], true⟩
      [⟨"a.dark", sampleDraws, sampleRecord 1 1⟩, ⟨"b.dark", sampleDraws, sampleRecord 1 2⟩] := by
  intro h
  let s := Runs.run (FileStateStore.apply sampleJson ⟨["data"], true⟩) ⟨∅, []⟩
    [sampleSave 1 1, sampleSave 1 2]
  have hdone : s.done = [sampleSave 1 1, sampleSave 1 2] := by
    simp [s, FileStateStore.apply, succeeds_sampleSave]
  have hholds : FileStateStore.Holds sampleJson ⟨["data"], true⟩ s.disk (lastSaved s.done) :=
    holds_run (fun path hpath => absurd hpath Finmap.notMem_empty)
      (Runs.steps_of_forall fun _ _ => .inl rfl)
  obtain ⟨l, hload, hmem⟩ := h (by decide) hdone .arbitrary
  obtain ⟨l', hload', hl'⟩ := hholds.lists sampleJson_readsBack .arbitrary
  have hfirst := (hl'.2 _).mp (Except.ok.inj (hload.symm.trans hload') ▸
    hmem ⟨"a.dark", sampleDraws, sampleRecord 1 1⟩ (by simp))
  rw [hdone] at hfirst
  revert hfirst
  decide

end FileStateStore

end QuDAG.Protocol
