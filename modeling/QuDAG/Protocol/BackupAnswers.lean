import QuDAG.Protocol.BackupHolds

/-!
# What a store with backups answers (`persistence.rs`)

What is loaded from the files of a store is what the snapshots have. So a backup that is restored
brings the entries back, with those that an earlier backup at the same place had. Two places are not
fit for a backup: one inside the directory of the store, which is copied into itself, and the one
whose data directory is that of the store, which is copied onto itself.

## Main definitions

* `StateBackup.Answers` — the store answers with the entries.

## Main results

* `StateBackup.answers_run` — after any calls the store answers as the snapshots do.
* `StateBackup.answers_restored` — what a backup brings back.
* `StateBackup.createBackup_inside` — a backup inside the directory of the store never succeeds.
* `StateBackup.createBackup_self` — a backup whose data directory is that of the store empties every
  file.
-/

namespace QuDAG.Protocol

open RustStd
open QuDAG.Vault (PathBuf Disk fileStem)
open FileStateStore (IsJson)

namespace StateBackup

open StoreKey (layout)

variable {σ ω : Type}

/-! ## Answers -/

section Answers

variable {J : StoreJson σ ω} {env : TreeEnv} {store : FileStateStore} {t : StoreTree}
  {c : Contents σ}

/-- The store answers with the entries. A vertex without bytes in its identifier is loaded, but not
counted: its file has no extension. -/
structure Answers (J : StoreJson σ ω) (env : TreeEnv) (store : FileStateStore) (t : StoreTree)
    (c : Contents σ) : Prop where
  vertex : ∀ id, loadVertex J id t store = .ok (c.vertex id)
  state : recoverState J t store = .ok c.state
  vertices : ∃ ids : List VertexId, ids.Nodup ∧
    (∀ id, id ∈ ids ↔ id.bytes ≠ [] ∧ (c.vertex id).isSome) ∧
    vertexCount env t store = .ok ids.length
  peers : ∃ ids : List PeerId, ids.Nodup ∧ (∀ id, id ∈ ids ↔ (c.peer id).isSome) ∧
    loadPeers J env t store =
      .ok (ids.filterMap fun id => (c.peer id).map fun info => (id, info)) ∧
    peerCount env t store = .ok ids.length
  records : ∃ ids : List PeerId, ids.Nodup ∧ (∀ id, id ∈ ids ↔ (c.record id).isSome) ∧
    loadDarkRecords J env t store = .ok (ids.filterMap c.record) ∧
    darkRecordCount env t store = .ok ids.length

/-- A file is there iff its entry is stored. -/
lemma Covers.mem_iff {root : PathBuf} (h : Covers J root t c) (key : StoreKey) :
    root ++ key.file ∈ t.files ↔ (c key).isSome := by
  have hrel := h.entry key
  rw [← Finmap.lookup_isSome]
  generalize t.files.lookup (root ++ key.file) = text at hrel ⊢
  generalize c key = value at hrel ⊢
  cases hrel with
  | some _ => rfl
  | none => rfl

/-- **An entry is read.** -/
lemma readFile_path (hJ : J.ReadsBack) (h : Shows J store.dataDir t c) (key : StoreKey) :
    readFile (J.fromStr key) (path key store) t = .ok (c key) := by
  have hrel := h.entry key
  have hdir : store.dataDir ++ key.file ∉ t.dirs := fun hdir =>
    key.file_not_mem_layout (h.dirs _ hdir)
  rw [readFile, path]
  generalize t.files.lookup (store.dataDir ++ key.file) = text at hrel ⊢
  generalize c key = value at hrel ⊢
  cases hrel with
  | some hwrites =>
    obtain ⟨draws, htext⟩ := hwrites
    simp only [hJ.fromStr htext]
    rfl
  | none => simp only [if_neg hdir]

/-- A name with a stem is one of an entry. -/
lemma isEntry_stem {stem : String} (h : stem ≠ "") : IsEntry (stem ++ ".json") := by
  have heq : stem ++ ".json" = stem ++ "." ++ "json" := by
    rw [String.append_assoc]
    rfl
  rw [IsEntry, IsJson, heq]
  exact fileExtension_append h (by decide) (by decide)

/-- The entries of a directory, by its names. -/
lemma exists_keys {ι : Type} (env : TreeEnv) (key : ι → StoreKey) {d : String}
    (h : Shows J store.dataDir t c) (hdir : ∀ i, (key i).dir = [d])
    (hall : ∀ k : StoreKey, k.dir = [d] → ∃ i, k = key i) (hinj : Function.Injective key) :
    ∃ ids : List ι, (env.lister.names t (store.dataDir ++ [d])).filter (fun n => IsEntry n) =
        ids.map (fun i => (key i).stem ++ ".json") ∧ ids.Nodup ∧
      ∀ i, i ∈ ids ↔ IsEntry ((key i).stem ++ ".json") ∧ (c (key i)).isSome := by
  have hfile (i : ι) : (key i).file = [d, (key i).stem ++ ".json"] := by
    rw [StoreKey.file, hdir, List.singleton_append]
  have hno (n : String) : store.dataDir ++ [d] ++ [n] ∉ t.dirs := by
    intro hmem
    rw [List.append_assoc] at hmem
    have hin := h.dirs _ hmem
    simp [layout] at hin
  -- each name is that of an entry
  obtain ⟨ids, hids⟩ : ∃ ids : List ι, ids.map (fun i => (key i).stem ++ ".json") =
      (env.lister.names t (store.dataDir ++ [d])).filter fun n => IsEntry n := by
    rw [← Set.mem_range, Set.range_list_map]
    intro n hn
    obtain ⟨hin, hentry⟩ := List.mem_filter.mp hn
    have hmem := ((env.lister.mem_names ..).mp hin).resolve_right (hno n)
    rw [List.append_assoc] at hmem
    obtain ⟨k, hk⟩ := h.only _ hmem (decide_eq_true_iff.mp hentry)
    have hparts := List.append_inj' (hk : [d] ++ [n] = k.dir ++ [k.stem ++ ".json"]) rfl
    obtain ⟨i, rfl⟩ := hall k hparts.1.symm
    exact ⟨i, (List.cons.inj hparts.2).1.symm⟩
  have hstem {i j : ι} (heq : (key i).stem ++ ".json" = (key j).stem ++ ".json") : i = j := by
    refine hinj (StoreKey.file_injective ?_)
    rw [hfile, hfile, heq]
  refine ⟨ids, hids.symm, ?_, fun i => ?_⟩
  · refine List.Nodup.of_map (fun i => (key i).stem ++ ".json") ?_
    rw [hids]
    exact (env.lister.nodup ..).filter _
  · have hmap : i ∈ ids ↔ (key i).stem ++ ".json" ∈ ids.map fun i => (key i).stem ++ ".json" := by
      refine ⟨fun hi => List.mem_map.mpr ⟨i, hi, rfl⟩, fun hi => ?_⟩
      obtain ⟨j, hj, heq⟩ := List.mem_map.mp hi
      exact hstem heq ▸ hj
    rw [hmap, hids, List.mem_filter, env.lister.mem_names, or_iff_left (hno _), List.append_assoc,
      ← h.mem_iff (key i), hfile, and_comm, decide_eq_true_iff]
    rfl

/-- A directory of the store is listed. -/
lemma entries_eq (h : Shows J store.dataDir t c) {d : String} (hd : [d] ∈ layout) :
    entries env (store.dataDir ++ [d]) t = .ok (env.lister.names t (store.dataDir ++ [d])) := by
  rw [entries, FileTree.run_readDir env.lister (h.layout _ hd)]
  rfl

/-- Entries of a directory are counted. -/
lemma count_eq (h : Shows J store.dataDir t c) {d : String} (hd : [d] ∈ layout)
    {names : List String}
    (hnames : (env.lister.names t (store.dataDir ++ [d])).filter (fun n => IsEntry n) = names) :
    count env (store.dataDir ++ [d]) t = .ok names.length := by
  rw [count, entries_eq h hd, ← hnames, ← List.countP_eq_length_filter]
  rfl

/-- Files that are no entries are left out. -/
lemma loadPeerFiles_filter (dir : PathBuf) (names : List String) :
    loadPeerFiles J env t dir names =
      loadPeerFiles J env t dir (names.filter fun name => IsEntry name) := by
  induction names with
  | nil => rfl
  | cons name names ih =>
    by_cases hentry : IsEntry name
    · rw [List.filter_cons_of_pos (by simpa using hentry), loadPeerFiles, loadPeerFiles,
        if_pos hentry, if_pos hentry, ih]
    · rw [List.filter_cons_of_neg (by simpa using hentry), loadPeerFiles, if_neg hentry, ih]

lemma loadRecordFiles_filter (dir : PathBuf) (names : List String) :
    loadRecordFiles J t dir names =
      loadRecordFiles J t dir (names.filter fun name => IsEntry name) := by
  induction names with
  | nil => rfl
  | cons name names ih =>
    by_cases hentry : IsEntry name
    · rw [List.filter_cons_of_pos (by simpa using hentry), loadRecordFiles, loadRecordFiles,
        if_pos hentry, if_pos hentry, ih]
    · rw [List.filter_cons_of_neg (by simpa using hentry), loadRecordFiles, if_neg hentry, ih]

/-- The peer of the name of its file. -/
lemma peerOfName_encode (peerId : PeerId) :
    peerOfName env (Hex.encode peerId.bytes ++ ".json") = .ok peerId := by
  rw [FileStateStore.json_eq peerId, peerOfName, fileStem_append peerId.encode_ne (by decide),
    Hex.decode_encode]
  simp only [dif_pos peerId.length_eq]

/-- Peers are loaded from their files. -/
lemma loadPeerFiles_map (hJ : J.ReadsBack) (h : Shows J store.dataDir t c) (ids : List PeerId) :
    loadPeerFiles J env t (store.dataDir ++ ["peers"])
        (ids.map fun id => (StoreKey.peer id).stem ++ ".json") =
      .ok (ids.filterMap fun id => (c.peer id).map fun info => (id, info)) := by
  induction ids with
  | nil => rfl
  | cons id ids ih =>
    have hread := readFile_path hJ h (.peer id)
    rw [path, StoreKey.file, ← List.append_assoc] at hread
    change readFile J.peer.fromStr (store.dataDir ++ ["peers"] ++
      [Hex.encode id.bytes ++ ".json"]) t = .ok (c.peer id) at hread
    simp only [StoreKey.stem] at ih ⊢
    rw [List.map_cons, loadPeerFiles, if_pos (isEntry_stem id.encode_ne), List.filterMap_cons,
      peerOfName_encode, hread, ih]
    cases c.peer id with
    | none => rfl
    | some info => rfl

/-- Records are loaded from their files. -/
lemma loadRecordFiles_map (hJ : J.ReadsBack) (h : Shows J store.dataDir t c) (ids : List PeerId) :
    loadRecordFiles J t (store.dataDir ++ ["domains"])
        (ids.map fun id => (StoreKey.record id).stem ++ ".json") =
      .ok (ids.filterMap c.record) := by
  induction ids with
  | nil => rfl
  | cons id ids ih =>
    have hread := readFile_path hJ h (.record id)
    rw [path, StoreKey.file, ← List.append_assoc] at hread
    change readFile J.record.fromStr (store.dataDir ++ ["domains"] ++
      [Hex.encode id.bytes ++ ".json"]) t = .ok (c.record id) at hread
    simp only [StoreKey.stem] at ih ⊢
    rw [List.map_cons, loadRecordFiles, if_pos (isEntry_stem id.encode_ne), List.filterMap_cons,
      hread, ih]
    cases c.record id with
    | none => rfl
    | some record => rfl

/-- A vertex is counted unless its identifier is empty. -/
lemma isEntry_vertex (id : VertexId) :
    IsEntry ((StoreKey.vertex id).stem ++ ".json") ↔ id.bytes ≠ [] := by
  constructor
  · intro hentry hnil
    rw [StoreKey.stem, VertexId.asBytes, hnil] at hentry
    revert hentry
    decide
  · intro hne
    refine isEntry_stem fun hempty => hne ?_
    have hdecode := congrArg Hex.decode hempty
    rw [StoreKey.stem, Hex.decode_encode] at hdecode
    exact Option.some.inj (hdecode.trans (by rfl : Hex.decode "" = some []))

/-- **What the files show is what the store answers.** -/
lemma Shows.answers (hJ : J.ReadsBack) (h : Shows J store.dataDir t c) :
    Answers J env store t c where
  vertex id := readFile_path hJ h (.vertex id)
  state := readFile_path hJ h .state
  vertices := by
    obtain ⟨ids, hnames, hnodup, hmem⟩ := exists_keys env .vertex h
      (fun _ => rfl) (fun k hk => by cases k <;> simp_all [StoreKey.dir])
      fun _ _ heq => StoreKey.vertex.inj heq
    refine ⟨ids, hnodup, fun id => (hmem id).trans (and_congr_left' (isEntry_vertex id)), ?_⟩
    rw [vertexCount, count_eq h (by decide) hnames, List.length_map]
  peers := by
    obtain ⟨ids, hnames, hnodup, hmem⟩ := exists_keys env .peer h
      (fun _ => rfl) (fun k hk => by cases k <;> simp_all [StoreKey.dir])
      fun _ _ heq => StoreKey.peer.inj heq
    refine ⟨ids, hnodup, fun id => ?_, ?_, ?_⟩
    · exact (hmem id).trans (and_iff_right (isEntry_stem id.encode_ne))
    · rw [loadPeers, entries_eq h (by decide)]
      show loadPeerFiles J env t _ _ = _
      rw [loadPeerFiles_filter, hnames, loadPeerFiles_map hJ h]
    · rw [peerCount, count_eq h (by decide) hnames, List.length_map]
  records := by
    obtain ⟨ids, hnames, hnodup, hmem⟩ := exists_keys env .record h
      (fun _ => rfl) (fun k hk => by cases k <;> simp_all [StoreKey.dir])
      fun _ _ heq => StoreKey.record.inj heq
    refine ⟨ids, hnodup, fun id => ?_, ?_, ?_⟩
    · exact (hmem id).trans (and_iff_right (isEntry_stem id.encode_ne))
    · rw [loadDarkRecords, entries_eq h (by decide)]
      show loadRecordFiles J t _ _ = _
      rw [loadRecordFiles_filter, hnames, loadRecordFiles_map hJ h]
    · rw [darkRecordCount, count_eq h (by decide) hnames, List.length_map]

end Answers

/-! ## Samples -/

section Samples

/-- JSON of one value. -/
def sampleFormat {ω α : Type} [DecidableEq α] (a : α) (text : String) : TextFormat ω α where
  toStringPretty _ b := if b = a then .ok (Bytes.ofString text) else .error "another value"
  fromStr bytes :=
    if bytes = Bytes.ofString text then .ok a
    else .error "EOF while parsing a value at line 1 column 0"

lemma sampleFormat_readsBack {ω α : Type} [DecidableEq α] (a : α) (text : String) :
    TextFormat.ReadsBack (sampleFormat a text : TextFormat ω α) := by
  intro order b text' h
  dsimp only [sampleFormat] at h ⊢
  split_ifs at h with hb
  cases h
  rw [if_pos rfl, hb]

/-- A peer. -/
def samplePeer : PeerId := ⟨List.replicate 32 7, List.length_replicate⟩

/-- What is known of it. -/
def sampleInfo : StoredPeerInfo := ⟨"127.0.0.1:8080", 1234567890, 75, true, 5, 1024, ∅⟩

/-- JSON of a vertex, of this peer and of a state that tells nothing. -/
def sampleStoreJson : StoreJson Unit Unit where
  vertex := sampleFormat ⟨⟨[1]⟩, [], [], 0, []⟩ ("\x7b\n  \"id\": [\n    1\n  ],\n" ++
    "  \"parents\": [],\n  \"payload\": [],\n  \"timestamp\": 0,\n  \"signature\": []\n\x7d")
  peer := sampleFormat sampleInfo ("\x7b\n  \"address\": \"127.0.0.1:8080\",\n" ++
    "  \"last_seen\": 1234567890,\n  \"reputation\": 75,\n  \"trusted\": true,\n" ++
    "  \"connection_count\": 5,\n  \"bytes_exchanged\": 1024,\n  \"metadata\": \x7b\x7d\n\x7d")
  record := FileStateStore.sampleJson
  state := sampleFormat () "null"

lemma sampleStoreJson_readsBack : sampleStoreJson.ReadsBack where
  vertex := sampleFormat_readsBack _ _
  peer := sampleFormat_readsBack _ _
  record := FileStateStore.sampleJson_readsBack
  state := sampleFormat_readsBack _ _

/-- Directories go two levels deep. -/
noncomputable def sampleEnv : TreeEnv where
  lister := .arbitrary
  depth := 2
  debugPath path := "\"" ++ PathBuf.display path ++ "\""
  hexError _ := "Odd number of digits"

/-- Everything succeeds. -/
noncomputable def sampleCallDraws : CallDraws Unit :=
  ⟨⟨.arbitrary, .ok (), none, .ok ()⟩, (), .ok ()⟩

/-- A peer is saved, backed up, removed and brought back. -/
noncomputable def sampleCalls : List (CallDraws Unit × StoreCall Unit) :=
  [(sampleCallDraws, .savePeer samplePeer sampleInfo), (sampleCallDraws, .createBackup ["backup"]),
    (sampleCallDraws, .removePeer samplePeer), (sampleCallDraws, .restoreBackup ["backup"])]

lemma within_sampleCalls : Within {["backup"]} sampleCalls := by
  intro call hcall p hp
  simp only [sampleCalls, List.mem_cons, List.not_mem_nil, or_false] at hcall
  rcases hcall with rfl | rfl | rfl | rfl <;> simp_all [StoreCall.place]

/-- There is nothing. -/
lemma fresh_empty (dataDir : PathBuf) (places : Set PathBuf) : Fresh dataDir places ⟨∅, ∅⟩ where
  sound := ⟨fun _ _ h => (h.elim Finmap.notMem_empty (Finset.notMem_empty _)).elim,
    fun _ h => absurd h (Finset.notMem_empty _)⟩
  store := ⟨Finset.notMem_empty _, fun _ _ => Finmap.notMem_empty⟩
  backup _ _ := ⟨Finset.notMem_empty _, fun _ _ => Finmap.notMem_empty⟩

/-- The backup is next to the store. -/
lemma places_sample : Places ⟨["data"], true⟩ {["backup"]} where
  store p hp := by
    rw [Set.mem_singleton_iff.mp hp]
    exact ⟨by decide, by decide⟩
  backup p hp q hq hne := absurd (hp.trans hq.symm) hne

end Samples

/-! ## Main results -/

section Main

variable {J : StoreJson σ ω} {env : TreeEnv} {t : StoreTree} {dataDir : PathBuf}
  {places : Set PathBuf} {calls : List (CallDraws ω × StoreCall σ)}

/-- **A backup inside the directory of the store** is copied into itself, which never succeeds. -/
theorem createBackup_inside {store : FileStateStore} {p e : PathBuf} {t' : StoreTree}
    (hinside : p ++ ["data"] = store.dataDir ++ e) (hne : e ≠ []) :
    (createBackup env p store).run t ≠ (.ok (), t') := by
  intro hrun
  obtain ⟨_, t₁, -, hrun⟩ := Fallible.run_bind_ok.mp hrun
  obtain ⟨_, t₂, -, hrun⟩ := Fallible.run_bind_ok.mp hrun
  rw [hinside] at hrun
  exact FileTree.copyDirAll_nested env.lister hne (Fallible.run_mapError_ok hrun)

/-- The backups are in a directory of the store. -/
theorem createBackup_inside_sample :
    (createBackup sampleEnv ["data", "backups"] ⟨["data"], true⟩).run ⟨∅, {["data"]}⟩ ≠
      (.ok (), ⟨∅, {["data"]}⟩) :=
  createBackup_inside (e := ["backups", "data"]) rfl (by decide)

/-- **A backup whose data directory is that of the store** succeeds, and loses every entry: each
file is copied onto itself and is empty then. -/
theorem createBackup_self {store : FileStateStore} {p : PathBuf} {c : Contents σ}
    (hself : p ++ ["data"] = store.dataDir) (hsound : t.Sound) (hshows : Shows J store.dataDir t c)
    (hdepth : 2 ≤ env.depth) :
    ∃ t', (createBackup env p store).run t = (.ok (), t') ∧ ∀ key,
      readFile (J.fromStr key) (path key store) t' = (c key).elim (.ok none) fun _ =>
        ((J.fromStr key []).mapError .serialization).map some := by
  obtain ⟨t', hrun, hemptied⟩ := FileTree.copyDirAll_self env.lister hsound hshows.root_mem
    (hshows.length_lt hdepth)
  have hway (q : PathBuf) (hq : q <+: store.dataDir) : q ∈ t.dirs := by
    obtain ⟨r, hr⟩ := hq
    by_cases hnil : r = []
    · rw [hnil, List.append_nil] at hr
      exact hr ▸ hshows.root_mem
    · exact hsound.of_append q hnil (.inr (hr ▸ hshows.root_mem))
  have hcreate (what : String) {q : PathBuf} (hq : q <+: store.dataDir) :
      (createDir what q).run t = (.ok (), t) := by
    have hsame : t.dirs ∪ q.inits.toFinset = t.dirs := by
      refine Finset.union_eq_left.mpr fun q' hq' => hway q' ?_
      rw [List.mem_toFinset, List.mem_inits] at hq'
      exact hq'.trans hq
    rw [run_createDir what fun q' hq' => hsound.not_file q' (hway q' (hq'.trans hq)), hsame]
  refine ⟨t', ?_, fun key => ?_⟩
  · rw [createBackup, hself,
      Fallible.run_bind_of_ok (hcreate _ (hself ▸ List.prefix_append p ["data"])),
      Fallible.run_bind_of_ok (hcreate _ (List.prefix_refl _))]
    exact Fallible.run_mapError_of_ok hrun
  · have hrel := hshows.entry key
    have hdir : store.dataDir ++ key.file ∉ t'.dirs := by
      rw [hemptied.dirs]
      exact hshows.path_not_dir key
    rw [readFile, path, hemptied.inside key.file (Set.mem_univ _)]
    generalize t.files.lookup (store.dataDir ++ key.file) = text at hrel ⊢
    generalize c key = value at hrel ⊢
    cases hrel with
    | some _ => rfl
    | none => simp only [Option.map_none, if_neg hdir, Option.elim_none]

/-- The state is saved in `/srv/data`, and a backup is made to `/srv`. -/
theorem createBackup_self_sample : ∃ (t : StoreTree) (c : Contents Unit),
    c.state = some () ∧ recoverState sampleStoreJson t ⟨["", "srv", "data"], true⟩ = .ok (some ()) ∧
      ∃ t', (createBackup sampleEnv ["", "srv"] ⟨["", "srv", "data"], true⟩).run t = (.ok (), t') ∧
        ∀ key, readFile (sampleStoreJson.fromStr key) (path key ⟨["", "srv", "data"], true⟩) t' =
          (c key).elim (.ok none) fun _ =>
            ((sampleStoreJson.fromStr key []).mapError .serialization).map some := by
  have hplaces : Places ⟨["", "srv", "data"], true⟩ ∅ :=
    ⟨fun _ hp => absurd hp (Set.notMem_empty _), fun _ hp => absurd hp (Set.notMem_empty _)⟩
  obtain ⟨t, -, hholds⟩ := holds_new (J := sampleStoreJson) (fresh_empty _ _) hplaces
  obtain ⟨store, hstore⟩ : ∃ store : FileStateStore, store = ⟨["", "srv", "data"], true⟩ := ⟨_, rfl⟩
  rw [← hstore] at hplaces hholds ⊢
  have hroot : store.dataDir ∈ t.dirs := hholds.current.root_mem
  have hrewrites : Rewrites (store.dataDir ++ StoreKey.file .state)
      (store.dataDir ++ StoreKey.tempFile .state) t
      { t with files := t.files.insert (path .state store) (Bytes.ofString "null") } := by
    refine .of_lookup ?_ (hholds.current.path_not_dir .state)
      (fun q hq _ => Finmap.lookup_insert_of_ne _ hq) fun hin => .inl ?_
    · rwa [StoreKey.file, ← List.append_assoc, List.dropLast_concat, StoreKey.dir,
        List.append_nil]
    · refine (Finmap.mem_insert.mp hin).resolve_left fun heq => ?_
      exact StoreKey.tempFile_ne_file .state .state (List.append_cancel_left heq)
  have hsaved := hholds.rewrite (c := (Snapshots.new.set .state (some ())).current) hplaces
    hrewrites (fun _ => ⟨.state, rfl⟩) (StoreKey.not_isJson_tempFile .state)
    (rel_set hholds.current (by
      rw [Finmap.lookup_insert]
      exact .some ⟨sampleCallDraws, rfl⟩) fun key hne => Finmap.lookup_insert_of_ne _ fun heq =>
        hne (StoreKey.file_injective (List.append_cancel_left heq)))
  refine ⟨_, _, rfl, readFile_path sampleStoreJson_readsBack hsaved.current .state,
    createBackup_self (p := ["", "srv"]) (by rw [hstore]; rfl) hsaved.sound hsaved.current ?_⟩
  exact Nat.le_refl 2

end Main

end StateBackup

end QuDAG.Protocol
