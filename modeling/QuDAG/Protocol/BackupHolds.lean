import QuDAG.Protocol.StateBackup

/-!
# What a store with backups holds (`persistence.rs`)

A store with backups is for keeping entries, and the entries of each backup. The files of
`StateBackup.lean` refine that: after any calls the store answers with the entries it should have.
A backup keeps what was removed after an earlier backup at the same place.

## Main definitions

* `Snapshots` — the entries of the store and of its backups.
* `StateBackup.Shows` — the entries are in the files below a directory.
* `StateBackup.Holds` — the files hold the snapshots.

## Main results

* `StateBackup.refines_perform` — what a call does to the files is what it does to the snapshots.
* `StateBackup.holds_run` — so do the calls of a run.
* `StateBackup.holds_new` — a new store holds nothing.
-/

namespace QuDAG.Protocol

open RustStd
open QuDAG.Vault (PathBuf Disk fileStem)
open FileTree (Apart Laid Fits)
open FileStateStore (IsJson)

/-! ## Snapshots -/

/-- The entries that are stored. -/
abbrev Contents (σ : Type) : Type := (key : StoreKey) → Option (key.Content σ)

variable {σ ω : Type}

/-- Nothing is stored. -/
def Contents.none : Contents σ := fun _ => .none

/-- The vertices, the peers, the records and the state among them. -/
def Contents.vertex (c : Contents σ) (id : VertexId) : Option Vertex := c (.vertex id)

def Contents.peer (c : Contents σ) (peerId : PeerId) : Option StoredPeerInfo := c (.peer peerId)

def Contents.record (c : Contents σ) (ownerId : PeerId) : Option DarkDomainRecord :=
  c (.record ownerId)

def Contents.state (c : Contents σ) : Option σ := c .state

/-- Entries laid over other ones. -/
def Contents.over (c c' : Contents σ) : Contents σ := fun key => (c key).or (c' key)

/-- The entries of the store, and of the backups that were made. -/
structure Snapshots (σ : Type) where
  current : Contents σ
  backups : PathBuf → Option (Contents σ)

namespace Snapshots

/-- A new store. -/
def new : Snapshots σ := ⟨.none, fun _ => .none⟩

/-- Keep an entry, or none. -/
def set (key : StoreKey) (value : Option (key.Content σ)) (s : Snapshots σ) : Snapshots σ :=
  { s with current := Function.update s.current key value }

lemma current_set_self (key : StoreKey) (value : Option (key.Content σ)) (s : Snapshots σ) :
    (s.set key value).current key = value := Function.update_self ..

lemma current_set_of_ne {key key' : StoreKey} (h : key' ≠ key) (value : Option (key.Content σ))
    (s : Snapshots σ) : (s.set key value).current key' = s.current key' :=
  Function.update_of_ne h ..

/-- Keep what is stored in a backup, over what it has. -/
def backUp (path : PathBuf) (s : Snapshots σ) : Snapshots σ where
  current := s.current
  backups := Function.update s.backups path
    (some (s.current.over ((s.backups path).getD .none)))

lemma backups_backUp_self (path : PathBuf) (s : Snapshots σ) : (s.backUp path).backups path =
    some (s.current.over ((s.backups path).getD .none)) := Function.update_self ..

lemma backups_backUp_of_ne {path path' : PathBuf} (h : path' ≠ path) (s : Snapshots σ) :
    (s.backUp path).backups path' = s.backups path' := Function.update_of_ne h ..

/-- What a call is for. -/
def update (s : Snapshots σ) : StoreCall σ → Snapshots σ
  | .saveVertex vertex => s.set (.vertex vertex.id) (some vertex)
  | .savePeer peerId info => s.set (.peer peerId) (some info)
  | .saveDarkRecord record => s.set (.record record.ownerId) (some record)
  | .saveState state => s.set .state (some state)
  | .removeVertex id => s.set (.vertex id) .none
  | .removePeer peerId => s.set (.peer peerId) .none
  | .removeDarkRecord ownerId => s.set (.record ownerId) .none
  | .healthCheck => s
  | .createBackup path => s.backUp path
  | .restoreBackup path => { s with current := (s.backups path).getD s.current }

end Snapshots

/-! ## Names of files -/

namespace StoreKey

/-- Different entries have different files. -/
lemma file_injective : Function.Injective file := by
  have hencode {a b : List UInt8} (h : Hex.encode a ++ ".json" = Hex.encode b ++ ".json") :
      a = b := by
    have hname : Hex.encode a = Hex.encode b := by simpa using h
    have hbytes := congrArg Hex.decode hname
    rwa [Hex.decode_encode, Hex.decode_encode, Option.some.injEq] at hbytes
  intro a b h
  cases a <;> cases b <;> simp only [file, dir, stem, List.cons_append, List.nil_append,
    List.cons.injEq, reduceCtorEq, and_true, and_false, true_and, String.reduceEq] at h
  · exact congrArg vertex (VertexId.asBytes_injective (hencode h))
  · exact absurd h.1 (by decide)
  · exact absurd h.1 (by decide)
  · exact absurd h.1 (by decide)
  · exact congrArg peer (PeerId.ext_iff_bytes.mpr (hencode h))
  · exact absurd h.1 (by decide)
  · exact absurd h.1 (by decide)
  · exact absurd h.1 (by decide)
  · exact congrArg record (PeerId.ext_iff_bytes.mpr (hencode h))
  · rfl

/-- The directories below that of the store. -/
def layout : List PathBuf := [[], ["vertices"], ["peers"], ["domains"]]

/-- It is flat. -/
lemma length_le_one_of_mem_layout {r : PathBuf} (h : r ∈ layout) : r.length ≤ 1 := by
  have hall : ∀ r ∈ layout, r.length ≤ 1 := by decide
  exact hall r h

/-- What is on the way to one of them is one of them. -/
lemma mem_layout_of_prefix {r r' : PathBuf} (hr' : r' ∈ layout) (h : r <+: r') : r ∈ layout := by
  have hall : ∀ r' ∈ layout, ∀ r ∈ r'.inits, r ∈ layout := by decide
  exact hall r' hr' r ((List.mem_inits r r').mpr h)

/-- The last character of the file. -/
lemma getLast?_name (key : StoreKey) : (key.stem ++ ".json").toList.getLast? = some 'n' := by
  rw [String.toList_append, List.getLast?_append_of_ne_nil]
  · decide
  · decide

/-- A path whose name does not end like that of a file is not one. -/
lemma concat_ne_file (dir : PathBuf) (name : String) (h : name.toList.getLast? ≠ some 'n')
    (key : StoreKey) : dir ++ [name] ≠ key.file := by
  intro heq
  obtain ⟨-, hname⟩ := List.append_inj' heq rfl
  rw [(List.cons.inj hname).1] at h
  exact h key.getLast?_name

/-- No file is a directory of the layout. -/
lemma file_not_mem_layout (key : StoreKey) : key.file ∉ layout := by
  intro h
  simp only [layout, List.mem_cons, List.not_mem_nil, or_false] at h
  rcases h with h | h | h | h
  · simp [file] at h
  · exact concat_ne_file [] "vertices" (by decide) key h.symm
  · exact concat_ne_file [] "peers" (by decide) key h.symm
  · exact concat_ne_file [] "domains" (by decide) key h.symm

/-- The temporary file of an entry. -/
def tempFile (key : StoreKey) : PathBuf :=
  key.dir ++ [fileStem (key.stem ++ ".json") ++ "." ++ "tmp"]

/-- It is next to the file. -/
lemma withExtension_file (root : PathBuf) (key : StoreKey) :
    PathBuf.withExtension "tmp" (root ++ key.file) = root ++ key.tempFile := by
  have hname : ¬(key.stem ++ ".json" = "" ∨ key.stem ++ ".json" = "." ∨
      key.stem ++ ".json" = "..") := by
    have hlast := key.getLast?_name
    rintro (h | h | h) <;> rw [h] at hlast <;> revert hlast <;> decide
  rw [PathBuf.withExtension, file, ← List.append_assoc, List.getLast?_concat]
  simp only
  rw [if_neg hname, List.dropLast_concat, List.append_assoc, tempFile]

lemma tempFile_ne_file (key key' : StoreKey) : key.tempFile ≠ key'.file := by
  refine concat_ne_file _ _ ?_ key'
  rw [String.toList_append, List.getLast?_append_of_ne_nil]
  · decide
  · decide

/-- The stem of a name is not empty. -/
lemma fileStem_ne {name : String} (h : name ≠ "") : fileStem name ≠ "" := by
  unfold fileStem
  split
  · exact h
  · next hne =>
    intro hnil
    exact hne (by simpa using hnil)

/-- A temporary file is no entry. -/
lemma not_isJson_tempFile (key : StoreKey) : ¬ IsJson key.tempFile := by
  have hne : key.stem ++ ".json" ≠ "" := by
    intro h
    have hlast := key.getLast?_name
    rw [h] at hlast
    exact absurd hlast (by decide)
  rw [IsJson, tempFile, List.getLast?_concat]
  show fileExtension _ ≠ _
  rw [fileExtension_append (fileStem_ne hne) (by decide) (by decide)]
  decide

end StoreKey

namespace StateBackup

open StoreKey (layout)

/-! ## What a call writes -/

section Writes

variable {t t' t'' : StoreTree} {path temp q : PathBuf}

/-- Nothing but two files has changed, which are in a directory each. -/
structure Rewrites (path temp : PathBuf) (t t' : StoreTree) : Prop where
  dirs : t'.dirs = t.dirs
  frame : ∀ q, q ≠ path → q ≠ temp → t'.files.lookup q = t.files.lookup q
  fits : ∀ q ∈ t'.files, q ∈ t.files ∨ q.dropLast ∈ t.dirs ∧ q ∉ t.dirs

namespace Rewrites

lemma rfl : Rewrites path temp t t := ⟨.refl _, fun _ _ _ => .refl _, fun _ hq => .inl hq⟩

lemma trans (h : Rewrites path temp t t') (h' : Rewrites path temp t' t'') :
    Rewrites path temp t t'' where
  dirs := h'.dirs.trans h.dirs
  frame q hpath htemp := (h'.frame q hpath htemp).trans (h.frame q hpath htemp)
  fits q hq := by
    rcases h'.fits q hq with hmid | hnew
    · exact h.fits q hmid
    · rw [h.dirs] at hnew
      exact .inr hnew

/-- The other files stay where they are. -/
lemma mem_files (h : Rewrites path temp t t') (hpath : q ≠ path) (htemp : q ≠ temp) :
    q ∈ t'.files ↔ q ∈ t.files :=
  HashMap.mem_congr_of_lookup (h.frame q hpath htemp)

/-- A sound tree stays sound. -/
lemma sound (h : Rewrites path temp t t') (hsound : t.Sound) : t'.Sound where
  parent p n hmem := by
    rw [h.dirs] at hmem ⊢
    rcases hmem with hfile | hdir
    · rcases h.fits _ hfile with hold | ⟨hnew, -⟩
      · exact hsound.parent p n (.inl hold)
      · rwa [List.dropLast_concat] at hnew
    · exact hsound.parent p n (.inr hdir)
  not_file p hp hfile := by
    rw [h.dirs] at hp
    rcases h.fits p hfile with hold | ⟨-, hnew⟩
    · exact hsound.not_file p hp hold
    · exact hnew hp

/-- One file that is put into its directory, or taken out, or left alone. -/
lemma of_lookup {files : Disk} (hdir : path.dropLast ∈ t.dirs) (hpath : path ∉ t.dirs)
    (hframe : ∀ q, q ≠ path → q ≠ temp → files.lookup q = t.files.lookup q)
    (htemp : temp ∈ files → temp ∈ t.files ∨ temp.dropLast ∈ t.dirs ∧ temp ∉ t.dirs) :
    Rewrites path temp t { t with files := files } where
  dirs := .refl _
  frame := hframe
  fits q hq := by
    by_cases heq : q = path
    · exact .inr (heq ▸ ⟨hdir, hpath⟩)
    · by_cases heq' : q = temp
      · exact heq' ▸ htemp (heq' ▸ hq)
      · exact .inl ((HashMap.mem_congr_of_lookup (hframe q heq heq')).mp hq)

end Rewrites

variable {draws : StoreDraws} {data : List UInt8}

/-- Writing a file changes no other one. -/
lemma rewrites_writeFile (t : StoreTree) (draws : StoreDraws) (path : PathBuf)
    (data : List UInt8) (temp : PathBuf) :
    Rewrites temp path t ((writeFile draws path data).run t).2 := by
  rw [writeFile, Fallible.run_bind_of_ok (Fallible.run_get t)]
  split_ifs with hdir hparent
  · exact .rfl
  · refine ⟨rfl, fun q _ hq => lookup_writeAll_ne hq, fun q hq => ?_⟩
    by_cases heq : q = path
    · exact .inr (heq ▸ ⟨hparent, hdir⟩)
    · exact .inl ((HashMap.mem_congr_of_lookup (lookup_writeAll_ne heq)).mp hq)
  · exact .rfl

/-- A file that is written holds the data. -/
lemma writeFile_ok (h : (writeFile draws path data).run t = (.ok (), t')) :
    t'.files.lookup path = some data ∧ path.dropLast ∈ t.dirs := by
  rw [writeFile, Fallible.run_bind_of_ok (Fallible.run_get t)] at h
  split_ifs at h with hdir hparent
  · simp at h
  · obtain ⟨files, hrun, rfl⟩ := Fallible.run_zoom_ok.mp h
    rw [writeAll_ok hrun]
    exact ⟨Finmap.lookup_insert _, hparent⟩
  · simp at h

/-- Renaming a file replaces another one, or it fails and changes nothing. -/
lemma run_rename {outcome : Except String Unit} (hpath : path ∉ t.dirs)
    (hdata : t.files.lookup temp = some data) :
    (rename outcome temp path).run t = match outcome with
      | .ok _ => (.ok (), { t with files := (t.files.erase temp).insert path data })
      | .error e => (.error (.io e), t) := by
  rw [rename, Fallible.run_bind_of_ok (Fallible.run_get t), if_neg hpath]
  show (((renameFile outcome temp path).run t.files).1,
    { t with files := ((renameFile outcome temp path).run t.files).2 }) = _
  rw [run_renameFile hdata]
  cases outcome <;> rfl

/-- What an atomic write does: the file is replaced as a whole, or nothing happened to it. -/
structure Replaces (path temp : PathBuf) (json : Except String (List UInt8))
    (r : Except PersistenceError Unit) (t t' : StoreTree) : Prop where
  rewrites : Rewrites path temp t t'
  ok : r = .ok () → ∃ text, json = .ok text ∧ t'.files.lookup path = some text
  error : ∀ e, r = .error e → t'.files.lookup path = t.files.lookup path

/-- **An atomic write** replaces the file as a whole, or it leaves it alone. -/
lemma replaces_writeFileAtomic {store : FileStateStore} (draws : StoreDraws)
    (json : Except String (List UInt8)) (hatomic : store.atomicWrites = true)
    (hpath : path ∉ t.dirs) (htemp : PathBuf.withExtension "tmp" path = temp) (hne : temp ≠ path)
    (hdir : temp.dropLast = path.dropLast) :
    Replaces path temp json ((writeFileAtomic draws path json store).run t).1 t
      ((writeFileAtomic draws path json store).run t).2 := by
  cases json with
  | error e =>
    rw [writeFileAtomic, Fallible.run_bind_of_error (by rfl)]
    exact ⟨.rfl, fun h => by simp at h, fun _ _ => rfl⟩
  | ok text =>
    have hrewrites := rewrites_writeFile t draws temp text
    have hkeep := (hrewrites temp).frame path hne.symm hne.symm
    rw [writeFileAtomic, Fallible.run_bind_of_ok (by rfl)]
    simp only [hatomic, if_true, htemp]
    rcases Fallible.run_cases (writeFile draws temp text) t with ⟨_, mid, hrun⟩ | ⟨e, mid, hrun⟩
    · rw [hrun] at hrewrites hkeep
      obtain ⟨hdata, hparent⟩ := writeFile_ok hrun
      have hmid : path ∉ mid.dirs := by rwa [(hrewrites path).dirs]
      rw [Fallible.run_bind_of_ok hrun, run_rename hmid hdata]
      cases draws.rename with
      | error e => exact ⟨hrewrites path, fun h => by simp at h, fun _ _ => hkeep⟩
      | ok u =>
        refine ⟨(hrewrites path).trans (.of_lookup ?_ hmid (fun q hpath htemp => ?_) fun hin => ?_),
          fun _ => ⟨text, rfl, Finmap.lookup_insert _⟩, fun e h => by simp at h⟩
        · rwa [(hrewrites path).dirs, ← hdir]
        · rw [Finmap.lookup_insert_of_ne _ hpath, Finmap.lookup_erase_ne htemp]
        · rw [Finmap.mem_insert, or_iff_right hne] at hin
          exact absurd hin Finmap.notMem_erase_self
    · rw [hrun] at hrewrites hkeep
      rw [Fallible.run_bind_of_error hrun]
      exact ⟨hrewrites path, fun h => by simp at h, fun _ _ => hkeep⟩

/-- Removing a file takes it out, or it fails and changes nothing. -/
lemma replaces_removeFile (outcome : Except String Unit) (hpath : path ∉ t.dirs) :
    Rewrites path path t ((removeFile outcome path).run t).2 ∧
      ((removeFile outcome path).run t).2.files.lookup path =
        match ((removeFile outcome path).run t).1 with
        | .ok _ => none
        | .error _ => t.files.lookup path := by
  rw [removeFile, Fallible.run_bind_of_ok (Fallible.run_get t), if_neg hpath]
  split_ifs with hfile
  · cases outcome with
    | error e => exact ⟨.rfl, rfl⟩
    | ok u =>
      refine ⟨⟨rfl, fun q hq _ => Finmap.lookup_erase_ne hq, fun q hq => ?_⟩, ?_⟩
      · exact .inl (Finmap.mem_erase.mp hq).2
      · exact Finmap.lookup_erase _ _
  · exact ⟨.rfl, Finmap.lookup_eq_none.mpr hfile⟩

end Writes

/-! ## The files below a directory -/

section Shows

variable {J : StoreJson σ ω} {t t' : StoreTree} {root src dst : PathBuf} {c c' : Contents σ}

/-- The text is what was written for an entry. -/
def Writes (J : StoreJson σ ω) (key : StoreKey) (value : key.Content σ) (text : List UInt8) :
    Prop := ∃ draws : CallDraws ω, J.toStringPretty draws key value = .ok text

/-- The entries are in files below a directory, and no other ones are. -/
structure Covers (J : StoreJson σ ω) (root : PathBuf) (t : StoreTree) (c : Contents σ) : Prop where
  entry : ∀ key, Option.Rel (Writes J key) (c key) (t.files.lookup (root ++ key.file))
  only : ∀ r, root ++ r ∈ t.files → IsJson r → ∃ key : StoreKey, r = key.file
  dirs : ∀ r, root ++ r ∈ t.dirs → r ∈ layout

/-- So they are, and the directories are there. -/
structure Shows (J : StoreJson σ ω) (root : PathBuf) (t : StoreTree) (c : Contents σ) : Prop
    extends Covers J root t c where
  layout : ∀ r ∈ layout, root ++ r ∈ t.dirs

/-- Choices that correspond. -/
lemma rel_or {α β : Type} {R : α → β → Prop} {a a' : Option α} {b b' : Option β}
    (h : Option.Rel R a b) (h' : Option.Rel R a' b') : Option.Rel R (a.or a') (b.or b') := by
  cases h with
  | some hR => exact .some hR
  | none => rwa [Option.none_or, Option.none_or]

/-- Where there is nothing, no entry is. -/
lemma covers_none (hsound : t.Sound) (hdir : root ∉ t.dirs) (hfile : root ∉ t.files) :
    Covers J root t .none := by
  have hno := hsound.not_below hdir hfile
  refine ⟨fun key => ?_, fun r hr => absurd hr (hno r).1, fun r hr => absurd hr (hno r).2⟩
  rw [Finmap.lookup_eq_none.mpr (hno key.file).1]
  exact .none

namespace Covers

/-- What is stored depends on what is below the directory. -/
lemma congr (h : Covers J root t c)
    (hfiles : ∀ r, t'.files.lookup (root ++ r) = t.files.lookup (root ++ r))
    (hdirs : ∀ r, root ++ r ∈ t'.dirs → root ++ r ∈ t.dirs) : Covers J root t' c where
  entry key := by
    rw [hfiles]
    exact h.entry key
  only r hr := h.only r ((HashMap.mem_congr_of_lookup (hfiles r)).mp hr)
  dirs r hr := h.dirs r (hdirs r hr)

/-- Two files were changed, none of which is one of another entry. -/
lemma rewrite {r₁ r₂ : PathBuf} (h : Covers J root t c)
    (hrewrites : Rewrites (root ++ r₁) (root ++ r₂) t t')
    (hr₁ : IsJson r₁ → ∃ key : StoreKey, r₁ = key.file) (hr₂ : ¬ IsJson r₂)
    (hentry : ∀ key, Option.Rel (Writes J key) (c' key) (t'.files.lookup (root ++ key.file))) :
    Covers J root t' c' where
  entry := hentry
  only r hr hjson := by
    by_cases hne₁ : r = r₁
    · exact hne₁ ▸ hr₁ (hne₁ ▸ hjson)
    · by_cases hne₂ : r = r₂
      · exact absurd (hne₂ ▸ hjson) hr₂
      · exact h.only r
          ((hrewrites.mem_files (by simpa using hne₁) (by simpa using hne₂)).mp hr) hjson
  dirs r hr := h.dirs r (by rwa [hrewrites.dirs] at hr)

/-- **A directory laid over another one**: so are the entries. -/
lemma laid (h : Covers J dst t c') (hsrc : Shows J src t c) (hlaid : Laid Set.univ src dst t t') :
    Shows J dst t' (c.over c') where
  entry key := by
    rw [hlaid.file_of_mem key.file (Set.mem_univ _)]
    exact rel_or (hsrc.entry key) (h.entry key)
  only r hr hjson := by
    rcases hlaid.mem_files hr with hold | ⟨-, hnew⟩
    · exact h.only r hold hjson
    · exact hsrc.only r hnew hjson
  dirs r hr := by
    rcases (hlaid.dir r).mp hr with hold | ⟨-, hnew⟩
    · exact h.dirs r hold
    · exact hsrc.dirs r hnew
  layout r hr := (hlaid.dir r).mpr (.inr ⟨Set.mem_univ r, hsrc.layout r hr⟩)

end Covers

namespace Shows

/-- The directory itself is there. -/
lemma root_mem (h : Shows J root t c) : root ∈ t.dirs := by
  have hdir := h.layout [] (by decide)
  rwa [List.append_nil] at hdir

/-- The entries stay where they are if the directories do. -/
lemma of_covers (h : Shows J root t c) (hcovers : Covers J root t' c')
    (hdirs : ∀ p ∈ t.dirs, p ∈ t'.dirs) : Shows J root t' c' where
  toCovers := hcovers
  layout r hr := hdirs _ (h.layout r hr)

/-- What is laid over a directory apart changes nothing. -/
lemma laid_apart (h : Shows J root t c) (hapart : Apart root dst)
    (hlaid : Laid Set.univ src dst t t') : Shows J root t' c := by
  refine h.of_covers (h.congr (fun r => hlaid.file_frame _ (hapart.not_prefix_append r))
    fun r hr => ?_) fun p hp => hlaid.mem_dirs hp
  rcases (hlaid.dir_frame _ (hapart.not_prefix_append r)).mp hr with hold | hway
  · exact hold
  · exact absurd ((List.prefix_append root r).trans hway) hapart.left

/-- Nor does a change of files in a directory apart. -/
lemma rewrite_apart {r₁ r₂ : PathBuf} (h : Shows J root t c) (hapart : Apart dst root)
    (hrewrites : Rewrites (dst ++ r₁) (dst ++ r₂) t t') : Shows J root t' c := by
  have hne (r r' : PathBuf) : root ++ r ≠ dst ++ r' := fun heq =>
    (hapart.append r' r).left (heq ▸ List.prefix_refl _)
  refine h.of_covers (h.congr (fun r => hrewrites.frame _ (hne r r₁) (hne r r₂)) fun r hr => ?_)
    fun p hp => ?_
  · rwa [hrewrites.dirs] at hr
  · rwa [hrewrites.dirs]

end Shows

end Shows

/-! ## The store and its backups -/

/-- Backups are made at some places. Their data directories are apart from each other and from
the directory of the store. -/
structure Places (store : FileStateStore) (places : Set PathBuf) : Prop where
  store : ∀ p ∈ places, Apart store.dataDir (p ++ ["data"])
  backup : ∀ p ∈ places, ∀ q ∈ places, p ≠ q → Apart (p ++ ["data"]) (q ++ ["data"])

/-- The files hold the snapshots. -/
structure Holds (J : StoreJson σ ω) (store : FileStateStore) (places : Set PathBuf)
    (t : StoreTree) (s : Snapshots σ) : Prop where
  sound : t.Sound
  current : Shows J store.dataDir t s.current
  backup : ∀ p ∈ places, ∀ c, s.backups p = some c → Shows J (p ++ ["data"]) t c
  absent : ∀ p ∈ places, s.backups p = none →
    p ++ ["data"] ∉ t.dirs ∧ p ++ ["data"] ∉ t.files
  free : ∀ p ∈ places, ∀ q, q <+: p → q ∉ t.files

namespace Holds

variable {J : StoreJson σ ω} {store : FileStateStore} {places : Set PathBuf} {t t' : StoreTree}
  {s : Snapshots σ} {p : PathBuf}

/-- What a backup covers. -/
lemma covers (h : Holds J store places t s) (hp : p ∈ places) :
    Covers J (p ++ ["data"]) t ((s.backups p).getD .none) := by
  cases hbackup : s.backups p with
  | none =>
    obtain ⟨hdir, hfile⟩ := h.absent p hp hbackup
    exact covers_none h.sound hdir hfile
  | some c => exact (h.backup p hp c hbackup).toCovers

/-- **A change of files of the store** changes the entries of the store only. -/
lemma rewrite {r₁ r₂ : PathBuf} {c : Contents σ} (h : Holds J store places t s)
    (hplaces : Places store places)
    (hrewrites : Rewrites (store.dataDir ++ r₁) (store.dataDir ++ r₂) t t')
    (hr₁ : IsJson r₁ → ∃ key : StoreKey, r₁ = key.file) (hr₂ : ¬ IsJson r₂)
    (hentry : ∀ key, Option.Rel (Writes J key) (c key)
      (t'.files.lookup (store.dataDir ++ key.file))) :
    Holds J store places t' { s with current := c } where
  sound := hrewrites.sound h.sound
  current := h.current.of_covers (h.current.rewrite hrewrites hr₁ hr₂ hentry) fun p hp => by
    rwa [hrewrites.dirs]
  backup p hp c hc := (h.backup p hp c hc).rewrite_apart (hplaces.store p hp) hrewrites
  absent p hp hnone := by
    have hne (r : PathBuf) : p ++ ["data"] ≠ store.dataDir ++ r := fun heq =>
      (hplaces.store p hp).left (heq ▸ List.prefix_append _ r)
    obtain ⟨hdir, hfile⟩ := h.absent p hp hnone
    rw [hrewrites.dirs, hrewrites.mem_files (hne r₁) (hne r₂)]
    exact ⟨hdir, hfile⟩
  free p hp q hq := by
    have hne (r : PathBuf) : q ≠ store.dataDir ++ r := by
      rintro rfl
      exact (hplaces.store p hp).left
        (((List.prefix_append _ r).trans hq).trans (List.prefix_append p _))
    rw [hrewrites.mem_files (hne r₁) (hne r₂)]
    exact h.free p hp q hq

/-- Nothing is in the way of a backup. -/
lemma fits_backup (h : Holds J store places t s) (hp : p ∈ places) :
    Fits store.dataDir (p ++ ["data"]) t := by
  have hcovers := h.covers hp
  constructor
  · intro q hq
    rcases List.prefix_concat_iff.mp hq with rfl | hbefore
    · cases hbackup : s.backups p with
      | none => exact (h.absent p hp hbackup).2
      | some c => exact h.sound.not_file _ (h.backup p hp c hbackup).root_mem
    · exact h.free p hp q hbefore
  · intro r hr
    cases hbackup : s.backups p with
    | none =>
      obtain ⟨hdir, hfile⟩ := h.absent p hp hbackup
      exact (h.sound.not_below hdir hfile r).1
    | some c =>
      exact h.sound.not_file _ ((h.backup p hp c hbackup).layout r (h.current.dirs r hr))
  · exact fun r hr hdir => h.sound.not_file _ (h.current.layout r (hcovers.dirs r hdir)) hr

/-- **A backup** is laid over what is there. -/
lemma backUp (h : Holds J store places t s) (hplaces : Places store places) (hp : p ∈ places)
    (hlaid : Laid Set.univ store.dataDir (p ++ ["data"]) t t') (hsound : t'.Sound) :
    Holds J store places t' (s.backUp p) where
  sound := hsound
  current := h.current.laid_apart (hplaces.store p hp) hlaid
  backup q hq c hc := by
    by_cases heq : q = p
    · subst heq
      rw [Snapshots.backups_backUp_self, Option.some.injEq] at hc
      exact hc ▸ (h.covers hp).laid h.current hlaid
    · rw [Snapshots.backups_backUp_of_ne heq] at hc
      exact (h.backup q hq c hc).laid_apart (hplaces.backup q hq p hp heq) hlaid
  absent q hq hnone := by
    have heq : q ≠ p := by
      rintro rfl
      rw [Snapshots.backups_backUp_self] at hnone
      cases hnone
    rw [Snapshots.backups_backUp_of_ne heq] at hnone
    have hapart := hplaces.backup q hq p hp heq
    obtain ⟨hdir, hfile⟩ := h.absent q hq hnone
    rw [hlaid.dir_frame _ hapart.right, hlaid.mem_files_frame hapart.right]
    exact ⟨fun hmem => hmem.elim hdir hapart.left, hfile⟩
  free q hq r hr := by
    have hout : ¬ p ++ ["data"] <+: r := by
      intro hpre
      by_cases heq : q = p
      · subst heq
        have hle := (hpre.trans hr).length_le
        rw [List.length_append, List.length_singleton] at hle
        omega
      · exact (hplaces.backup q hq p hp heq).right
          ((hpre.trans hr).trans (List.prefix_append q _))
    rw [hlaid.mem_files_frame hout]
    exact h.free q hq r hr

/-- **The store is cleared.** -/
lemma clear (h : Holds J store places t s) (hplaces : Places store places) :
    (FileTree.removeDirAll store.dataDir t).Sound ∧
      ∀ p ∈ places, ∀ c, s.backups p = some c →
        Shows J (p ++ ["data"]) (FileTree.removeDirAll store.dataDir t) c := by
  refine ⟨h.sound.removeDirAll, fun p hp c hc => ?_⟩
  have hshows := h.backup p hp c hc
  have hout := (hplaces.store p hp).symm.not_prefix_append
  refine ⟨hshows.congr (fun r => ?_) fun r hr => ?_, fun r hr => ?_⟩
  · rw [FileTree.lookup_removeDirAll, if_neg (hout r)]
  · exact (FileTree.mem_dirs_removeDirAll.mp hr).1
  · exact FileTree.mem_dirs_removeDirAll.mpr ⟨hshows.layout r hr, hout r⟩

/-- **Restoring a backup** lays it over nothing. -/
lemma restored (h : Holds J store places t s) (hplaces : Places store places) (hp : p ∈ places)
    {c : Contents σ} (hc : s.backups p = some c)
    (hlaid : Laid Set.univ (p ++ ["data"]) store.dataDir
      (FileTree.removeDirAll store.dataDir t) t') (hsound : t'.Sound) :
    Holds J store places t' { s with current := c } := by
  obtain ⟨hclear, hshows⟩ := h.clear hplaces
  have hout : ¬ ¬ store.dataDir <+: store.dataDir := not_not.mpr (List.prefix_refl _)
  have hnone : Covers J store.dataDir (FileTree.removeDirAll store.dataDir t) .none := by
    exact covers_none hclear (fun hdir => hout (FileTree.mem_dirs_removeDirAll.mp hdir).2)
      fun hfile => hout (FileTree.mem_files_removeDirAll.mp hfile).2
  have hcurrent := hnone.laid (hshows p hp c hc) hlaid
  have hover : c.over .none = c := funext fun key => Option.or_none
  rw [hover] at hcurrent
  refine ⟨hsound, hcurrent, fun q hq c' hc' => ?_, fun q hq hnone => ?_, fun q hq r hr => ?_⟩
  · exact (hshows q hq c' hc').laid_apart (hplaces.store q hq).symm hlaid
  · have hapart := hplaces.store q hq
    obtain ⟨hdir, hfile⟩ := h.absent q hq hnone
    rw [hlaid.dir_frame _ hapart.left, hlaid.mem_files_frame hapart.left,
      FileTree.mem_dirs_removeDirAll, FileTree.mem_files_removeDirAll]
    exact ⟨fun hmem => hmem.elim (fun hold => hdir hold.1) hapart.right,
      fun hmem => hfile hmem.1⟩
  · have hpre : ¬ store.dataDir <+: r := fun hpre => (hplaces.store q hq).left
      ((hpre.trans hr).trans (List.prefix_append q _))
    rw [hlaid.mem_files_frame hpre, FileTree.mem_files_removeDirAll]
    exact fun hmem => h.free q hq r hr hmem.1

/-- Nothing is in the way of restoring a backup. -/
lemma fits_restore (h : Holds J store places t s) :
    Fits (p ++ ["data"]) store.dataDir (FileTree.removeDirAll store.dataDir t) := by
  constructor
  · intro q hq hfile
    obtain ⟨hfile, hpre⟩ := FileTree.mem_files_removeDirAll.mp hfile
    obtain ⟨r, hr⟩ := hq
    refine h.sound.not_file q (h.sound.of_append q ?_ (.inr (hr ▸ h.current.root_mem))) hfile
    rintro rfl
    rw [List.append_nil] at hr
    exact hpre (hr ▸ List.prefix_refl _)
  · exact fun r _ hmem => (FileTree.mem_files_removeDirAll.mp hmem).2 (List.prefix_append _ r)
  · exact fun r _ hmem => (FileTree.mem_dirs_removeDirAll.mp hmem).2 (List.prefix_append _ r)

end Holds

/-! ## Calls -/

section Calls

variable {J : StoreJson σ ω} {env : TreeEnv} {store : FileStateStore} {places : Set PathBuf}
  {t : StoreTree} {s : Snapshots σ} {p : PathBuf} {draws : CallDraws ω} {key : StoreKey}

/-- What a call does to the snapshots, if it succeeds. -/
structure Refines (J : StoreJson σ ω) (store : FileStateStore) (places : Set PathBuf)
    (s after : Snapshots σ) (r : Except PersistenceError Unit × StoreTree) : Prop where
  ok : r.1 = .ok () → Holds J store places r.2 after
  error : ∀ e, r.1 = .error e → Holds J store places r.2 s

/-- The entries when one is changed. -/
lemma rel_set {t' : StoreTree} (h : Shows J store.dataDir t s.current)
    {value : Option (key.Content σ)}
    (hkey : Option.Rel (Writes J key) value (t'.files.lookup (path key store)))
    (hframe : ∀ key', key' ≠ key →
      t'.files.lookup (path key' store) = t.files.lookup (path key' store)) (key' : StoreKey) :
    Option.Rel (Writes J key') ((s.set key value).current key')
      (t'.files.lookup (store.dataDir ++ key'.file)) := by
  by_cases heq : key' = key
  · subst heq
    rw [Snapshots.current_set_self]
    exact hkey
  · have hsame : t'.files.lookup (store.dataDir ++ key'.file) =
        t.files.lookup (store.dataDir ++ key'.file) := hframe key' heq
    rw [Snapshots.current_set_of_ne heq, hsame]
    exact h.entry key'

/-- The entries when none is changed. -/
lemma rel_same {t' : StoreTree} (h : Shows J store.dataDir t s.current)
    (hframe : ∀ key', t'.files.lookup (path key' store) = t.files.lookup (path key' store))
    (key' : StoreKey) : Option.Rel (Writes J key') (s.current key')
      (t'.files.lookup (store.dataDir ++ key'.file)) := by
  have hsame : t'.files.lookup (store.dataDir ++ key'.file) =
      t.files.lookup (store.dataDir ++ key'.file) := hframe key'
  rw [hsame]
  exact h.entry key'

/-- The file of an entry is no directory. -/
lemma Shows.path_not_dir {c : Contents σ} (h : Shows J store.dataDir t c) (key : StoreKey) :
    path key store ∉ t.dirs := fun hdir => key.file_not_mem_layout (h.dirs _ hdir)

/-- **Saving an entry.** -/
lemma refines_save (hatomic : store.atomicWrites = true) (h : Holds J store places t s)
    (hplaces : Places store places) (draws : CallDraws ω) (key : StoreKey)
    (value : key.Content σ) :
    Refines J store places s (s.set key (some value)) ((save J draws key value store).run t) := by
  have hdir : (store.dataDir ++ key.tempFile).dropLast = (path key store).dropLast := by
    rw [path, StoreKey.tempFile, StoreKey.file, ← List.append_assoc, ← List.append_assoc,
      List.dropLast_concat, List.dropLast_concat]
  have hreplaces := replaces_writeFileAtomic draws.toStoreDraws (J.toStringPretty draws key value)
    hatomic (h.current.path_not_dir key)
    (key.withExtension_file store.dataDir)
    (fun heq => key.tempFile_ne_file key (List.append_cancel_left heq)) hdir
  have hframe (key' : StoreKey) (hne : key' ≠ key) :=
    hreplaces.rewrites.frame (path key' store)
      (fun heq => hne (StoreKey.file_injective (List.append_cancel_left heq)))
      (fun heq => key.tempFile_ne_file key' (List.append_cancel_left heq).symm)
  constructor
  · intro hok
    obtain ⟨text, htext, hlookup⟩ := hreplaces.ok hok
    refine h.rewrite hplaces hreplaces.rewrites (fun _ => ⟨key, rfl⟩) key.not_isJson_tempFile
      (rel_set h.current ?_ hframe)
    rw [save, hlookup]
    exact .some ⟨draws, htext⟩
  · intro e herror
    refine h.rewrite hplaces hreplaces.rewrites (fun _ => ⟨key, rfl⟩) key.not_isJson_tempFile
      (rel_same h.current fun key' => ?_)
    by_cases heq : key' = key
    · exact heq ▸ hreplaces.error e herror
    · exact hframe key' heq

/-- **Removing an entry.** -/
lemma refines_remove (h : Holds J store places t s) (hplaces : Places store places) :
    Refines J store places s (s.set key .none) ((remove draws key store).run t) := by
  obtain ⟨hrewrites, hlookup⟩ := replaces_removeFile draws.remove
    (h.current.path_not_dir key)
  -- the second file of the change does not matter
  have hrewrites' : Rewrites (store.dataDir ++ key.file) (store.dataDir ++ key.tempFile) t
      ((remove draws key store).run t).2 :=
    ⟨hrewrites.dirs, fun q hq _ => hrewrites.frame q hq hq, hrewrites.fits⟩
  have hframe (key' : StoreKey) (hne : key' ≠ key) :=
    hrewrites.frame (path key' store)
      (fun heq => hne (StoreKey.file_injective (List.append_cancel_left heq)))
      (fun heq => hne (StoreKey.file_injective (List.append_cancel_left heq)))
  constructor
  · intro hok
    refine h.rewrite hplaces hrewrites' (fun _ => ⟨key, rfl⟩) key.not_isJson_tempFile
      (rel_set h.current ?_ hframe)
    rw [remove] at hok ⊢
    rw [hlookup, hok]
    exact .none
  · intro e herror
    refine h.rewrite hplaces hrewrites' (fun _ => ⟨key, rfl⟩) key.not_isJson_tempFile
      (rel_same h.current fun key' => ?_)
    by_cases heq : key' = key
    · rw [remove] at herror ⊢
      rw [heq, hlookup, herror]
    · exact hframe key' heq

/-- **A health check** writes a file that is no entry. -/
lemma refines_healthCheck (h : Holds J store places t s) (hplaces : Places store places)
    (draws : CallDraws ω) :
    Holds J store places ((healthCheck draws store).run t).2 s := by
  obtain ⟨health, hhealth⟩ : ∃ health, health = store.dataDir ++ healthFile := ⟨_, rfl⟩
  have hjson : ¬ IsJson healthFile := by decide
  have hne (key : StoreKey) : path key store ≠ health := by
    rw [hhealth]
    exact fun heq => StoreKey.concat_ne_file [] ".health_check" (by decide) key
      (List.append_cancel_left heq).symm
  have hdir : health ∉ t.dirs := by
    intro hdir
    have hmem := h.current.dirs healthFile (hhealth ▸ hdir)
    revert hmem
    decide
  suffices hrewrites : Rewrites health health t ((healthCheck draws store).run t).2 from by
    rw [hhealth] at hrewrites
    exact h.rewrite hplaces hrewrites (fun hin => absurd hin hjson) hjson
      (rel_same h.current fun key => hrewrites.frame _ (hhealth ▸ hne key) (hhealth ▸ hne key))
  have hwrite := rewrites_writeFile t { draws.toStoreDraws with failure := none } health [] health
  simp only [Fallible.run, healthCheck, ← hhealth] at hwrite ⊢
  split
  · next mid hrun =>
    rw [hrun] at hwrite
    have hmid : health ∉ mid.dirs := by rwa [hwrite.dirs]
    exact hwrite.trans (replaces_removeFile _ hmid).1
  · next e mid hrun =>
    rw [hrun] at hwrite
    exact hwrite

/-- A directory is created if there is no file on the way. -/
lemma run_createDir (what : String) (h : ∀ q, q <+: p → q ∉ t.files) :
    (createDir what p).run t = (.ok (), { t with dirs := t.dirs ∪ p.inits.toFinset }) :=
  Fallible.run_mapError_of_ok (FileTree.run_createDirAll h)

/-- What is below a directory of entries is not deep. -/
lemma Covers.length_lt {root : PathBuf} {c : Contents σ} (h : Covers J root t c)
    (hdepth : 2 ≤ env.depth) (r : PathBuf) (hr : root ++ r ∈ t.dirs) : r.length < env.depth := by
  have hlength := StoreKey.length_le_one_of_mem_layout (h.dirs r hr)
  omega

/-- **Creating a backup** succeeds. -/
lemma run_createBackup (h : Holds J store places t s) (hplaces : Places store places)
    (hdepth : 2 ≤ env.depth) (hp : p ∈ places) :
    ∃ t', (createBackup env p store).run t = (.ok (), t') ∧
      Holds J store places t' (s.backUp p) := by
  have hfits := h.fits_backup hp
  have hfirst := run_createDir "backup dir" (h.free p hp)
  have hsecond := run_createDir "backup data dir" (p := p ++ ["data"])
    (t := { t with dirs := t.dirs ∪ p.inits.toFinset }) hfits.target
  -- the second directory has the first one on the way
  have hdirs : t.dirs ∪ p.inits.toFinset ∪ (p ++ ["data"]).inits.toFinset =
      t.dirs ∪ (p ++ ["data"]).inits.toFinset := by
    rw [Finset.union_assoc]
    congr 1
    refine Finset.union_eq_right.mpr fun q hq => ?_
    rw [List.mem_toFinset, List.mem_inits] at hq ⊢
    exact hq.trans (List.prefix_append p _)
  simp only [hdirs] at hsecond
  obtain ⟨t', hrun, hsound, hlaid⟩ := FileTree.copyDirAll_spec env.lister h.sound
    h.current.root_mem (hplaces.store p hp) hfits (h.current.length_lt hdepth)
  refine ⟨t', ?_, h.backUp hplaces hp hlaid hsound⟩
  obtain ⟨n, hn⟩ : ∃ n, env.depth = n + 1 := ⟨env.depth - 1, by omega⟩
  have hcopy := FileTree.run_copyDirAll_of_created n env.lister store.dataDir
    (FileTree.run_createDirAll hfits.target)
  rw [← hn, hrun] at hcopy
  rw [createBackup, Fallible.run_bind_of_ok hfirst, Fallible.run_bind_of_ok hsecond]
  exact Fallible.run_mapError_of_ok hcopy

/-- **Restoring a backup** succeeds if there is one. -/
lemma run_restoreBackup (h : Holds J store places t s) (hplaces : Places store places)
    (hdepth : 2 ≤ env.depth) (hp : p ∈ places) {c : Contents σ} (hc : s.backups p = some c) :
    ∃ t', (restoreBackup env p store).run t = (.ok (), t') ∧
      Holds J store places t' { s with current := c } := by
  obtain ⟨hclear, hshows⟩ := h.clear hplaces
  have hbackup := h.backup p hp c hc
  have hafter := hshows p hp c hc
  obtain ⟨t', hrun, hsound, hlaid⟩ := FileTree.copyDirAll_spec env.lister hclear hafter.root_mem
    (hplaces.store p hp).symm h.fits_restore (hafter.length_lt hdepth)
  refine ⟨t', ?_, h.restored hplaces hp hc hlaid hsound⟩
  have hcleared : (clear store).run t = (.ok (), FileTree.removeDirAll store.dataDir t) := by
    rw [clear, Fallible.run_bind_of_ok (Fallible.run_get t), if_pos h.current.root_mem]
    rfl
  rw [restoreBackup, Fallible.run_bind_of_ok (Fallible.run_get t),
    if_neg fun hmissing => hmissing.1 hbackup.root_mem, Fallible.run_bind_of_ok hcleared]
  exact Fallible.run_mapError_of_ok hrun

/-- Else it fails, and nothing changes. -/
lemma run_restoreBackup_missing (h : Holds J store places t s) (hp : p ∈ places)
    (hnone : s.backups p = none) : (restoreBackup env p store).run t =
      (.error (.fileNotFound ("Backup data directory not found: " ++
        env.debugPath (p ++ ["data"]))), t) := by
  rw [restoreBackup, Fallible.run_bind_of_ok (Fallible.run_get t), if_pos (h.absent p hp hnone)]
  rfl

/-- The place of a backup that is created or restored. -/
def StoreCall.place : StoreCall σ → Option PathBuf
  | .createBackup path => some path
  | .restoreBackup path => some path
  | _ => none

/-- **One call** does to the files what it does to the snapshots, or it leaves the entries. -/
lemma refines_perform (hatomic : store.atomicWrites = true) (h : Holds J store places t s)
    (hplaces : Places store places) (hdepth : 2 ≤ env.depth) (draws : CallDraws ω)
    (call : StoreCall σ) (hcall : ∀ p ∈ StoreCall.place call, p ∈ places) :
    Refines J store places s (s.update call) ((perform J env store draws call).run t) := by
  cases call with
  | saveVertex vertex => exact refines_save hatomic h hplaces draws (.vertex vertex.id) vertex
  | savePeer peerId info => exact refines_save hatomic h hplaces draws (.peer peerId) info
  | saveDarkRecord record =>
    exact refines_save hatomic h hplaces draws (.record record.ownerId) record
  | saveState state => exact refines_save hatomic h hplaces draws .state state
  | removeVertex id => exact refines_remove h hplaces
  | removePeer peerId => exact refines_remove h hplaces
  | removeDarkRecord ownerId => exact refines_remove h hplaces
  | healthCheck =>
    have hsame : ((perform J env store draws .healthCheck).run t).2 =
        ((healthCheck draws store).run t).2 := by
      rcases Fallible.run_cases (healthCheck draws store) t with ⟨a, t', hrun⟩ | ⟨e, t', hrun⟩
      · rw [perform, Fallible.run_bind_of_ok hrun, hrun]
        rfl
      · rw [perform, Fallible.run_bind_of_error hrun, hrun]
    have hholds := refines_healthCheck h hplaces draws
    rw [← hsame] at hholds
    exact ⟨fun _ => hholds, fun _ _ => hholds⟩
  | createBackup path =>
    obtain ⟨t', hrun, hholds⟩ := run_createBackup h hplaces hdepth (hcall path rfl)
    rw [perform, hrun]
    exact ⟨fun _ => hholds, fun _ herror => (nomatch herror)⟩
  | restoreBackup path =>
    cases hbackup : s.backups path with
    | none =>
      rw [perform, run_restoreBackup_missing h (hcall path rfl) hbackup]
      exact ⟨fun hok => (nomatch hok), fun _ _ => h⟩
    | some c =>
      obtain ⟨t', hrun, hholds⟩ := run_restoreBackup h hplaces hdepth (hcall path rfl) hbackup
      rw [perform, hrun, Snapshots.update, hbackup]
      exact ⟨fun _ => hholds, fun _ herror => (nomatch herror)⟩

/-! ### Runs -/

/-- The calls create and restore backups at some places only. -/
def Within (places : Set PathBuf) (calls : List (CallDraws ω × StoreCall σ)) : Prop :=
  ∀ call ∈ calls, ∀ p ∈ StoreCall.place call.2, p ∈ places

/-- What a store is for after some calls. -/
def snapshots (done : List (StoreCall σ)) : Snapshots σ := done.foldl Snapshots.update .new

/-- One call of a run. -/
lemma holds_apply (hatomic : store.atomicWrites = true) (hplaces : Places store places)
    (hdepth : 2 ≤ env.depth) {run : BackupRun σ} (h : Holds J store places run.tree
      (snapshots run.done)) {call : CallDraws ω × StoreCall σ}
    (hcall : ∀ p ∈ StoreCall.place call.2, p ∈ places) :
    Holds J store places (apply J env store run call).tree
      (snapshots (apply J env store run call).done) := by
  have hrefines := refines_perform hatomic h hplaces hdepth call.1 call.2 hcall
  simp only [apply]
  cases hr : ((perform J env store call.1 call.2).run run.tree).1 with
  | ok u =>
    rw [Except.isOk, Except.toBool, if_pos rfl, snapshots, List.foldl_concat]
    exact hrefines.ok hr
  | error e =>
    rw [Except.isOk, Except.toBool, if_neg Bool.false_ne_true]
    exact hrefines.error e hr

/-- **All calls of a run.** -/
lemma holds_run (hatomic : store.atomicWrites = true) (hplaces : Places store places)
    (hdepth : 2 ≤ env.depth) {calls : List (CallDraws ω × StoreCall σ)} (run : BackupRun σ)
    (h : Holds J store places run.tree (snapshots run.done)) (hcalls : Within places calls) :
    Holds J store places (Runs.run (apply J env store) run calls).tree
      (snapshots (Runs.run (apply J env store) run calls).done) := by
  have hsteps : Runs.Steps (apply J env store)
      (fun _ call => ∀ p ∈ StoreCall.place call.2, p ∈ places) run calls :=
    Runs.steps_iff_forall_mem.mpr hcalls
  exact Runs.run_rule (fun run => Holds J store places run.tree (snapshots run.done))
    (fun _ _ hholds hcall => holds_apply hatomic hplaces hdepth hholds hcall) hsteps h

end Calls

/-! ## A new store -/

section New

variable {J : StoreJson σ ω} {t t' : StoreTree} {dataDir : PathBuf} {places : Set PathBuf}

/-- Nothing is where a store and its backups will be, or in the way. -/
structure Fresh (dataDir : PathBuf) (places : Set PathBuf) (t : StoreTree) : Prop where
  sound : t.Sound
  store : dataDir ∉ t.dirs ∧ ∀ q, q <+: dataDir → q ∉ t.files
  backup : ∀ p ∈ places, p ++ ["data"] ∉ t.dirs ∧ ∀ q, q <+: p ++ ["data"] → q ∉ t.files

/-- A new store holds nothing. -/
lemma holds_new (hfresh : Fresh dataDir places t) (hplaces : Places ⟨dataDir, true⟩ places) :
    ∃ t', (new dataDir).run t = (.ok ⟨dataDir, true⟩, t') ∧
      Holds J ⟨dataDir, true⟩ places t' .new := by
  have hbelow := hfresh.sound.not_below hfresh.store.1
    (hfresh.store.2 dataDir (List.prefix_refl _))
  have hfree (name : String) (q : PathBuf) (hq : q <+: dataDir ++ [name]) : q ∉ t.files := by
    rcases List.prefix_concat_iff.mp hq with rfl | hbefore
    · exact (hbelow [name]).1
    · exact hfresh.store.2 q hbefore
  obtain ⟨t₁, ht₁⟩ : ∃ t₁ : StoreTree, t₁ = { t with dirs := t.dirs ∪ dataDir.inits.toFinset ∪
    (dataDir ++ ["vertices"]).inits.toFinset ∪ (dataDir ++ ["peers"]).inits.toFinset ∪
    (dataDir ++ ["domains"]).inits.toFinset } := ⟨_, rfl⟩
  have hfiles : t₁.files = t.files := by rw [ht₁]
  have hdirs (q : PathBuf) : q ∈ t₁.dirs ↔ q ∈ t.dirs ∨ ∃ r ∈ layout, q <+: dataDir ++ r := by
    rw [ht₁]
    simp only [layout, Finset.mem_union, List.mem_toFinset, List.mem_inits, List.mem_cons,
      List.not_mem_nil, or_false, exists_eq_or_imp, exists_eq_left, List.append_nil, or_assoc]
  have hsound : t₁.Sound := by
    rw [ht₁]
    exact (((hfresh.sound.createDirAll hfresh.store.2).createDirAll (hfree _)).createDirAll
      (hfree _)).createDirAll (hfree _)
  have hmem (r : PathBuf) : dataDir ++ r ∈ t₁.dirs ↔ r ∈ layout := by
    rw [hdirs, or_iff_right (hbelow r).2]
    constructor
    · rintro ⟨r', hr', hpre⟩
      exact StoreKey.mem_layout_of_prefix hr' ((List.prefix_append_right_inj dataDir).mp hpre)
    · exact fun hr => ⟨r, hr, List.prefix_refl _⟩
  refine ⟨t₁, ?_, hsound, ⟨⟨fun key => ?_, fun r hr => ?_, fun r hr => (hmem r).mp hr⟩,
    fun r hr => (hmem r).mpr hr⟩, fun _ _ c hc => absurd hc.symm (Option.some_ne_none c),
    fun p hp _ => ⟨?_, ?_⟩, fun p hp q hq => ?_⟩
  · have hrun (what name : String) (dirs : HashSet PathBuf) :=
      run_createDir what (t := { t with dirs := dirs }) (hfree name)
    rw [new, Fallible.run_bind_of_ok (run_createDir _ hfresh.store.2),
      Fallible.run_bind_of_ok (hrun ..), Fallible.run_bind_of_ok (hrun ..),
      Fallible.run_bind_of_ok (hrun ..), ht₁]
    rfl
  · rw [hfiles, Finmap.lookup_eq_none.mpr (hbelow key.file).1]
    exact .none
  · exact absurd (hfiles ▸ hr) (hbelow r).1
  · rw [hdirs, not_or]
    refine ⟨(hfresh.backup p hp).1, ?_⟩
    rintro ⟨r, -, hpre⟩
    exact (hplaces.store p hp).not_prefix_append r hpre
  · rw [hfiles]
    exact (hfresh.backup p hp).2 _ (List.prefix_refl _)
  · rw [hfiles]
    exact (hfresh.backup p hp).2 q (hq.trans (List.prefix_append p _))

end New

end StateBackup

end QuDAG.Protocol
