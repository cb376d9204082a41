import QuDAG.Lib.Collections
import QuDAG.Lib.Fallible

/-!
# Files in directories

A tree of files is a set of directories and the contents of its files, by path. Copying a directory
walks through it and writes what it finds to another place, next to what is there already. If
neither of the two places is inside the other one, the copy ends, and it lays the one directory over
the other.

## Main definitions

* `FileTree` — directories and files; `FileTree.Sound` — what is in a directory that is one.
* `FileTree.createDirAll`, `FileTree.removeDirAll`, `FileTree.copyDirAll`.
* `FileTree.Laid` — some of a directory is laid over another one.
* `FileTree.Apart`, `FileTree.Fits` — when a directory can be laid over another one.

## Main results

* `FileTree.copyDirAll_spec` — copying a directory lays it over the other one.
* `FileTree.copyDirAll_nested`, `FileTree.copyDirAll_self` — a copy into a directory itself has no
  end, and one onto itself empties its files.
* `FileTree.lookup_removeDirAll`, `FileTree.mem_dirs_removeDirAll` — what is left after a removal.
-/

open RustStd

/-- Directories, and files with their contents. A path is the list of its names. -/
structure FileTree (ν δ : Type) where
  files : HashMap (List ν) δ
  dirs : HashSet (List ν)

namespace FileTree

variable {ν δ : Type}

/-- Why an operation does not succeed. -/
inductive Fault (ν : Type)
  /-- The path leads through a file, or to one. -/
  | blocked (path file : List ν)
  /-- There is nothing at the path. -/
  | missing (path : List ν)
  /-- There is a file where a directory is needed. -/
  | notDirectory (path : List ν)
  /-- There is a directory where a file is needed. -/
  | isDirectory (path : List ν)
  /-- The operation goes on for longer than was granted. -/
  | unfinished

/-! ## Trees -/

/-- What has a parent has it in a directory, and a directory is not a file. -/
structure Sound (t : FileTree ν δ) : Prop where
  parent : ∀ p n, p ++ [n] ∈ t.files ∨ p ++ [n] ∈ t.dirs → p ∈ t.dirs
  not_file : ∀ p ∈ t.dirs, p ∉ t.files

/-- Neither of two paths is inside the other one. -/
structure Apart (p q : List ν) : Prop where
  left : ¬ p <+: q
  right : ¬ q <+: p

lemma Apart.symm {p q : List ν} (h : Apart p q) : Apart q p := ⟨h.right, h.left⟩

/-- Paths below paths that are apart are apart. -/
lemma Apart.append {p q : List ν} (h : Apart p q) (r s : List ν) : Apart (p ++ r) (q ++ s) := by
  constructor
  · intro hpre
    rcases List.prefix_or_prefix_of_prefix ((List.prefix_append p r).trans hpre)
      (List.prefix_append q s) with hpq | hqp
    · exact h.left hpq
    · exact h.right hqp
  · intro hpre
    rcases List.prefix_or_prefix_of_prefix ((List.prefix_append q s).trans hpre)
      (List.prefix_append p r) with hqp | hpq
    · exact h.right hqp
    · exact h.left hpq

/-- What is below one of two paths that are apart is not below the other one. -/
lemma Apart.not_prefix_append {p q : List ν} (h : Apart p q) (r : List ν) : ¬ q <+: p ++ r := by
  have happend := h.append r []
  rw [List.append_nil] at happend
  exact happend.right

namespace Sound

variable {t : FileTree ν δ}

/-- Whatever a path leads to, what is on the way is a directory. -/
lemma of_append (h : t.Sound) (p : List ν) : ∀ {r : List ν}, r ≠ [] →
    p ++ r ∈ t.files ∨ p ++ r ∈ t.dirs → p ∈ t.dirs := by
  intro r
  induction r using List.reverseRecOn with
  | nil => exact fun hne _ => absurd rfl hne
  | append_singleton r n ih =>
    intro _ hmem
    rw [← List.append_assoc] at hmem
    have hparent := h.parent (p ++ r) n hmem
    by_cases hnil : r = []
    · rwa [hnil, List.append_nil] at hparent
    · exact ih hnil (.inr hparent)

/-- Below a file there is nothing. -/
lemma not_below_file (h : t.Sound) {p r : List ν} (hfile : p ∈ t.files) (hne : r ≠ []) :
    p ++ r ∉ t.files ∧ p ++ r ∉ t.dirs :=
  ⟨fun hmem => h.not_file p (h.of_append p hne (.inl hmem)) hfile,
    fun hmem => h.not_file p (h.of_append p hne (.inr hmem)) hfile⟩

/-- Nothing is where nothing is, or below it. -/
lemma not_below (h : t.Sound) {p : List ν} (hdir : p ∉ t.dirs) (hfile : p ∉ t.files)
    (r : List ν) : p ++ r ∉ t.files ∧ p ++ r ∉ t.dirs := by
  by_cases hr : r = []
  · rw [hr, List.append_nil]
    exact ⟨hfile, hdir⟩
  · exact ⟨fun hmem => hdir (h.of_append p hr (.inl hmem)),
      fun hmem => hdir (h.of_append p hr (.inr hmem))⟩

end Sound

/-- Nothing is in the way of laying `src` over `dst`. -/
structure Fits (src dst : List ν) (t : FileTree ν δ) : Prop where
  target : ∀ q, q <+: dst → q ∉ t.files
  dir : ∀ r, src ++ r ∈ t.dirs → dst ++ r ∉ t.files
  file : ∀ r, src ++ r ∈ t.files → dst ++ r ∉ t.dirs

/-- The paths that start with one of some names. -/
def under (names : List ν) : Set (List ν) := {r | ∀ n ∈ r.head?, n ∈ names}

lemma nil_mem_under (names : List ν) : [] ∈ under names := by
  intro n hn
  simp at hn

@[simp] lemma cons_mem_under {names : List ν} {n : ν} {r : List ν} :
    n :: r ∈ under names ↔ n ∈ names := by
  simp [under]

lemma mem_under_concat {names : List ν} {n : ν} {r : List ν} :
    r ∈ under (names ++ [n]) ↔ r ∈ under names ∨ ∃ r', r = n :: r' := by
  cases r with
  | nil => simp [nil_mem_under]
  | cons m r => simp [eq_comm]

/-- What is on the way to a path below some names is below them. -/
lemma mem_under_of_concat {names : List ν} (r : List ν) (n : ν) (h : r ++ [n] ∈ under names) :
    r ∈ under names := by
  cases r with
  | nil => exact nil_mem_under names
  | cons m r => simpa using h

/-- What is in a directory is below one of its entries. -/
lemma Sound.mem_under {t : FileTree ν δ} (h : t.Sound) {p r names : List ν}
    (hnames : ∀ n, p ++ [n] ∈ t.files ∨ p ++ [n] ∈ t.dirs → n ∈ names)
    (hmem : p ++ r ∈ t.files ∨ p ++ r ∈ t.dirs) : r ∈ under names := by
  cases r with
  | nil => exact nil_mem_under names
  | cons n r =>
    refine cons_mem_under.mpr (hnames n ?_)
    by_cases hnil : r = []
    · rwa [hnil] at hmem
    · rw [show p ++ n :: r = (p ++ [n]) ++ r by simp] at hmem
      exact .inr (h.of_append _ hnil hmem)

/-! ## Operations -/

variable [DecidableEq ν]

/-- A way to list the names in a directory. -/
structure Lister (ν δ : Type) where
  names : FileTree ν δ → List ν → List ν
  nodup : ∀ t p, (names t p).Nodup
  mem_names : ∀ t p n, n ∈ names t p ↔ p ++ [n] ∈ t.files ∨ p ++ [n] ∈ t.dirs

/-- Some way to list them. -/
noncomputable def Lister.arbitrary [Inhabited ν] : Lister ν δ where
  names t p := (((t.files.keys ∪ t.dirs).filter fun q => q ≠ [] ∧ q.dropLast = p).image
    fun q => q.getLast?.getD default).toList
  nodup _ _ := Finset.nodup_toList _
  mem_names t p n := by
    simp only [Finset.mem_toList, Finset.mem_image, Finset.mem_filter, Finset.mem_union,
      Finmap.mem_keys]
    constructor
    · rintro ⟨q, ⟨hmem, hne, rfl⟩, rfl⟩
      rwa [List.getLast?_eq_some_getLast hne, Option.getD_some, List.dropLast_append_getLast hne]
    · exact fun hmem => ⟨p ++ [n], ⟨hmem, by simp, List.dropLast_concat⟩, by simp⟩

/-- Create a directory and those it is in. -/
def createDirAll (p : List ν) : Fallible (Fault ν) (FileTree ν δ) Unit := do
  let t ← Fallible.get
  match p.inits.find? fun q => q ∈ t.files with
  | some q => Fallible.fail (.blocked p q)
  | none => Fallible.modify fun t => { t with dirs := t.dirs ∪ p.inits.toFinset }

/-- Remove a directory with all that is in it. -/
def removeDirAll (p : List ν) (t : FileTree ν δ) : FileTree ν δ where
  files := t.files.retain fun q _ => !p.isPrefixOf q
  dirs := t.dirs.filter fun q => ¬ p <+: q

/-- The names in a directory. -/
def readDir (lister : Lister ν δ) (p : List ν) : Fallible (Fault ν) (FileTree ν δ) (List ν) := do
  let t ← Fallible.get
  if p ∈ t.dirs then pure (lister.names t p)
  else if p ∈ t.files then Fallible.fail (.notDirectory p)
  else Fallible.fail (.missing p)

section Copying

variable [Inhabited δ]

/-- Copy a file. A file that is there is emptied first, also if it is the one to copy. -/
def copyFile (src dst : List ν) : Fallible (Fault ν) (FileTree ν δ) Unit := do
  let t ← Fallible.get
  match t.files.lookup src with
  | none => Fallible.fail (.missing src)
  | some data =>
    if dst ∈ t.dirs then Fallible.fail (.isDirectory dst)
    else if dst.dropLast ∉ t.dirs then Fallible.fail (.missing dst)
    else Fallible.modify fun t =>
      { t with files := t.files.insert dst (if src = dst then default else data) }

/-- Copy an entry of a directory, which is a directory or a file. -/
def copyEntry (copyDir : List ν → List ν → Fallible (Fault ν) (FileTree ν δ) Unit)
    (src dst : List ν) : Fallible (Fault ν) (FileTree ν δ) Unit := do
  let t ← Fallible.get
  if src ∈ t.dirs then copyDir src dst else copyFile src dst

/-- Copy the entries of a directory, one after the other. -/
def copyEntries (copyDir : List ν → List ν → Fallible (Fault ν) (FileTree ν δ) Unit)
    (src dst : List ν) : List ν → Fallible (Fault ν) (FileTree ν δ) Unit
  | [] => pure ()
  | n :: ns => do
    copyEntry copyDir (src ++ [n]) (dst ++ [n])
    copyEntries copyDir src dst ns

/-- Copy directory contents recursively, to some depth. -/
def copyDirAll (lister : Lister ν δ) :
    ℕ → List ν → List ν → Fallible (Fault ν) (FileTree ν δ) Unit
  | 0, _, _ => Fallible.fail .unfinished
  | depth + 1, src, dst => do
    createDirAll dst
    let names ← readDir lister src
    copyEntries (copyDirAll lister depth) src dst names

end Copying

/-! ## One directory over another one -/

/-- The paths in `S` of the directory `src` of `t` are laid over the directory `dst`. -/
structure Laid (S : Set (List ν)) (src dst : List ν) (t t' : FileTree ν δ) : Prop where
  file_of_mem : ∀ r ∈ S,
    t'.files.lookup (dst ++ r) = (t.files.lookup (src ++ r)).or (t.files.lookup (dst ++ r))
  file_of_not_mem : ∀ r ∉ S, t'.files.lookup (dst ++ r) = t.files.lookup (dst ++ r)
  dir : ∀ r, dst ++ r ∈ t'.dirs ↔ dst ++ r ∈ t.dirs ∨ r ∈ S ∧ src ++ r ∈ t.dirs
  file_frame : ∀ p, ¬ dst <+: p → t'.files.lookup p = t.files.lookup p
  dir_frame : ∀ p, ¬ dst <+: p → (p ∈ t'.dirs ↔ p ∈ t.dirs ∨ p <+: dst)

/-! ## What the operations do -/

section Operations

variable {t t' t'' : FileTree ν δ} {p q src dst : List ν}

/-- A directory can be created if there is no file on the way. -/
lemma run_createDirAll (h : ∀ q, q <+: p → q ∉ t.files) :
    (createDirAll p).run t = (.ok (), { t with dirs := t.dirs ∪ p.inits.toFinset }) := by
  have hnone : p.inits.find? (fun q => decide (q ∈ t.files)) = none := by
    rw [List.find?_eq_none]
    intro q hq
    simpa using h q (List.mem_inits q p |>.mp hq)
  rw [createDirAll, Fallible.run_bind_of_ok (Fallible.run_get t), hnone]
  rfl

/-- A directory that was created is there. -/
lemma createDirAll_ok (h : (createDirAll p).run t = (.ok (), t')) :
    t' = { t with dirs := t.dirs ∪ p.inits.toFinset } := by
  rw [createDirAll, Fallible.run_bind_of_ok (Fallible.run_get t)] at h
  split at h
  · simp at h
  · exact (Fallible.run_modify_ok.mp h).symm

/-- Creating directories removes none. -/
lemma keeps_createDirAll : Fallible.Keeps (fun t : FileTree ν δ => p ∈ t.dirs)
    (createDirAll q) := by
  intro t hp
  rw [createDirAll, Fallible.run_bind_of_ok (Fallible.run_get t)]
  split
  · exact hp
  · exact Finset.mem_union_left _ hp

/-- A sound tree stays sound when a directory is created. -/
lemma Sound.createDirAll (h : t.Sound) (hfree : ∀ q, q <+: p → q ∉ t.files) :
    Sound { t with dirs := t.dirs ∪ p.inits.toFinset } where
  parent q n hmem := by
    simp only [Finset.mem_union, List.mem_toFinset, List.mem_inits] at hmem ⊢
    rcases hmem with hfile | hdir | hway
    · exact .inl (h.parent q n (.inl hfile))
    · exact .inl (h.parent q n (.inr hdir))
    · exact .inr ((List.prefix_append q [n]).trans hway)
  not_file q hq := by
    simp only [Finset.mem_union, List.mem_toFinset, List.mem_inits] at hq
    rcases hq with hdir | hway
    · exact h.not_file q hdir
    · exact hfree q hway

/-- What is left of the files after a removal. -/
lemma lookup_removeDirAll : (removeDirAll p t).files.lookup q =
    if p <+: q then none else t.files.lookup q := by
  refine Option.ext fun data => ?_
  rw [removeDirAll, HashMap.lookup_retain]
  split_ifs with h
  · simp [List.isPrefixOf_iff_prefix.mpr h]
  · have hfalse : p.isPrefixOf q = false := by
      rw [Bool.eq_false_iff, ne_eq, List.isPrefixOf_iff_prefix]
      exact h
    simp [hfalse]

lemma mem_files_removeDirAll : q ∈ (removeDirAll p t).files ↔ q ∈ t.files ∧ ¬ p <+: q := by
  by_cases h : p <+: q
  · simp [← Finmap.lookup_isSome, lookup_removeDirAll, h]
  · simp [HashMap.mem_congr_of_lookup (lookup_removeDirAll.trans (if_neg h)), h]

/-- What is left of the directories after a removal. -/
lemma mem_dirs_removeDirAll : q ∈ (removeDirAll p t).dirs ↔ q ∈ t.dirs ∧ ¬ p <+: q :=
  Finset.mem_filter

/-- A directory is read. -/
lemma run_readDir (lister : Lister ν δ) (h : p ∈ t.dirs) :
    (readDir lister p).run t = (.ok (lister.names t p), t) := by
  rw [readDir, Fallible.run_bind_of_ok (Fallible.run_get t), if_pos h]
  rfl

/-- A sound tree stays sound when a directory is removed. -/
lemma Sound.removeDirAll (h : t.Sound) : (removeDirAll p t).Sound where
  parent q n hmem := by
    have hout : ¬ p <+: q ++ [n] := by
      rcases hmem with hfile | hdir
      · exact (mem_files_removeDirAll.mp hfile).2
      · exact (mem_dirs_removeDirAll.mp hdir).2
    refine mem_dirs_removeDirAll.mpr ⟨h.parent q n ?_, fun hin =>
      hout (hin.trans (List.prefix_append q [n]))⟩
    rcases hmem with hfile | hdir
    · exact .inl (mem_files_removeDirAll.mp hfile).1
    · exact .inr (mem_dirs_removeDirAll.mp hdir).1
  not_file q hq := by
    obtain ⟨hdir, -⟩ := mem_dirs_removeDirAll.mp hq
    exact fun hfile => h.not_file q hdir (mem_files_removeDirAll.mp hfile).1

/-- A directory that is read is one. -/
lemma readDir_ok {lister : Lister ν δ} {names : List ν}
    (h : (readDir lister p).run t = (.ok names, t')) :
    t' = t ∧ p ∈ t.dirs ∧ names = lister.names t p := by
  rw [readDir, Fallible.run_bind_of_ok (Fallible.run_get t)] at h
  split_ifs at h with hdir
  · obtain ⟨rfl, rfl⟩ := Fallible.run_pure_ok.mp h
    exact ⟨rfl, hdir, rfl⟩
  · simp at h
  · simp at h

lemma keeps_readDir (lister : Lister ν δ) : Fallible.Keeps (fun t : FileTree ν δ => p ∈ t.dirs)
    (readDir lister q) := by
  intro t hp
  rw [readDir, Fallible.run_bind_of_ok (Fallible.run_get t)]
  split_ifs
  · exact hp
  · exact hp
  · exact hp

end Operations

namespace Laid

variable {S : Set (List ν)} {src dst : List ν} {t t' t'' : FileTree ν δ}

/-- The part of `src` is where it was. -/
lemma file_source (h : Laid S src dst t t') (hapart : Apart src dst) (r : List ν) :
    t'.files.lookup (src ++ r) = t.files.lookup (src ++ r) :=
  h.file_frame _ (hapart.not_prefix_append r)

lemma dir_source (h : Laid S src dst t t') (hapart : Apart src dst) (r : List ν) :
    src ++ r ∈ t'.dirs ↔ src ++ r ∈ t.dirs := by
  rw [h.dir_frame _ (hapart.not_prefix_append r), or_iff_left]
  exact fun hpre => hapart.left ((List.prefix_append src r).trans hpre)

/-- A new directory has nothing laid over it but itself. -/
lemma createDirAll (dst : List ν) (hsound : t.Sound) (hsrc : src ∈ t.dirs) :
    Laid (under []) src dst t { t with dirs := t.dirs ∪ dst.inits.toFinset } where
  file_of_mem r hr := by
    obtain rfl : r = [] := by
      cases r with
      | nil => rfl
      | cons n r => simp at hr
    have hnone : t.files.lookup (src ++ []) = none := by
      rw [List.append_nil]
      exact Finmap.lookup_eq_none.mpr (hsound.not_file src hsrc)
    rw [hnone, Option.none_or]
  file_of_not_mem _ _ := rfl
  dir r := by
    rw [Finset.mem_union, List.mem_toFinset, List.mem_inits]
    refine or_congr_right ⟨fun hpre => ?_, ?_⟩
    · obtain rfl : r = [] := by
        have hle := hpre.length_le
        rw [List.length_append] at hle
        exact List.length_eq_zero_iff.mp (by omega)
      exact ⟨nil_mem_under [], by rwa [List.append_nil]⟩
    · rintro ⟨hr, -⟩
      cases r with
      | nil => rw [List.append_nil]
      | cons n r => simp at hr
  file_frame _ _ := rfl
  dir_frame p _ := by rw [Finset.mem_union, List.mem_toFinset, List.mem_inits]

/-- Directories stay. -/
lemma mem_dirs (h : Laid S src dst t t') {p : List ν} (hp : p ∈ t.dirs) : p ∈ t'.dirs := by
  by_cases hpre : dst <+: p
  · obtain ⟨r, rfl⟩ := hpre
    exact (h.dir r).mpr (.inl hp)
  · exact (h.dir_frame p hpre).mpr (.inl hp)

/-- What `dst` is in is a directory, and so is `dst` if `src` is. -/
lemma mem_dirs_of_prefix (h : Laid S src dst t t') (hnil : [] ∈ S) (hsrc : src ∈ t.dirs)
    {p : List ν} (hp : p <+: dst) : p ∈ t'.dirs := by
  by_cases hpre : dst <+: p
  · obtain rfl := List.IsPrefix.eq_of_length_le hp hpre.length_le
    have hdst := (h.dir []).mpr (.inr ⟨hnil, by rwa [List.append_nil]⟩)
    rwa [List.append_nil] at hdst
  · exact (h.dir_frame p hpre).mpr (.inr hp)

/-- A file of the new tree was one of the old one, at its place or at that of `src`. -/
lemma mem_files (h : Laid S src dst t t') {r : List ν} (hr : dst ++ r ∈ t'.files) :
    dst ++ r ∈ t.files ∨ r ∈ S ∧ src ++ r ∈ t.files := by
  obtain ⟨data, hdata⟩ := HashMap.mem_iff_exists.mp hr
  by_cases hS : r ∈ S
  · rw [h.file_of_mem r hS, Option.or_eq_some_iff] at hdata
    rcases hdata with hsrc | ⟨-, hdst⟩
    · exact .inr ⟨hS, HashMap.mem_of_lookup hsrc⟩
    · exact .inl (HashMap.mem_of_lookup hdst)
  · rw [h.file_of_not_mem r hS] at hdata
    exact .inl (HashMap.mem_of_lookup hdata)

lemma mem_files_frame (h : Laid S src dst t t') {p : List ν} (hp : ¬ dst <+: p) :
    p ∈ t'.files ↔ p ∈ t.files :=
  HashMap.mem_congr_of_lookup (h.file_frame p hp)

/-- **A sound tree stays sound** when some of a directory is laid over another one. -/
theorem sound (h : Laid S src dst t t') (hS : ∀ r n, r ++ [n] ∈ S → r ∈ S) (hnil : [] ∈ S)
    (hsrc : src ∈ t.dirs) (hsound : t.Sound) (hfits : Fits src dst t) : t'.Sound := by
  constructor
  · intro p n hmem
    by_cases hpre : dst <+: p ++ [n]
    · obtain ⟨r, hr⟩ := hpre
      rcases List.eq_nil_or_concat r with rfl | ⟨r, m, rfl⟩
      · -- the path is `dst` itself
        rw [List.append_nil] at hr
        exact h.mem_dirs_of_prefix hnil hsrc (hr ▸ List.prefix_append p [n])
      · rw [List.concat_eq_append, ← List.append_assoc] at hr
        obtain ⟨rfl, hm⟩ := List.append_inj' hr rfl
        obtain rfl : m = n := (List.cons.inj hm).1
        rw [List.append_assoc] at hmem
        have hold : dst ++ (r ++ [m]) ∈ t.files ∨ dst ++ (r ++ [m]) ∈ t.dirs ∨
            r ++ [m] ∈ S ∧ (src ++ (r ++ [m]) ∈ t.files ∨ src ++ (r ++ [m]) ∈ t.dirs) := by
          rcases hmem with hfile | hdir
          · rcases h.mem_files hfile with hdst | ⟨hin, hfrom⟩
            · exact .inl hdst
            · exact .inr (.inr ⟨hin, .inl hfrom⟩)
          · rcases (h.dir _).mp hdir with hdst | ⟨hin, hfrom⟩
            · exact .inr (.inl hdst)
            · exact .inr (.inr ⟨hin, .inr hfrom⟩)
        rw [← List.append_assoc, ← List.append_assoc] at hold
        rcases hold with hfile | hdir | ⟨hin, hfrom⟩
        · exact h.mem_dirs (hsound.parent _ _ (.inl hfile))
        · exact h.mem_dirs (hsound.parent _ _ (.inr hdir))
        · exact (h.dir r).mpr (.inr ⟨hS _ _ hin, hsound.parent _ _ hfrom⟩)
    · rcases hmem with hfile | hdir
      · exact h.mem_dirs (hsound.parent p n (.inl ((h.mem_files_frame hpre).mp hfile)))
      · rcases (h.dir_frame _ hpre).mp hdir with hold | hbefore
        · exact h.mem_dirs (hsound.parent p n (.inr hold))
        · exact h.mem_dirs_of_prefix hnil hsrc ((List.prefix_append p [n]).trans hbefore)
  · intro p hdir hfile
    by_cases hpre : dst <+: p
    · obtain ⟨r, rfl⟩ := hpre
      rcases (h.dir r).mp hdir with hold | ⟨-, hfrom⟩
      · rcases h.mem_files hfile with hdst | ⟨-, hsrcfile⟩
        · exact hsound.not_file _ hold hdst
        · exact hfits.file r hsrcfile hold
      · rcases h.mem_files hfile with hdst | ⟨-, hsrcfile⟩
        · exact hfits.dir r hfrom hdst
        · exact hsound.not_file _ hfrom hsrcfile
    · rw [h.mem_files_frame hpre] at hfile
      rcases (h.dir_frame p hpre).mp hdir with hold | hbefore
      · exact hsound.not_file p hold hfile
      · exact hfits.target p hbefore hfile

section Entry

variable {done : List ν} {n : ν}

/-- **One more entry**: if the entry was copied, more of the directory is laid over the other
one. -/
theorem concat (h : Laid (under done) src dst t t') (hapart : Apart src dst) (hsrc : src ∈ t.dirs)
    (hn : n ∉ done) (hnext : Laid Set.univ (src ++ [n]) (dst ++ [n]) t' t'') :
    Laid (under (done ++ [n])) src dst t t'' := by
  have hnil := nil_mem_under done
  -- what the entry is copied to has not been copied to before
  have hcons (r : List ν) : n :: r ∉ under done := by simpa using hn
  have hbelow (r : List ν) : dst ++ n :: r = (dst ++ [n]) ++ r := by simp
  have hbelow' (r : List ν) : src ++ n :: r = (src ++ [n]) ++ r := by simp
  have hout {r : List ν} (hr : ∀ r', r ≠ n :: r') : ¬ dst ++ [n] <+: dst ++ r := by
    rintro hpre
    obtain ⟨r', hr'⟩ := (List.prefix_append_right_inj dst).mp hpre
    exact hr r' hr'.symm
  have hup {p : List ν} (hp : ¬ dst <+: p) : ¬ dst ++ [n] <+: p :=
    fun hpre => hp ((List.prefix_append dst [n]).trans hpre)
  constructor
  · intro r hr
    rcases mem_under_concat.mp hr with hold | ⟨r', rfl⟩
    · have hne : ∀ r', r ≠ n :: r' := by
        rintro r' rfl
        exact hcons r' hold
      rw [hnext.file_frame _ (hout hne), h.file_of_mem r hold]
    · rw [hbelow, hbelow', hnext.file_of_mem r' (Set.mem_univ r'), ← hbelow, ← hbelow',
        h.file_source hapart, h.file_of_not_mem _ (hcons r')]
  · intro r hr
    have hne : ∀ r', r ≠ n :: r' := fun r' heq => hr (mem_under_concat.mpr (.inr ⟨r', heq⟩))
    rw [hnext.file_frame _ (hout hne),
      h.file_of_not_mem r fun hold => hr (mem_under_concat.mpr (.inl hold))]
  · intro r
    by_cases hr : ∃ r', r = n :: r'
    · obtain ⟨r', rfl⟩ := hr
      rw [hbelow, hbelow', hnext.dir, ← hbelow, ← hbelow', h.dir_source hapart, h.dir]
      simp [hn]
    · have hne : ∀ r', r ≠ n :: r' := not_exists.mp hr
      rw [hnext.dir_frame _ (hout hne), h.dir, mem_under_concat, or_iff_left hr,
        or_iff_left_iff_imp]
      intro hpre
      rcases List.prefix_append_right_inj dst |>.mp hpre with ⟨rest, hrest⟩
      cases r with
      | nil => exact .inr ⟨hnil, by rwa [List.append_nil]⟩
      | cons m r =>
        obtain ⟨rfl, -⟩ := List.cons.inj hrest
        exact absurd rfl (hne r)
  · intro p hp
    rw [hnext.file_frame p (hup hp), h.file_frame p hp]
  · intro p hp
    rw [hnext.dir_frame p (hup hp), h.dir_frame p hp, or_assoc]
    refine or_congr_right ⟨?_, .inl⟩
    rintro (hpre | hpre)
    · exact hpre
    · rcases List.prefix_concat_iff.mp hpre with rfl | hbefore
      · exact absurd (List.prefix_append dst [n]) hp
      · exact hbefore

/-- What is in the way of an entry is in the way of the directory. -/
lemma fits (h : Laid (under done) src dst t t') (hapart : Apart src dst) (hsrc : src ∈ t.dirs)
    (hsound' : t'.Sound) (hfits : Fits src dst t) (hn : n ∉ done)
    (hdir : src ++ [n] ∈ t.dirs) : Fits (src ++ [n]) (dst ++ [n]) t' := by
  have hcons (r : List ν) : n :: r ∉ under done := by simpa using hn
  have hfile (r : List ν) : dst ++ n :: r ∈ t'.files ↔ dst ++ n :: r ∈ t.files := by
    rw [HashMap.mem_iff_exists, HashMap.mem_iff_exists, h.file_of_not_mem _ (hcons r)]
  constructor
  · intro q hq
    rcases List.prefix_concat_iff.mp hq with rfl | hbefore
    · rw [hfile []]
      exact hfits.dir [n] hdir
    · exact hsound'.not_file q (h.mem_dirs_of_prefix (nil_mem_under done) hsrc hbefore)
  · intro r hr
    rw [List.append_assoc, List.singleton_append] at hr ⊢
    rw [hfile r]
    exact hfits.dir _ ((h.dir_source hapart _).mp hr)
  · intro r hr hmem
    rw [List.append_assoc, List.singleton_append] at hr hmem
    rw [HashMap.mem_iff_exists, h.file_source hapart, ← HashMap.mem_iff_exists] at hr
    rcases (h.dir _).mp hmem with hold | ⟨hin, -⟩
    · exact hfits.file _ hr hold
    · exact hcons r hin

end Entry

/-- Where `src` has nothing, it makes no difference whether it is laid over. -/
lemma univ (h : Laid S src dst t t') (hS : ∀ r, src ++ r ∈ t.files ∨ src ++ r ∈ t.dirs → r ∈ S) :
    Laid Set.univ src dst t t' where
  file_of_mem r _ := by
    by_cases hr : r ∈ S
    · exact h.file_of_mem r hr
    · have hnone : t.files.lookup (src ++ r) = none :=
        Finmap.lookup_eq_none.mpr fun hmem => hr (hS r (.inl hmem))
      rw [h.file_of_not_mem r hr, hnone, Option.none_or]
  file_of_not_mem r hr := absurd (Set.mem_univ r) hr
  dir r := by
    rw [h.dir]
    refine or_congr_right ⟨fun hr => ⟨Set.mem_univ r, hr.2⟩, fun hr => ⟨hS r (.inr hr.2), hr.2⟩⟩
  file_frame := h.file_frame
  dir_frame := h.dir_frame

/-- A file is laid over another one. -/
lemma copyFile {data : δ} (hsound : t.Sound) (hsrc : t.files.lookup src = some data)
    (hdst : dst ∉ t.dirs) (hparents : ∀ p, p <+: dst → p ≠ dst → p ∈ t.dirs) :
    Laid Set.univ src dst t { t with files := t.files.insert dst data } := by
  have hbelow {r : List ν} (hr : r ≠ []) := hsound.not_below_file (HashMap.mem_of_lookup hsrc) hr
  constructor
  · intro r _
    by_cases hr : r = []
    · rw [hr, List.append_nil, List.append_nil, Finmap.lookup_insert, hsrc, Option.some_or]
    · have hne : dst ++ r ≠ dst := fun heq => hr (List.append_right_eq_self.mp heq)
      rw [Finmap.lookup_insert_of_ne _ hne, Finmap.lookup_eq_none.mpr (hbelow hr).1, Option.none_or]
  · exact fun r hr => absurd (Set.mem_univ r) hr
  · intro r
    rw [or_iff_left]
    rintro ⟨-, hdir⟩
    by_cases hr : r = []
    · rw [hr, List.append_nil] at hdir
      exact hsound.not_file src hdir (HashMap.mem_of_lookup hsrc)
    · exact (hbelow hr).2 hdir
  · intro p hp
    refine Finmap.lookup_insert_of_ne _ ?_
    rintro rfl
    exact hp (List.prefix_refl p)
  · intro p hp
    rw [or_iff_left_of_imp]
    intro hpre
    refine hparents p hpre ?_
    rintro rfl
    exact hp (List.prefix_refl p)

end Laid

/-! ## Copying a directory -/

section Copy

variable [Inhabited δ] {lister : Lister ν δ} {depth : ℕ} {src dst : List ν} {t t' : FileTree ν δ}

/-- A file is copied over another one. -/
lemma run_copyFile {data : δ} (hsrc : t.files.lookup src = some data) (hdst : dst ∉ t.dirs)
    (hparent : dst.dropLast ∈ t.dirs) : (copyFile src dst).run t =
      (.ok (), { t with files := t.files.insert dst (if src = dst then default else data) }) := by
  rw [copyFile, Fallible.run_bind_of_ok (Fallible.run_get t), hsrc]
  simp only [if_neg hdst, if_neg (not_not.mpr hparent)]
  rfl

/-- Entries are copied one after the other, if directories among them are. -/
lemma copyEntries_spec (hsound : t.Sound) (hsrc : src ∈ t.dirs) (hapart : Apart src dst)
    (hfits : Fits src dst t)
    (hcopy : ∀ {n : ν} {t' : FileTree ν δ}, t'.Sound → src ++ [n] ∈ t'.dirs →
      Fits (src ++ [n]) (dst ++ [n]) t' →
      (∀ r, src ++ [n] ++ r ∈ t'.dirs → src ++ [n] ++ r ∈ t.dirs) →
      ∃ t'', (copyDirAll lister depth (src ++ [n]) (dst ++ [n])).run t' = (.ok (), t'') ∧
        Laid Set.univ (src ++ [n]) (dst ++ [n]) t' t'') (ns : List ν) :
    ∀ {done : List ν} {t' : FileTree ν δ}, Laid (under done) src dst t t' → (done ++ ns).Nodup →
      (∀ n ∈ ns, src ++ [n] ∈ t.files ∨ src ++ [n] ∈ t.dirs) →
      ∃ t'', (copyEntries (copyDirAll lister depth) src dst ns).run t' = (.ok (), t'') ∧
        Laid (under (done ++ ns)) src dst t t'' := by
  induction ns with
  | nil =>
    intro done t' h _ _
    exact ⟨t', rfl, by rwa [List.append_nil]⟩
  | cons n ns ih =>
    intro done t' h hnodup hmem
    have hn : n ∉ done := fun hin => List.disjoint_of_nodup_append hnodup hin List.mem_cons_self
    have hsound' := h.sound mem_under_of_concat (nil_mem_under done) hsrc hsound hfits
    -- The entry is copied, whether it is a directory or a file.
    obtain ⟨mid, hrun, hlaid⟩ : ∃ mid,
        (copyEntry (copyDirAll lister depth) (src ++ [n]) (dst ++ [n])).run t' = (.ok (), mid) ∧
        Laid Set.univ (src ++ [n]) (dst ++ [n]) t' mid := by
      rw [copyEntry, Fallible.run_bind_of_ok (Fallible.run_get t')]
      by_cases hdir : src ++ [n] ∈ t'.dirs
      · have hold := (h.dir_source hapart _).mp hdir
        rw [if_pos hdir]
        refine hcopy hsound' hdir (h.fits hapart hsrc hsound' hfits hn hold) fun r hr => ?_
        rw [List.append_assoc] at hr ⊢
        exact (h.dir_source hapart _).mp hr
      · have hold : src ++ [n] ∉ t.dirs := fun hin => hdir ((h.dir_source hapart _).mpr hin)
        have hfile := (hmem n List.mem_cons_self).resolve_right hold
        obtain ⟨data, hdata⟩ := HashMap.mem_iff_exists.mp hfile
        have hlookup := (h.file_source hapart [n]).trans hdata
        have hfree : dst ++ [n] ∉ t'.dirs := by
          rw [h.dir, not_or]
          exact ⟨hfits.file [n] hfile, fun hin => hold hin.2⟩
        have hway {p : List ν} (hp : p <+: dst) : p ∈ t'.dirs :=
          h.mem_dirs_of_prefix (nil_mem_under done) hsrc hp
        have hparent : (dst ++ [n]).dropLast ∈ t'.dirs := by
          rw [List.dropLast_concat]
          exact hway (List.prefix_refl dst)
        have hne : src ++ [n] ≠ dst ++ [n] := fun heq =>
          (hapart.append [n] [n]).left (heq ▸ List.prefix_refl _)
        rw [if_neg hdir, run_copyFile hlookup hfree hparent, if_neg hne]
        refine ⟨_, rfl, Laid.copyFile hsound' hlookup hfree fun p hp hne => hway ?_⟩
        exact (List.prefix_concat_iff.mp hp).resolve_left hne
    have hstep := h.concat hapart hsrc hn hlaid
    obtain ⟨t'', hrest, hfinal⟩ := ih hstep (by rwa [List.append_assoc, List.singleton_append])
      fun m hm => hmem m (List.mem_cons_of_mem n hm)
    rw [List.append_assoc, List.singleton_append] at hfinal
    refine ⟨t'', ?_, hfinal⟩
    rw [copyEntries, Fallible.run_bind_of_ok hrun]
    exact hrest

/-- **Copying a directory** lays it over the other one, if it may go deep enough.

**Proof sketch.** Induction on the depth. The directory `dst` is there once it was created. Then one
entry after the other is copied: what it is copied to has not been changed before, and nothing in
`src` changes, since the two directories are apart. -/
theorem copyDirAll_spec (lister : Lister ν δ) : ∀ {depth : ℕ} {src dst : List ν} {t : FileTree ν δ},
    t.Sound → src ∈ t.dirs → Apart src dst → Fits src dst t →
    (∀ r, src ++ r ∈ t.dirs → r.length < depth) →
    ∃ t', (copyDirAll lister depth src dst).run t = (.ok (), t') ∧ t'.Sound ∧
      Laid Set.univ src dst t t' := by
  intro depth
  induction depth with
  | zero =>
    intro src dst t _ hsrc _ _ hdepth
    exact absurd (hdepth [] (by rwa [List.append_nil])) (Nat.not_lt_zero _)
  | succ depth ih =>
    intro src dst t hsound hsrc hapart hfits hdepth
    have hcreate := run_createDirAll hfits.target
    have hstart := Laid.createDirAll dst hsound hsrc
    obtain ⟨t₁, ht₁⟩ : ∃ t₁ : FileTree ν δ, t₁ = { t with dirs := t.dirs ∪ dst.inits.toFinset } :=
      ⟨_, rfl⟩
    rw [← ht₁] at hcreate hstart
    have hsrc₁ : src ∈ t₁.dirs := hstart.mem_dirs hsrc
    have hentry : ∀ n ∈ lister.names t₁ src, src ++ [n] ∈ t.files ∨ src ++ [n] ∈ t.dirs := by
      intro n hn
      rcases (lister.mem_names t₁ src n).mp hn with hfile | hdir
      · rw [hstart.mem_files_frame (hapart.not_prefix_append [n])] at hfile
        exact .inl hfile
      · exact .inr ((hstart.dir_source hapart [n]).mp hdir)
    obtain ⟨t₂, hrun, hlaid⟩ := copyEntries_spec hsound hsrc
      hapart hfits (fun {n t'} hsound' hdir hfits' hback => by
        have hapart' := hapart.append [n] [n]
        obtain ⟨t'', hrun, -, hlaid⟩ := ih hsound' hdir hapart' hfits' fun r hr => by
          have hlt := hdepth (n :: r) (by simpa using hback r hr)
          rw [List.length_cons] at hlt
          omega
        exact ⟨t'', hrun, hlaid⟩) (lister.names t₁ src) hstart
      (by rw [List.nil_append]; exact lister.nodup t₁ src) hentry
    rw [List.nil_append] at hlaid
    have hall : Laid Set.univ src dst t t₂ := by
      refine hlaid.univ fun r hr => hsound.mem_under (fun n hn => ?_) hr
      rw [lister.mem_names]
      rcases hn with hfile | hdir
      · exact .inl ((hstart.mem_files_frame (hapart.not_prefix_append [n])).mpr hfile)
      · exact .inr (hstart.mem_dirs hdir)
    refine ⟨t₂, ?_, hall.sound (fun _ _ _ => Set.mem_univ _) (Set.mem_univ _) hsrc hsound hfits,
      hall⟩
    rw [copyDirAll, Fallible.run_bind_of_ok hcreate,
      Fallible.run_bind_of_ok (run_readDir lister hsrc₁)]
    exact hrun

/-- It makes no difference to a copy whether the directory it is laid over was created before. -/
lemma run_copyDirAll_of_created (depth : ℕ) (lister : Lister ν δ) (src : List ν)
    (h : (createDirAll dst).run t = (.ok (), t')) :
    (copyDirAll lister (depth + 1) src dst).run t' =
      (copyDirAll lister (depth + 1) src dst).run t := by
  have hagain : (createDirAll dst).run t' = (.ok (), t') := by
    have hnone := createDirAll_ok h
    rw [createDirAll, Fallible.run_bind_of_ok (Fallible.run_get t)] at h
    split at h
    · simp at h
    · next hfree =>
      have hsame : t'.dirs ∪ dst.inits.toFinset = t'.dirs := by
        rw [hnone, Finset.union_assoc, Finset.union_self]
      rw [createDirAll, Fallible.run_bind_of_ok (Fallible.run_get t'),
        show t'.files = t.files by rw [hnone], hfree]
      simp only [Fallible.run_modify, hsame]
  rw [copyDirAll, Fallible.run_bind_of_ok h, Fallible.run_bind_of_ok hagain]

/-! ### A copy inside the directory -/

section Nested

variable {p : List ν}

lemma keeps_copyFile : Fallible.Keeps (fun t : FileTree ν δ => p ∈ t.dirs)
    (copyFile src dst) := by
  intro t hp
  rw [copyFile, Fallible.run_bind_of_ok (Fallible.run_get t)]
  split
  · exact hp
  · split_ifs <;> exact hp

/-- An entry is copied as a directory or as a file. -/
lemma keeps_copyEntry {copyDir : List ν → List ν → Fallible (Fault ν) (FileTree ν δ) Unit}
    (hcopy : ∀ src dst, Fallible.Keeps (fun t : FileTree ν δ => p ∈ t.dirs) (copyDir src dst))
    (src dst : List ν) :
    Fallible.Keeps (fun t : FileTree ν δ => p ∈ t.dirs) (copyEntry copyDir src dst) := by
  intro t hp
  rw [copyEntry, Fallible.run_bind_of_ok (Fallible.run_get t)]
  split_ifs
  · exact hcopy src dst t hp
  · exact keeps_copyFile t hp

lemma keeps_copyEntries {copyDir : List ν → List ν → Fallible (Fault ν) (FileTree ν δ) Unit}
    (hcopy : ∀ src dst, Fallible.Keeps (fun t : FileTree ν δ => p ∈ t.dirs) (copyDir src dst)) :
    ∀ ns, Fallible.Keeps (fun t : FileTree ν δ => p ∈ t.dirs) (copyEntries copyDir src dst ns)
  | [] => fun _ hp => hp
  | _ :: ns =>
    Fallible.keeps_bind (keeps_copyEntry hcopy _ _) fun _ => keeps_copyEntries hcopy ns

/-- Copying removes no directory. -/
lemma keeps_copyDirAll : ∀ depth src dst, Fallible.Keeps (fun t : FileTree ν δ => p ∈ t.dirs)
    (copyDirAll lister depth src dst)
  | 0, _, _ => fun _ hp => hp
  | depth + 1, _, _ =>
    Fallible.keeps_bind keeps_createDirAll fun _ =>
      Fallible.keeps_bind (keeps_readDir lister) fun names =>
        keeps_copyEntries (keeps_copyDirAll depth) names

/-- If the entries are copied, so is each one, with the directories there that were there. -/
lemma exists_copyEntry_of_ok {copyDir : List ν → List ν → Fallible (Fault ν) (FileTree ν δ) Unit}
    (hcopy : ∀ src dst, Fallible.Keeps (fun t : FileTree ν δ => p ∈ t.dirs) (copyDir src dst)) :
    ∀ {ns : List ν} {t t' : FileTree ν δ}, (copyEntries copyDir src dst ns).run t = (.ok (), t') →
      p ∈ t.dirs → ∀ n ∈ ns, ∃ mid mid' : FileTree ν δ, p ∈ mid.dirs ∧
        (copyEntry copyDir (src ++ [n]) (dst ++ [n])).run mid = (.ok (), mid') := by
  intro ns
  induction ns with
  | nil => exact fun _ _ n hn => absurd hn List.not_mem_nil
  | cons m ns ih =>
    intro t t' hrun hp n hn
    obtain ⟨_, mid, hfirst, hrest⟩ := Fallible.run_bind_ok.mp hrun
    rcases List.mem_cons.mp hn with rfl | hmem
    · exact ⟨t, mid, hp, hfirst⟩
    · refine ih hrest ?_ n hmem
      have hkeep := keeps_copyEntry hcopy (src ++ [m]) (dst ++ [m]) t hp
      rwa [hfirst] at hkeep

/-- **A directory is never copied into itself**, however deep the copy may go: the entry that leads
to the copy would have to be copied first. -/
theorem copyDirAll_nested (lister : Lister ν δ) : ∀ {depth : ℕ} {src e : List ν}
    {t t' : FileTree ν δ}, e ≠ [] →
      (copyDirAll lister depth src (src ++ e)).run t ≠ (.ok (), t') := by
  intro depth
  induction depth with
  | zero => exact fun _ hrun => by simp [copyDirAll] at hrun
  | succ depth ih =>
    intro src e t t' hne hrun
    obtain ⟨n, rest, rfl⟩ := List.exists_cons_of_ne_nil hne
    obtain ⟨_, t₁, hcreate, hrun⟩ := Fallible.run_bind_ok.mp hrun
    obtain ⟨names, t₂, hread, hrun⟩ := Fallible.run_bind_ok.mp hrun
    obtain ⟨rfl, -, rfl⟩ := readDir_ok hread
    have hdir : src ++ [n] ∈ t₂.dirs := by
      rw [createDirAll_ok hcreate, Finset.mem_union, List.mem_toFinset, List.mem_inits]
      exact .inr ⟨rest, by simp⟩
    have hentry := (lister.mem_names t₂ src n).mpr (.inr hdir)
    obtain ⟨mid, mid', hmid, hcopy⟩ :=
      exists_copyEntry_of_ok (keeps_copyDirAll depth) hrun hdir n hentry
    rw [copyEntry, Fallible.run_bind_of_ok (Fallible.run_get mid), if_pos hmid] at hcopy
    -- the entry is copied into itself
    have hinside : src ++ n :: rest ++ [n] = (src ++ [n]) ++ (rest ++ [n]) := by simp
    rw [hinside] at hcopy
    exact ih (by simp) hcopy

end Nested

/-! ### A copy onto the directory -/

/-- The files in `S` of a directory are emptied. -/
structure Emptied (S : Set (List ν)) (p : List ν) (t t' : FileTree ν δ) : Prop where
  dirs : t'.dirs = t.dirs
  inside : ∀ r ∈ S, t'.files.lookup (p ++ r) = (t.files.lookup (p ++ r)).map fun _ => default
  outside : ∀ q, (∀ r ∈ S, q ≠ p ++ r) → t'.files.lookup q = t.files.lookup q

namespace Emptied

variable {S : Set (List ν)} {p : List ν} {t t' t'' : FileTree ν δ}

/-- Emptied files stay. -/
lemma mem_files (h : Emptied S p t t') {q : List ν} : q ∈ t'.files ↔ q ∈ t.files := by
  rw [← Finmap.lookup_isSome, ← Finmap.lookup_isSome]
  by_cases hq : ∃ r ∈ S, q = p ++ r
  · obtain ⟨r, hr, rfl⟩ := hq
    rw [h.inside r hr, Option.isSome_map]
  · push Not at hq
    rw [h.outside q hq]

lemma sound (h : Emptied S p t t') (hsound : t.Sound) : t'.Sound where
  parent q n hmem := by
    rw [h.mem_files, h.dirs] at hmem
    rw [h.dirs]
    exact hsound.parent q n hmem
  not_file q hq := by
    rw [h.mem_files]
    rw [h.dirs] at hq
    exact hsound.not_file q hq

/-- One more entry is emptied. -/
lemma concat {done : List ν} {n : ν} (h : Emptied (under done) p t t') (hn : n ∉ done)
    (hnext : Emptied Set.univ (p ++ [n]) t' t'') : Emptied (under (done ++ [n])) p t t'' where
  dirs := hnext.dirs.trans h.dirs
  inside r hr := by
    rcases mem_under_concat.mp hr with hold | ⟨r', rfl⟩
    · rw [hnext.outside _ fun r' _ heq => ?_, h.inside r hold]
      rw [List.append_assoc, List.append_cancel_left_eq] at heq
      rw [heq] at hold
      exact hn (cons_mem_under.mp hold)
    · have hbelow : p ++ n :: r' = (p ++ [n]) ++ r' := by simp
      rw [hbelow, hnext.inside r' (Set.mem_univ r'), h.outside _ fun r hr heq => ?_]
      rw [← hbelow, List.append_cancel_left_eq] at heq
      rw [← heq] at hr
      exact hn (cons_mem_under.mp hr)
  outside q hq := by
    rw [hnext.outside q fun r' _ heq => ?_, h.outside q fun r hr => ?_]
    · exact hq r (mem_under_concat.mpr (.inl hr))
    · exact hq (n :: r') (mem_under_concat.mpr (.inr ⟨r', rfl⟩)) (by simpa using heq)

end Emptied

/-- A file that is copied onto itself is emptied. -/
lemma emptied_copyFile {p : List ν} {t : FileTree ν δ} {data : δ} (hsound : t.Sound)
    (hp : t.files.lookup p = some data) :
    Emptied Set.univ p t { t with files := t.files.insert p default } where
  dirs := rfl
  inside r _ := by
    by_cases hr : r = []
    · rw [hr, List.append_nil, Finmap.lookup_insert, hp, Option.map_some]
    · have hnone := Finmap.lookup_eq_none.mpr
        (hsound.not_below_file (HashMap.mem_of_lookup hp) hr).1
      have hne : p ++ r ≠ p := fun heq => hr (List.append_right_eq_self.mp heq)
      rw [Finmap.lookup_insert_of_ne _ hne, hnone, Option.map_none]
  outside q hq := by
    refine Finmap.lookup_insert_of_ne _ fun heq => hq [] (Set.mem_univ []) ?_
    rwa [List.append_nil]

/-- Entries that are copied onto themselves are emptied, if directories among them are. -/
lemma copyEntries_self {p : List ν} (hsound : t.Sound) (hp : p ∈ t.dirs)
    (hcopy : ∀ {n : ν} {t' : FileTree ν δ}, t'.Sound → p ++ [n] ∈ t'.dirs → t'.dirs = t.dirs →
      ∃ t'', (copyDirAll lister depth (p ++ [n]) (p ++ [n])).run t' = (.ok (), t'') ∧
        Emptied Set.univ (p ++ [n]) t' t'') (ns : List ν) :
    ∀ {done : List ν} {t' : FileTree ν δ}, Emptied (under done) p t t' → (done ++ ns).Nodup →
      (∀ n ∈ ns, p ++ [n] ∈ t.files ∨ p ++ [n] ∈ t.dirs) →
      ∃ t'', (copyEntries (copyDirAll lister depth) p p ns).run t' = (.ok (), t'') ∧
        Emptied (under (done ++ ns)) p t t'' := by
  induction ns with
  | nil =>
    intro done t' h _ _
    exact ⟨t', rfl, by rwa [List.append_nil]⟩
  | cons n ns ih =>
    intro done t' h hnodup hmem
    have hn : n ∉ done := fun hin => List.disjoint_of_nodup_append hnodup hin List.mem_cons_self
    have hsound' := h.sound hsound
    obtain ⟨mid, hrun, hmid⟩ : ∃ mid,
        (copyEntry (copyDirAll lister depth) (p ++ [n]) (p ++ [n])).run t' = (.ok (), mid) ∧
        Emptied Set.univ (p ++ [n]) t' mid := by
      rw [copyEntry, Fallible.run_bind_of_ok (Fallible.run_get t')]
      by_cases hdir : p ++ [n] ∈ t'.dirs
      · rw [if_pos hdir]
        exact hcopy hsound' hdir h.dirs
      · have hfile := (hmem n List.mem_cons_self).resolve_right (by rwa [← h.dirs])
        obtain ⟨data, hdata⟩ := HashMap.mem_iff_exists.mp (h.mem_files.mpr hfile)
        have hparent : (p ++ [n]).dropLast ∈ t'.dirs := by
          rwa [List.dropLast_concat, h.dirs]
        rw [if_neg hdir, run_copyFile hdata hdir hparent, if_pos rfl]
        exact ⟨_, rfl, emptied_copyFile hsound' hdata⟩
    obtain ⟨t'', hrest, hfinal⟩ := ih (h.concat hn hmid)
      (by rwa [List.append_assoc, List.singleton_append])
      fun m hm => hmem m (List.mem_cons_of_mem n hm)
    rw [List.append_assoc, List.singleton_append] at hfinal
    refine ⟨t'', ?_, hfinal⟩
    rw [copyEntries, Fallible.run_bind_of_ok hrun]
    exact hrest

/-- **A directory copied onto itself** loses what is in its files.

**Proof sketch.** Induction on the depth. The entries are copied onto themselves, one after the
other, and what is not below an entry is not there. -/
theorem copyDirAll_self (lister : Lister ν δ) : ∀ {depth : ℕ} {p : List ν} {t : FileTree ν δ},
    t.Sound → p ∈ t.dirs → (∀ r, p ++ r ∈ t.dirs → r.length < depth) →
    ∃ t', (copyDirAll lister depth p p).run t = (.ok (), t') ∧ Emptied Set.univ p t t' := by
  intro depth
  induction depth with
  | zero =>
    intro p t _ hp hdepth
    exact absurd (hdepth [] (by rwa [List.append_nil])) (Nat.not_lt_zero _)
  | succ depth ih =>
    intro p t hsound hp hdepth
    have hway : ∀ q, q <+: p → q ∈ t.dirs := by
      rintro q ⟨r, rfl⟩
      by_cases hr : r = []
      · rwa [hr, List.append_nil] at hp
      · exact hsound.of_append q hr (.inr hp)
    have hcreate : (createDirAll p).run t = (.ok (), t) := by
      have hsame : t.dirs ∪ p.inits.toFinset = t.dirs := by
        refine Finset.union_eq_left.mpr fun q hq => hway q ?_
        rwa [List.mem_toFinset, List.mem_inits] at hq
      rw [run_createDirAll fun q hq => hsound.not_file q (hway q hq), hsame]
    have hnil : p ∉ t.files := hsound.not_file p hp
    have hstart : Emptied (under []) p t t := by
      refine ⟨rfl, fun r hr => ?_, fun _ _ => rfl⟩
      cases r with
      | nil => rw [List.append_nil, Finmap.lookup_eq_none.mpr hnil, Option.map_none]
      | cons n r => simp at hr
    obtain ⟨t', hrun, hemptied⟩ := copyEntries_self hsound hp
      (fun {n t'} hsound' hdir hdirs => ih hsound' hdir fun r hr => by
        rw [hdirs, List.append_assoc] at hr
        have hlt := hdepth _ hr
        rw [List.singleton_append, List.length_cons] at hlt
        omega) (lister.names t p) hstart (by rw [List.nil_append]; exact lister.nodup t p)
      fun n hn => (lister.mem_names t p n).mp hn
    rw [List.nil_append] at hemptied
    refine ⟨t', ?_, hemptied.dirs, fun r _ => ?_, fun q hq => ?_⟩
    · rw [copyDirAll, Fallible.run_bind_of_ok hcreate,
        Fallible.run_bind_of_ok (run_readDir lister hp)]
      exact hrun
    · by_cases hr : r ∈ under (lister.names t p)
      · exact hemptied.inside r hr
      · have hout := hemptied.outside (p ++ r) fun r' hr' heq =>
          hr (by rwa [List.append_cancel_left heq])
        have hnone : p ++ r ∉ t.files := fun hin =>
          hr (hsound.mem_under (fun n => (lister.mem_names t p n).mpr) (.inl hin))
        rw [hout, Finmap.lookup_eq_none.mpr hnone, Option.map_none]
    · exact hemptied.outside q fun r _ => hq r (Set.mem_univ r)

end Copy

end FileTree
