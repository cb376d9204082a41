import Mathlib.Data.List.TakeWhile
import QuDAG.Vault.Bookkeeping

set_option autoImplicit false
set_option linter.dupNamespace false

/-!
# What an import loses

An import into a vault should bring every secret of the other vault whose label was missing, and the
order in which it sees them should not matter. It creates the categories of a label before it comes
to the labels of the categories themselves, so a secret whose label is a category of an earlier
label is lost to the placeholder. The secret with the empty label is not listed and does not come at
all. In any other case nothing is lost, and what the vault had before is always kept.

## Main definitions

* `Session.Reached` — a vault made through the operations.
* `Session.NothingLost` — the import brings what was missing and keeps the rest.
* `Session.SameResult` — the results of two imports agree.
* `Session.Arrives` — no placeholder and no empty label is in the way of a secret.

## Main results

* `Session.Reached.fileInOrder` — the file of a reached vault can be imported.
* `Session.lookup_import` — what is found under a label after an import.
* `Session.nothingLost_iff` — nothing is lost, in two imports, iff every secret arrives.
-/

namespace QuDAG.Vault

open RustStd

variable {K : VaultCrates} {password password' : String}

namespace Session

/-! ## Vaults made through the operations -/

/-- The vault was created and used through operations that succeeded. -/
def Reached (K : VaultCrates) (password : String) (s : Session) : Prop :=
  ∃ draws path disk start ops, start.vault.dag.Fits K draws.save ∧
    (Vault.create K draws path password).run disk = (.ok start.vault, start.disk) ∧
    Runs.Steps (apply K password) (Step K password) start ops ∧
    s = Runs.run (apply K password) start ops

variable {target source : Session} {contents : Contents}

/-- A vault that was reached holds the secrets of a map, and it is saved. -/
lemma Reached.represents (hK : K.ReadsBack) {s : Session} (h : s.Reached K password) :
    ∃ contents, s.Represents K password contents := by
  obtain ⟨draws, path, disk, start, ops, hfits, hcreate, hsteps, rfl⟩ := h
  refine Runs.run_rule (fun s => ∃ contents, s.Represents K password contents) ?_ hsteps
    ⟨∅, (represents_create hK hfits hcreate).1⟩
  rintro s op ⟨contents, h⟩ hstep
  obtain ⟨contents', h', -⟩ := represents_apply hK h hstep
  exact ⟨contents', h'⟩

/-- **The file of a vault that was reached** is in order, wherever it lies: it is opened, and what
is opened has the same secrets. -/
lemma Reached.fileInOrder (hK : K.ReadsBack) (h : source.Reached K password) {disk : Disk}
    {inputPath : PathBuf}
    (hfile : disk.lookup inputPath = source.disk.lookup source.vault.path) (draws : OpenDraws) :
    ∃ other contents, Vault.open K draws inputPath password disk = .ok other ∧
      other.dag.secrets = source.vault.dag.secrets ∧
      other.dag.Holds K other.crypto contents ∧
      source.vault.dag.Holds K source.vault.crypto contents := by
  obtain ⟨contents, hsource⟩ := h.represents hK
  obtain ⟨data, hlookup, hdata⟩ := hsource.saved
  obtain ⟨dag, hopen, hsecrets, hindex⟩ := hdata.open (hfile.trans hlookup) draws
  exact ⟨_, contents, hopen, hsecrets, hsource.holds.congr hsecrets hindex, hsource.holds⟩

/-! ## Losses -/

/-- The import brings every secret whose label was missing, and keeps the secrets that were
there. -/
structure NothingLost (K : VaultCrates) (target source after : Session) : Prop where
  /-- What was missing. -/
  imported : ∀ label secret, source.vault.getSecret K label = .ok secret →
    label ∉ target.vault.dag.labelIndex → after.vault.getSecret K label = .ok secret
  /-- What was there. -/
  kept : ∀ label secret, target.vault.getSecret K label = .ok secret →
    after.vault.getSecret K label = .ok secret

/-- The results of two imports agree, up to the times at which placeholders were created for labels
that neither vault has. -/
def SameResult (K : VaultCrates) (target source after after' : Session) : Prop :=
  ∀ label, after.vault.getSecret K label = after'.vault.getSecret K label ∨
    (label ∉ target.vault.dag.labelIndex ∧ label ∉ source.vault.dag.labelIndex ∧
      ∃ time time', after.vault.getSecret K label = .ok (.new label "" "" time) ∧
        after'.vault.getSecret K label = .ok (.new label "" "" time'))

/-- The placeholder that an import makes for a label: the first label that is seen before it, is
missing, and has it among its categories makes one. -/
def importPlaceholder (target source : Session) (draws : ImportDraws) (label : String) :
    Option SecretEntry :=
  (((source.vault.dag.listSecrets draws.secrets).takeWhile fun l => decide (l ≠ label)).find?
    fun l => decide (l ∉ target.vault.dag.labelIndex ∧ label ∈ parseCategories l)).map
      fun l => .new label "" "" ((draws.add l).category label).created

/-- Every secret whose label is missing arrives: its label is not empty, and no placeholder is made
for it before it is seen, unless the placeholder is the secret. -/
def Arrives (K : VaultCrates) (target source : Session) (draws : ImportDraws) : Prop :=
  ∀ label secret, source.vault.getSecret K label = .ok secret →
    label ∉ target.vault.dag.labelIndex →
      match importPlaceholder target source draws label with
      | some placeholder => placeholder = secret
      | none => label ≠ ""

/-- The placeholders are those of the loop. -/
lemma importPlaceholder_eq (hholds : target.vault.dag.Holds K target.vault.crypto contents)
    (draws : ImportDraws) (label : String) :
    importPlaceholder target source draws label =
      Contents.placeholderFor draws.add contents (source.vault.dag.listSecrets draws.secrets)
        label := by
  unfold importPlaceholder Contents.placeholderFor
  simp only [hholds.mem_labelIndex]
  rfl

/-- **What is found under a label after an import**: what was there; else the placeholder that was
made for it; else the secret of the other vault, unless the label is empty. -/
lemma lookup_import (hK : K.ReadsBack) (hsource : source.Reached K password')
    (h : target.Represents K password contents) {inputPath : PathBuf}
    (hfile : target.disk.lookup inputPath = source.disk.lookup source.vault.path)
    {draws : ImportDraws} (hstep : Step K password target (.import draws inputPath password')) :
    ∃ contents' sourceContents,
      (apply K password target (.import draws inputPath password')).Represents K password
        contents' ∧
      source.vault.dag.Holds K source.vault.crypto sourceContents ∧
      ∀ label, contents'.lookup label = (contents.lookup label).or
        ((importPlaceholder target source draws label).or
          (if label = "" then none else sourceContents.lookup label)) := by
  obtain ⟨other, sourceContents, hopen, hsecrets, hother, hsourceHolds⟩ :=
    hsource.fileInOrder hK hfile draws.opening
  obtain ⟨other', sourceContents', hopen', hother', hafter, -⟩ :=
    import_ok hK h hstep.sound hstep.fits hstep.run_eq
  rw [hopen] at hopen'
  obtain rfl := Except.ok.inj hopen'
  obtain rfl := hother.unique hother'
  have hlist : other.dag.listSecrets draws.secrets =
      source.vault.dag.listSecrets draws.secrets := by
    unfold VaultDag.listSecrets
    rw [hsecrets]
  obtain ⟨hnodup, hlisted⟩ := hother.listSecrets draws.secrets
  rw [hlist] at hafter hnodup hlisted
  refine ⟨_, sourceContents', hafter, hsourceHolds, fun label => ?_⟩
  rw [Contents.lookup_importSecrets label hnodup fun l hl => ((hlisted l).mp hl).1,
    importPlaceholder_eq h.holds]
  congr 2
  by_cases hempty : label = ""
  · rw [if_pos hempty, if_neg fun hmem => ((hlisted label).mp hmem).2 hempty]
  · rw [if_neg hempty]
    by_cases hmem : label ∈ sourceContents'
    · rw [if_pos ((hlisted label).mpr ⟨hmem, hempty⟩)]
    · rw [if_neg fun hl => hmem ((hlisted label).mp hl).1, Finmap.lookup_eq_none.mpr hmem]

/-- A placeholder is empty. -/
lemma exists_time_of_importPlaceholder {draws : ImportDraws} {label : String} {entry : SecretEntry}
    (h : importPlaceholder target source draws label = some entry) :
    ∃ time, entry = .new label "" "" time := by
  obtain ⟨l, -, hl⟩ := Option.map_eq_some_iff.mp h
  exact ⟨_, hl.symm⟩

/-- For a label that the other vault does not have, a placeholder is made in every order or in
none. -/
lemma isSome_importPlaceholder (target : Session)
    (hholds : source.vault.dag.Holds K source.vault.crypto contents) (draws : ImportDraws)
    {label : String} (hlabel : label ∉ contents) :
    (importPlaceholder target source draws label).isSome = true ↔
      ∃ l, (l ∈ contents ∧ l ≠ "") ∧ l ∉ target.vault.dag.labelIndex ∧
        label ∈ parseCategories l := by
  have hlisted := (hholds.listSecrets draws.secrets).2
  have htake : (source.vault.dag.listSecrets draws.secrets).takeWhile
      (fun l => decide (l ≠ label)) = source.vault.dag.listSecrets draws.secrets := by
    refine List.takeWhile_eq_self_iff.mpr fun l hl => decide_eq_true fun heq => ?_
    exact hlabel (heq ▸ ((hlisted l).mp hl).1)
  unfold importPlaceholder
  rw [htake, Option.isSome_map, List.find?_isSome]
  simp only [hlisted, decide_eq_true_eq]

/-- **Nothing is lost in an import iff every secret arrives.** -/
lemma nothingLost_iff_arrives (hK : K.ReadsBack) (htarget : target.Reached K password)
    (hsource : source.Reached K password') {inputPath : PathBuf}
    (hfile : target.disk.lookup inputPath = source.disk.lookup source.vault.path)
    {draws : ImportDraws} (hstep : Step K password target (.import draws inputPath password')) :
    NothingLost K target source (apply K password target (.import draws inputPath password')) ↔
      Arrives K target source draws := by
  obtain ⟨contents, h⟩ := htarget.represents hK
  obtain ⟨contents', sourceContents, hafter, hholds, hlookup⟩ :=
    lookup_import hK hsource h hfile hstep
  -- what is found under a label that was missing
  have hmissing : ∀ {label secret}, source.vault.getSecret K label = .ok secret →
      label ∉ target.vault.dag.labelIndex →
        ((apply K password target (.import draws inputPath password')).vault.getSecret K label =
            .ok secret ↔
          match importPlaceholder target source draws label with
          | some placeholder => placeholder = secret
          | none => label ≠ "") := by
    intro label secret hsecret hlabel
    have hold : contents.lookup label = none :=
      Finmap.lookup_eq_none.mpr fun hmem => hlabel (h.holds.only label hmem)
    refine Iff.trans hafter.holds.getSecret_eq_ok ?_
    rw [hlookup, hold, Option.none_or, hholds.getSecret_eq_ok.mp hsecret]
    cases importPlaceholder target source draws label with
    | some placeholder => simp
    | none => simp
  constructor
  · intro hall label secret hsecret hlabel
    exact (hmissing hsecret hlabel).mp (hall.imported label secret hsecret hlabel)
  · intro hall
    refine ⟨fun label secret hsecret hlabel => ?_, fun label secret hsecret => ?_⟩
    · exact (hmissing hsecret hlabel).mpr (hall label secret hsecret hlabel)
    · refine hafter.holds.getSecret_of_some ?_
      rw [hlookup, h.holds.getSecret_eq_ok.mp hsecret, Option.some_or]

/-- **Imports that lose nothing have the same result**, whatever the orders. -/
lemma sameResult_of_nothingLost (hK : K.ReadsBack) (htarget : target.Reached K password)
    (hsource : source.Reached K password') {inputPath : PathBuf}
    (hfile : target.disk.lookup inputPath = source.disk.lookup source.vault.path)
    {draws draws' : ImportDraws}
    (hstep : Step K password target (.import draws inputPath password'))
    (hstep' : Step K password target (.import draws' inputPath password'))
    (h : NothingLost K target source (apply K password target (.import draws inputPath password')))
    (h' : NothingLost K target source
      (apply K password target (.import draws' inputPath password'))) :
    SameResult K target source (apply K password target (.import draws inputPath password'))
      (apply K password target (.import draws' inputPath password')) := by
  obtain ⟨contents, hcontents⟩ := htarget.represents hK
  obtain ⟨result, sourceContents, hafter, hholds, hlookup⟩ :=
    lookup_import hK hsource hcontents hfile hstep
  obtain ⟨result', sourceContents', hafter', hholds', hlookup'⟩ :=
    lookup_import hK hsource hcontents hfile hstep'
  obtain rfl := hholds.unique hholds'
  intro label
  cases hold : contents.lookup label with
  | some secret =>
    have hsecret := hcontents.holds.getSecret_of_some hold
    exact .inl ((h.kept label secret hsecret).trans (h'.kept label secret hsecret).symm)
  | none =>
    have hlabel : label ∉ target.vault.dag.labelIndex := fun hmem =>
      Finmap.lookup_eq_none.mp hold (hcontents.holds.mem_labelIndex.mp hmem)
    cases hnew : sourceContents'.lookup label with
    | some secret =>
      have hsecret := hholds.getSecret_of_some hnew
      exact .inl ((h.imported label secret hsecret hlabel).trans
        (h'.imported label secret hsecret hlabel).symm)
    | none =>
      have hnot : label ∉ sourceContents' := Finmap.lookup_eq_none.mp hnew
      have hsome := (isSome_importPlaceholder target hholds draws hnot).trans
        (isSome_importPlaceholder target hholds draws' hnot).symm
      replace hlookup := hlookup label
      replace hlookup' := hlookup' label
      rw [hold, hnew, ite_self, Option.none_or, Option.or_none] at hlookup hlookup'
      cases hplaceholder : importPlaceholder target source draws label with
      | none =>
        cases hplaceholder' : importPlaceholder target source draws' label with
        | none =>
          rw [hplaceholder] at hlookup
          rw [hplaceholder'] at hlookup'
          exact .inl ((hafter.holds.getSecret_of_none hlookup).trans
            (hafter'.holds.getSecret_of_none hlookup').symm)
        | some entry' => simp [hplaceholder, hplaceholder'] at hsome
      | some entry =>
        cases hplaceholder' : importPlaceholder target source draws' label with
        | none => simp [hplaceholder, hplaceholder'] at hsome
        | some entry' =>
          obtain ⟨time, rfl⟩ := exists_time_of_importPlaceholder hplaceholder
          obtain ⟨time', rfl⟩ := exists_time_of_importPlaceholder hplaceholder'
          rw [hplaceholder] at hlookup
          rw [hplaceholder'] at hlookup'
          exact .inr ⟨hlabel, fun hmem => hnot (hholds.mem_labelIndex.mp hmem), time, time',
            hafter.holds.getSecret_of_some hlookup, hafter'.holds.getSecret_of_some hlookup'⟩

/-- **What an import loses.** Two imports of a vault into another one, both made through the
operations, lose nothing and have the same result iff in the order of each of them every secret
arrives. -/
theorem nothingLost_iff (hK : K.ReadsBack) (htarget : target.Reached K password)
    (hsource : source.Reached K password') {inputPath : PathBuf}
    (hfile : target.disk.lookup inputPath = source.disk.lookup source.vault.path)
    {draws draws' : ImportDraws}
    (hstep : Step K password target (.import draws inputPath password'))
    (hstep' : Step K password target (.import draws' inputPath password')) :
    let after := apply K password target (.import draws inputPath password')
    let after' := apply K password target (.import draws' inputPath password')
    (NothingLost K target source after ∧ NothingLost K target source after' ∧
        SameResult K target source after after') ↔
      Arrives K target source draws ∧ Arrives K target source draws' := by
  intro after after'
  have hiff := nothingLost_iff_arrives hK htarget hsource hfile hstep
  have hiff' := nothingLost_iff_arrives hK htarget hsource hfile hstep'
  constructor
  · rintro ⟨h, h', -⟩
    exact ⟨hiff.mp h, hiff'.mp h'⟩
  · rintro ⟨h, h'⟩
    exact ⟨hiff.mpr h, hiff'.mpr h', sameResult_of_nothingLost hK htarget hsource hfile hstep
      hstep' (hiff.mpr h) (hiff'.mpr h')⟩

/-- Every secret of a vault without categories arrives, whatever the order. -/
lemma arrives_of_flat (hK : K.ReadsBack) (hsource : source.Reached K password')
    (hflat : ∀ label, label ∈ source.vault.dag.labelIndex → '/' ∉ label.toList ∧ label ≠ "")
    (draws : ImportDraws) : Arrives K target source draws := by
  obtain ⟨contents, hcontents⟩ := hsource.represents hK
  have hlisted := (hcontents.holds.listSecrets draws.secrets).2
  intro label secret hsecret _
  have hnone : importPlaceholder target source draws label = none := by
    unfold importPlaceholder
    rw [Option.map_eq_none_iff, List.find?_eq_none]
    intro l hl
    have hmem := ((hlisted l).mp ((List.takeWhile_sublist _).subset hl)).1
    rw [decide_eq_true_eq, not_and]
    intro _ hcategory
    exact (hflat l (hcontents.holds.mem_labelIndex.mpr hmem)).1
      (slash_of_mem_parseCategories hcategory).1
  rw [hnone]
  exact (hflat label (hcontents.holds.mem_labelIndex.mpr
    (HashMap.mem_of_lookup (hcontents.holds.getSecret_eq_ok.mp hsecret)))).2

/-! ## Imports of vaults with and without categories -/

instance instDecidableImportSound (crypto : VaultCrypto) (other : Vault)
    (draws : String → VaultDag.AddDraws) : ∀ (labels : List String) (dag : VaultDag),
      Decidable (ImportSound toyVault crypto other draws labels dag)
  | [], _ => instDecidableTrue
  | label :: labels, dag =>
    have := instDecidableImportSound crypto other draws labels
      ((Session.importSecret toyVault crypto other (draws label) label).run dag).2
    inferInstanceAs (Decidable ((label ∉ dag.labelIndex → ∀ secret,
      other.getSecret toyVault label = .ok secret →
        dag.AddSound toyVault (draws label) secret (parseCategories label)) ∧ _))

/-- Iteration in decreasing order. -/
def reversed : HashMap.Iteration VertexId EncryptedSecret where
  order m := (HashMap.Iteration.sorted.order m).reverse
  enumerates m := (HashMap.Iteration.sorted.enumerates m).perm (List.reverse_perm _).symm

/-- A secret in a category that is a secret itself. The secret in the category is seen first if the
vertices are sorted. -/
@[irreducible] def toySource : Session :=
  apply toyVault "master" (apply toyVault "master" toySession (toyAdd 3 "email"))
    (toyAdd 1 "email/work")

/-- Two secrets without categories. -/
@[irreducible] def toyFlat : Session :=
  apply toyVault "master" (apply toyVault "master" toySession (toyAdd 3 "email"))
    (toyAdd 1 "bank")

/-- A new vault next to the first one. -/
@[irreducible] def toyTarget : Session :=
  started ((Vault.create toyVault toyCreate ["copy"] "secret").run toySource.disk)
    (by decide +kernel)

/-- A new vault next to the other one. -/
@[irreducible] def toyFlatTarget : Session :=
  started ((Vault.create toyVault toyCreate ["copy"] "secret").run toyFlat.disk)
    (by decide +kernel)

/-- An import, whose order is given. -/
def toyImport (secrets : HashMap.Iteration VertexId EncryptedSecret) : Op :=
  .import ⟨⟨fun _ => .sorted, 7⟩, secrets,
    fun label => toyDraws (if label = "email" then 20 else 10), 8, toySave⟩ ["vault"] "master"

/-- The first vault was made through the operations. -/
lemma reached_toySource : toySource.Reached toyVault "master" := by
  have hsteps : toySession.vault.dag.Fits toyVault toyCreate.save ∧
      ToyStep toySession 3 "email" ∧
      ToyStep (apply toyVault "master" toySession (toyAdd 3 "email")) 1 "email/work" := by
    decide +kernel
  unfold toySource
  exact ⟨toyCreate, ["vault"], ∅, toySession, [toyAdd 3 "email", toyAdd 1 "email/work"], hsteps.1,
    create_toySession, ⟨step_toyAdd hsteps.2.1, step_toyAdd hsteps.2.2, trivial⟩, rfl⟩

/-- So was the other one. -/
lemma reached_toyFlat : toyFlat.Reached toyVault "master" := by
  have hsteps : toySession.vault.dag.Fits toyVault toyCreate.save ∧
      ToyStep toySession 3 "email" ∧
      ToyStep (apply toyVault "master" toySession (toyAdd 3 "email")) 1 "bank" := by
    decide +kernel
  unfold toyFlat
  exact ⟨toyCreate, ["vault"], ∅, toySession, [toyAdd 3 "email", toyAdd 1 "bank"], hsteps.1,
    create_toySession, ⟨step_toyAdd hsteps.2.1, step_toyAdd hsteps.2.2, trivial⟩, rfl⟩

/-- And so were the new ones. -/
lemma reached_toyTarget : toyTarget.Reached toyVault "secret" := by
  have hfits : toyTarget.vault.dag.Fits toyVault toyCreate.save := by decide +kernel
  refine ⟨toyCreate, ["copy"], toySource.disk, toyTarget, [], hfits, ?_, trivial, rfl⟩
  unfold toyTarget
  exact eq_started _ _

/-- And so were the new ones. -/
lemma reached_toyFlatTarget : toyFlatTarget.Reached toyVault "secret" := by
  have hfits : toyFlatTarget.vault.dag.Fits toyVault toyCreate.save := by decide +kernel
  refine ⟨toyCreate, ["copy"], toyFlat.disk, toyFlatTarget, [], hfits, ?_, trivial, rfl⟩
  unfold toyFlatTarget
  exact eq_started _ _

/-- The import succeeds, with fresh vertices and secrets that are read back, and the vault fits. -/
def ImportRuns (target : Session) (secrets : HashMap.Iteration VertexId EncryptedSecret) : Prop :=
  ((call toyVault "secret" (toyImport secrets)).run target).1 = .ok () ∧
    (∀ other,
      Vault.open toyVault ⟨fun _ => .sorted, 7⟩ ["vault"] "master" target.disk = .ok other →
      ImportSound toyVault target.vault.crypto other
        (fun label => toyDraws (if label = "email" then 20 else 10))
        (other.dag.listSecrets secrets) target.vault.dag) ∧
    (apply toyVault "secret" target (toyImport secrets)).vault.dag.Fits toyVault toySave

instance instDecidableImportRuns (target : Session)
    (secrets : HashMap.Iteration VertexId EncryptedSecret) :
    Decidable (target.ImportRuns secrets) :=
  inferInstanceAs (Decidable (_ ∧ _ ∧ _))

/-- Such an import is a step if the vault that is imported was made through the operations. -/
lemma step_toyImport (secrets : HashMap.Iteration VertexId EncryptedSecret)
    (hsource : source.Reached toyVault "master")
    (hfile : target.disk.lookup ["vault"] = source.disk.lookup source.vault.path)
    (h : target.ImportRuns secrets) : Step toyVault "secret" target (toyImport secrets) := by
  refine ⟨h.1, fun other hopen => ⟨?_, h.2.1 other hopen⟩, h.2.2⟩
  obtain ⟨other', contents, hopen', -, hother, -⟩ :=
    hsource.fileInOrder readsBack_toyVault hfile ⟨fun _ => .sorted, 7⟩
  obtain rfl : other' = other := Except.ok.inj (hopen'.symm.trans hopen)
  exact ⟨contents, hother⟩

/-- Two imports of two secrets without categories, in different orders. -/
theorem nothingLost_toyFlat :
    NothingLost toyVault toyFlatTarget toyFlat
        (apply toyVault "secret" toyFlatTarget (toyImport .sorted)) ∧
      NothingLost toyVault toyFlatTarget toyFlat
        (apply toyVault "secret" toyFlatTarget (toyImport reversed)) := by
  obtain ⟨hfile, hruns, hruns', hall⟩ :
      toyFlatTarget.disk.lookup ["vault"] = toyFlat.disk.lookup toyFlat.vault.path ∧
        toyFlatTarget.ImportRuns .sorted ∧ toyFlatTarget.ImportRuns reversed ∧
        ∀ label ∈ toyFlat.vault.dag.labelIndex.keys, '/' ∉ label.toList ∧ label ≠ "" := by
    decide +kernel
  have hstep := step_toyImport .sorted reached_toyFlat hfile hruns
  have hstep' := step_toyImport reversed reached_toyFlat hfile hruns'
  have hflat : ∀ label, label ∈ toyFlat.vault.dag.labelIndex →
      '/' ∉ label.toList ∧ label ≠ "" :=
    fun label h => hall label (Finmap.mem_keys.mpr h)
  have harrives := @arrives_of_flat _ _ toyFlatTarget _ readsBack_toyVault reached_toyFlat hflat
  have hboth := (nothingLost_iff readsBack_toyVault reached_toyFlatTarget reached_toyFlat hfile
    hstep hstep').mpr ⟨harrives _, harrives _⟩
  exact ⟨hboth.1, hboth.2.1⟩

/-- A secret in a category is seen before the secret with the label of the category: the second one
is lost, and an empty entry is found in its place. -/
theorem not_nothingLost_category :
    toyTarget.Reached toyVault "secret" ∧ toySource.Reached toyVault "master" ∧
      toyTarget.disk.lookup ["vault"] = toySource.disk.lookup toySource.vault.path ∧
      Step toyVault "secret" toyTarget (toyImport .sorted) ∧
      ¬ NothingLost toyVault toyTarget toySource
        (apply toyVault "secret" toyTarget (toyImport .sorted)) := by
  obtain ⟨hfile, hruns, hlost⟩ :
      toyTarget.disk.lookup ["vault"] = toySource.disk.lookup toySource.vault.path ∧
        toyTarget.ImportRuns .sorted ∧ toySource.vault.getSecret toyVault "email" =
          .ok (.new "email" "user" "password" 5) ∧
        "email" ∉ toyTarget.vault.dag.labelIndex ∧
        (apply toyVault "secret" toyTarget (toyImport .sorted)).vault.getSecret toyVault "email" =
          .ok (.new "email" "" "" 5) := by
    decide +kernel
  have hstep := step_toyImport .sorted reached_toySource hfile hruns
  refine ⟨reached_toyTarget, reached_toySource, hfile, hstep, fun hall => ?_⟩
  have hsame := hall.imported "email" _ hlost.1 hlost.2.1
  rw [hlost.2.2] at hsame
  exact absurd hsame (by decide)

end Session

end QuDAG.Vault
