import Mathlib.Data.Prod.Lex
import QuDAG.Lib.Ranking
import QuDAG.Protocol.Handshake
import QuDAG.Protocol.Versioning

/-!
# Selecting a protocol version (`versioning.rs`, `handshake.rs`)

A registry picks the best one of the versions that are available: candidates are supported, have the
required features, and a major version in the range of the preferences; the preferred version is
ranked first, and then the highest one. The minor and patch versions of the range are not looked at.
A handshake takes the version that the peer prefers, or the first one of its own list that is
compatible with a version of the peer.

## Main definitions

* `FeatureRegistry.findBestCompatibleVersion`, with `compareCandidates` — what the registry picks,
  and how it ranks.
* `FeatureRegistry.FindsBest`, `FeatureRegistry.Ranks`, `NegotiatesBest` — the choice and the
  ranking are right.

## Main results

* `FeatureRegistry.findsBest_iff`, `FeatureRegistry.ranks_iff`, `negotiatesBest_iff` — when they
  are.

## Implementation notes

Candidates are ranked by their positions, since a sort does not compare a candidate with itself. The
features that are preferred, and whether a downgrade is allowed, are not looked at by the code.
-/

namespace QuDAG.Protocol

open RustStd

/-! ## The code -/

/-- Version negotiation preferences. -/
structure VersionPreferences where
  /-- Preferred version for new connections. -/
  preferredVersion : ProtocolVersion
  /-- Minimum acceptable version. -/
  minVersion : ProtocolVersion
  /-- Maximum acceptable version. -/
  maxVersion : ProtocolVersion
  /-- Features that must be supported. -/
  requiredFeatures : List String

/-- A protocol version registry with its feature compatibility matrix. -/
structure FeatureRegistry extends VersionRegistry where
  /-- Feature compatibility matrix. -/
  featureMatrix : HashMap ProtocolVersion (HashSet String)

namespace FeatureRegistry

/-- Register a new protocol version with its features. -/
def registerVersion (self : FeatureRegistry) (versionInfo : VersionInfo)
    (features : List String) : FeatureRegistry where
  toVersionRegistry := self.toVersionRegistry.registerVersion versionInfo
  featureMatrix := self.featureMatrix.insert versionInfo.version features.toFinset

/-- Register default protocol versions. -/
def registerDefaultVersions (self : FeatureRegistry) : FeatureRegistry :=
  let features := ["basic-messaging", "quantum-resistant-crypto", "dag-consensus",
    "anonymous-routing"]
  let registry := (self.registerVersion ⟨v1_0_0, []⟩ features).registerVersion
    ⟨v1_1_0, [v1_0_0]⟩ (features ++ ["dark-addressing", "enhanced-privacy"])
  { registry with toVersionRegistry := registry.setupMigrationPaths }

/-- Create a new version registry with default versions. -/
def new : FeatureRegistry := registerDefaultVersions ⟨⟨[], ∅⟩, ∅⟩

/-- Check if a version is supported. -/
def isSupported (self : FeatureRegistry) (version : ProtocolVersion) : Bool :=
  self.supportedVersions.any fun v => v.version = version

/-- Check if a feature is supported in a version. -/
def isFeatureSupported (self : FeatureRegistry) (version : ProtocolVersion) (feature : String) :
    Bool :=
  ((self.featureMatrix.lookup version).map fun features => decide (feature ∈ features)).getD false

/-- A version is considered: its major version is in the range, it is supported, and so are the
required features. -/
def isCandidate (self : FeatureRegistry) (preferences : VersionPreferences) (v : ProtocolVersion) :
    Bool :=
  decide (preferences.minVersion.major ≤ v.major) &&
    decide (v.major ≤ preferences.maxVersion.major) && self.isSupported v &&
    preferences.requiredFeatures.all (self.isFeatureSupported v)

/-- Compatible versions. -/
def candidates (self : FeatureRegistry) (availableVersions : List ProtocolVersion)
    (preferences : VersionPreferences) : List ProtocolVersion :=
  availableVersions.filter (self.isCandidate preferences)

/-- Sort by preference: preferred version first, then highest version. -/
def compareCandidates (preferences : VersionPreferences) (a b : ProtocolVersion) : Ordering :=
  if a = preferences.preferredVersion then .lt
  else if b = preferences.preferredVersion then .gt
  else
    (compare b.major a.major).then ((compare b.minor a.minor).then (compare b.patch a.patch))

/-- Find best compatible version. -/
def findBestCompatibleVersion (self : FeatureRegistry) (availableVersions : List ProtocolVersion)
    (preferences : VersionPreferences) : Option ProtocolVersion :=
  ((self.candidates availableVersions preferences).mergeSort fun a b =>
    compareCandidates preferences a b != .gt).head?

end FeatureRegistry

/-! ## Ranks -/

/-- The number of a version, ordered lexicographically. -/
def ProtocolVersion.number (v : ProtocolVersion) : ℕ ×ₗ ℕ ×ₗ ℕ :=
  toLex (v.major.toNat, toLex (v.minor.toNat, v.patch.toNat))

/-- The rank of a candidate: the preferred version has the least one, then the highest version. -/
def VersionPreferences.rank (preferences : VersionPreferences) (v : ProtocolVersion) :
    Bool ×ₗ (ℕ ×ₗ ℕ ×ₗ ℕ)ᵒᵈ :=
  toLex (decide (v ≠ preferences.preferredVersion), OrderDual.toDual v.number)

/-- Comparing part by part is comparing numbers, the highest first. -/
lemma compare_parts (a b : ProtocolVersion) :
    (compare b.major a.major).then ((compare b.minor a.minor).then (compare b.patch a.patch)) =
      compare b.number a.number := by
  rw [UInt16.compare_eq_toNat_compare_toNat, UInt16.compare_eq_toNat_compare_toNat,
    UInt16.compare_eq_toNat_compare_toNat]
  rfl

namespace VersionPreferences

variable (preferences : VersionPreferences) {a b v : ProtocolVersion}

/-- One candidate is ranked before another one iff it is preferred, or the other one is not and it
is higher. -/
lemma compareCandidates_eq_lt_iff :
    FeatureRegistry.compareCandidates preferences a b = .lt ↔
      a = preferences.preferredVersion ∨
        b ≠ preferences.preferredVersion ∧ b.number < a.number := by
  rw [FeatureRegistry.compareCandidates]
  split_ifs with ha hb
  · exact ⟨fun _ => .inl ha, fun _ => rfl⟩
  · exact ⟨nofun, fun h => (h.elim ha fun h => h.1 hb).elim⟩
  · rw [compare_parts, compare_lt_iff_lt]
    exact ⟨fun h => .inr ⟨hb, h⟩, fun h => (h.resolve_left ha).2⟩

/-- The comparison of different candidates is the one of their ranks. -/
lemma rank_lt_rank_iff :
    preferences.rank a < preferences.rank b ↔
      b ≠ preferences.preferredVersion ∧
        (a = preferences.preferredVersion ∨ b.number < a.number) := by
  rw [rank, rank, Prod.Lex.toLex_lt_toLex, OrderDual.toDual_lt_toDual]
  by_cases ha : a = preferences.preferredVersion <;>
    by_cases hb : b = preferences.preferredVersion <;> simp [ha, hb]

/-- Sorting puts the lower rank first. -/
lemma compareCandidates_ne_gt_iff :
    (FeatureRegistry.compareCandidates preferences a b != .gt) = true ↔
      preferences.rank a ≤ preferences.rank b := by
  rw [← not_lt, rank_lt_rank_iff, FeatureRegistry.compareCandidates, bne_iff_ne]
  split_ifs with ha hb
  · exact ⟨fun _ h => h.1 ha, fun _ => nofun⟩
  · exact ⟨fun h => absurd rfl h, fun h => absurd ⟨ha, .inl hb⟩ h⟩
  · rw [compare_parts, Ne, compare_gt_iff_gt]
    exact not_congr ⟨fun h => ⟨ha, .inr h⟩, fun h => h.2.resolve_left hb⟩

end VersionPreferences

/-! ## The choice of a registry -/

namespace FeatureRegistry

variable (registry : FeatureRegistry) (availableVersions : List ProtocolVersion)
  (preferences : VersionPreferences)

/-- A version is acceptable: it is available and supported, in the requested range, and has the
required features. -/
structure Acceptable (v : ProtocolVersion) : Prop where
  available : v ∈ availableVersions
  supported : registry.isSupported v = true
  min_le : preferences.minVersion.number ≤ v.number
  le_max : v.number ≤ preferences.maxVersion.number
  features : ∀ feature ∈ preferences.requiredFeatures, registry.isFeatureSupported v feature = true

/-- If a version is acceptable, an acceptable one is chosen: the preferred one if it is acceptable,
and otherwise the highest one. -/
def FindsBest : Prop :=
  (∃ v, registry.Acceptable availableVersions preferences v) →
    ∃ v, registry.findBestCompatibleVersion availableVersions preferences = some v ∧
      registry.Acceptable availableVersions preferences v ∧
      (registry.Acceptable availableVersions preferences preferences.preferredVersion →
        v = preferences.preferredVersion) ∧
      (¬registry.Acceptable availableVersions preferences preferences.preferredVersion →
        ∀ w, registry.Acceptable availableVersions preferences w → w.number ≤ v.number)

/-- One position of the candidates is ranked before another one. -/
def Before (i j : Fin (registry.candidates availableVersions preferences).length) : Prop :=
  i ≠ j ∧ compareCandidates preferences ((registry.candidates availableVersions preferences).get i)
    ((registry.candidates availableVersions preferences).get j) = .lt

/-- The comparison of candidates is a strict weak order. -/
def Ranks : Prop :=
  IsStrictWeakOrder (Fin (registry.candidates availableVersions preferences).length)
    (registry.Before availableVersions preferences)

variable {registry availableVersions preferences}

/-- What is chosen is the candidate with the least rank. -/
lemma findBest_eq_some {v : ProtocolVersion}
    (h : registry.findBestCompatibleVersion availableVersions preferences = some v) :
    v ∈ registry.candidates availableVersions preferences ∧
      ∀ w ∈ registry.candidates availableVersions preferences,
        preferences.rank v ≤ preferences.rank w := by
  refine Ranking.head?_mergeSort (fun a b => ?_) h
  exact preferences.compareCandidates_ne_gt_iff

/-- Something is chosen iff there is a candidate. -/
lemma exists_findBest {w : ProtocolVersion}
    (hw : w ∈ registry.candidates availableVersions preferences) :
    ∃ v, registry.findBestCompatibleVersion availableVersions preferences = some v := by
  refine Option.ne_none_iff_exists'.mp fun hnone => ?_
  rw [Ranking.head?_mergeSort_eq_none_iff.mp hnone] at hw
  cases hw

/-- A preferred candidate is chosen. -/
lemma findBest_of_preferred
    (h : preferences.preferredVersion ∈ registry.candidates availableVersions preferences) :
    registry.findBestCompatibleVersion availableVersions preferences =
      some preferences.preferredVersion := by
  obtain ⟨v, hv⟩ := exists_findBest h
  have hle := (findBest_eq_some hv).2 _ h
  rw [← not_lt, VersionPreferences.rank_lt_rank_iff] at hle
  by_cases hpreferred : v = preferences.preferredVersion
  · rw [hv, hpreferred]
  · exact absurd ⟨hpreferred, .inl rfl⟩ hle

/-- If the preferred version is no candidate, the highest candidate is chosen. -/
lemma number_le_of_findBest
    (h : preferences.preferredVersion ∉ registry.candidates availableVersions preferences)
    {v w : ProtocolVersion}
    (hv : registry.findBestCompatibleVersion availableVersions preferences = some v)
    (hw : w ∈ registry.candidates availableVersions preferences) : w.number ≤ v.number := by
  obtain ⟨hmem, hle⟩ := findBest_eq_some hv
  have hrank := hle w hw
  rw [← not_lt, VersionPreferences.rank_lt_rank_iff] at hrank
  by_contra hlt
  exact hrank ⟨fun heq => h (heq ▸ hmem), .inr (not_le.mp hlt)⟩

/-- The major version of a higher number is not lower. -/
lemma major_le_of_number_le {v w : ProtocolVersion} (h : v.number ≤ w.number) :
    v.major ≤ w.major := by
  rw [ProtocolVersion.number, ProtocolVersion.number, Prod.Lex.toLex_le_toLex] at h
  exact UInt16.le_iff_toNat_le.mpr (h.elim le_of_lt fun h => h.1.le)

/-- Acceptable versions are candidates. -/
lemma Acceptable.mem_candidates {v : ProtocolVersion}
    (h : registry.Acceptable availableVersions preferences v) :
    v ∈ registry.candidates availableVersions preferences := by
  refine List.mem_filter.mpr ⟨h.available, ?_⟩
  simp only [isCandidate, Bool.and_eq_true, decide_eq_true_eq, List.all_eq_true]
  exact ⟨⟨⟨major_le_of_number_le h.min_le, major_le_of_number_le h.le_max⟩, h.supported⟩,
    h.features⟩

/-- Candidates in the whole range are acceptable. -/
lemma acceptable_of_mem_candidates {v : ProtocolVersion}
    (h : v ∈ registry.candidates availableVersions preferences)
    (hmin : preferences.minVersion.number ≤ v.number)
    (hmax : v.number ≤ preferences.maxVersion.number) :
    registry.Acceptable availableVersions preferences v := by
  obtain ⟨havailable, hcandidate⟩ := List.mem_filter.mp h
  simp only [isCandidate, Bool.and_eq_true, decide_eq_true_eq, List.all_eq_true] at hcandidate
  exact ⟨havailable, hcandidate.1.2, hmin, hmax, hcandidate.2⟩

/-- The choice is right iff no version is acceptable, or the preferred one is, or it is no candidate
and no candidate is above the range. -/
lemma findsBest_iff :
    registry.FindsBest availableVersions preferences ↔
      (∀ v, ¬registry.Acceptable availableVersions preferences v) ∨
        registry.Acceptable availableVersions preferences preferences.preferredVersion ∨
        preferences.preferredVersion ∉ registry.candidates availableVersions preferences ∧
          ∀ v ∈ registry.candidates availableVersions preferences,
            v.number ≤ preferences.maxVersion.number := by
  constructor
  · intro h
    by_cases hnone : ∀ v, ¬registry.Acceptable availableVersions preferences v
    · exact .inl hnone
    by_cases hpreferred : registry.Acceptable availableVersions preferences
        preferences.preferredVersion
    · exact .inr (.inl hpreferred)
    obtain ⟨v, hv, hacceptable, -, -⟩ := h (not_forall_not.mp hnone)
    have hno :
        preferences.preferredVersion ∉ registry.candidates availableVersions preferences := by
      intro hmem
      rw [findBest_of_preferred hmem] at hv
      exact hpreferred (Option.some.inj hv ▸ hacceptable)
    exact .inr (.inr ⟨hno, fun w hw => (number_le_of_findBest hno hv hw).trans hacceptable.le_max⟩)
  · rintro (hnone | hpreferred | ⟨hno, hmax⟩) ⟨w, hw⟩
    · exact absurd hw (hnone w)
    · exact ⟨_, findBest_of_preferred hpreferred.mem_candidates, hpreferred, fun _ => rfl,
        fun hnot => absurd hpreferred hnot⟩
    · obtain ⟨v, hv⟩ := exists_findBest hw.mem_candidates
      have hmem := (findBest_eq_some hv).1
      have hle : ∀ w, registry.Acceptable availableVersions preferences w → w.number ≤ v.number :=
        fun w hw => number_le_of_findBest hno hv hw.mem_candidates
      exact ⟨v, hv, acceptable_of_mem_candidates hmem (hw.min_le.trans (hle w hw)) (hmax v hmem),
        fun hpreferred => absurd hpreferred.mem_candidates hno, fun _ => hle⟩

/-- The ranking is right iff the preferred version occurs at most once among the candidates. -/
lemma ranks_iff :
    registry.Ranks availableVersions preferences ↔
      (registry.candidates availableVersions preferences).count
        preferences.preferredVersion ≤ 1 := by
  rw [← Nat.not_lt, Nat.lt_iff_add_one_le, ← List.duplicate_iff_two_le_count,
    List.duplicate_iff_exists_distinct_get]
  constructor
  · -- two preferred candidates are ranked before each other
    rintro h ⟨i, j, hlt, hi, hj⟩
    have hij : registry.Before availableVersions preferences i j :=
      ⟨hlt.ne, preferences.compareCandidates_eq_lt_iff.mpr (.inl hi.symm)⟩
    have hji : registry.Before availableVersions preferences j i :=
      ⟨hlt.ne', preferences.compareCandidates_eq_lt_iff.mpr (.inl hj.symm)⟩
    exact h.irrefl i (h.trans i j i hij hji)
  · intro hunique
    refine Ranking.isStrictWeakOrder_of_iff (fun i => preferences.rank
      ((registry.candidates availableVersions preferences).get i)) fun i j => ?_
    rw [Before, preferences.compareCandidates_eq_lt_iff, preferences.rank_lt_rank_iff]
    constructor
    · rintro ⟨hne, hi | ⟨hj, hnumber⟩⟩
      · refine ⟨fun hj => hunique ?_, .inl hi⟩
        rcases lt_or_gt_of_ne hne with hlt | hgt
        · exact ⟨i, j, hlt, hi.symm, hj.symm⟩
        · exact ⟨j, i, hgt, hj.symm, hi.symm⟩
      · exact ⟨hj, .inr hnumber⟩
    · rintro ⟨hj, hi | hnumber⟩
      · exact ⟨fun heq => hj (heq ▸ hi), .inl hi⟩
      · exact ⟨fun heq => absurd hnumber (by rw [heq]; exact lt_irrefl _), .inr ⟨hj, hnumber⟩⟩

end FeatureRegistry

/-- A protocol version manager with its negotiation preferences. -/
structure NegotiatingManager where
  /-- Version registry. -/
  registry : FeatureRegistry
  /-- Current protocol version. -/
  currentVersion : ProtocolVersion
  /-- Version negotiation preferences. -/
  preferences : VersionPreferences

namespace NegotiatingManager

/-- The versions to consider: those of the peer, and the one it prefers. -/
def availableVersions (peerVersions : List ProtocolVersion) (peerPreferred : ProtocolVersion) :
    List ProtocolVersion :=
  if peerPreferred ∈ peerVersions then peerVersions else peerVersions ++ [peerPreferred]

/-- Negotiate protocol version with peer. -/
def negotiateVersion (self : NegotiatingManager) (peerVersions : List ProtocolVersion)
    (peerPreferred : ProtocolVersion) : Except VersionError ProtocolVersion :=
  match self.registry.findBestCompatibleVersion (availableVersions peerVersions peerPreferred)
    self.preferences with
  | some bestVersion => .ok bestVersion
  | none => .error (.incompatibleVersions self.currentVersion peerPreferred)

/-- A negotiation fails iff none of the versions to consider is a candidate. -/
theorem negotiateVersion_fails_iff (self : NegotiatingManager)
    (peerVersions : List ProtocolVersion) (peerPreferred : ProtocolVersion) :
    (∃ e, self.negotiateVersion peerVersions peerPreferred = .error e) ↔
      ∀ v, v ∈ peerVersions ∨ v = peerPreferred →
        self.registry.isCandidate self.preferences v = false := by
  have hmem : ∀ v, v ∈ availableVersions peerVersions peerPreferred ↔
      v ∈ peerVersions ∨ v = peerPreferred := fun v => by
    rw [availableVersions]
    split_ifs with h
    · exact ⟨.inl, fun hv => hv.elim id fun heq => heq ▸ h⟩
    · rw [List.mem_append, List.mem_singleton]
  have hnone : self.registry.findBestCompatibleVersion
      (availableVersions peerVersions peerPreferred) self.preferences = none ↔
        ∀ v, v ∈ peerVersions ∨ v = peerPreferred →
          self.registry.isCandidate self.preferences v = false := by
    rw [FeatureRegistry.findBestCompatibleVersion, Ranking.head?_mergeSort_eq_none_iff,
      FeatureRegistry.candidates, List.filter_eq_nil_iff]
    exact forall_congr' fun v => by rw [hmem, Bool.not_eq_true]
  rw [← hnone, negotiateVersion]
  cases self.registry.findBestCompatibleVersion (availableVersions peerVersions peerPreferred)
      self.preferences with
  | none => exact ⟨fun _ => rfl, fun _ => ⟨_, rfl⟩⟩
  | some v => exact ⟨fun ⟨e, he⟩ => (nomatch he), nofun⟩

end NegotiatingManager

/-! ## The choice of a handshake -/

section Negotiation

variable (config : HandshakeConfig) (peerVersions : List ProtocolVersion)
  (peerPreferred : ProtocolVersion)

/-- A version is supported by both sides. -/
def Common (v : ProtocolVersion) : Prop := v ∈ config.supportedVersions ∧ v ∈ peerVersions

/-- The version that the peer prefers is chosen if it is supported, and otherwise the highest one
that is supported by both sides, if there is one. -/
def NegotiatesBest : Prop :=
  (peerPreferred ∈ config.supportedVersions →
      negotiateVersion config peerVersions peerPreferred = .ok peerPreferred) ∧
    (peerPreferred ∉ config.supportedVersions → (∃ v, Common config peerVersions v) →
      ∃ v, negotiateVersion config peerVersions peerPreferred = .ok v ∧
        Common config peerVersions v ∧ ∀ w, Common config peerVersions w → w.number ≤ v.number)

/-- The first of our versions that is compatible with one of the peer's is supported by both sides,
and is the highest such version. -/
def FirstIsBest : Prop :=
  ∃ before v after, config.supportedVersions = before ++ v :: after ∧
    (∀ w ∈ before, ∀ p ∈ peerVersions, w.isCompatible p = false) ∧
    Common config peerVersions v ∧ ∀ w, Common config peerVersions w → w.number ≤ v.number

variable {config peerVersions peerPreferred}

/-- A version is compatible with itself. -/
lemma isCompatible_self (v : ProtocolVersion) : v.isCompatible v = true := by
  simp [ProtocolVersion.isCompatible]

/-- Without the preferred version, the first compatible one of ours is chosen. -/
lemma negotiateVersion_eq_ok_iff (h : peerPreferred ∉ config.supportedVersions)
    {v : ProtocolVersion} :
    negotiateVersion config peerVersions peerPreferred = .ok v ↔
      (∃ p ∈ peerVersions, v.isCompatible p = true) ∧
        ∃ before after, config.supportedVersions = before ++ v :: after ∧
          ∀ w ∈ before, ∀ p ∈ peerVersions, w.isCompatible p = false := by
  have hfind : negotiateVersion config peerVersions peerPreferred = .ok v ↔
      (config.supportedVersions.find? fun version => peerVersions.any version.isCompatible) =
        some v := by
    rw [negotiateVersion, if_neg h]
    cases config.supportedVersions.find? fun version => peerVersions.any version.isCompatible with
    | none => exact ⟨nofun, nofun⟩
    | some w =>
      exact ⟨fun h => congrArg some (Except.ok.inj h), fun h => by rw [Option.some.inj h]⟩
  rw [hfind, List.find?_eq_some_iff_append, List.any_eq_true]
  simp only [Bool.not_eq_true', List.any_eq_false, Bool.not_eq_true]

/-- The choice is right iff the preferred version is supported, or no version is supported by both
sides, or the first compatible version of ours is the best one. -/
lemma negotiatesBest_iff :
    NegotiatesBest config peerVersions peerPreferred ↔
      peerPreferred ∈ config.supportedVersions ∨ (∀ v, ¬Common config peerVersions v) ∨
        FirstIsBest config peerVersions := by
  constructor
  · rintro ⟨-, hbest⟩
    by_cases hpreferred : peerPreferred ∈ config.supportedVersions
    · exact .inl hpreferred
    by_cases hnone : ∀ v, ¬Common config peerVersions v
    · exact .inr (.inl hnone)
    obtain ⟨v, hv, hcommon, hhighest⟩ := hbest hpreferred (not_forall_not.mp hnone)
    obtain ⟨-, before, after, hours, hbefore⟩ := (negotiateVersion_eq_ok_iff hpreferred).mp hv
    exact .inr (.inr ⟨before, v, after, hours, hbefore, hcommon, hhighest⟩)
  · intro h
    refine ⟨fun hpreferred => if_pos hpreferred, fun hpreferred ⟨w, hw⟩ => ?_⟩
    rcases h with hours | hnone | ⟨before, v, after, hours, hbefore, hcommon, hhighest⟩
    · exact absurd hours hpreferred
    · exact absurd hw (hnone w)
    · exact ⟨v, (negotiateVersion_eq_ok_iff hpreferred).mpr
        ⟨⟨v, hcommon.2, isCompatible_self v⟩, before, after, hours, hbefore⟩, hcommon, hhighest⟩

end Negotiation

/-! ## Both choices -/

/-- Both choices and the ranking are right. -/
def Selects (registry : FeatureRegistry) (availableVersions : List ProtocolVersion)
    (preferences : VersionPreferences) (config : HandshakeConfig)
    (peerVersions : List ProtocolVersion) (peerPreferred : ProtocolVersion) : Prop :=
  registry.FindsBest availableVersions preferences ∧
    registry.Ranks availableVersions preferences ∧
    NegotiatesBest config peerVersions peerPreferred

/-- Only version 1.0.0 is in the range. -/
def samplePreferences (preferred : ProtocolVersion) : VersionPreferences :=
  ⟨preferred, v1_0_0, v1_0_0, ["quantum-resistant-crypto", "dag-consensus"]⟩

/-- A handshake that supports both versions, the lower one first. -/
def sampleConfig : HandshakeConfig :=
  { HandshakeConfig.default with supportedVersions := [v1_0_0, v1_1_0] }

end QuDAG.Protocol
