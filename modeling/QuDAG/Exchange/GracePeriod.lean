import QuDAG.Exchange.Immutable

/-!
# The arithmetic of the grace period

Locks are made at a time in milliseconds, and their grace period is in seconds. The end of the
grace period is the sum of the two numbers, so that a lock takes effect a thousand times too early,
and the sum may not fit in 64 bits.

## Main definitions

* `ImmutableConfig.checkedInGracePeriod` — the test, in a build that checks for overflow or does
  not.
* `ImmutableConfig.GraceExact` — the test is what it is over unbounded numbers.

## Main results

* `ImmutableConfig.graceExact_iff` — when it is.
-/

namespace QuDAG.Exchange

open RustStd

namespace ImmutableConfig

/-- Is the system in its grace period, unless the build panics? -/
def checkedInGracePeriod (checks : Bool) (config : ImmutableConfig) (currentTime : Timestamp) :
    Option Bool :=
  match config.lockedAt with
  | some lockedAt =>
    (addU64 checks lockedAt.millis config.gracePeriodSeconds).map fun graceEnd =>
      decide (currentTime.millis < graceEnd)
  | none => some false

/-- The grace period of a lock ends after its seconds, a lock is enforced outside of it, and no
build panics. -/
structure GraceExact (config : ImmutableConfig) (lockedAt now : Timestamp) : Prop where
  /-- The grace period, over unbounded numbers. -/
  inGracePeriod : config.isInGracePeriod now = true ↔
    now.millis.toNat < lockedAt.millis.toNat + 1000 * config.gracePeriodSeconds.toNat
  /-- A locked system is enforced outside of the grace period. -/
  enforced : config.isLocked = true →
    (config.isEnforced now = true ↔ ¬ config.isInGracePeriod now = true)
  /-- No operation overflows. -/
  fits : ∀ checks, config.checkedInGracePeriod checks now ≠ none

variable {config : ImmutableConfig} {lockedAt now : Timestamp}

/-- A build without checks computes the test of the model. -/
lemma checkedInGracePeriod_false (config : ImmutableConfig) (now : Timestamp) :
    config.checkedInGracePeriod false now = some (config.isInGracePeriod now) := by
  unfold checkedInGracePeriod isInGracePeriod addU64
  cases config.lockedAt with
  | none => rfl
  | some lockedAt => simp

/-- A locked system is enforced outside of the grace period. -/
lemma isEnforced_iff (hlocked : config.isLocked = true) :
    config.isEnforced now = true ↔ ¬ config.isInGracePeriod now = true := by
  rw [isEnforced, hlocked, Bool.true_and, Bool.not_eq_true', Bool.not_eq_true]

/-- A build with checks panics iff the end of the grace period does not fit. -/
lemma checkedInGracePeriod_true (h : config.lockedAt = some lockedAt) :
    config.checkedInGracePeriod true now = none ↔
      2 ^ 64 ≤ lockedAt.millis.toNat + config.gracePeriodSeconds.toNat := by
  simp [checkedInGracePeriod, h, addU64]

/-- Where the end of the grace period fits, it is the sum of the milliseconds and the seconds. -/
lemma isInGracePeriod_iff (h : config.lockedAt = some lockedAt)
    (hfits : lockedAt.millis.toNat + config.gracePeriodSeconds.toNat < 2 ^ 64) :
    config.isInGracePeriod now = true ↔
      now.millis.toNat < lockedAt.millis.toNat + config.gracePeriodSeconds.toNat := by
  simp only [isInGracePeriod, h, decide_eq_true_eq]
  rw [UInt64.lt_iff_toNat_lt, UInt64.toNat_add, Nat.mod_eq_of_lt hfits]

/-- **The test of a lock is exact** iff the sum of its milliseconds and its seconds fits, and the
time is not between that sum and the end of the grace period. -/
theorem graceExact_iff (h : config.lockedAt = some lockedAt) :
    config.GraceExact lockedAt now ↔
      lockedAt.millis.toNat + config.gracePeriodSeconds.toNat < 2 ^ 64 ∧
        (now.millis.toNat < lockedAt.millis.toNat + config.gracePeriodSeconds.toNat ∨
          lockedAt.millis.toNat + 1000 * config.gracePeriodSeconds.toNat ≤ now.millis.toNat) := by
  constructor
  · rintro ⟨hgrace, -, hchecked⟩
    have hfits := mt (checkedInGracePeriod_true h).mpr (hchecked true)
    rw [Nat.not_le] at hfits
    rw [isInGracePeriod_iff h hfits] at hgrace
    exact ⟨hfits, by omega⟩
  · rintro ⟨hfits, htime⟩
    refine ⟨?_, isEnforced_iff, fun checks => ?_⟩
    · rw [isInGracePeriod_iff h hfits]
      omega
    · cases checks with
      | false => simp [checkedInGracePeriod_false]
      | true =>
        rw [Ne, checkedInGracePeriod_true h]
        omega

/-- A lock with the default grace period of a day. -/
def lockedForADay : ImmutableConfig :=
  { default with
    enabled := true
    lockedAt := some ⟨1700000000000⟩
    lockSignature := some ⟨"ML-DSA-87", [], [], ⟨List.replicate 32 0, rfl⟩⟩ }

/-- The test is exact a minute after the lock. -/
theorem graceExact_iff_minute : lockedForADay.GraceExact ⟨1700000000000⟩ ⟨1700000060000⟩ :=
  (graceExact_iff rfl).mpr ⟨by decide, .inl (by decide)⟩

/-- A hundred seconds after the lock, the grace period of a day is over. -/
theorem not_graceExact_seconds :
    lockedForADay.isEnforced ⟨1700000100000⟩ = true ∧
      ¬ lockedForADay.GraceExact ⟨1700000000000⟩ ⟨1700000100000⟩ := by
  refine ⟨by decide, fun h => ?_⟩
  have hgrace := h.inGracePeriod.mpr (by decide)
  exact absurd hgrace (by decide)

end ImmutableConfig

end QuDAG.Exchange
