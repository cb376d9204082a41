import QuDAG.Network.CircuitBreaker

/-!
# Half-open requests

While it is half-open, the breaker counts the requests that it lets through, and it counts one down
with every outcome. The request that makes it half-open is let through but not counted. So its
outcome, like that of any older request, takes away a request that was never added, and from zero
the counter wraps around. After that no request is let through again.

## Main definitions

* `Admissions` — a breaker, and the requests without an outcome.
* `Admissions.Accounts` — while it is half-open, the breaker counts the outstanding requests, and
  lets one through when there are none.

## Main results

* `Admissions.accounts_iff` — the runs in which it does.
* `Admissions.lockedOut_for_good` — after the first success nothing is let through.
-/

namespace QuDAG.Network

/-- A breaker, and the requests that it let through. -/
structure Admissions where
  breaker : CircuitBreaker
  /-- The number of requests that were let through, which is the name of the next one. -/
  next : ℕ
  /-- Those without an outcome. -/
  pending : Finset ℕ
  /-- The request that last made the breaker half-open. -/
  probe : ℕ

namespace Admissions

/-- What is asked of the breaker: to let a request through, or to record the outcome of one. -/
inductive Call
  | allowRequest (r : Readings)
  | recordOutcome (r : Readings) (request : ℕ) (success : Bool)

/-- A new breaker. -/
def start (config : CircuitBreakerConfig) (now : Instant) : Admissions :=
  ⟨.new config now, 0, ∅, 0⟩

/-- Make a call. -/
def apply (s : Admissions) : Call → Admissions
  | .allowRequest r =>
    let result := s.breaker.allowRequest r
    if result.1 then
      { breaker := result.2
        next := s.next + 1
        pending := insert s.next s.pending
        probe := if s.breaker.state = .open then s.next else s.probe }
    else { s with breaker := result.2 }
  | .recordOutcome r request success =>
    { s with
      breaker := s.breaker.recordOutcome r success
      pending := s.pending.erase request }

/-- An outcome is recorded for a request that was let through, once. -/
def Legal (s : Admissions) : Call → Prop
  | .allowRequest _ => True
  | .recordOutcome _ request _ => request ∈ s.pending

instance instDecidableLegal (s : Admissions) : ∀ call : Call, Decidable (s.Legal call)
  | .allowRequest _ => instDecidableTrue
  | .recordOutcome _ request _ => inferInstanceAs (Decidable (request ∈ s.pending))

/-- The requests without an outcome that were let through since the breaker is half-open, the one
that made it half-open included. -/
def outstanding (s : Admissions) : ℕ := (s.pending.filter (s.probe ≤ ·)).card

/-- The same without that one. -/
def outstandingAfter (s : Admissions) : ℕ := (s.pending.filter (s.probe < ·)).card

/-- While the breaker is half-open, its counter is the given number of outstanding requests and
within the maximum, and if there is none the next request is let through. -/
structure Accounts (count : Admissions → ℕ) (s : Admissions) : Prop where
  counts : s.breaker.state = .halfOpen → s.breaker.halfOpenRequests.toNat = count s
  bounded : s.breaker.state = .halfOpen →
    s.breaker.halfOpenRequests.toNat ≤ s.breaker.config.halfOpenMaxRequests.toNat
  admits : s.breaker.state = .halfOpen → count s = 0 → ∀ r, (s.breaker.allowRequest r).1 = true

/-- The call does not make the breaker half-open: it is no request to an open breaker after the
timeout. -/
def NeverProbes (s : Admissions) : Call → Prop
  | .allowRequest r => s.breaker.state = .open →
    s.breaker.stateChangedAt.elapsed r.checked < s.breaker.config.timeout
  | .recordOutcome _ _ _ => True

/-- An outcome that leaves the breaker half-open is of a request that was let through after the one
that made it half-open. -/
def OwnOutcome (s : Admissions) : Call → Prop
  | .allowRequest _ => True
  | .recordOutcome _ request success => s.breaker.state = .halfOpen → success = true →
    s.breaker.consecutiveSuccesses + 1 < s.breaker.config.successThreshold.toNat →
      s.probe < request

/-! ## Steps -/

/-- The fields that no call but the one that makes the breaker half-open touches. -/
structure Inv (config : CircuitBreakerConfig) (s : Admissions) : Prop where
  config_eq : s.breaker.config = config
  pending_lt : ∀ request ∈ s.pending, request < s.next
  probe_lt : s.breaker.state = .halfOpen → s.probe < s.next

/-- The invariant of runs with own outcomes only: the counter is the number of the requests that
were let through since, and within the maximum. -/
structure Balanced (config : CircuitBreakerConfig) (s : Admissions) : Prop extends
    Inv config s where
  counts : s.breaker.state = .halfOpen → s.breaker.halfOpenRequests.toNat = s.outstandingAfter
  bounded : s.breaker.state = .halfOpen →
    s.breaker.halfOpenRequests.toNat ≤ config.halfOpenMaxRequests.toNat

variable {config : CircuitBreakerConfig} {s : Admissions}

/-- A request that was let through later is the only new one among those after the probe. -/
lemma card_filter_insert_next (h : s.Inv config) {n : ℕ} (hn : n < s.next) :
    ((insert s.next s.pending).filter (n < ·)).card = (s.pending.filter (n < ·)).card + 1 := by
  rw [Finset.filter_insert, if_pos hn, Finset.card_insert_of_notMem]
  intro hmem
  exact lt_irrefl _ (h.pending_lt _ (Finset.mem_filter.mp hmem).1)

/-- The request that makes the breaker half-open is the only one since. -/
lemma filter_insert_next (h : s.Inv config) :
    (insert s.next s.pending).filter (s.next ≤ ·) = {s.next} := by
  ext request
  simp only [Finset.mem_filter, Finset.mem_insert, Finset.mem_singleton]
  constructor
  · rintro ⟨rfl | hmem, hle⟩
    · rfl
    · exact absurd (h.pending_lt request hmem) (not_lt.mpr hle)
  · rintro rfl
    exact ⟨.inl rfl, le_refl _⟩

/-- After it there is none. -/
lemma filter_next_lt (h : s.Inv config) :
    (insert s.next s.pending).filter (s.next < ·) = ∅ := by
  rw [Finset.filter_eq_empty_iff]
  intro request hmem
  rcases Finset.mem_insert.mp hmem with rfl | hmem
  · exact lt_irrefl _
  · exact (h.pending_lt request hmem).asymm

/-- A request to a closed breaker. -/
lemma apply_allowRequest_closed {r : Readings} (h : s.breaker.state = .closed) :
    s.apply (.allowRequest r) =
      { s with next := s.next + 1, pending := insert s.next s.pending } := by
  simp [apply, CircuitBreaker.allowRequest, h]

/-- A request that makes the breaker half-open. -/
lemma apply_allowRequest_probe {r : Readings} (h : s.breaker.state = .open)
    (helapsed : s.breaker.config.timeout ≤ s.breaker.stateChangedAt.elapsed r.checked) :
    s.apply (.allowRequest r) =
      ⟨s.breaker.transitionToHalfOpen r, s.next + 1, insert s.next s.pending, s.next⟩ := by
  simp [apply, CircuitBreaker.allowRequest, h, helapsed]

/-- A request that a half-open breaker lets through. -/
lemma apply_allowRequest_halfOpen {r : Readings} (h : s.breaker.state = .halfOpen)
    (hmax : s.breaker.halfOpenRequests < s.breaker.config.halfOpenMaxRequests.toUInt64) :
    s.apply (.allowRequest r) =
      { s with
        breaker := { s.breaker with halfOpenRequests := s.breaker.halfOpenRequests + 1 }
        next := s.next + 1
        pending := insert s.next s.pending } := by
  simp [apply, CircuitBreaker.allowRequest, h, hmax]

/-- A request that is rejected. -/
lemma apply_allowRequest_rejected {r : Readings}
    (h : s.breaker.allowRequest r = (false, s.breaker.reject)) :
    s.apply (.allowRequest r) = { s with breaker := s.breaker.reject } := by
  simp [apply, h]

/-- What every legal call keeps. -/
lemma Inv.apply (h : s.Inv config) (call : Call) : (s.apply call).Inv config := by
  cases call with
  | allowRequest r =>
    have hinsert : ∀ request ∈ insert s.next s.pending, request < s.next + 1 := by
      intro request hmem
      rcases Finset.mem_insert.mp hmem with rfl | hmem
      · exact Nat.lt_succ_self _
      · exact (h.pending_lt request hmem).trans (Nat.lt_succ_self _)
    rcases s.breaker.allowRequest_cases r with ⟨hstate, -⟩ | ⟨hstate, helapsed, -⟩ |
      ⟨-, -, hrejected⟩ | ⟨hstate, hmax, -⟩ | ⟨-, -, hrejected⟩
    · rw [apply_allowRequest_closed hstate]
      exact ⟨h.config_eq, hinsert, fun hhalf => absurd (hstate.symm.trans hhalf) (by simp)⟩
    · rw [apply_allowRequest_probe hstate helapsed]
      exact ⟨(CircuitBreaker.transitionToHalfOpen_of_open hstate).2.2.trans h.config_eq, hinsert,
        fun _ => Nat.lt_succ_self _⟩
    · rw [apply_allowRequest_rejected hrejected]
      exact ⟨h.config_eq, h.pending_lt, h.probe_lt⟩
    · rw [apply_allowRequest_halfOpen hstate hmax]
      exact ⟨h.config_eq, hinsert, fun _ => (h.probe_lt hstate).trans (Nat.lt_succ_self _)⟩
    · rw [apply_allowRequest_rejected hrejected]
      exact ⟨h.config_eq, h.pending_lt, h.probe_lt⟩
  | recordOutcome r request success =>
    refine ⟨CircuitBreaker.config_recordOutcome.trans h.config_eq, fun other hmem =>
      h.pending_lt other (Finset.mem_of_mem_erase hmem), fun hhalf => ?_⟩
    by_cases hstate : s.breaker.state = .halfOpen
    · exact h.probe_lt hstate
    · exact absurd hhalf (CircuitBreaker.state_recordOutcome_ne hstate)

/-- The request that makes the breaker half-open is not counted. -/
lemma not_accounts_of_probe (h : s.Inv config) {r : Readings} (hstate : s.breaker.state = .open)
    (helapsed : s.breaker.config.timeout ≤ s.breaker.stateChangedAt.elapsed r.checked) :
    ¬(s.apply (.allowRequest r)).Accounts outstanding := by
  obtain ⟨hhalf, hzero, -⟩ := CircuitBreaker.transitionToHalfOpen_of_open (r := r) hstate
  intro haccounts
  rw [apply_allowRequest_probe hstate helapsed] at haccounts
  have hcount := haccounts.counts hhalf
  rw [outstanding, filter_insert_next h, Finset.card_singleton, hzero] at hcount
  simp at hcount

/-- Only the probe makes the breaker half-open. -/
lemma state_apply_ne (h : s.breaker.state ≠ .halfOpen) {call : Call} (hcall : s.NeverProbes call) :
    (s.apply call).breaker.state ≠ .halfOpen := by
  cases call with
  | allowRequest r =>
    rcases s.breaker.allowRequest_cases r with ⟨hstate, -⟩ | ⟨hstate, helapsed, -⟩ |
      ⟨-, -, hrejected⟩ | ⟨hstate, -⟩ | ⟨hstate, -⟩
    · rwa [apply_allowRequest_closed hstate]
    · exact absurd helapsed (not_le.mpr (hcall hstate))
    · rwa [apply_allowRequest_rejected hrejected]
    · exact absurd hstate h
    · exact absurd hstate h
  | recordOutcome r request success => exact CircuitBreaker.state_recordOutcome_ne h

/-- A new breaker has no requests. -/
lemma inv_start (config : CircuitBreakerConfig) (now : Instant) :
    (start config now).Inv config where
  config_eq := rfl
  pending_lt := by simp [start]
  probe_lt h := by simp [start, CircuitBreaker.new] at h

/-- With the probe counted, the breaker never accounts for its requests once it is half-open. -/
lemma accounts_outstanding_iff (config : CircuitBreakerConfig) (now : Instant)
    (calls : List Call) : Runs.Always apply (Accounts outstanding) (start config now) calls ↔
      Runs.Steps apply NeverProbes (start config now) calls := by
  refine Runs.always_iff_steps (V := fun _ _ => True)
    (fun s => s.Inv config ∧ s.breaker.state ≠ .halfOpen) ?_ ?_ ?_
    (Runs.steps_of_forall fun _ _ => trivial) ⟨inv_start config now, by simp [start,
      CircuitBreaker.new]⟩
  · rintro s ⟨-, hstate⟩
    exact ⟨fun h => absurd h hstate, fun h => absurd h hstate, fun h => absurd h hstate⟩
  · rintro s call ⟨hinv, hstate⟩ - hcall
    exact ⟨hinv.apply call, state_apply_ne hstate hcall⟩
  · rintro s call ⟨hinv, hstate⟩ - haccounts
    cases call with
    | allowRequest r =>
      intro hopen
      by_contra helapsed
      exact not_accounts_of_probe hinv hopen (not_lt.mp helapsed) haccounts
    | recordOutcome r request success => trivial

/-! ## Without the probe -/

/-- Taking one from a word that is not zero. -/
lemma toNat_sub_one {w : UInt64} (h : 0 < w.toNat) : (w - 1).toNat = w.toNat - 1 := by
  have := w.toNat_lt
  rw [UInt64.toNat_sub]
  simp only [UInt64.toNat_one]
  omega

/-- Taking one changes a word. -/
lemma toNat_sub_one_ne (w : UInt64) : (w - 1).toNat ≠ w.toNat := by
  have := w.toNat_lt
  rw [UInt64.toNat_sub]
  simp only [UInt64.toNat_one]
  omega

/-- Adding one to a word below another one. -/
lemma toNat_add_one_of_lt {w w' : UInt64} (h : w < w') : (w + 1).toNat = w.toNat + 1 := by
  have := w'.toNat_lt
  rw [UInt64.lt_iff_toNat_lt] at h
  rw [UInt64.toNat_add]
  simp only [UInt64.toNat_one]
  omega

/-- The counter of a balanced breaker accounts for the requests after the probe. -/
lemma Balanced.accounts (h : s.Balanced config) (hmax : 0 < config.halfOpenMaxRequests.toNat) :
    s.Accounts outstandingAfter where
  counts := h.counts
  bounded hstate := by
    rw [h.config_eq]
    exact h.bounded hstate
  admits hstate hnone r := by
    have hzero := (h.counts hstate).trans hnone
    have hlt : s.breaker.halfOpenRequests < s.breaker.config.halfOpenMaxRequests.toUInt64 := by
      rw [UInt64.lt_iff_toNat_lt, hzero, h.config_eq, UInt32.toNat_toUInt64]
      exact hmax
    simp [CircuitBreaker.allowRequest, hstate, hlt]

/-- A request keeps the balance. -/
lemma Balanced.allowRequest (h : s.Balanced config) (r : Readings) :
    (s.apply (.allowRequest r)).Balanced config := by
  refine ⟨h.toInv.apply _, ?_, ?_⟩ <;>
    rcases s.breaker.allowRequest_cases r with ⟨hstate, -⟩ | ⟨hstate, helapsed, -⟩ |
      ⟨-, -, hrejected⟩ | ⟨hstate, hmax, -⟩ | ⟨-, -, hrejected⟩
  -- the counter
  · rw [apply_allowRequest_closed hstate]
    exact fun hhalf => absurd (hstate.symm.trans hhalf) (by simp)
  · rw [apply_allowRequest_probe hstate helapsed]
    intro _
    rw [outstandingAfter, filter_next_lt h.toInv,
      (CircuitBreaker.transitionToHalfOpen_of_open hstate).2.1]
    rfl
  · rw [apply_allowRequest_rejected hrejected]
    exact h.counts
  · rw [apply_allowRequest_halfOpen hstate hmax]
    intro _
    rw [toNat_add_one_of_lt hmax, h.counts hstate, outstandingAfter, outstandingAfter,
      card_filter_insert_next h.toInv (h.probe_lt hstate)]
  · rw [apply_allowRequest_rejected hrejected]
    exact h.counts
  -- the bound
  · rw [apply_allowRequest_closed hstate]
    exact fun hhalf => absurd (hstate.symm.trans hhalf) (by simp)
  · rw [apply_allowRequest_probe hstate helapsed]
    intro _
    rw [(CircuitBreaker.transitionToHalfOpen_of_open hstate).2.1]
    exact Nat.zero_le _
  · rw [apply_allowRequest_rejected hrejected]
    exact h.bounded
  · rw [apply_allowRequest_halfOpen hstate hmax]
    intro _
    rw [toNat_add_one_of_lt hmax]
    rw [UInt64.lt_iff_toNat_lt, UInt32.toNat_toUInt64, h.config_eq] at hmax
    exact hmax
  · rw [apply_allowRequest_rejected hrejected]
    exact h.bounded

/-- An outcome of a request after the probe keeps the balance. -/
lemma Balanced.recordOutcome (h : s.Balanced config) {r : Readings} {request : ℕ} {success : Bool}
    (hlegal : request ∈ s.pending) (hown : s.OwnOutcome (.recordOutcome r request success)) :
    (s.apply (.recordOutcome r request success)).Balanced config := by
  by_cases hstate : s.breaker.state = .halfOpen
  · obtain ⟨hcounter, hstays⟩ :=
      @CircuitBreaker.recordOutcome_halfOpen r _ success hstate
    -- one request less is outstanding
    have hcount : (s.breaker.recordOutcome r success).state = .halfOpen →
        (s.breaker.halfOpenRequests - 1).toNat =
          (s.apply (.recordOutcome r request success)).outstandingAfter ∧
        s.breaker.halfOpenRequests.toNat ≠ 0 := by
      intro hhalf
      have hmem : request ∈ s.pending.filter (s.probe < ·) :=
        Finset.mem_filter.mpr ⟨hlegal, hown hstate (hstays.mp hhalf).1 (hstays.mp hhalf).2⟩
      have hpos : 0 < s.breaker.halfOpenRequests.toNat := by
        rw [h.counts hstate]
        exact Finset.card_pos.mpr ⟨request, hmem⟩
      refine ⟨?_, hpos.ne'⟩
      rw [toNat_sub_one hpos, h.counts hstate]
      show _ = ((s.pending.erase request).filter (s.probe < ·)).card
      rw [Finset.filter_erase, Finset.card_erase_of_mem hmem]
      rfl
    refine ⟨h.toInv.apply _, fun hhalf => ?_, fun hhalf => ?_⟩
    · show (s.breaker.recordOutcome r success).halfOpenRequests.toNat = _
      rw [hcounter, (hcount hhalf).1]
    · show (s.breaker.recordOutcome r success).halfOpenRequests.toNat ≤ _
      rw [hcounter, toNat_sub_one (Nat.pos_of_ne_zero (hcount hhalf).2)]
      exact (Nat.sub_le _ _).trans (h.bounded hstate)
  · have hleft := @CircuitBreaker.state_recordOutcome_ne r _ success hstate
    exact ⟨h.toInv.apply _, fun hhalf => absurd hhalf hleft, fun hhalf => absurd hhalf hleft⟩

/-- Any other outcome takes away a request that was not counted. -/
lemma Balanced.ownOutcome (h : s.Balanced config) {r : Readings} {request : ℕ} {success : Bool}
    (haccounts : (s.apply (.recordOutcome r request success)).Accounts outstandingAfter) :
    s.OwnOutcome (.recordOutcome r request success) := by
  intro hstate hsuccess hfew
  obtain ⟨hcounter, hstays⟩ :=
    @CircuitBreaker.recordOutcome_halfOpen r _ success hstate
  by_contra hprobe
  have hcount : (s.breaker.recordOutcome r success).halfOpenRequests.toNat =
      ((s.pending.erase request).filter (s.probe < ·)).card :=
    haccounts.counts (hstays.mpr ⟨hsuccess, hfew⟩)
  have hsame : request ∉ s.pending.filter (s.probe < ·) := fun hmem =>
    hprobe (Finset.mem_filter.mp hmem).2
  rw [Finset.filter_erase, Finset.erase_eq_of_notMem hsame, hcounter] at hcount
  exact toNat_sub_one_ne _ (hcount.trans (h.counts hstate).symm)

/-- **What one call does to the balance**: it keeps it iff an outcome that leaves the breaker
half-open is one of a request after the probe. -/
lemma Balanced.apply_iff (h : s.Balanced config) {call : Call} (hlegal : s.Legal call) :
    (s.OwnOutcome call → (s.apply call).Balanced config) ∧
      ((s.apply call).Accounts outstandingAfter → s.OwnOutcome call) := by
  cases call with
  | allowRequest r => exact ⟨fun _ => h.allowRequest r, fun _ => trivial⟩
  | recordOutcome r request success => exact ⟨h.recordOutcome hlegal, h.ownOutcome⟩

/-- A new breaker is balanced. -/
lemma balanced_start (config : CircuitBreakerConfig) (now : Instant) :
    (start config now).Balanced config where
  toInv := inv_start config now
  counts h := by simp [start, CircuitBreaker.new] at h
  bounded h := by simp [start, CircuitBreaker.new] at h

/-- Without the probe, the breaker accounts for its requests as long as it sees no outcome of the
probe, or of an older request, that leaves it half-open. -/
lemma accounts_outstandingAfter_iff (config : CircuitBreakerConfig)
    (hmax : 0 < config.halfOpenMaxRequests.toNat) (now : Instant) {calls : List Call}
    (hlegal : Runs.Steps apply Legal (start config now) calls) :
    Runs.Always apply (Accounts outstandingAfter) (start config now) calls ↔
      Runs.Steps apply OwnOutcome (start config now) calls :=
  Runs.always_iff_steps (Balanced config) (fun _ h => h.accounts hmax)
    (fun _ _ h hcall hown => (h.apply_iff hcall).1 hown)
    (fun _ _ h hcall haccounts => (h.apply_iff hcall).2 haccounts) hlegal
    (balanced_start config now)

/-- **Exactly when half-open requests are accounted for.** If the request that makes the breaker
half-open is one of those outstanding: iff the breaker never becomes half-open. If it is not: iff no
outcome of it, or of an older request, leaves the breaker half-open. -/
theorem accounts_iff (config : CircuitBreakerConfig)
    (hmax : 0 < config.halfOpenMaxRequests.toNat) (now : Instant) (calls : List Call)
    (hlegal : Runs.Steps apply Legal (start config now) calls) :
    (Runs.Always apply (Accounts outstanding) (start config now) calls ↔
      Runs.Steps apply NeverProbes (start config now) calls) ∧
    (Runs.Always apply (Accounts outstandingAfter) (start config now) calls ↔
      Runs.Steps apply OwnOutcome (start config now) calls) :=
  ⟨accounts_outstanding_iff config now calls, accounts_outstandingAfter_iff config hmax now hlegal⟩

/-! ## Locked out -/

/-- The breaker is half-open with its counter at the maximum or above, and no outcome is to come. -/
structure LockedOut (s : Admissions) : Prop where
  halfOpen : s.breaker.state = .halfOpen
  full : s.breaker.config.halfOpenMaxRequests.toUInt64 ≤ s.breaker.halfOpenRequests
  none : s.pending = ∅

/-- A locked out breaker lets nothing through. -/
lemma LockedOut.rejects (h : s.LockedOut) (r : Readings) :
    s.breaker.allowRequest r = (false, s.breaker.reject) := by
  simp [CircuitBreaker.allowRequest, h.halfOpen, UInt64.not_lt.mpr h.full]

/-- It stays so for good. -/
theorem LockedOut.always (h : s.LockedOut) {calls : List Call}
    (hlegal : Runs.Steps apply Legal s calls) : Runs.Always apply LockedOut s calls := by
  refine Runs.always_rule LockedOut (fun s call h hcall => ?_) hlegal h
  cases call with
  | allowRequest r =>
    rw [apply_allowRequest_rejected (h.rejects r)]
    exact ⟨h.halfOpen, h.full, h.none⟩
  | recordOutcome r request success =>
    have hmem : request ∈ s.pending := hcall
    rw [h.none] at hmem
    exact absurd hmem (Finset.notMem_empty request)

/-- **The first success of a recovering peer locks it out**, if more than one is needed and no
other request is outstanding. -/
theorem lockedOut_of_probe (hstate : s.breaker.state = .halfOpen)
    (hcounter : s.breaker.halfOpenRequests = 0) (hpending : s.pending = {s.probe})
    (hfew : s.breaker.consecutiveSuccesses + 1 < s.breaker.config.successThreshold.toNat)
    (r : Readings) : (s.apply (.recordOutcome r s.probe true)).LockedOut := by
  obtain ⟨hafter, hstays⟩ := @CircuitBreaker.recordOutcome_halfOpen r _ true hstate
  refine ⟨hstays.mpr ⟨rfl, hfew⟩, ?_, ?_⟩
  · show (s.breaker.recordOutcome r true).config.halfOpenMaxRequests.toUInt64 ≤
      (s.breaker.recordOutcome r true).halfOpenRequests
    rw [hafter, hcounter, CircuitBreaker.config_recordOutcome, UInt64.le_iff_toNat_le,
      UInt32.toNat_toUInt64]
    have := s.breaker.config.halfOpenMaxRequests.toNat_lt
    have hwrapped : ((0 : UInt64) - 1).toNat = 2 ^ 64 - 1 := by decide
    omega
  · show s.pending.erase s.probe = ∅
    rw [hpending, Finset.erase_singleton]

/-- A call at a time. -/
def readingsAt (now : Instant) : Readings := ⟨now, now, now, now, now, now⟩

/-- One failure opens, two successes close, one request at a time while it is half-open. -/
def sampleConfig : CircuitBreakerConfig := ⟨1, 2, 50, 1 / 2, 1, 1000, 1⟩

/-- A failure, and after the timeout a success. -/
def sampleCalls : List Call :=
  [.allowRequest (readingsAt 0), .recordOutcome (readingsAt 0) 0 false,
    .allowRequest (readingsAt 100), .recordOutcome (readingsAt 100) 1 true]

/-- A request that fails and one that is rejected. -/
theorem accounts_iff_failure :
    (Runs.Always apply (Accounts outstanding) (start sampleConfig 0) (sampleCalls.take 2) ↔
      Runs.Steps apply NeverProbes (start sampleConfig 0) (sampleCalls.take 2)) ∧
    (Runs.Always apply (Accounts outstandingAfter) (start sampleConfig 0) (sampleCalls.take 2) ↔
      Runs.Steps apply OwnOutcome (start sampleConfig 0) (sampleCalls.take 2)) :=
  accounts_iff sampleConfig (by decide) 0 _ ⟨trivial, by decide, trivial⟩

/-- A peer recovers: its first success wraps the counter around, and it is locked out. -/
theorem not_accounts_recovery :
    Runs.Steps apply Legal (start sampleConfig 0) sampleCalls ∧
      ¬Runs.Always apply (Accounts outstanding) (start sampleConfig 0) sampleCalls ∧
      ¬Runs.Always apply (Accounts outstandingAfter) (start sampleConfig 0) sampleCalls ∧
      (Runs.run apply (start sampleConfig 0) sampleCalls).LockedOut := by
  have hlegal : Runs.Steps apply Legal (start sampleConfig 0) sampleCalls :=
    by decide +kernel
  have hlocked : (Runs.run apply (start sampleConfig 0) sampleCalls).LockedOut :=
    ⟨by decide +kernel, by decide +kernel, by decide +kernel⟩
  refine ⟨hlegal, fun h => ?_, fun h => ?_, hlocked⟩
  all_goals
    have hcount := (Runs.always_iff.mp h sampleCalls List.prefix_rfl).counts hlocked.halfOpen
    revert hcount
    decide +kernel

/-- **A recovering peer is locked out for good** by its first success, if more than one is needed
and no other request is outstanding: whatever is asked of the breaker after it and whenever, nothing
is let through. -/
theorem lockedOut_for_good (hstate : s.breaker.state = .halfOpen)
    (hcounter : s.breaker.halfOpenRequests = 0) (hpending : s.pending = {s.probe})
    (hfew : s.breaker.consecutiveSuccesses + 1 < s.breaker.config.successThreshold.toNat)
    (r : Readings) {calls : List Call}
    (hlegal : Runs.Steps apply Legal (s.apply (.recordOutcome r s.probe true)) calls)
    (r' : Readings) :
    let s' := Runs.run apply (s.apply (.recordOutcome r s.probe true)) calls
    s'.breaker.state = .halfOpen ∧ (s'.breaker.allowRequest r').1 = false := by
  intro s'
  have hlocked := (lockedOut_of_probe hstate hcounter hpending hfew r).always hlegal
  have hs' : s'.LockedOut := Runs.always_iff.mp hlocked calls List.prefix_rfl
  exact ⟨hs'.halfOpen, congrArg Prod.fst (hs'.rejects r')⟩

/-- A peer that recovers is still locked out after the timeout of the breaker. -/
theorem lockedOut_for_good_recovery :
    let s := Runs.run apply (start sampleConfig 0) (sampleCalls.take 3)
    let s' := Runs.run apply (s.apply (.recordOutcome (readingsAt 100) s.probe true))
      [.allowRequest (readingsAt 200), .allowRequest (readingsAt 2000)]
    s'.breaker.state = .halfOpen ∧ (s'.breaker.allowRequest (readingsAt 3000)).1 = false :=
  lockedOut_for_good (by decide +kernel) (by decide +kernel) (by decide +kernel)
    (by decide +kernel) (readingsAt 100) (by decide +kernel) (readingsAt 3000)

end Admissions

end QuDAG.Network
