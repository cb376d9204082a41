import QuDAG.Dag.Voting
import QuDAG.Lib.Runs

/-!
# The circuit breaker (`circuit_breaker.rs`)

A circuit breaker lets requests to a peer through until too many of them fail. It then opens, and
after a timeout it lets a few requests through again to see whether the peer has recovered.

## Main definitions

* `SlidingWindow` — the outcomes of recent requests, and how many succeeded or failed.
* `CircuitBreaker`, with `allowRequest`, `recordOutcome` and `reset`.

## Implementation notes

Each reading of the clock is an argument. The counters of the window are integers here, so that a
subtraction below zero would be seen. The counter of half-open requests is a machine word of 64
bits. The counters of consecutive outcomes and of the statistics do not overflow, and rates are
rational numbers.
-/

namespace QuDAG.Network

/-- Circuit breaker state. -/
inductive CircuitState
  /-- Circuit is closed - requests allowed. -/
  | closed
  /-- Circuit is open - requests blocked. -/
  | «open»
  /-- Circuit is half-open - testing recovery. -/
  | halfOpen
  deriving DecidableEq, Repr

/-- Circuit breaker configuration. -/
structure CircuitBreakerConfig where
  /-- Failure threshold to open circuit. -/
  failureThreshold : UInt32
  /-- Success threshold to close circuit from half-open. -/
  successThreshold : UInt32
  /-- Timeout before attempting recovery. -/
  timeout : Duration
  /-- Failure rate threshold. -/
  failureRateThreshold : ℚ
  /-- Minimum number of requests for statistics. -/
  minRequests : UInt32
  /-- Time window for rolling statistics. -/
  windowDuration : Duration
  /-- Maximum concurrent half-open requests. -/
  halfOpenMaxRequests : UInt32

/-- The default configuration. -/
def CircuitBreakerConfig.default : CircuitBreakerConfig :=
  ⟨5, 3, 60 * 10 ^ 9, 1 / 2, 10, 60 * 10 ^ 9, 1⟩

/-- Circuit breaker statistics. -/
structure CircuitBreakerStats where
  /-- Total requests. -/
  totalRequests : ℕ
  /-- Successful requests. -/
  successfulRequests : ℕ
  /-- Failed requests. -/
  failedRequests : ℕ
  /-- Rejected requests (circuit open). -/
  rejectedRequests : ℕ
  /-- Current failure rate. -/
  failureRate : ℚ
  /-- Circuit state changes. -/
  stateChanges : ℕ
  /-- Last state change timestamp. -/
  lastStateChange : Option Instant
  /-- Time spent in each state. -/
  timeInClosed : Duration
  timeInOpen : Duration
  timeInHalfOpen : Duration

/-- Empty statistics. -/
def CircuitBreakerStats.default : CircuitBreakerStats := ⟨0, 0, 0, 0, 0, 0, none, 0, 0, 0⟩

/-- What a call reads from the clock, in the order in which it is read. -/
structure Readings where
  /-- When it looks how long the circuit has been open. -/
  checked : Instant
  /-- When the outcome is recorded. -/
  recorded : Instant
  /-- When old outcomes are removed. -/
  pruned : Instant
  /-- When the state changes. -/
  changed : Instant
  /-- When the time in the old state is measured. -/
  measured : Instant
  /-- When the change is noted in the statistics. -/
  noted : Instant

/-! ## The window -/

/-- Time-based sliding window for tracking request outcomes. -/
structure SlidingWindow where
  /-- Window duration. -/
  duration : Duration
  /-- Request outcomes (timestamp, success). -/
  outcomes : List (Instant × Bool)
  /-- Success count in window. -/
  successCount : ℤ
  /-- Failure count in window. -/
  failureCount : ℤ

namespace SlidingWindow

/-- A window without outcomes. -/
def new (duration : Duration) : SlidingWindow := ⟨duration, [], 0, 0⟩

/-- Remove the outcomes at the front that are too old. -/
def cleanup (duration : Duration) (now : Instant) :
    List (Instant × Bool) → ℤ → ℤ → SlidingWindow
  | [], successCount, failureCount => ⟨duration, [], successCount, failureCount⟩
  | (recorded, success) :: outcomes, successCount, failureCount =>
    if recorded + duration < now then
      if success then cleanup duration now outcomes (successCount - 1) failureCount
      else cleanup duration now outcomes successCount (failureCount - 1)
    else ⟨duration, (recorded, success) :: outcomes, successCount, failureCount⟩

/-- Record an outcome, and remove those that are too old. -/
def record (r : Readings) (success : Bool) (window : SlidingWindow) : SlidingWindow :=
  let outcomes := window.outcomes ++ [(r.recorded, success)]
  if success then
    cleanup window.duration r.pruned outcomes (window.successCount + 1) window.failureCount
  else cleanup window.duration r.pruned outcomes window.successCount (window.failureCount + 1)

/-- The number of outcomes. -/
def totalRequests (window : SlidingWindow) : ℤ := window.successCount + window.failureCount

/-- The share of failures, 0 if there are no outcomes. -/
def failureRate (window : SlidingWindow) : ℚ :=
  if window.totalRequests = 0 then 0 else window.failureCount / window.totalRequests

/-- Forget all outcomes. -/
def reset (window : SlidingWindow) : SlidingWindow := ⟨window.duration, [], 0, 0⟩

end SlidingWindow

/-! ## The breaker -/

/-- Circuit breaker implementation. -/
structure CircuitBreaker where
  /-- Configuration. -/
  config : CircuitBreakerConfig
  /-- Current state. -/
  state : CircuitState
  /-- State transition timestamp. -/
  stateChangedAt : Instant
  /-- Consecutive failures. -/
  consecutiveFailures : ℕ
  /-- Consecutive successes. -/
  consecutiveSuccesses : ℕ
  /-- Half-open request count. -/
  halfOpenRequests : UInt64
  /-- Request window. -/
  window : SlidingWindow
  /-- Statistics. -/
  stats : CircuitBreakerStats

namespace CircuitBreaker

/-- Create a new circuit breaker. -/
def new (config : CircuitBreakerConfig) (now : Instant) : CircuitBreaker :=
  ⟨config, .closed, now, 0, 0, 0, .new config.windowDuration, .default⟩

/-- Update state statistics. -/
def updateStateStats (r : Readings) (fromState : CircuitState) (breaker : CircuitBreaker) :
    CircuitBreaker :=
  let stats := { breaker.stats with stateChanges := breaker.stats.stateChanges + 1 }
  let stats :=
    match stats.lastStateChange with
    | none => stats
    | some lastChange =>
      let duration := lastChange.elapsed r.measured
      match fromState with
      | .closed => { stats with timeInClosed := stats.timeInClosed + duration }
      | .open => { stats with timeInOpen := stats.timeInOpen + duration }
      | .halfOpen => { stats with timeInHalfOpen := stats.timeInHalfOpen + duration }
  { breaker with
    stats := { stats with
      lastStateChange := some r.noted
      failureRate := breaker.window.failureRate } }

section Stats

variable (r : Readings) (fromState : CircuitState) (breaker : CircuitBreaker)

@[simp] lemma updateStateStats_config :
    (breaker.updateStateStats r fromState).config = breaker.config := rfl

@[simp] lemma updateStateStats_state :
    (breaker.updateStateStats r fromState).state = breaker.state := rfl

@[simp] lemma updateStateStats_consecutiveFailures :
    (breaker.updateStateStats r fromState).consecutiveFailures = breaker.consecutiveFailures := rfl

@[simp] lemma updateStateStats_consecutiveSuccesses :
    (breaker.updateStateStats r fromState).consecutiveSuccesses = breaker.consecutiveSuccesses :=
  rfl

@[simp] lemma updateStateStats_halfOpenRequests :
    (breaker.updateStateStats r fromState).halfOpenRequests = breaker.halfOpenRequests := rfl

@[simp] lemma updateStateStats_window :
    (breaker.updateStateStats r fromState).window = breaker.window := rfl

end Stats

/-- Transition to open state. -/
def transitionToOpen (r : Readings) (breaker : CircuitBreaker) : CircuitBreaker :=
  if breaker.state = .open then breaker
  else
    updateStateStats r breaker.state { breaker with
      state := .open
      stateChangedAt := r.changed
      consecutiveFailures := 0
      consecutiveSuccesses := 0 }

/-- Transition to half-open state. The window is cleared for a fresh start. -/
def transitionToHalfOpen (r : Readings) (breaker : CircuitBreaker) : CircuitBreaker :=
  if breaker.state = .open then
    updateStateStats r breaker.state { breaker with
      state := .halfOpen
      stateChangedAt := r.changed
      consecutiveSuccesses := 0
      halfOpenRequests := 0
      window := breaker.window.reset }
  else breaker

/-- Transition to closed state. -/
def transitionToClosed (r : Readings) (breaker : CircuitBreaker) : CircuitBreaker :=
  if breaker.state = .closed then breaker
  else
    updateStateStats r breaker.state { breaker with
      state := .closed
      stateChangedAt := r.changed
      consecutiveFailures := 0
      consecutiveSuccesses := 0 }

/-- Count a rejected request. -/
def reject (breaker : CircuitBreaker) : CircuitBreaker :=
  { breaker with
    stats := { breaker.stats with rejectedRequests := breaker.stats.rejectedRequests + 1 } }

/-- Check if request should be allowed. -/
def allowRequest (r : Readings) (breaker : CircuitBreaker) : Bool × CircuitBreaker :=
  match breaker.state with
  | .closed => (true, breaker)
  | .open =>
    if breaker.config.timeout ≤ breaker.stateChangedAt.elapsed r.checked then
      (true, breaker.transitionToHalfOpen r)
    else (false, breaker.reject)
  | .halfOpen =>
    -- allow limited requests in half-open state
    if breaker.halfOpenRequests < breaker.config.halfOpenMaxRequests.toUInt64 then
      (true, { breaker with halfOpenRequests := breaker.halfOpenRequests + 1 })
    else (false, breaker.reject)

/-- Check failure rate and potentially open circuit. -/
def checkAndOpenCircuit (r : Readings) (breaker : CircuitBreaker) : CircuitBreaker :=
  if (breaker.config.minRequests.toNat : ℤ) ≤ breaker.window.totalRequests ∧
      breaker.config.failureRateThreshold ≤ breaker.window.failureRate then
    breaker.transitionToOpen r
  else breaker

/-- Count a request and its outcome in the statistics. -/
def countOutcome (success : Bool) (stats : CircuitBreakerStats) : CircuitBreakerStats :=
  let stats := { stats with totalRequests := stats.totalRequests + 1 }
  if success then { stats with successfulRequests := stats.successfulRequests + 1 }
  else { stats with failedRequests := stats.failedRequests + 1 }

/-- Record request outcome. -/
def recordOutcome (r : Readings) (success : Bool) (breaker : CircuitBreaker) : CircuitBreaker :=
  let breaker := { breaker with
    stats := countOutcome success breaker.stats
    window := breaker.window.record r success }
  match breaker.state with
  | .closed =>
    if success then { breaker with consecutiveFailures := 0 }
    else
      let breaker := { breaker with consecutiveFailures := breaker.consecutiveFailures + 1 }
      if breaker.config.failureThreshold.toNat ≤ breaker.consecutiveFailures then
        breaker.checkAndOpenCircuit r
      else breaker
  | .open => breaker
  | .halfOpen =>
    let breaker :=
      if success then
        let breaker := { breaker with consecutiveSuccesses := breaker.consecutiveSuccesses + 1 }
        if breaker.config.successThreshold.toNat ≤ breaker.consecutiveSuccesses then
          breaker.transitionToClosed r
        else breaker
      else breaker.transitionToOpen r
    -- decrement half-open request count
    { breaker with halfOpenRequests := breaker.halfOpenRequests - 1 }

/-- Reset circuit breaker. -/
def reset (r : Readings) (breaker : CircuitBreaker) : CircuitBreaker :=
  { breaker with
    state := .closed
    stateChangedAt := r.changed
    consecutiveFailures := 0
    consecutiveSuccesses := 0
    halfOpenRequests := 0
    window := breaker.window.reset
    stats := .default }

/-! ## What a call can do -/

variable {r : Readings} {breaker : CircuitBreaker}

/-- What letting a request through can do. -/
lemma allowRequest_cases (r : Readings) (breaker : CircuitBreaker) :
    (breaker.state = .closed ∧ breaker.allowRequest r = (true, breaker)) ∨
      (breaker.state = .open ∧
        breaker.config.timeout ≤ breaker.stateChangedAt.elapsed r.checked ∧
        breaker.allowRequest r = (true, breaker.transitionToHalfOpen r)) ∨
      (breaker.state = .open ∧
        breaker.stateChangedAt.elapsed r.checked < breaker.config.timeout ∧
        breaker.allowRequest r = (false, breaker.reject)) ∨
      (breaker.state = .halfOpen ∧
        breaker.halfOpenRequests < breaker.config.halfOpenMaxRequests.toUInt64 ∧
        breaker.allowRequest r =
          (true, { breaker with halfOpenRequests := breaker.halfOpenRequests + 1 })) ∨
      (breaker.state = .halfOpen ∧
        breaker.config.halfOpenMaxRequests.toUInt64 ≤ breaker.halfOpenRequests ∧
        breaker.allowRequest r = (false, breaker.reject)) := by
  unfold allowRequest
  cases hstate : breaker.state with
  | closed => simp
  | «open» =>
    by_cases helapsed : breaker.config.timeout ≤ breaker.stateChangedAt.elapsed r.checked
    · simp [helapsed]
    · simp [helapsed, not_le.mp helapsed]
  | halfOpen =>
    by_cases hmax : breaker.halfOpenRequests < breaker.config.halfOpenMaxRequests.toUInt64
    · simp [hmax]
    · simp [hmax, UInt64.not_lt.mp hmax]

/-- A call that lets a request through while it is open makes the breaker half-open. -/
lemma transitionToHalfOpen_of_open (h : breaker.state = .open) :
    (breaker.transitionToHalfOpen r).state = .halfOpen ∧
      (breaker.transitionToHalfOpen r).halfOpenRequests = 0 ∧
      (breaker.transitionToHalfOpen r).config = breaker.config := by
  rw [transitionToHalfOpen, if_pos h]
  exact ⟨rfl, rfl, rfl⟩

@[simp] lemma transitionToOpen_state : (breaker.transitionToOpen r).state = .open := by
  unfold transitionToOpen
  split_ifs with h
  · exact h
  · rfl

@[simp] lemma transitionToOpen_config :
    (breaker.transitionToOpen r).config = breaker.config := by
  unfold transitionToOpen
  split_ifs <;> rfl

@[simp] lemma transitionToOpen_halfOpenRequests :
    (breaker.transitionToOpen r).halfOpenRequests = breaker.halfOpenRequests := by
  unfold transitionToOpen
  split_ifs <;> rfl

@[simp] lemma transitionToOpen_window :
    (breaker.transitionToOpen r).window = breaker.window := by
  unfold transitionToOpen
  split_ifs <;> rfl

@[simp] lemma transitionToClosed_state : (breaker.transitionToClosed r).state = .closed := by
  unfold transitionToClosed
  split_ifs with h
  · exact h
  · rfl

@[simp] lemma transitionToClosed_config :
    (breaker.transitionToClosed r).config = breaker.config := by
  unfold transitionToClosed
  split_ifs <;> rfl

@[simp] lemma transitionToClosed_halfOpenRequests :
    (breaker.transitionToClosed r).halfOpenRequests = breaker.halfOpenRequests := by
  unfold transitionToClosed
  split_ifs <;> rfl

@[simp] lemma transitionToClosed_window :
    (breaker.transitionToClosed r).window = breaker.window := by
  unfold transitionToClosed
  split_ifs <;> rfl

@[simp] lemma config_checkAndOpenCircuit :
    (breaker.checkAndOpenCircuit r).config = breaker.config := by
  unfold checkAndOpenCircuit
  split_ifs
  · exact transitionToOpen_config
  · rfl

/-- Checking the failure rate leaves the breaker as it is, or opens it. -/
lemma state_checkAndOpenCircuit : (breaker.checkAndOpenCircuit r).state = breaker.state ∨
    (breaker.checkAndOpenCircuit r).state = .open := by
  unfold checkAndOpenCircuit
  split_ifs
  · exact .inr transitionToOpen_state
  · exact .inl rfl

/-- An outcome does not make the breaker half-open. -/
lemma state_recordOutcome_ne {success : Bool} (h : breaker.state ≠ .halfOpen) :
    (breaker.recordOutcome r success).state ≠ .halfOpen := by
  unfold recordOutcome
  cases hstate : breaker.state with
  | closed =>
    cases success with
    | true => simp
    | false =>
      simp only [Bool.false_eq_true, if_false]
      split_ifs with hfailures
      · rcases @state_checkAndOpenCircuit r _ with hcheck | hcheck <;>
          rw [hcheck] <;> simp
      · simp
  | «open» => simp
  | halfOpen => exact absurd hstate h

/-- An outcome while the breaker is half-open takes one from its counter. It leaves the breaker
half-open if it is a success and not enough of them were seen. -/
lemma recordOutcome_halfOpen {success : Bool} (h : breaker.state = .halfOpen) :
    (breaker.recordOutcome r success).halfOpenRequests = breaker.halfOpenRequests - 1 ∧
      ((breaker.recordOutcome r success).state = .halfOpen ↔ success = true ∧
        breaker.consecutiveSuccesses + 1 < breaker.config.successThreshold.toNat) := by
  unfold recordOutcome
  simp only [h]
  cases success with
  | true =>
    simp only [if_true]
    split_ifs with hsuccesses
    · simp [not_lt.mpr hsuccesses]
    · simp [not_le.mp hsuccesses]
  | false => simp

/-- The configuration stays. -/
lemma config_recordOutcome {success : Bool} :
    (breaker.recordOutcome r success).config = breaker.config := by
  unfold recordOutcome
  cases breaker.state with
  | closed =>
    cases success with
    | true => rfl
    | false =>
      simp only [Bool.false_eq_true, if_false]
      split_ifs <;> simp
  | «open» => rfl
  | halfOpen =>
    cases success with
    | true =>
      simp only [if_true]
      split_ifs <;> simp
    | false => simp

/-- Every outcome is recorded in the window, and nothing else changes it. -/
lemma window_recordOutcome {success : Bool} :
    (breaker.recordOutcome r success).window = breaker.window.record r success := by
  unfold recordOutcome
  cases breaker.state with
  | closed =>
    cases success with
    | true => rfl
    | false =>
      simp only [Bool.false_eq_true, if_false, checkAndOpenCircuit]
      split_ifs <;> simp
  | «open» => rfl
  | halfOpen =>
    cases success with
    | true =>
      simp only [if_true]
      split_ifs <;> simp
    | false => simp

/-- The circuit is to be opened at a failure: there are enough failures in a row, and the window
has enough outcomes and failures. -/
def Trips (r : Readings) (breaker : CircuitBreaker) : Prop :=
  let window := breaker.window.record r false
  breaker.config.failureThreshold.toNat ≤ breaker.consecutiveFailures + 1 ∧
    (breaker.config.minRequests.toNat : ℤ) ≤ window.totalRequests ∧
    breaker.config.failureRateThreshold ≤ window.failureRate

/-- A failure opens a closed circuit if it is to be opened. -/
lemma recordOutcome_of_trips (h : breaker.state = .closed) (htrips : breaker.Trips r) :
    (breaker.recordOutcome r false).state = .open := by
  unfold recordOutcome
  simp only [h, Bool.false_eq_true, if_false]
  rw [if_pos htrips.1, checkAndOpenCircuit, if_pos htrips.2]
  exact transitionToOpen_state

/-- Otherwise it is counted. -/
lemma recordOutcome_of_not_trips (h : breaker.state = .closed) (htrips : ¬breaker.Trips r) :
    (breaker.recordOutcome r false).state = .closed ∧
      (breaker.recordOutcome r false).consecutiveFailures = breaker.consecutiveFailures + 1 := by
  unfold recordOutcome
  simp only [h, Bool.false_eq_true, if_false]
  split_ifs with hfailures
  · rw [checkAndOpenCircuit, if_neg fun hwindow => htrips ⟨hfailures, hwindow⟩]
    exact ⟨rfl, rfl⟩
  · exact ⟨rfl, rfl⟩

/-- A success of a closed circuit ends a row of failures. -/
lemma recordOutcome_success_closed (h : breaker.state = .closed) :
    (breaker.recordOutcome r true).state = .closed ∧
      (breaker.recordOutcome r true).consecutiveFailures = 0 := by
  simp [recordOutcome, h]

/-- A circuit that was open stays open. -/
lemma recordOutcome_open {success : Bool} (h : breaker.state = .open) :
    (breaker.recordOutcome r success).state = .open := by
  simp [recordOutcome, h]

/-- A circuit that closes has seen no failure yet. -/
lemma consecutiveFailures_of_closes {success : Bool} (h : breaker.state = .halfOpen)
    (hcloses : (breaker.recordOutcome r success).state = .closed) :
    (breaker.recordOutcome r success).consecutiveFailures = 0 := by
  unfold recordOutcome at hcloses ⊢
  simp only [h] at hcloses ⊢
  cases success with
  | true =>
    simp only [if_true] at hcloses ⊢
    split_ifs at hcloses ⊢ with hsuccesses
    simp [transitionToClosed]
  | false => simp at hcloses

end CircuitBreaker

end QuDAG.Network
