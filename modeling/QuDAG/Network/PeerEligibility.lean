import QuDAG.Network.PeerReputation

/-!
# Which peers are tried (`discovery.rs`)

A discovered peer is tried unless it is blacklisted, its circuit breaker is open, its reputation is
low, its last attempt was too recent, or its quality score is low. The quality score is zero until
an attempt is recorded, and only a recorded attempt changes it; so a peer that was never tried is
not, and waiting helps no peer with a low score. The breaker opens on the number of all attempts,
not on that of failures.

## Main definitions

* `DiscoveredPeer`, with `shouldAttemptConnection`, `recordConnectionAttempt`,
  `updatePerformanceMetrics`, `updateLoadMetrics` and `updateUptime`.
* `Tracked` — a peer, and its failures since the last success.
* `Tracked.Fair` — the peer is tried when it should be.

## Main results

* `Tracked.reached_run` — what holds of every peer.
* `Tracked.fair_never` — no run is fair, and which parts hold where.

## Implementation notes

Scores and averages are rational numbers, and counts natural ones. A peer has no limit of
connections of its own, as it is created.
-/

namespace QuDAG.Network.Discovery

open RustStd

/-! ## The code -/

/-- Circuit breaker state for fault tolerance. -/
inductive CircuitBreakerState
  /-- Circuit is closed (normal operation). -/
  | closed
  /-- Circuit is open (requests blocked). -/
  | «open» (openedAt : Instant) (failureCount : ℕ)
  /-- Circuit is half-open (testing recovery). -/
  | halfOpen (testRequests successfulTests : ℕ)
  deriving DecidableEq

/-- The breaker after a success: half-open, it takes three of them. -/
def CircuitBreakerState.onSuccess : CircuitBreakerState → CircuitBreakerState
  | .halfOpen _ successfulTests =>
    if 3 ≤ successfulTests + 1 then .closed else .halfOpen 0 (successfulTests + 1)
  | _ => .closed

/-- The breaker after a failure, with the number of attempts so far. -/
def CircuitBreakerState.onFailure (attempts : ℕ) (now : Instant) :
    CircuitBreakerState → CircuitBreakerState
  | .closed => if 5 ≤ attempts then .open now attempts else .closed
  | .halfOpen _ _ => .open now attempts
  | .open openedAt failureCount => .open openedAt failureCount

/-- Performance metrics for a peer. -/
structure PeerPerformanceMetrics where
  /-- Average response time, in nanoseconds. -/
  avgResponseTime : ℚ := 0
  /-- Minimum response time. -/
  minResponseTime : Duration := 0
  /-- Maximum response time. -/
  maxResponseTime : Duration := 0
  /-- Error rate (0.0 to 1.0). -/
  errorRate : ℚ := 0

/-- The response times after a successful request. -/
def PeerPerformanceMetrics.measure (responseTime : Duration) (self : PeerPerformanceMetrics) :
    PeerPerformanceMetrics :=
  if self.minResponseTime = 0 then
    { self with
      minResponseTime := responseTime
      maxResponseTime := responseTime
      avgResponseTime := responseTime }
  else
    { self with
      minResponseTime := min self.minResponseTime responseTime
      maxResponseTime := max self.maxResponseTime responseTime
      avgResponseTime := 1 / 10 * responseTime + (1 - 1 / 10) * self.avgResponseTime }

/-- Load balancing metrics for a peer. -/
structure PeerLoadMetrics where
  /-- Current active connections. -/
  activeConnections : ℕ := 0
  /-- Current load score (0.0 to 100.0). -/
  loadScore : ℚ := 0
  /-- Request queue depth. -/
  queueDepth : ℕ := 0
  /-- Weight for weighted algorithms. -/
  weight : ℚ := 0

/-- Connection quality assessment. -/
structure ConnectionQuality where
  /-- Overall quality score (0.0 to 1.0). -/
  overallScore : ℚ := 0
  /-- Reliability score (0.0 to 1.0). -/
  reliabilityScore : ℚ := 0
  /-- Security score (0.0 to 1.0). -/
  securityScore : ℚ := 0
  /-- Last assessment time. -/
  lastAssessed : Option Instant := none

/-- Uptime statistics for a peer. -/
structure UptimeStats where
  /-- Total observed time. -/
  totalObservedTime : Duration := 0
  /-- Total uptime. -/
  totalUptime : Duration := 0
  /-- Uptime percentage. -/
  uptimePercentage : ℚ := 0
  /-- Number of disconnections. -/
  disconnectionCount : ℕ := 0

/-- A discovered peer. -/
structure DiscoveredPeer where
  /-- Peer reputation score. -/
  reputation : ℚ
  /-- Connection attempts. -/
  connectionAttempts : ℕ
  /-- Successful connections. -/
  successfulConnections : ℕ
  /-- Last connection attempt. -/
  lastConnectionAttempt : Option Instant
  /-- Last successful connection. -/
  lastSuccessfulConnection : Option Instant
  /-- Performance metrics. -/
  performanceMetrics : PeerPerformanceMetrics
  /-- Load balancing metrics. -/
  loadMetrics : PeerLoadMetrics
  /-- Connection quality. -/
  connectionQuality : ConnectionQuality
  /-- Blacklist status. -/
  isBlacklisted : Bool
  /-- Uptime statistics. -/
  uptimeStats : UptimeStats
  /-- Circuit breaker state. -/
  circuitBreakerState : CircuitBreakerState

namespace DiscoveredPeer

/-- Create a new discovered peer, with neutral reputation. -/
def new : DiscoveredPeer := ⟨50, 0, 0, none, none, {}, {}, {}, false, {}, .closed⟩

/-- The circuit breaker lets an attempt through: it is closed, was opened a minute ago, or is
half-open with fewer than three test requests. -/
def breakerPermits (now : Instant) (self : DiscoveredPeer) : Bool :=
  match self.circuitBreakerState with
  | .open openedAt _ => decide (60 * 10 ^ 9 ≤ openedAt.elapsed now)
  | .halfOpen testRequests _ => decide (testRequests < 3)
  | .closed => true

/-- The backoff after so many attempts: thirty seconds times their square. -/
def backoffTime (attempts : ℕ) : Duration := attempts ^ 2 * 30 * 10 ^ 9

/-- After more than three attempts, the last one was not too recent. -/
def backoffElapsed (now : Instant) (self : DiscoveredPeer) : Bool :=
  decide (self.connectionAttempts ≤ 3) || self.lastConnectionAttempt.all fun lastAttempt =>
    decide (backoffTime self.connectionAttempts ≤ lastAttempt.elapsed now)

/-- Check if this peer should be attempted for connection with specific config. -/
def shouldAttemptConnectionWithConfig (config : PeerScoringConfig) (now : Instant)
    (self : DiscoveredPeer) : Bool :=
  !self.isBlacklisted && self.breakerPermits now && decide (config.minScore ≤ self.reputation) &&
    self.backoffElapsed now && decide (3 / 10 ≤ self.connectionQuality.overallScore)

/-- Check if this peer should be attempted for connection. -/
def shouldAttemptConnection (now : Instant) (self : DiscoveredPeer) : Bool :=
  self.shouldAttemptConnectionWithConfig .default now

/-- The share of successful attempts. -/
def successRate (self : DiscoveredPeer) : ℚ :=
  if 0 < self.connectionAttempts then
    (self.successfulConnections : ℚ) / (self.connectionAttempts : ℚ)
  else 0

/-- The overall score of a reliability score and the other factors. -/
def overallScoreOf (reliability : ℚ) (self : DiscoveredPeer) : ℚ :=
  let performanceFactor := 1 - self.performanceMetrics.errorRate * (1 / 2)
  let availabilityFactor := self.uptimeStats.uptimePercentage / 100
  reliability * (4 / 10) + performanceFactor * (3 / 10) + availabilityFactor * (2 / 10) +
    self.connectionQuality.securityScore * (1 / 10)

/-- Update connection quality metrics. -/
def updateConnectionQuality (now : Instant) (self : DiscoveredPeer) : DiscoveredPeer :=
  { self with
    connectionQuality := { self.connectionQuality with
      reliabilityScore := self.successRate
      overallScore := max 0 (min 1 (self.overallScoreOf self.successRate))
      lastAssessed := some now } }

/-- Record a successful attempt. -/
def recordSuccess (config : PeerScoringConfig) (now : Instant) (self : DiscoveredPeer) :
    DiscoveredPeer :=
  updateConnectionQuality now { self with
    connectionAttempts := self.connectionAttempts + 1
    lastConnectionAttempt := some now
    successfulConnections := self.successfulConnections + 1
    lastSuccessfulConnection := some now
    reputation := min (self.reputation + config.connectionSuccessBonus) config.maxScore
    circuitBreakerState := self.circuitBreakerState.onSuccess }

/-- Record a failed attempt. -/
def recordFailure (config : PeerScoringConfig) (now : Instant) (self : DiscoveredPeer) :
    DiscoveredPeer :=
  updateConnectionQuality now { self with
    connectionAttempts := self.connectionAttempts + 1
    lastConnectionAttempt := some now
    reputation := max (self.reputation - config.connectionFailurePenalty) config.minScore
    circuitBreakerState :=
      self.circuitBreakerState.onFailure (self.connectionAttempts + 1) now }

/-- Record a connection attempt. -/
def recordConnectionAttempt (config : PeerScoringConfig) (success : Bool) (now : Instant)
    (self : DiscoveredPeer) : DiscoveredPeer :=
  if success then self.recordSuccess config now else self.recordFailure config now

/-- Update performance metrics with new measurement. -/
def updatePerformanceMetrics (responseTime : Duration) (success : Bool) (self : DiscoveredPeer) :
    DiscoveredPeer :=
  let metrics := if success then
      self.performanceMetrics.measure responseTime
    else self.performanceMetrics
  let failedRequests := self.connectionAttempts - self.successfulConnections
  { self with
    performanceMetrics := { metrics with
      errorRate :=
        if 0 < self.connectionAttempts then (failedRequests : ℚ) / (self.connectionAttempts : ℚ)
        else 0 } }

/-- Update load metrics. -/
def updateLoadMetrics (activeConnections queueDepth : ℕ) (self : DiscoveredPeer) :
    DiscoveredPeer :=
  let connectionFactor : ℚ := activeConnections / 100
  let queueFactor : ℚ := queueDepth / 50
  let loadScore := max 0 (min 100 ((connectionFactor + queueFactor) * 50))
  { self with loadMetrics := ⟨activeConnections, loadScore, queueDepth, max (100 - loadScore) 1⟩ }

/-- Update uptime statistics. -/
def updateUptime (isOnline : Bool) (duration : Duration) (self : DiscoveredPeer) :
    DiscoveredPeer :=
  let observed := self.uptimeStats.totalObservedTime + duration
  let uptime :=
    if isOnline then self.uptimeStats.totalUptime + duration else self.uptimeStats.totalUptime
  { self with
    uptimeStats :=
      { totalObservedTime := observed
        totalUptime := uptime
        uptimePercentage :=
          if 0 < observed then (uptime : ℚ) / (observed : ℚ) * 100
          else self.uptimeStats.uptimePercentage
        disconnectionCount :=
          if isOnline then self.uptimeStats.disconnectionCount
          else self.uptimeStats.disconnectionCount + 1 } }

end DiscoveredPeer

/-! ## Histories -/

/-- A call on a peer. -/
inductive PeerCall
  | connectionAttempt (success : Bool) (now : Instant)
  | performance (responseTime : Duration) (success : Bool)
  | load (activeConnections queueDepth : ℕ)
  | uptime (isOnline : Bool) (duration : Duration)

/-- A peer, and how many attempts have failed since the last success. -/
structure Tracked where
  peer : DiscoveredPeer
  failures : ℕ

namespace Tracked

open DiscoveredPeer

/-- A new peer. -/
def start : Tracked := ⟨.new, 0⟩

/-- Make a call, with the default configuration. -/
def apply (s : Tracked) : PeerCall → Tracked
  | .connectionAttempt success now =>
    ⟨s.peer.recordConnectionAttempt .default success now, if success then 0 else s.failures + 1⟩
  | .performance responseTime success =>
    { s with peer := s.peer.updatePerformanceMetrics responseTime success }
  | .load activeConnections queueDepth =>
    { s with peer := s.peer.updateLoadMetrics activeConnections queueDepth }
  | .uptime isOnline duration => { s with peer := s.peer.updateUptime isOnline duration }

/-- A peer that was never tried is tried. -/
def FreshEligible (s : Tracked) (now : Instant) : Prop :=
  s.peer.connectionAttempts = 0 → s.peer.shouldAttemptConnection now = true

/-- A failed attempt does not make a peer eligible at the same instant. -/
def FailureKeeps (s : Tracked) (now : Instant) : Prop :=
  s.peer.shouldAttemptConnection now = false →
    (s.apply (.connectionAttempt false now)).peer.shouldAttemptConnection now = false

/-- The breaker leaves the closed state only after five failures since the last success. -/
def OpensRightly (s : Tracked) : Prop :=
  s.peer.circuitBreakerState = .closed → ∀ call,
    (s.apply call).peer.circuitBreakerState ≠ .closed → 5 ≤ (s.apply call).failures

/-- After some waiting time the peer is eligible, and stays so. -/
def Recovers (s : Tracked) (now : Instant) : Prop :=
  ∃ wait, ∀ later, wait ≤ later → s.peer.shouldAttemptConnection (now + later) = true

/-- The peer is tried when it should be. -/
structure Fair (s : Tracked) (now : Instant) : Prop where
  fresh : s.FreshEligible now
  failure : s.FailureKeeps now
  breaker : s.OpensRightly
  recovers : s.Recovers now

/-! ## What holds of every peer -/

/-- What holds of every peer that calls lead to. -/
structure Reached (s : Tracked) : Prop where
  notBlacklisted : s.peer.isBlacklisted = false
  reputation : -50 ≤ s.peer.reputation
  fresh : s.peer.connectionAttempts = 0 → s.peer.connectionQuality.overallScore = 0
  breaker : s.peer.circuitBreakerState = .closed ∨
    5 ≤ s.peer.connectionAttempts ∧
      ∃ openedAt failureCount, s.peer.circuitBreakerState = .open openedAt failureCount

lemma reached_start : Reached start := by
  refine ⟨rfl, ?_, fun _ => rfl, .inl rfl⟩
  show (-50 : ℚ) ≤ 50
  norm_num

/-- A success closes a breaker that is not half-open. -/
lemma reached_success {s : Tracked} (h : Reached s) (now : Instant) :
    Reached (s.apply (.connectionAttempt true now)) where
  notBlacklisted := h.notBlacklisted
  reputation := by
    show -50 ≤ min (s.peer.reputation + 5) 100
    exact le_min (by linarith [h.reputation]) (by norm_num)
  fresh hzero := absurd hzero (Nat.succ_ne_zero _)
  breaker := by
    left
    show s.peer.circuitBreakerState.onSuccess = .closed
    rcases h.breaker with hclosed | ⟨-, openedAt, failureCount, hopen⟩
    · rw [hclosed]
      rfl
    · rw [hopen]
      rfl

/-- A failure opens the breaker only from the fifth attempt on. -/
lemma reached_failure {s : Tracked} (h : Reached s) (now : Instant) :
    Reached (s.apply (.connectionAttempt false now)) where
  notBlacklisted := h.notBlacklisted
  reputation := le_max_right _ _
  fresh hzero := absurd hzero (Nat.succ_ne_zero _)
  breaker := by
    show s.peer.circuitBreakerState.onFailure (s.peer.connectionAttempts + 1) now = .closed ∨
      5 ≤ s.peer.connectionAttempts + 1 ∧ ∃ openedAt failureCount,
        s.peer.circuitBreakerState.onFailure (s.peer.connectionAttempts + 1) now =
          .open openedAt failureCount
    rcases h.breaker with hclosed | ⟨hfive, openedAt, failureCount, hopen⟩
    · rw [hclosed, CircuitBreakerState.onFailure]
      split_ifs with hfive
      · exact .inr ⟨hfive, _, _, rfl⟩
      · exact .inl rfl
    · rw [hopen]
      exact .inr ⟨by omega, _, _, rfl⟩

lemma reached_apply {s : Tracked} (h : Reached s) (call : PeerCall) : Reached (s.apply call) := by
  cases call with
  | connectionAttempt success now =>
    cases success with
    | true => exact reached_success h now
    | false => exact reached_failure h now
  | performance responseTime success => exact ⟨h.notBlacklisted, h.reputation, h.fresh, h.breaker⟩
  | load activeConnections queueDepth => exact ⟨h.notBlacklisted, h.reputation, h.fresh, h.breaker⟩
  | uptime isOnline duration => exact ⟨h.notBlacklisted, h.reputation, h.fresh, h.breaker⟩

/-- It holds after every run. -/
theorem reached_run (calls : List PeerCall) : Reached (Runs.run apply start calls) :=
  Runs.run_invariant Reached (fun _ call h => reached_apply h call) reached_start

/-! ## The parts -/

variable {s : Tracked} (h : Reached s) (now : Instant)

include h

/-- What is left of the checks. -/
lemma shouldAttempt_iff :
    s.peer.shouldAttemptConnection now = true ↔
      s.peer.breakerPermits now = true ∧ s.peer.backoffElapsed now = true ∧
        3 / 10 ≤ s.peer.connectionQuality.overallScore := by
  have hreputation : PeerScoringConfig.default.minScore ≤ s.peer.reputation := h.reputation
  simp only [shouldAttemptConnection, shouldAttemptConnectionWithConfig, h.notBlacklisted,
    hreputation, decide_true, Bool.not_false, Bool.true_and, Bool.and_true, Bool.and_eq_true,
    decide_eq_true_eq, and_assoc]

/-- After at most three attempts only the quality score counts. -/
lemma shouldAttempt_iff_of_le (hthree : s.peer.connectionAttempts ≤ 3) :
    s.peer.shouldAttemptConnection now = true ↔
      3 / 10 ≤ s.peer.connectionQuality.overallScore := by
  have hclosed : s.peer.circuitBreakerState = .closed := by
    rcases h.breaker with hclosed | ⟨hfive, -⟩
    · exact hclosed
    · omega
  rw [shouldAttempt_iff h, breakerPermits, hclosed, backoffElapsed, decide_eq_true hthree]
  simp

lemma freshEligible_iff : s.FreshEligible now ↔ s.peer.connectionAttempts ≠ 0 := by
  constructor
  · intro hfresh hzero
    have heligible := hfresh hzero
    rw [shouldAttempt_iff_of_le h now (by omega), h.fresh hzero] at heligible
    norm_num at heligible
  · exact fun hne hzero => absurd hzero hne

omit h in
/-- The quality score after a failed attempt. -/
lemma overallScore_failure :
    3 / 10 ≤ (s.apply (.connectionAttempt false now)).peer.connectionQuality.overallScore ↔
      3 / 10 ≤ s.peer.overallScoreOf
        ((s.peer.successfulConnections : ℚ) / ((s.peer.connectionAttempts + 1 : ℕ) : ℚ)) := by
  have hscore : (s.apply (.connectionAttempt false now)).peer.connectionQuality.overallScore =
      max 0 (min 1 (s.peer.overallScoreOf
        ((s.peer.successfulConnections : ℚ) / ((s.peer.connectionAttempts + 1 : ℕ) : ℚ)))) := by
    have hrate : (if 0 < s.peer.connectionAttempts + 1 then
        (s.peer.successfulConnections : ℚ) / ((s.peer.connectionAttempts + 1 : ℕ) : ℚ) else 0) =
          (s.peer.successfulConnections : ℚ) / ((s.peer.connectionAttempts + 1 : ℕ) : ℚ) :=
      if_pos (Nat.succ_pos _)
    rw [← hrate]
    rfl
  rw [hscore, le_max_iff, le_min_iff]
  constructor
  · rintro (hzero | ⟨-, hle⟩)
    · norm_num at hzero
    · exact hle
  · exact fun hle => .inr ⟨by norm_num, hle⟩

omit h in
/-- There is some backoff after an attempt. -/
lemma backoffTime_pos (attempts : ℕ) : 0 < backoffTime (attempts + 1) :=
  Nat.mul_pos (Nat.mul_pos (Nat.pow_pos (Nat.succ_pos attempts)) (by norm_num)) (by norm_num)

/-- A failed attempt makes a peer eligible iff it is one of the first three, and raises the score
over the threshold. -/
lemma failureKeeps_iff :
    s.FailureKeeps now ↔
      ¬(s.peer.connectionAttempts ≤ 2 ∧ s.peer.connectionQuality.overallScore < 3 / 10 ∧
        3 / 10 ≤ s.peer.overallScoreOf
          ((s.peer.successfulConnections : ℚ) / ((s.peer.connectionAttempts + 1 : ℕ) : ℚ))) := by
  have hafter := reached_apply h (.connectionAttempt false now)
  have hattempts : (s.apply (.connectionAttempt false now)).peer.connectionAttempts =
    s.peer.connectionAttempts + 1 := rfl
  rw [FailureKeeps, ← Bool.not_eq_true, ← Bool.not_eq_true]
  by_cases htwo : s.peer.connectionAttempts ≤ 2
  · rw [shouldAttempt_iff_of_le h now (by omega),
      shouldAttempt_iff_of_le hafter now (by rw [hattempts]; omega), overallScore_failure, not_le]
    exact ⟨fun hkeeps hbad => hkeeps hbad.2.1 hbad.2.2, fun hgood hlow hhigh =>
      hgood ⟨htwo, hlow, hhigh⟩⟩
  · -- the attempt itself is too recent
    have hlast : (s.apply (.connectionAttempt false now)).peer.lastConnectionAttempt = some now :=
      rfl
    have hbackoff : ¬(s.apply (.connectionAttempt false now)).peer.backoffElapsed now = true := by
      rw [backoffElapsed, hattempts, hlast, decide_eq_false (by omega), Bool.false_or,
        Option.all_some, decide_eq_true_eq, Instant.elapsed, Nat.sub_self, not_le]
      exact backoffTime_pos s.peer.connectionAttempts
    refine ⟨fun _ hbad => htwo hbad.1, fun _ _ heligible => ?_⟩
    exact hbackoff ((shouldAttempt_iff hafter now).mp heligible).2.1

omit h in
/-- The breaker leaves the closed state with the fifth attempt that fails, or a later one. -/
lemma leaves_closed_iff (hclosed : s.peer.circuitBreakerState = .closed) (call : PeerCall) :
    (s.apply call).peer.circuitBreakerState ≠ .closed ↔
      4 ≤ s.peer.connectionAttempts ∧ ∃ now, call = .connectionAttempt false now := by
  cases call with
  | connectionAttempt success at' =>
    cases success with
    | true =>
      have hstays : (s.apply (.connectionAttempt true at')).peer.circuitBreakerState = .closed := by
        show s.peer.circuitBreakerState.onSuccess = .closed
        rw [hclosed]
        rfl
      exact ⟨fun hne => absurd hstays hne, fun ⟨_, _, heq⟩ => (nomatch heq)⟩
    | false =>
      show s.peer.circuitBreakerState.onFailure (s.peer.connectionAttempts + 1) at' ≠ .closed ↔ _
      rw [hclosed, CircuitBreakerState.onFailure]
      split_ifs with hfive
      · exact ⟨fun _ => ⟨by omega, at', rfl⟩, fun _ => nofun⟩
      · exact ⟨fun hne => absurd rfl hne, fun hfour => absurd hfour.1 (by omega)⟩
  | performance responseTime success =>
    exact ⟨fun hne => absurd hclosed hne, fun ⟨_, _, heq⟩ => (nomatch heq)⟩
  | load activeConnections queueDepth =>
    exact ⟨fun hne => absurd hclosed hne, fun ⟨_, _, heq⟩ => (nomatch heq)⟩
  | uptime isOnline duration =>
    exact ⟨fun hne => absurd hclosed hne, fun ⟨_, _, heq⟩ => (nomatch heq)⟩

omit h in
lemma opensRightly_iff :
    s.OpensRightly ↔
      (s.peer.circuitBreakerState = .closed → 4 ≤ s.peer.connectionAttempts → 4 ≤ s.failures) := by
  refine forall_congr' fun hclosed => ?_
  constructor
  · intro hopens hfour
    have hfive := hopens (.connectionAttempt false 0)
      ((leaves_closed_iff hclosed _).mpr ⟨hfour, 0, rfl⟩)
    exact Nat.le_of_succ_le_succ hfive
  · intro hfour call hleaves
    obtain ⟨hattempts, now, rfl⟩ := (leaves_closed_iff hclosed call).mp hleaves
    exact Nat.succ_le_succ (hfour hattempts)

omit h in
/-- An instant that is late enough. -/
lemma le_elapsed {begun span bound later : ℕ} (hspan : span ≤ bound)
    (hlater : begun + bound ≤ later) (now : ℕ) : span ≤ Instant.elapsed begun (now + later) := by
  rw [Instant.elapsed]
  omega

/-- After the minute of the breaker and the backoff, the quality score alone counts. -/
lemma recovers_iff : s.Recovers now ↔ 3 / 10 ≤ s.peer.connectionQuality.overallScore := by
  constructor
  · rintro ⟨wait, hwait⟩
    exact ((shouldAttempt_iff h _).mp (hwait wait le_rfl)).2.2
  · intro hscore
    have hlate : ∀ start : Instant, ∃ wait, ∀ later, wait ≤ later →
        ∀ span ≤ 60 * 10 ^ 9 + backoffTime s.peer.connectionAttempts,
          span ≤ start.elapsed (now + later) := fun start =>
      ⟨start + (60 * 10 ^ 9 + backoffTime s.peer.connectionAttempts), fun later hlater span hspan =>
        le_elapsed hspan hlater now⟩
    have hbreaker : ∃ wait, ∀ later, wait ≤ later →
        s.peer.breakerPermits (now + later) = true := by
      rcases h.breaker with hclosed | ⟨-, openedAt, failureCount, hopen⟩
      · exact ⟨0, fun _ _ => by rw [breakerPermits, hclosed]⟩
      · obtain ⟨wait, hwait⟩ := hlate openedAt
        refine ⟨wait, fun later hlater => ?_⟩
        rw [breakerPermits, hopen]
        exact decide_eq_true (hwait later hlater _ (Nat.le_add_right _ _))
    have hbackoff : ∃ wait, ∀ later, wait ≤ later →
        s.peer.backoffElapsed (now + later) = true := by
      cases hlast : s.peer.lastConnectionAttempt with
      | none => exact ⟨0, fun _ _ => by rw [backoffElapsed, hlast, Option.all_none, Bool.or_true]⟩
      | some last =>
        obtain ⟨wait, hwait⟩ := hlate last
        refine ⟨wait, fun later hlater => ?_⟩
        rw [backoffElapsed, hlast, Option.all_some,
          decide_eq_true (hwait later hlater _ (Nat.le_add_left _ _)), Bool.or_true]
    obtain ⟨wait, hwait⟩ := hbreaker
    obtain ⟨wait', hwait'⟩ := hbackoff
    refine ⟨max wait wait', fun later hlater => (shouldAttempt_iff h _).mpr
      ⟨hwait later ((le_max_left _ _).trans hlater), hwait' later ((le_max_right _ _).trans hlater),
        hscore⟩⟩

omit h

/-! ## Runs -/

/-- A new peer is not tried, at whatever instant. -/
lemma not_freshEligible_start : ¬start.FreshEligible now :=
  fun hfresh => (freshEligible_iff reached_start now).mp hfresh rfl

/-- **No run is fair**, since it begins with a peer that was never tried and is not. In every state
of every run, the first part holds iff the peer was tried, a failed attempt does not help a peer iff
it does not raise the score of a peer with at most two attempts over the threshold, the breaker
opens rightly iff four failures follow on each other when there are four attempts, and waiting helps
iff the score is at least the threshold. -/
theorem fair_never (calls : List PeerCall) (now : Instant) :
    ¬(∀ pre, pre <+: calls → (Runs.run apply start pre).Fair now) ∧
      ((Runs.run apply start calls).FreshEligible now ↔
        (Runs.run apply start calls).peer.connectionAttempts ≠ 0) ∧
      ((Runs.run apply start calls).FailureKeeps now ↔
        ¬((Runs.run apply start calls).peer.connectionAttempts ≤ 2 ∧
          (Runs.run apply start calls).peer.connectionQuality.overallScore < 3 / 10 ∧
          3 / 10 ≤ (Runs.run apply start calls).peer.overallScoreOf
            (((Runs.run apply start calls).peer.successfulConnections : ℚ) /
              (((Runs.run apply start calls).peer.connectionAttempts + 1 : ℕ) : ℚ)))) ∧
      ((Runs.run apply start calls).OpensRightly ↔
        ((Runs.run apply start calls).peer.circuitBreakerState = .closed →
          4 ≤ (Runs.run apply start calls).peer.connectionAttempts →
          4 ≤ (Runs.run apply start calls).failures)) ∧
      ((Runs.run apply start calls).Recovers now ↔
        3 / 10 ≤ (Runs.run apply start calls).peer.connectionQuality.overallScore) := by
  have hreached := reached_run calls
  exact ⟨fun hall => not_freshEligible_start now (hall [] List.nil_prefix).fresh,
    freshEligible_iff hreached now, failureKeeps_iff hreached now, opensRightly_iff,
    recovers_iff hreached now⟩

/-! ## A run with all four faults -/

/-- A new peer is not tried and waiting does not help it, one failed attempt makes it eligible, and
after four successes one failure opens the breaker. -/
theorem not_eligible_sample :
    ¬start.FreshEligible 0 ∧ ¬start.Recovers 0 ∧ ¬start.FailureKeeps 0 ∧
      ¬(Runs.run apply start (List.replicate 4 (.connectionAttempt true 0))).OpensRightly := by
  refine ⟨not_freshEligible_start 0, fun hrecovers => ?_, fun hkeeps => ?_, fun hopens => ?_⟩
  · exact absurd ((recovers_iff reached_start 0).mp hrecovers) (by decide +kernel)
  · exact (failureKeeps_iff reached_start 0).mp hkeeps
      ⟨by decide, by decide +kernel, by decide +kernel⟩
  · exact absurd (opensRightly_iff.mp hopens (by decide +kernel) (by decide +kernel))
      (by decide +kernel)

end Tracked

end QuDAG.Network.Discovery
