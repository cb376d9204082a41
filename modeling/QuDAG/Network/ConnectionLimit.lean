import QuDAG.Network.MultiPath
import QuDAG.Network.SecureChannel

/-!
# The connection limit (`connection.rs`)

A connection manager looks at its limit when it makes a new connection. It does not when it takes a
connection back from the pool, or when it is told the status of a peer that it is not connected to.
Each of these can lead to one connection too many.

## Main definitions

* `ConnectionInfo`, `CircuitBreaker` — what is known of a connection, and of the failures of a peer.
* `ConnectionManager`, with `connect`, `recoverConnection`, `disconnect` and
  `updateStatusWithMetrics`.
* `WithinLimit` — there are at most as many connections as allowed.
* `Careful` — a step adds a connection without a look at the limit only where there is room.

## Main results

* `withinLimit_iff_careful` — the runs that stay within the limit.

## Implementation notes

How floating-point numbers are rounded is left open. Making a connection is simulated by the source;
whether it succeeds is drawn. A stale connection is removed from the pool while a reference to it is
held; whether the map lets this through is left open (`reentrant`), and otherwise the call never
returns. The caches of quality scores and of metrics are only written and left out. The counts of
operations do not overflow.
-/

namespace QuDAG.Network.Managed

open RustStd QuDAG.Network.Routing

/-! ## Connections -/

/-- Cutting a floating-point number off to 64 bits. -/
class F64Truncate (F : Type) extends F64 F where
  truncate : F → UInt64

/-- Connection status. -/
inductive ConnectionStatus
  /-- Connection is being established. -/
  | connecting
  /-- Connection is active. -/
  | connected
  /-- Connection is being closed. -/
  | disconnecting
  /-- Connection is closed. -/
  | disconnected
  /-- Connection failed. -/
  | failed (reason : String)

/-- The connection is active. -/
def ConnectionStatus.isConnected : ConnectionStatus → Bool
  | .connected => true
  | _ => false

/-- Extended connection information with health and performance metrics. -/
structure ConnectionInfo (F : Type) where
  /-- Connection status. -/
  status : ConnectionStatus
  /-- Last activity timestamp. -/
  lastActivity : Instant
  /-- Number of successful operations. -/
  successCount : ℕ
  /-- Number of failed operations. -/
  failureCount : ℕ
  /-- Average response time. -/
  avgResponseTime : Duration
  /-- Connection quality score (0.0 to 1.0). -/
  qualityScore : F
  /-- Bandwidth utilization. -/
  bandwidthUsage : UInt64

namespace ConnectionInfo

variable {F : Type} [F64Truncate F]

open F64 (lit)

/-- Create new connection info. -/
def new (status : ConnectionStatus) (now : Instant) : ConnectionInfo F :=
  ⟨status, now, 0, 0, 0, lit 1, 0⟩

/-- The whole milliseconds of a duration. -/
def millis (d : Duration) : F := lit ((d / 10 ^ 6 : ℕ) : ℚ)

/-- Update connection quality score. -/
def updateQualityScore (self : ConnectionInfo F) : ConnectionInfo F :=
  let totalOps := self.successCount + self.failureCount
  if totalOps = 0 then { self with qualityScore := lit 1 }
  else
    let successRate := F64.div (lit (self.successCount : ℚ)) (lit (totalOps : ℚ))
    -- Penalty for high response times (above 100ms)
    let responsePenalty : F :=
      if 100 < self.avgResponseTime / 10 ^ 6 then
        F64.mul (lit (1 / 5)) (F64.div (millis self.avgResponseTime) (lit 1000))
      else lit 0
    let score := F64.sub successRate responsePenalty
    { self with
      qualityScore :=
        if F64.lt score (lit 0) then lit 0 else if F64.lt (lit 1) score then lit 1 else score }

/-- Update connection activity and performance metrics. In a build with overflow checks the bytes
may not be counted; the call then ends there. -/
def updateActivity (checks : Bool) (success : Bool) (responseTime : Duration)
    (bytesTransferred : UInt64) (now : Instant) (self : ConnectionInfo F) :
    Bool × ConnectionInfo F :=
  match addU64 checks self.bandwidthUsage bytesTransferred with
  | none => (false, { self with lastActivity := now })
  | some usage =>
    let updated : F := F64.add (F64.mul (lit (1 / 10)) (millis responseTime))
      (F64.mul (F64.sub (lit 1) (lit (1 / 10))) (millis self.avgResponseTime))
    (true, updateQualityScore { self with
      lastActivity := now
      bandwidthUsage := usage
      successCount := if success then self.successCount + 1 else self.successCount
      failureCount := if success then self.failureCount else self.failureCount + 1
      avgResponseTime := (F64Truncate.truncate updated).toNat * 10 ^ 6 })

/-- Check if connection is healthy. -/
def isHealthy (now : Instant) (self : ConnectionInfo F) : Bool :=
  F64.lt (lit (1 / 2)) self.qualityScore &&
    decide (Instant.elapsed self.lastActivity now < 300 * 10 ^ 9)

end ConnectionInfo

/-! ## Circuit breakers -/

/-- Circuit breaker states. -/
inductive CircuitBreakerState
  /-- Circuit is closed, allowing requests. -/
  | closed
  /-- Circuit is open, blocking requests. -/
  | «open»
  /-- Circuit is half-open, testing if service is recovered. -/
  | halfOpen

/-- Circuit breaker for managing failing connections. -/
structure CircuitBreaker where
  /-- Current state of the circuit breaker. -/
  state : CircuitBreakerState
  /-- Failure threshold to open circuit. -/
  failureThreshold : ℕ
  /-- Current failure count. -/
  failureCount : ℕ
  /-- Time when circuit was opened. -/
  openedAt : Option Instant
  /-- Timeout before attempting to close circuit. -/
  timeout : Duration
  /-- Success threshold to close circuit. -/
  successThreshold : ℕ
  /-- Current success count in half-open state. -/
  successCount : ℕ

namespace CircuitBreaker

/-- A closed circuit breaker. -/
def default : CircuitBreaker := ⟨.closed, 5, 0, none, 60 * 10 ^ 9, 3, 0⟩

/-- Check if requests should be allowed through. -/
def allowRequest (now : Instant) (self : CircuitBreaker) : Bool × CircuitBreaker :=
  match self.state with
  | .closed => (true, self)
  | .halfOpen => (true, self)
  | .open =>
    match self.openedAt with
    | none => (false, self)
    | some openedAt =>
      if self.timeout ≤ Instant.elapsed openedAt now then
        (true, { self with state := .halfOpen, successCount := 0 })
      else (false, self)

/-- Record the result of an operation. -/
def recordResult (success : Bool) (now : Instant) (self : CircuitBreaker) : CircuitBreaker :=
  match self.state with
  | .closed =>
    if success then { self with failureCount := 0 }
    else if self.failureThreshold ≤ self.failureCount + 1 then
      { self with failureCount := self.failureCount + 1, state := .open, openedAt := some now }
    else { self with failureCount := self.failureCount + 1 }
  | .halfOpen =>
    if success then
      if self.successThreshold ≤ self.successCount + 1 then
        { self with successCount := self.successCount + 1, state := .closed, failureCount := 0 }
      else { self with successCount := self.successCount + 1 }
    else
      { self with state := .open, openedAt := some now, failureCount := self.failureCount + 1 }
  | .open => self

end CircuitBreaker

/-! ## The manager -/

/-- High-performance connection manager with pooling, metrics tracking and back pressure
handling. -/
structure ConnectionManager (F Peer : Type) where
  /-- Maximum concurrent connections. -/
  maxConnections : ℕ
  /-- Active connections. -/
  connections : HashMap Peer (ConnectionInfo F)
  /-- Connection pool for reuse with TTL tracking. -/
  connectionPool : HashMap Peer (ConnectionInfo F × Instant)
  /-- Idle connection timeout. -/
  poolTimeout : Duration
  /-- Circuit breaker for failing connections. -/
  circuitBreakers : HashMap Peer CircuitBreaker

/-- What an attempt to connect reads from the clock, and how it ends. -/
structure Attempt where
  /-- When the circuit breaker is asked. -/
  asked : Instant
  /-- When the age of the pooled connection is looked at, and when its health is. -/
  looked : Instant
  checked : Instant
  /-- When the connection is begun, and when it is made or has failed. -/
  started : Instant
  ended : Instant
  /-- When the activity is noted, and the result. -/
  noted : Instant
  recorded : Instant
  /-- How long it took. -/
  connectionTime : Duration
  /-- Whether it was made. -/
  success : Bool

namespace ConnectionManager

variable {F Peer : Type} [F64Truncate F] [DecidableEq Peer]

/-- Creates a new connection manager with a custom pool timeout. -/
def withPoolTimeout (maxConnections : ℕ) (poolTimeout : Duration) : ConnectionManager F Peer :=
  ⟨maxConnections, ∅, ∅, poolTimeout, ∅⟩

/-- The circuit breaker of a peer, where there is one, lets a request through. -/
def allowRequest (peer : Peer) (now : Instant) (self : ConnectionManager F Peer) :
    Bool × ConnectionManager F Peer :=
  match self.circuitBreakers.lookup peer with
  | none => (true, self)
  | some breaker =>
    ((breaker.allowRequest now).1,
      { self with
        circuitBreakers := self.circuitBreakers.insert peer (breaker.allowRequest now).2 })

/-- Record a result with the circuit breaker of a peer, where there is one. -/
def recordResult (peer : Peer) (success : Bool) (now : Instant) (self : ConnectionManager F Peer) :
    ConnectionManager F Peer :=
  match self.circuitBreakers.lookup peer with
  | none => self
  | some breaker =>
    { self with
      circuitBreakers := self.circuitBreakers.insert peer (breaker.recordResult success now) }

/-- Make a new connection, within the limit. -/
def connectNew (checks : Bool) (peer : Peer) (attempt : Attempt)
    (self : ConnectionManager F Peer) :
    Except ConnectionFault Unit × ConnectionManager F Peer :=
  if self.maxConnections ≤ self.connections.keys.card then
    (.error (.connectionError "Max connections reached"), self)
  else
    let connecting := self.connections.insert peer (.new .connecting attempt.started)
    let breaker := (self.circuitBreakers.lookup peer).getD .default
    let breakers :=
      self.circuitBreakers.insert peer (breaker.recordResult attempt.success attempt.recorded)
    if attempt.success then
      let connected := (ConnectionInfo.new .connected attempt.ended).updateActivity checks true
        attempt.connectionTime 0 attempt.noted
      (.ok (), { self with
        connections := connecting.insert peer connected.2
        circuitBreakers := breakers })
    else
      (.error (.connectionError "Failed to establish connection"), { self with
        connections := connecting.insert peer (.new (.failed "Connection timeout") attempt.ended)
        circuitBreakers := breakers })

/-- Initiates a connection to a peer with automatic pooling and reuse. There is no result if it
waits for ever. -/
def connect (checks reentrant : Bool) (peer : Peer) (attempt : Attempt)
    (self : ConnectionManager F Peer) :
    Option (Except ConnectionFault Unit) × ConnectionManager F Peer :=
  let asked := self.allowRequest peer attempt.asked
  if asked.1 = false then
    (some (.error (.connectionError "Circuit breaker is open for this peer")), asked.2)
  else
    match asked.2.connectionPool.lookup peer with
    | none => ((asked.2.connectNew checks peer attempt).map some id)
    | some (info, lastUsed) =>
      if Instant.elapsed lastUsed attempt.looked < asked.2.poolTimeout ∧
          info.isHealthy attempt.checked = true then
        (some (.ok ()), recordResult peer true attempt.recorded
          { asked.2 with connections := asked.2.connections.insert peer info })
      else if reentrant then
        (connectNew checks peer attempt
          { asked.2 with connectionPool := asked.2.connectionPool.erase peer }).map some id
      else (none, asked.2)

/-- Attempt a reconnection, at most so many times. -/
def reconnect (checks reentrant : Bool) (peer : Peer) :
    ℕ → (ℕ → Attempt) → ConnectionManager F Peer →
      Option (Except ConnectionFault Unit) × ConnectionManager F Peer
  | 0, _, self => (some (.error (.connectionError "Recovery failed after 5 attempts")), self)
  | retries + 1, attempts, self =>
    match self.connect checks reentrant peer (attempts 0) with
    | (some (.error _), self') =>
      reconnect checks reentrant peer retries (fun i => attempts (i + 1)) self'
    | result => result

/-- Recovers from connection failures by attempting reconnection. -/
def recoverConnection (checks reentrant : Bool) (peer : Peer) (attempts : ℕ → Attempt)
    (self : ConnectionManager F Peer) :
    Option (Except ConnectionFault Unit) × ConnectionManager F Peer :=
  reconnect checks reentrant peer 5 attempts
    { self with
      connections := self.connections.erase peer
      connectionPool := self.connectionPool.erase peer }

/-- Updates connection status with detailed performance metrics. -/
def updateStatusWithMetrics (checks : Bool) (peer : Peer) (status : ConnectionStatus)
    (responseTime : Option Duration) (bytesTransferred : UInt64)
    (created noted recorded : Instant) (self : ConnectionManager F Peer) :
    ConnectionManager F Peer :=
  match self.connections.lookup peer with
  | some info =>
    let updated := { info with status := status }
    match responseTime with
    | none => { self with connections := self.connections.insert peer updated }
    | some rt =>
      let (counted, active) :=
        updated.updateActivity checks status.isConnected rt bytesTransferred noted
      let self' := { self with connections := self.connections.insert peer active }
      if counted then self'.recordResult peer status.isConnected recorded else self'
  | none =>
    let info := ConnectionInfo.new status created
    match responseTime with
    | none => { self with connections := self.connections.insert peer info }
    | some rt =>
      let active := info.updateActivity checks status.isConnected rt bytesTransferred noted
      { self with connections := self.connections.insert peer active.2 }

/-- Updates connection status for a peer. -/
def updateStatus (checks : Bool) (peer : Peer) (status : ConnectionStatus) (now : Instant) :
    ConnectionManager F Peer → ConnectionManager F Peer :=
  updateStatusWithMetrics checks peer status none 0 now now now

/-- Cleanup expired connections from the pool. -/
def cleanupPool (now : Peer → Instant) (self : ConnectionManager F Peer) :
    ConnectionManager F Peer :=
  { self with
    connectionPool := self.connectionPool.retain fun peer pooled =>
      decide (Instant.elapsed pooled.2 (now peer) < self.poolTimeout) }

/-- Disconnects from a peer. A healthy connection goes into the pool. -/
def disconnect (peer : Peer) (checked pooled : Instant) (cleaned : Peer → Instant)
    (self : ConnectionManager F Peer) : ConnectionManager F Peer :=
  match self.connections.lookup peer with
  | none => self.cleanupPool cleaned
  | some info =>
    cleanupPool cleaned { self with
      connections := self.connections.erase peer
      connectionPool :=
        if info.isHealthy checked then self.connectionPool.insert peer (info, pooled)
        else self.connectionPool }

end ConnectionManager

/-! ## Runs of a manager -/

/-- A call on a connection manager. -/
inductive ManagerStep (Peer : Type)
  | connect (peer : Peer) (attempt : Attempt)
  | recoverConnection (peer : Peer) (attempts : ℕ → Attempt)
  | updateStatus (peer : Peer) (status : ConnectionStatus) (responseTime : Option Duration)
      (bytesTransferred : UInt64) (created noted recorded : Instant)
  | disconnect (peer : Peer) (checked pooled : Instant) (cleaned : Peer → Instant)

section Runs

variable {F Peer : Type} [F64Truncate F] [DecidableEq Peer]

/-- Make a call. -/
def apply (checks reentrant : Bool) (manager : ConnectionManager F Peer) :
    ManagerStep Peer → ConnectionManager F Peer
  | .connect peer attempt => (manager.connect checks reentrant peer attempt).2
  | .recoverConnection peer attempts =>
    (manager.recoverConnection checks reentrant peer attempts).2
  | .updateStatus peer status responseTime bytesTransferred created noted recorded =>
    manager.updateStatusWithMetrics checks peer status responseTime bytesTransferred created noted
      recorded
  | .disconnect peer checked pooled cleaned => manager.disconnect peer checked pooled cleaned

/-- There are at most as many connections as allowed. -/
def WithinLimit (manager : ConnectionManager F Peer) : Prop :=
  manager.connections.keys.card ≤ manager.maxConnections

/-- A connection to a peer is no connection too many. -/
def HasRoom (manager : ConnectionManager F Peer) (peer : Peer) : Prop :=
  peer ∈ manager.connections ∨ manager.connections.keys.card < manager.maxConnections

/-- A connection is taken back from the pool. -/
def TakesBack (manager : ConnectionManager F Peer) (peer : Peer) (attempt : Attempt) : Prop :=
  (manager.allowRequest peer attempt.asked).1 = true ∧
    ∃ info lastUsed, manager.connectionPool.lookup peer = some (info, lastUsed) ∧
      Instant.elapsed lastUsed attempt.looked < manager.poolTimeout ∧
        info.isHealthy attempt.checked = true

/-- A connection is taken back, and a status noted, only where there is room. -/
def Careful (manager : ConnectionManager F Peer) : ManagerStep Peer → Prop
  | .connect peer attempt => TakesBack manager peer attempt → HasRoom manager peer
  | .updateStatus peer _ _ _ _ _ _ => HasRoom manager peer
  | .recoverConnection _ _ => True
  | .disconnect _ _ _ _ => True

end Runs

/-! ## The limit -/

section Limit

variable {F Peer : Type} [DecidableEq Peer]

/-- The connections to other peers, and the limit, are those of another manager. -/
structure Agrees (manager manager' : ConnectionManager F Peer) : Prop where
  connections : manager'.connections = manager.connections
  maxConnections : manager'.maxConnections = manager.maxConnections
  connectionPool : manager'.connectionPool = manager.connectionPool
  poolTimeout : manager'.poolTimeout = manager.poolTimeout

lemma agrees_allowRequest (manager : ConnectionManager F Peer) (peer : Peer) (now : Instant) :
    Agrees manager (manager.allowRequest peer now).2 := by
  unfold ConnectionManager.allowRequest
  cases manager.circuitBreakers.lookup peer <;> exact ⟨rfl, rfl, rfl, rfl⟩

lemma agrees_recordResult (manager : ConnectionManager F Peer) (peer : Peer) (success : Bool)
    (now : Instant) : Agrees manager (manager.recordResult peer success now) := by
  unfold ConnectionManager.recordResult
  cases manager.circuitBreakers.lookup peer <;> exact ⟨rfl, rfl, rfl, rfl⟩

omit [DecidableEq Peer] in
/-- What counts for the limit. -/
lemma Agrees.withinLimit_iff {manager manager' : ConnectionManager F Peer}
    (h : Agrees manager manager') : WithinLimit manager' ↔ WithinLimit manager := by
  rw [WithinLimit, WithinLimit, h.connections, h.maxConnections]

/-- One more connection is within the limit iff there is room for it. -/
lemma withinLimit_insert_iff {manager manager' : ConnectionManager F Peer} {peer : Peer}
    {info : ConnectionInfo F} (h : WithinLimit manager)
    (hmax : manager'.maxConnections = manager.maxConnections)
    (hconnections : manager'.connections = manager.connections.insert peer info) :
    WithinLimit manager' ↔ HasRoom manager peer := by
  rw [WithinLimit, hmax, hconnections, HasRoom]
  by_cases hmem : peer ∈ manager.connections
  · rw [HashMap.card_keys_insert_of_mem hmem]
    exact iff_of_true h (.inl hmem)
  · rw [HashMap.keys_insert, Finset.card_insert_of_notMem fun hkey =>
      hmem (Finmap.mem_keys.mp hkey), or_iff_right hmem]
    exact Nat.succ_le_iff

/-- Removing a connection stays within the limit. -/
lemma withinLimit_erase {manager manager' : ConnectionManager F Peer} (h : WithinLimit manager)
    (peer : Peer) (hmax : manager'.maxConnections = manager.maxConnections)
    (hconnections : manager'.connections = manager.connections.erase peer) :
    WithinLimit manager' := by
  rw [WithinLimit, hmax, hconnections]
  refine (Finset.card_le_card fun peer' hpeer' => ?_).trans h
  rw [Finmap.mem_keys, Finmap.mem_erase] at hpeer'
  exact Finmap.mem_keys.mpr hpeer'.2

variable [F64Truncate F]

/-- A new connection is made where there is room for it, and the pool is not looked at. -/
lemma connectNew_cases (manager : ConnectionManager F Peer) (checks : Bool) (peer : Peer)
    (attempt : Attempt) :
    (manager.connectNew checks peer attempt).2 = manager ∨
      HasRoom manager peer ∧ ∃ info breakers,
        (manager.connectNew checks peer attempt).2 = { manager with
          connections := manager.connections.insert peer info
          circuitBreakers := breakers } := by
  unfold ConnectionManager.connectNew
  split_ifs with hfull hsuccess
  · exact .inl rfl
  · dsimp only
    rw [Finmap.insert_insert]
    exact .inr ⟨.inr (Nat.not_le.mp hfull), _, _, rfl⟩
  · dsimp only
    rw [Finmap.insert_insert]
    exact .inr ⟨.inr (Nat.not_le.mp hfull), _, _, rfl⟩

/-- A new connection is made within the limit. -/
lemma withinLimit_connectNew {manager : ConnectionManager F Peer} (h : WithinLimit manager)
    (checks : Bool) (peer : Peer) (attempt : Attempt) :
    WithinLimit (manager.connectNew checks peer attempt).2 := by
  rcases connectNew_cases manager checks peer attempt with heq | ⟨hroom, info, breakers, heq⟩
  · rwa [heq]
  · rw [heq]
    refine (@withinLimit_insert_iff _ _ _ manager _ peer info h ?_ ?_).mpr hroom
    · exact rfl
    · exact rfl

/-- Connecting stays within the limit iff there is room for a connection that is taken back. -/
lemma withinLimit_connect_iff {manager : ConnectionManager F Peer} (h : WithinLimit manager)
    (checks reentrant : Bool) (peer : Peer) (attempt : Attempt) :
    WithinLimit (manager.connect checks reentrant peer attempt).2 ↔
      (TakesBack manager peer attempt → HasRoom manager peer) := by
  have hasked := agrees_allowRequest manager peer attempt.asked
  have hwithin := hasked.withinLimit_iff.mpr h
  unfold ConnectionManager.connect
  dsimp only
  by_cases hallowed : (manager.allowRequest peer attempt.asked).1 = true
  · rw [if_neg (by simp [hallowed]), hasked.connectionPool, hasked.poolTimeout]
    cases hpool : manager.connectionPool.lookup peer with
    | none =>
      refine iff_of_true (withinLimit_connectNew hwithin checks peer attempt) fun htakes => ?_
      obtain ⟨-, info, lastUsed, hlookup, -⟩ := htakes
      simp [hpool] at hlookup
    | some pooled =>
      obtain ⟨info, lastUsed⟩ := pooled
      dsimp only
      by_cases hvalid : Instant.elapsed lastUsed attempt.looked < manager.poolTimeout ∧
          info.isHealthy attempt.checked = true
      · have htakes : TakesBack manager peer attempt :=
          ⟨hallowed, info, lastUsed, hpool, hvalid⟩
        rw [if_pos hvalid, forall_prop_of_true htakes,
          (agrees_recordResult _ _ _ _).withinLimit_iff]
        exact withinLimit_insert_iff h hasked.maxConnections
          (congrArg (fun m => m.insert peer info) hasked.connections)
      · have hnot : ¬TakesBack manager peer attempt := by
          rintro ⟨-, info', lastUsed', hlookup, hvalid'⟩
          obtain ⟨rfl, rfl⟩ := Prod.mk.inj (Option.some.inj (hpool.symm.trans hlookup))
          exact hvalid hvalid'
        rw [if_neg hvalid]
        refine iff_of_true ?_ fun htakes => absurd htakes hnot
        split_ifs
        · exact withinLimit_connectNew (by exact hwithin) checks peer attempt
        · exact hwithin
  · rw [if_pos (by simpa using hallowed)]
    exact iff_of_true hwithin fun htakes => absurd htakes.1 hallowed

/-- What is in the pool after an attempt was in it before. -/
lemma connectionPool_connect_of_none {manager : ConnectionManager F Peer} {peer : Peer}
    (h : manager.connectionPool.lookup peer = none) (checks reentrant : Bool) (attempt : Attempt) :
    (manager.connect checks reentrant peer attempt).2.connectionPool.lookup peer = none := by
  have hasked := agrees_allowRequest manager peer attempt.asked
  unfold ConnectionManager.connect
  dsimp only
  rw [hasked.connectionPool, h]
  dsimp only
  split_ifs with hdenied
  · rw [hasked.connectionPool, h]
  · rcases connectNew_cases (manager.allowRequest peer attempt.asked).2 checks peer attempt with
      heq | ⟨-, info, breakers, heq⟩
    · rw [Prod.map_snd, id, heq, hasked.connectionPool, h]
    · rw [Prod.map_snd, id, heq]
      dsimp only
      rw [hasked.connectionPool, h]

/-- Recovery finds nothing in the pool, so it stays within the limit. -/
lemma withinLimit_reconnect (checks reentrant : Bool) (peer : Peer) : ∀ (retries : ℕ)
    (attempts : ℕ → Attempt) {manager : ConnectionManager F Peer}, WithinLimit manager →
      manager.connectionPool.lookup peer = none →
        WithinLimit (manager.reconnect checks reentrant peer retries attempts).2 := by
  intro retries
  induction retries with
  | zero => exact fun _ _ h _ => h
  | succ retries ih =>
    intro attempts manager h hpool
    have hwithin : WithinLimit (manager.connect checks reentrant peer (attempts 0)).2 := by
      refine (withinLimit_connect_iff h checks reentrant peer (attempts 0)).mpr fun htakes => ?_
      obtain ⟨-, info, lastUsed, hlookup, -⟩ := htakes
      simp [hpool] at hlookup
    have hpool' := connectionPool_connect_of_none hpool checks reentrant (attempts 0)
    unfold ConnectionManager.reconnect
    split
    · next e self' heq =>
      rw [heq] at hwithin hpool'
      exact ih _ hwithin hpool'
    · exact hwithin

/-- A status of a peer that is connected replaces the one that was there. -/
lemma withinLimit_updateStatus_iff {manager : ConnectionManager F Peer} (h : WithinLimit manager)
    (checks : Bool) (peer : Peer) (status : ConnectionStatus) (responseTime : Option Duration)
    (bytesTransferred : UInt64) (created noted recorded : Instant) :
    WithinLimit (manager.updateStatusWithMetrics checks peer status responseTime bytesTransferred
      created noted recorded) ↔ HasRoom manager peer := by
  unfold ConnectionManager.updateStatusWithMetrics
  cases manager.connections.lookup peer with
  | none =>
    cases responseTime with
    | none => exact withinLimit_insert_iff h rfl rfl
    | some rt => exact withinLimit_insert_iff h rfl rfl
  | some info =>
    cases responseTime with
    | none => exact withinLimit_insert_iff h rfl rfl
    | some rt =>
      dsimp only
      split_ifs
      · rw [(agrees_recordResult _ _ _ _).withinLimit_iff]
        exact withinLimit_insert_iff h rfl rfl
      · exact withinLimit_insert_iff h rfl rfl

/-- **A step from within the limit stays within it iff it is careful.** -/
lemma withinLimit_apply_iff (checks reentrant : Bool) {manager : ConnectionManager F Peer}
    (h : WithinLimit manager) (step : ManagerStep Peer) :
    WithinLimit (apply checks reentrant manager step) ↔ Careful manager step := by
  cases step with
  | connect peer attempt => exact withinLimit_connect_iff h checks reentrant peer attempt
  | updateStatus peer status responseTime bytesTransferred created noted recorded =>
    exact withinLimit_updateStatus_iff h checks peer status responseTime bytesTransferred created
      noted recorded
  | recoverConnection peer attempts =>
    refine iff_of_true ?_ trivial
    refine withinLimit_reconnect checks reentrant peer 5 attempts ?_ (Finmap.lookup_erase peer _)
    exact withinLimit_erase h peer rfl rfl
  | disconnect peer checked pooled cleaned =>
    refine iff_of_true ?_ trivial
    rw [apply, ConnectionManager.disconnect]
    cases manager.connections.lookup peer with
    | none => exact h
    | some info => exact withinLimit_erase h peer rfl rfl

/-- **The runs of a new manager that stay within the limit** are those in which a connection is
taken back from the pool, and a status noted, only where there is room for it. -/
theorem withinLimit_iff_careful (checks reentrant : Bool) (maxConnections : ℕ)
    (poolTimeout : Duration) (steps : List (ManagerStep Peer)) :
    Runs.Always (apply checks reentrant) WithinLimit
        (ConnectionManager.withPoolTimeout maxConnections poolTimeout :
          ConnectionManager F Peer) steps ↔
      Runs.Steps (apply checks reentrant) Careful
        (ConnectionManager.withPoolTimeout maxConnections poolTimeout :
          ConnectionManager F Peer) steps := by
  refine Runs.always_iff_steps WithinLimit (fun _ h => h) (V := fun _ _ => True)
    (fun manager step h _ hcareful => (withinLimit_apply_iff checks reentrant h step).mpr hcareful)
    (fun manager step h _ hwithin => (withinLimit_apply_iff checks reentrant h step).mp hwithin)
    (Runs.steps_of_forall fun _ _ => trivial) ?_
  exact Nat.zero_le _

end Limit

/-! ## A connection too many -/

/-- Exact numbers. -/
instance instF64TruncateRat : F64Truncate ℚ where
  truncate q := UInt64.ofNat q.num.toNat

/-- An attempt that succeeds at once. -/
def sampleAttempt : Attempt := ⟨0, 0, 0, 0, 0, 0, 0, 0, true⟩

/-- A peer is connected and disconnected, another one connected, and the first one again. -/
def sampleSteps : List (ManagerStep ℕ) :=
  [.connect 1 sampleAttempt, .disconnect 1 0 0 fun _ => 0, .connect 2 sampleAttempt,
    .connect 1 sampleAttempt]

/-- The connection that is taken back from the pool is one too many. -/
theorem not_withinLimit_sampleSteps :
    ¬Runs.Always (apply false true) WithinLimit
      (ConnectionManager.withPoolTimeout 1 (300 * 10 ^ 9) : ConnectionManager ℚ ℕ)
      sampleSteps := by
  intro h
  have hend := Runs.always_iff.mp h _ (List.prefix_refl _)
  exact absurd hend (by unfold WithinLimit; decide +kernel)

end QuDAG.Network.Managed
