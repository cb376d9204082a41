import QuDAG.Lib.Fallible
import QuDAG.Protocol.Message

/-!
# The protocol state machine

The state of a node and of its sessions with peers (`state.rs`): the transition relation, the
effects of entering a state, sessions, and the processing of messages.

## Main definitions

* `ProtocolState`, `isValidTransition` — the states and the transitions between them.
* `ProtocolStateMachine`, with `transitionTo`, `createSession`, `updateSessionState`,
  `removeSession` and `processMessage`.
* `ProtocolStateMachine.dispatch` — the transitions that a handshake message makes.
* `ProtocolStateMachine.Call` — the calls of the state machine.

## Main results

* `ProtocolStateMachine.run_transitionTo` — what a transition does.

## Implementation notes

Times are numbers of nanoseconds; a difference of times that would be negative is zero, as it is
for the clocks of the source. The readings of the clocks and the new session's identifier are
arguments. The counters of a session wrap around, as they do in a release build.
-/

namespace QuDAG.Protocol

open RustStd

/-! ## States -/

/-- Handshake state substates. -/
inductive HandshakeState
  /-- Waiting for handshake initiation. -/
  | waiting
  /-- Handshake in progress: sent init, waiting for response. -/
  | inProgress
  /-- Received handshake response, processing. -/
  | processing
  /-- Handshake completed successfully. -/
  | completed
  /-- Handshake failed. -/
  | failed
  deriving DecidableEq, Repr

/-- Active protocol substates. -/
inductive ActiveState
  | normal
  | highLoad
  | degraded
  deriving DecidableEq, Repr

/-- Synchronization substates. -/
inductive SyncState
  | requesting
  | receiving
  | applying
  | verifying
  deriving DecidableEq, Repr

/-- Error state types. -/
inductive ErrorState
  | networkError
  | consensusError
  | cryptoError
  | resourceError
  | internalError
  deriving DecidableEq, Repr

/-- Protocol state enumeration with detailed substates. -/
inductive ProtocolState
  /-- Initial state: node starting up. -/
  | initial
  /-- Handshake states. -/
  | handshake (s : HandshakeState)
  /-- Active protocol states. -/
  | active (s : ActiveState)
  /-- Synchronization states. -/
  | synchronizing (s : SyncState)
  /-- Error states. -/
  | error (s : ErrorState)
  /-- Shutting down. -/
  | shutdown
  deriving DecidableEq, Repr

/-- Errors that can occur during state operations. -/
inductive StateError
  | invalidTransition (fromState toState : ProtocolState)
  | invalidData (reason : String)
  | sessionNotFound (sessionId : Uuid)
  | versionMismatch (expected actual : ProtocolVersion)
  deriving DecidableEq

/-- Check if a state transition is valid. -/
def isValidTransition (fromState toState : ProtocolState) : Bool :=
  match fromState, toState with
  | .initial, .handshake .waiting => true
  | .initial, .error _ => true
  | .initial, .shutdown => true
  | .handshake .waiting, .handshake .inProgress => true
  | .handshake .inProgress, .handshake .processing => true
  | .handshake .inProgress, .handshake .failed => true
  | .handshake .processing, .handshake .completed => true
  | .handshake .processing, .handshake .failed => true
  | .handshake .completed, .active .normal => true
  | .handshake .failed, .error .networkError => true
  | .handshake _, .shutdown => true
  | .active .normal, .active .highLoad => true
  | .active .normal, .active .degraded => true
  | .active .normal, .synchronizing .requesting => true
  | .active .highLoad, .active .normal => true
  | .active .highLoad, .active .degraded => true
  | .active .degraded, .active .normal => true
  | .active .degraded, .synchronizing .requesting => true
  | .active _, .error _ => true
  | .active _, .shutdown => true
  | .synchronizing .requesting, .synchronizing .receiving => true
  | .synchronizing .requesting, .error .networkError => true
  | .synchronizing .receiving, .synchronizing .applying => true
  | .synchronizing .receiving, .error .networkError => true
  | .synchronizing .applying, .synchronizing .verifying => true
  | .synchronizing .applying, .error .internalError => true
  | .synchronizing .verifying, .active .normal => true
  | .synchronizing .verifying, .error .internalError => true
  | .synchronizing _, .shutdown => true
  | .error _, .initial => true
  | .error _, .shutdown => true
  | .shutdown, _ => false
  | a, b => a == b

/-! ## Sessions -/

/-- Session performance metrics. -/
structure SessionMetrics where
  /-- Messages sent. -/
  messagesSent : UInt64
  /-- Messages received. -/
  messagesReceived : UInt64
  /-- Bytes sent. -/
  bytesSent : UInt64
  /-- Bytes received. -/
  bytesReceived : UInt64
  /-- Average response time. -/
  avgResponseTime : ℕ
  /-- Error count. -/
  errorCount : UInt64
  deriving DecidableEq

/-- No messages yet. -/
def SessionMetrics.default : SessionMetrics := ⟨0, 0, 0, 0, 0, 0⟩

/-- Session information for tracking peer connections. -/
structure SessionInfo where
  /-- Session identifier. -/
  id : Uuid
  /-- Peer identifier. -/
  peerId : List UInt8
  /-- Protocol version negotiated. -/
  protocolVersion : ProtocolVersion
  /-- Session state. -/
  state : ProtocolState
  /-- Session start time. -/
  startedAt : ℕ
  /-- Last activity timestamp. -/
  lastActivity : ℕ
  /-- Session capabilities. -/
  capabilities : List String
  /-- Session metrics. -/
  metrics : SessionMetrics
  deriving DecidableEq

/-- Update the last activity and count a message. -/
def SessionInfo.touch (now : ℕ) (message : Message) (session : SessionInfo) : SessionInfo :=
  { session with
    lastActivity := now
    metrics := { session.metrics with
      messagesReceived := session.metrics.messagesReceived + 1
      bytesReceived := session.metrics.bytesReceived + UInt64.ofNat message.payload.length } }

/-! ## The machine -/

/-- State transition record. -/
structure StateTransition where
  /-- Timestamp of transition. -/
  timestamp : ℕ
  /-- Previous state. -/
  fromState : ProtocolState
  /-- New state. -/
  toState : ProtocolState
  /-- Reason for transition. -/
  reason : String
  /-- Duration in previous state. -/
  duration : ℕ
  deriving DecidableEq

/-- State machine configuration. -/
structure StateMachineConfig where
  /-- Maximum number of concurrent sessions. -/
  maxSessions : ℕ
  /-- Session timeout duration. -/
  sessionTimeout : ℕ
  /-- Maximum state history size. -/
  maxHistorySize : ℕ
  deriving DecidableEq

/-- The default configuration: 1000 sessions, 5 minutes, 1000 records. -/
def StateMachineConfig.default : StateMachineConfig := ⟨1000, 300 * 10 ^ 9, 1000⟩

/-- Protocol state manager. -/
structure ProtocolStateMachine where
  /-- Current protocol state. -/
  currentState : ProtocolState
  /-- Previous state for rollback. -/
  previousState : Option ProtocolState
  /-- State transition history. -/
  stateHistory : List StateTransition
  /-- Active sessions. -/
  sessions : HashMap Uuid SessionInfo
  /-- State machine start time. -/
  startedAt : ℕ
  /-- Protocol version. -/
  protocolVersion : ProtocolVersion
  /-- State machine configuration. -/
  config : StateMachineConfig
  deriving DecidableEq

/-- The readings of the clocks during a call. -/
structure Clock where
  /-- The time of the last activity of a session. -/
  activity : ℕ
  /-- The instant of a transition. -/
  transition : ℕ
  /-- The instant of a second transition in the same call. -/
  following : ℕ
  /-- The time at which sessions are checked for their timeout. -/
  cleanup : ℕ
  deriving DecidableEq

namespace ProtocolStateMachine

/-- Create with custom configuration. -/
def withConfig (protocolVersion : ProtocolVersion) (config : StateMachineConfig)
    (startedAt : ℕ) : ProtocolStateMachine :=
  ⟨.initial, none, [], ∅, startedAt, protocolVersion, config⟩

/-- Create a new protocol state machine. -/
def new (protocolVersion : ProtocolVersion) (startedAt : ℕ) : ProtocolStateMachine :=
  withConfig protocolVersion .default startedAt

/-! ## Transitions -/

/-- Clean up failed sessions. -/
def cleanupFailedSessions (machine : ProtocolStateMachine) : ProtocolStateMachine :=
  { machine with
    sessions := machine.sessions.retain fun _ session =>
      match session.state with
      | .error _ => false
      | .handshake .failed => false
      | _ => true }

/-- Clean up timed out sessions. -/
def cleanupTimedOutSessions (now : ℕ) (machine : ProtocolStateMachine) : ProtocolStateMachine :=
  { machine with
    sessions := machine.sessions.retain fun _ session =>
      !decide (machine.config.sessionTimeout < now - session.lastActivity) }

/-- Clean up resources. -/
def cleanupResources (now : ℕ) (machine : ProtocolStateMachine) : ProtocolStateMachine :=
  let keep := machine.config.maxHistorySize / 2
  let trimmed :=
    if keep < machine.stateHistory.length then
      { machine with
        stateHistory := machine.stateHistory.drop (machine.stateHistory.length - keep) }
    else machine
  trimmed.cleanupTimedOutSessions now

/-- Handle error state entry. -/
def handleErrorState (now : ℕ) (errorState : ErrorState) (machine : ProtocolStateMachine) :
    ProtocolStateMachine :=
  match errorState with
  | .networkError => machine.cleanupFailedSessions
  | .resourceError => machine.cleanupResources now
  | .consensusError | .cryptoError | .internalError => machine

/-- Begin graceful shutdown: close all active sessions. -/
def beginShutdown (machine : ProtocolStateMachine) : ProtocolStateMachine :=
  { machine with
    sessions := machine.sessions.mapValues fun session => { session with state := .shutdown } }

/-- Perform actions when entering a new state. These cannot fail. -/
def onStateEntry (now : ℕ) (machine : ProtocolStateMachine) : ProtocolStateMachine :=
  match machine.currentState with
  | .initial => { machine with sessions := ∅ }
  | .handshake .failed => machine.cleanupFailedSessions
  | .handshake _ => machine
  | .active _ => machine
  | .synchronizing _ => machine
  | .error errorState => machine.handleErrorState now errorState
  | .shutdown => machine.beginShutdown

/-- Update the states and add the transition to the history, whose size is limited. -/
def record (now : ℕ) (newState : ProtocolState) (reason : String)
    (machine : ProtocolStateMachine) : ProtocolStateMachine :=
  let duration :=
    match machine.stateHistory.getLast? with
    | some lastTransition => now - lastTransition.timestamp
    | none => now - machine.startedAt
  let transition := ⟨now, machine.currentState, newState, reason, duration⟩
  let stateHistory := machine.stateHistory ++ [transition]
  { machine with
    previousState := some machine.currentState
    currentState := newState
    stateHistory :=
      if machine.config.maxHistorySize < stateHistory.length then stateHistory.tail
      else stateHistory }

/-- Transition to a new state. -/
def transitionTo (clock : Clock) (newState : ProtocolState) (reason : String) :
    Fallible StateError ProtocolStateMachine Unit := do
  let machine ← Fallible.get
  if isValidTransition machine.currentState newState then
    Fallible.modify fun machine =>
      (machine.record clock.transition newState reason).onStateEntry clock.cleanup
  else Fallible.fail (.invalidTransition machine.currentState newState)

/-- A transition is made, or it is refused and nothing changes. -/
lemma run_transitionTo (clock : Clock) (newState : ProtocolState) (reason : String)
    (machine : ProtocolStateMachine) :
    (transitionTo clock newState reason).run machine =
      if isValidTransition machine.currentState newState then
        (.ok (), (machine.record clock.transition newState reason).onStateEntry clock.cleanup)
      else (.error (.invalidTransition machine.currentState newState), machine) := by
  unfold transitionTo
  rw [Fallible.run_bind_of_ok (Fallible.run_get machine)]
  split_ifs <;> rfl

/-! ## Sessions -/

/-- Create a new session. -/
def createSession (now : ℕ) (sessionId : Uuid) (peerId : List UInt8)
    (protocolVersion : ProtocolVersion) (capabilities : List String) :
    Fallible StateError ProtocolStateMachine Uuid := do
  let machine ← Fallible.get
  if machine.config.maxSessions ≤ machine.sessions.keys.card then
    Fallible.fail (.invalidData "Maximum number of sessions reached")
  else if !machine.protocolVersion.isCompatible protocolVersion then
    Fallible.fail (.versionMismatch machine.protocolVersion protocolVersion)
  else
    let session : SessionInfo :=
      ⟨sessionId, peerId, protocolVersion, .handshake .waiting, now, now, capabilities, .default⟩
    Fallible.modify fun machine =>
      { machine with sessions := machine.sessions.insert sessionId session }
    pure sessionId

/-- Update session state. -/
def updateSessionState (now : ℕ) (sessionId : Uuid) (newState : ProtocolState) :
    Fallible StateError ProtocolStateMachine Unit := do
  let machine ← Fallible.get
  match machine.sessions.lookup sessionId with
  | none => Fallible.fail (.sessionNotFound sessionId)
  | some session =>
    if !isValidTransition session.state newState then
      Fallible.fail (.invalidTransition session.state newState)
    else
      let session := { session with
        state := newState
        lastActivity := now }
      Fallible.modify fun machine =>
        { machine with sessions := machine.sessions.insert sessionId session }

/-- A session is created below the limit, in the waiting state, or nothing changes. -/
lemma createSession_cases (now : ℕ) (sessionId : Uuid) (peerId : List UInt8)
    (protocolVersion : ProtocolVersion) (capabilities : List String)
    (machine : ProtocolStateMachine) :
    (∃ e, (createSession now sessionId peerId protocolVersion capabilities).run machine =
      (.error e, machine)) ∨
    machine.sessions.keys.card < machine.config.maxSessions ∧
      ∃ session : SessionInfo, session.state = .handshake .waiting ∧
        (createSession now sessionId peerId protocolVersion capabilities).run machine =
          (.ok sessionId,
            { machine with sessions := machine.sessions.insert sessionId session }) := by
  unfold createSession
  rw [Fallible.run_bind_of_ok (Fallible.run_get machine)]
  by_cases hfull : machine.config.maxSessions ≤ machine.sessions.keys.card
  · rw [if_pos hfull]
    exact .inl ⟨_, rfl⟩
  · rw [if_neg hfull]
    by_cases hversion : (!machine.protocolVersion.isCompatible protocolVersion) = true
    · rw [if_pos hversion]
      exact .inl ⟨_, rfl⟩
    · rw [if_neg hversion]
      exact .inr ⟨Nat.lt_of_not_le hfull, _, rfl, rfl⟩

/-- The state of a stored session changes as the transition relation allows, or nothing changes. -/
lemma updateSessionState_cases (now : ℕ) (sessionId : Uuid) (newState : ProtocolState)
    (machine : ProtocolStateMachine) :
    (∃ e, (updateSessionState now sessionId newState).run machine = (.error e, machine)) ∨
    ∃ session session', machine.sessions.lookup sessionId = some session ∧
      isValidTransition session.state newState = true ∧ session'.state = newState ∧
      (updateSessionState now sessionId newState).run machine =
        (.ok (), { machine with sessions := machine.sessions.insert sessionId session' }) := by
  unfold updateSessionState
  rw [Fallible.run_bind_of_ok (Fallible.run_get machine)]
  cases hsession : machine.sessions.lookup sessionId with
  | none => exact .inl ⟨_, rfl⟩
  | some session =>
    dsimp only
    by_cases hrefused : (!isValidTransition session.state newState) = true
    · rw [if_pos hrefused]
      exact .inl ⟨_, rfl⟩
    · rw [if_neg hrefused]
      have hvalid : isValidTransition session.state newState = true := by simpa using hrefused
      exact .inr ⟨session, _, rfl, hvalid, rfl, rfl⟩

/-- Remove a session. -/
def removeSession (sessionId : Uuid) (machine : ProtocolStateMachine) : ProtocolStateMachine :=
  { machine with sessions := machine.sessions.erase sessionId }

/-- Change a session, if there is one. -/
def updateSession (sessionId : Option Uuid) (f : SessionInfo → SessionInfo)
    (machine : ProtocolStateMachine) : ProtocolStateMachine :=
  match sessionId with
  | none => machine
  | some sessionId =>
    match machine.sessions.lookup sessionId with
    | none => machine
    | some session =>
      { machine with sessions := machine.sessions.insert sessionId (f session) }

/-- A stored session changes, or nothing does. -/
lemma updateSession_cases (machine : ProtocolStateMachine) (sessionId : Option Uuid)
    (f : SessionInfo → SessionInfo) :
    (∃ id session, sessionId = some id ∧ machine.sessions.lookup id = some session ∧
      machine.updateSession sessionId f =
        { machine with sessions := machine.sessions.insert id (f session) }) ∨
    (∀ id, sessionId = some id → machine.sessions.lookup id = none) ∧
      machine.updateSession sessionId f = machine := by
  cases sessionId with
  | none => exact .inr ⟨nofun, rfl⟩
  | some id =>
    cases hsession : machine.sessions.lookup id with
    | none =>
      refine .inr ⟨fun _ h => Option.some.inj h ▸ hsession, ?_⟩
      simp only [updateSession, hsession]
    | some session =>
      refine .inl ⟨id, session, rfl, hsession, ?_⟩
      simp only [updateSession, hsession]

/-- Changing a session does not change the state of the machine. -/
@[simp] lemma currentState_updateSession (machine : ProtocolStateMachine)
    (sessionId : Option Uuid) (f : SessionInfo → SessionInfo) :
    (machine.updateSession sessionId f).currentState = machine.currentState := by
  rcases updateSession_cases machine sessionId f with ⟨id, session, -, -, heq⟩ | ⟨-, heq⟩
  · rw [heq]
  · rw [heq]

/-- The sessions after a change. -/
lemma lookup_updateSession (machine : ProtocolStateMachine) (sessionId : Option Uuid)
    (f : SessionInfo → SessionInfo) (id : Uuid) :
    (machine.updateSession sessionId f).sessions.lookup id =
      if sessionId = some id then (machine.sessions.lookup id).map f
      else machine.sessions.lookup id := by
  rcases updateSession_cases machine sessionId f with ⟨id', session, rfl, hsession, heq⟩ | ⟨h, heq⟩
  · rw [heq]
    show (machine.sessions.insert id' (f session)).lookup id = _
    rw [HashMap.lookup_insert_ite]
    by_cases hid : id = id'
    · subst hid
      rw [if_pos rfl, if_pos rfl, hsession, Option.map_some]
    · rw [if_neg hid, if_neg fun h => hid (Option.some.inj h).symm]
  · rw [heq]
    split_ifs with hid
    · rw [h id hid, Option.map_none]
    · rfl

/-! ## Messages -/

/-- The transitions that a handshake message makes in a state, one after the other. -/
def dispatch (clock : Clock) (handshakeType : HandshakeType) (currentState : ProtocolState) :
    List (Fallible StateError ProtocolStateMachine Unit) :=
  match handshakeType, currentState with
  | .init, .initial =>
    [transitionTo clock (.handshake .inProgress) "Received handshake init"]
  | .init, .handshake _ =>
    [transitionTo clock (.handshake .inProgress) "Received handshake init"]
  | .response, .handshake .inProgress =>
    [transitionTo clock (.handshake .processing) "Received handshake response"]
  | .complete, .handshake .processing =>
    [transitionTo clock (.handshake .completed) "Handshake completed",
      transitionTo { clock with transition := clock.following } (.active .normal)
        "Handshake successful, entering active state"]
  | _, _ => []

/-- Process handshake messages. -/
def processHandshakeMessage (clock : Clock) (handshakeType : HandshakeType)
    (sessionId : Option Uuid) : Fallible StateError ProtocolStateMachine Unit := do
  let machine ← Fallible.get
  Fallible.sequence (dispatch clock handshakeType machine.currentState)
  Fallible.modify fun machine =>
    machine.updateSession sessionId fun session => { session with state := machine.currentState }

/-- Process a protocol message and update state accordingly. Other messages than those of the
handshake are only logged. -/
def processMessage (clock : Clock) (message : Message) (sessionId : Option Uuid) :
    Fallible StateError ProtocolStateMachine Unit := do
  Fallible.modify fun machine =>
    machine.updateSession sessionId (SessionInfo.touch clock.activity message)
  match message.msgType with
  | .handshake handshakeType => processHandshakeMessage clock handshakeType sessionId
  | _ => pure ()

/-! ## Calls -/

/-- A call of the state machine, with what it reads from outside. -/
inductive Call
  | transitionTo (clock : Clock) (newState : ProtocolState) (reason : String)
  | createSession (now : ℕ) (sessionId : Uuid) (peerId : List UInt8)
    (protocolVersion : ProtocolVersion) (capabilities : List String)
  | updateSessionState (now : ℕ) (sessionId : Uuid) (newState : ProtocolState)
  | removeSession (sessionId : Uuid)
  | processMessage (clock : Clock) (message : Message) (sessionId : Option Uuid)

/-- The state after a call. -/
def applyCall (machine : ProtocolStateMachine) : Call → ProtocolStateMachine
  | .transitionTo clock newState reason =>
    ((ProtocolStateMachine.transitionTo clock newState reason).run machine).2
  | .createSession now sessionId peerId protocolVersion capabilities =>
    ((ProtocolStateMachine.createSession now sessionId peerId protocolVersion
      capabilities).run machine).2
  | .updateSessionState now sessionId newState =>
    ((ProtocolStateMachine.updateSessionState now sessionId newState).run machine).2
  | .removeSession sessionId => machine.removeSession sessionId
  | .processMessage clock message sessionId =>
    ((ProtocolStateMachine.processMessage clock message sessionId).run machine).2

end ProtocolStateMachine

end QuDAG.Protocol
