import QuDAG.Protocol.HandshakeErrors

/-!
# Replayed handshakes

The only thing that a coordinator checks about an init that it has seen before is its timestamp.
Nothing is remembered of accepted inits, so inside the window of the skew an init is accepted as
often as it arrives.

## Main definitions

* `HandshakeCoordinator.Call` — the calls of a coordinator.
* `HandshakeCoordinator.Tracked` — a coordinator and the inits that it accepted.
* `HandshakeCoordinator.TurnsAway` — a call that does not deliver an accepted init again, or finds a
  reason to reject it that is not the repetition.

## Main results

* `HandshakeCoordinator.accepted_iff` — which inits are accepted.
* `HandshakeCoordinator.nodup_accepted_iff` — the runs without a repetition.
-/

namespace QuDAG.Protocol

open RustStd

namespace HandshakeCoordinator

/-- A call of a coordinator, with what it reads from outside. -/
inductive Call
  | initiate (env : Env) (peerId : Option (List UInt8))
  | receive (env : Env) (message : Message) (sessionId : Option Uuid)
  | cleanup (now : ℕ)

/-- The coordinator after a call. -/
def applyCall (P : Platform) (coordinator : HandshakeCoordinator) : Call → HandshakeCoordinator
  | .initiate env peerId => ((initiateHandshake P env peerId).run coordinator).2
  | .receive env message sessionId =>
    ((processHandshakeMessage P env message sessionId).run coordinator).2
  | .cleanup now => coordinator.cleanupSessions now

/-- The init that a call accepts: its delivery yields a response. -/
def acceptedInit (P : Platform) (coordinator : HandshakeCoordinator) : Call → Option Message
  | .receive env message sessionId =>
    match message.msgType, (processHandshakeMessage P env message sessionId).run coordinator with
    | .handshake .init, (.ok (some _), _) => some message
    | _, _ => none
  | _ => none

/-- A coordinator, and the inits that it accepted, the latest first. -/
structure Tracked where
  /-- The coordinator. -/
  coordinator : HandshakeCoordinator
  /-- The accepted inits. -/
  accepted : List Message

/-- The coordinator and the accepted inits after a call. -/
def applyTracked (P : Platform) (t : Tracked) (call : Call) : Tracked :=
  ⟨t.coordinator.applyCall P call, (t.coordinator.acceptedInit P call).toList ++ t.accepted⟩

/-- If the call delivers an init that was accepted before, then it is rejected: the time is outside
the window, or the state machine refuses it, or the signature does not verify in the order of the
headers on this delivery, or the answer cannot be made. -/
def TurnsAway (P : Platform) (t : Tracked) : Call → Prop
  | .receive env message _ =>
    message ∈ t.accepted → t.coordinator.Timely P env message →
      ProtocolStateMachine.refusesInit t.coordinator.stateMachine.currentState = false →
      ∀ p version key, Carries message (.init p) →
        negotiateVersion t.coordinator.config p.supportedVersions p.protocolVersion = .ok version →
        MlDsaPublicKey.fromBytes P p.signaturePublicKey = .ok key →
        message.verify P env.headerOrder key = .ok true →
        ¬ Answerable P env t.coordinator.config p version key
  | _ => True

variable {P : Platform} {coordinator : HandshakeCoordinator} {env : Env} {message : Message}
  {sessionId : Option Uuid}

/-- An error is not a response. -/
lemma not_response_of_error {r : Except Failure (Option Message) × HandshakeCoordinator}
    {e : Failure} {after : HandshakeCoordinator} (h : r = (.error e, after)) :
    ¬ ∃ response after, r = (.ok (some response), after) := by
  rintro ⟨response, after', h'⟩
  rw [h] at h'
  cases (Prod.mk.inj h').1

/-- An init yields a response iff it passes the checks and is answered, and the state machine does
not refuse it. -/
lemma init_response_iff (htype : message.msgType = .handshake .init) :
    (∃ response after, (processHandshakeInit P env message).run coordinator =
      (.ok (some response), after)) ↔
      coordinator.AnswersInit P env message ∧
        ProtocolStateMachine.refusesInit coordinator.stateMachine.currentState = false := by
  rw [answersInit_iff]
  rcases processHandshakeInit_cases htype coordinator with
    ⟨hfails, e, hrun⟩ | ⟨checked, session, response, machine, hchecked, hanswer,
      ⟨hrefuses, e, hrun⟩ | ⟨hnot, hrun⟩⟩
  · refine iff_of_false (not_response_of_error hrun) ?_
    rintro ⟨⟨checked, answer, hchecked, hanswer⟩, -⟩
    exact hfails checked hchecked answer hanswer
  · refine iff_of_false (not_response_of_error hrun) fun h => ?_
    rw [hrefuses.2] at h
    cases h.2
  · refine iff_of_true ⟨response, _, hrun⟩ ⟨⟨checked, (session, response), hchecked, hanswer⟩, ?_⟩
    exact Bool.eq_false_of_not_eq_true fun h => hnot ⟨rfl, h⟩

/-- **An init is accepted** iff it is in time, passes the checks and is answered, and the state
machine does not refuse it. -/
lemma accepted_iff (htype : message.msgType = .handshake .init) :
    coordinator.acceptedInit P (.receive env message sessionId) = some message ↔
      coordinator.Timely P env message ∧ coordinator.AnswersInit P env message ∧
        ProtocolStateMachine.refusesInit coordinator.stateMachine.currentState = false := by
  have hunfold : coordinator.acceptedInit P (.receive env message sessionId) = some message ↔
      ∃ response after, (processHandshakeMessage P env message sessionId).run coordinator =
        (.ok (some response), after) := by
    simp only [acceptedInit, htype]
    rcases (processHandshakeMessage P env message sessionId).run coordinator with ⟨r, after⟩
    rcases r with e | response
    · exact iff_of_false (fun h => by cases h) (not_response_of_error rfl)
    · cases response with
      | none => exact iff_of_false (fun h => by cases h) fun ⟨_, _, h⟩ => by cases h
      | some response => exact iff_of_true rfl ⟨response, after, rfl⟩
  rw [hunfold]
  rcases processHandshakeMessage_cases message sessionId coordinator with
    ⟨htimely, hrun⟩ | ⟨hlate, e, hrun⟩
  · have hinit : processTimely P env message sessionId = processHandshakeInit P env message := by
      unfold processTimely
      rw [htype]
    rw [hrun, hinit, and_iff_right htimely, init_response_iff htype]
  · exact iff_of_false (not_response_of_error hrun) fun h => hlate h.1

/-- Only inits are accepted, and only by their delivery. -/
lemma eq_of_acceptedInit {call : Call} {accepted : Message}
    (h : coordinator.acceptedInit P call = some accepted) :
    ∃ env sessionId, call = .receive env accepted sessionId ∧
      accepted.msgType = .handshake .init := by
  cases call with
  | receive env message sessionId =>
    unfold acceptedInit at h
    dsimp only at h
    split at h
    · obtain rfl := Option.some.inj h
      exact ⟨env, sessionId, rfl, ‹_›⟩
    · cases h
  | _ => cases h

/-- The configuration does not change. -/
lemma config_applyCall (coordinator : HandshakeCoordinator) (call : Call) :
    (coordinator.applyCall P call).config = coordinator.config := by
  cases call with
  | initiate env peerId =>
    show ((initiateHandshake P env peerId).run coordinator).2.config = _
    rcases initiateHandshake_cases peerId coordinator with ⟨e, hrun⟩ | ⟨session, first, -, hrun⟩
    all_goals rw [hrun]
  | receive env message sessionId => exact config_processHandshakeMessage message sessionId _
  | cleanup now => rfl

/-! ## Runs -/

/-- No init was accepted twice, and every accepted one passed the checks. -/
structure Remembers (P : Platform) (config : HandshakeConfig) (t : Tracked) : Prop where
  /-- The configuration does not change. -/
  config_eq : t.coordinator.config = config
  /-- No init was accepted twice. -/
  nodup : t.accepted.Nodup
  /-- The accepted inits passed the checks. -/
  checked : ∀ message ∈ t.accepted, message.msgType = .handshake .init ∧
    ∃ env p version key, ChecksInit P config env message p version key

variable {config : HandshakeConfig} {t : Tracked} {call : Call}

/-- A call that turns accepted inits away accepts none of them again. -/
lemma Remembers.step (h : Remembers P config t) (hturns : TurnsAway P t call) :
    Remembers P config (applyTracked P t call) := by
  have hconfig : (t.coordinator.applyCall P call).config = config :=
    (config_applyCall t.coordinator call).trans h.config_eq
  cases haccepted : t.coordinator.acceptedInit P call with
  | none =>
    have heq : (applyTracked P t call).accepted = t.accepted := by
      rw [applyTracked, haccepted]
      rfl
    exact ⟨hconfig, heq ▸ h.nodup, heq ▸ h.checked⟩
  | some message =>
    have heq : (applyTracked P t call).accepted = message :: t.accepted := by
      rw [applyTracked, haccepted]
      rfl
    obtain ⟨env, sessionId, rfl, htype⟩ := eq_of_acceptedInit haccepted
    obtain ⟨htimely, ⟨p, version, key, hchecks, hanswerable⟩, hrefuses⟩ :=
      (accepted_iff htype).mp haccepted
    have hnew : message ∉ t.accepted := fun hmem =>
      hturns hmem htimely hrefuses p version key hchecks.carries hchecks.negotiated hchecks.keyed
        hchecks.verified hanswerable
    refine ⟨hconfig, heq ▸ List.nodup_cons.mpr ⟨hnew, h.nodup⟩, ?_⟩
    rw [heq]
    refine List.forall_mem_cons.mpr ⟨⟨htype, env, p, version, key, ?_⟩, h.checked⟩
    rw [← h.config_eq]
    exact hchecks

/-- A call after which no init was accepted twice turns accepted inits away. -/
lemma Remembers.turnsAway (h : Remembers P config t)
    (hnodup : (applyTracked P t call).accepted.Nodup) : TurnsAway P t call := by
  cases call with
  | receive env message sessionId =>
    intro hmem htimely hrefuses p version key hcarries hnegotiated hkeyed hverified hanswerable
    obtain ⟨htype, env', p', version', key', hchecks⟩ := h.checked message hmem
    obtain rfl := HandshakeMessagePayload.init.inj (hcarries.unique hchecks.carries)
    have hcapable : verifyCapabilities t.coordinator.config p.capabilities = .ok () := by
      rw [h.config_eq]
      exact hchecks.capable
    -- the checks that it passed before are passed again
    have haccepted : t.coordinator.acceptedInit P (.receive env message sessionId) = some message :=
      (accepted_iff htype).mpr ⟨htimely, ⟨p, version, key,
        ⟨hcarries, hnegotiated, hcapable, hkeyed, hverified⟩, hanswerable⟩, hrefuses⟩
    have heq : (applyTracked P t (.receive env message sessionId)).accepted =
        message :: t.accepted := by
      rw [applyTracked, haccepted]
      rfl
    rw [heq] at hnodup
    exact (List.nodup_cons.mp hnodup).1 hmem
  | _ => trivial

/-- **No init is accepted twice** in a run iff every call turns accepted inits away. -/
theorem nodup_accepted_iff (P : Platform) (coordinator : HandshakeCoordinator)
    (calls : List Call) :
    Runs.Always (applyTracked P) (fun t => t.accepted.Nodup) ⟨coordinator, []⟩ calls ↔
      Runs.Steps (applyTracked P) (TurnsAway P) ⟨coordinator, []⟩ calls := by
  have hstart : Remembers P coordinator.config ⟨coordinator, []⟩ := ⟨rfl, List.nodup_nil, nofun⟩
  exact Runs.always_iff_steps (V := fun _ _ => True) (Remembers P coordinator.config)
    (fun _ h => h.nodup) (fun _ _ h _ hturns => h.step hturns)
    (fun _ _ h _ hnodup => h.turnsAway hnodup) (Runs.steps_of_forall fun _ _ => trivial) hstart

/-! ## An init that is delivered twice -/

/-- A coordinator that waits for a handshake. -/
def waitingCoordinator : HandshakeCoordinator :=
  new .default ((ProtocolStateMachine.transitionTo ⟨0, 0, 0, 0⟩ (.handshake .waiting) "Ready").run
    (.new .current 0)).2

/-- The same init, delivered twice at the time at which it was made, is accepted twice, and makes
two sessions. -/
theorem not_nodup_accepted :
    let t := Runs.run (applyTracked Platform.toy) ⟨waitingCoordinator, []⟩
      [.receive (readings 5) signedInit none, .receive (readings 6) signedInit none]
    t.accepted = [signedInit, signedInit] ∧ t.coordinator.sessions.keys.card = 2 := by
  decide +kernel

end HandshakeCoordinator

end QuDAG.Protocol
