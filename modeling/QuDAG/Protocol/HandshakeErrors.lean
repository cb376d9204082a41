import QuDAG.Protocol.HandshakeSteps

/-!
# Errors of the handshake

An error should leave the sessions as they were. Two errors come too late for that: the state
machine refuses an init after its session was stored, and the signature of the completion message
fails after its session was updated.

## Main definitions

* `HandshakeCoordinator.SameSessions` — the sessions with their states, keys and secrets are the
  same.
* `HandshakeCoordinator.LateError` — the calls with a late error.

## Main results

* `HandshakeCoordinator.errors_atomic_iff` — errors leave the sessions as they were exactly in the
  other calls.
-/

namespace QuDAG.Protocol

open RustStd

namespace HandshakeCoordinator

/-- The sessions, with their states, keys and secrets, are the same. -/
def SameSessions (before after : HandshakeCoordinator) : Prop :=
  ∀ id,
    (after.sessions.lookup id).map (fun s => (s.state, s.ourKeys, s.peerKeys, s.sharedSecrets)) =
      (before.sessions.lookup id).map fun s => (s.state, s.ourKeys, s.peerKeys, s.sharedSecrets)

/-- The answer to an init is made and signed: keys are generated, a secret is encapsulated for the
peer, and the response is signed. -/
def Answerable (P : Platform) (env : Env) (config : HandshakeConfig) (p : InitPayload)
    (version : ProtocolVersion) (key : MlDsaPublicKey) : Prop :=
  ∃ keys ciphertext secret response,
    generateKeys P env.signatureSeed env.kemSeed = .ok keys ∧
    P.encapsulate ⟨p.kemPublicKey⟩ env.encapsulationSeed = .ok (ciphertext, secret) ∧
    signedMessage P env .response (.response (responsePayload config env
      ⟨version, p.capabilities, ⟨key, ⟨p.kemPublicKey⟩⟩, p.nonce⟩ keys ciphertext)) keys =
        .ok response

/-- An init passes every check, and its answer is made and signed. -/
def AnswersInit (P : Platform) (env : Env) (coordinator : HandshakeCoordinator)
    (message : Message) : Prop :=
  ∃ p version key, ChecksInit P coordinator.config env message p version key ∧
    Answerable P env coordinator.config p version key

/-- A response passes every check, and the completion message cannot be signed. -/
def FailsComplete (P : Platform) (env : Env) (coordinator : HandshakeCoordinator)
    (message : Message) (sessionId : Option Uuid) : Prop :=
  ∃ id session p key secret, coordinator.For .initSent sessionId id session ∧
    ChecksResponse P coordinator.config env session message p key secret ∧
    ∀ complete, completeMessage P env id session.ourKeys ≠ .ok complete

/-- The error comes after the sessions were changed: an init arrives in time and is answered in a
state in which the machine refuses it, or a response arrives in time and the completion message
cannot be signed. -/
def LateError (P : Platform) (env : Env) (coordinator : HandshakeCoordinator) (message : Message)
    (sessionId : Option Uuid) : Prop :=
  coordinator.Timely P env message ∧
    ((message.msgType = .handshake .init ∧ coordinator.AnswersInit P env message ∧
        ProtocolStateMachine.refusesInit coordinator.stateMachine.currentState = true) ∨
      (message.msgType = .handshake .response ∧
        coordinator.FailsComplete P env message sessionId))

variable {P : Platform} {env : Env} {coordinator : HandshakeCoordinator} {message : Message}
  {sessionId : Option Uuid}

/-- An init is answered iff the parts that only read succeed. -/
lemma answersInit_iff : coordinator.AnswersInit P env message ↔
    ∃ checked answer, checkInit P coordinator.config env message = .ok checked ∧
      answerInit P coordinator.config env checked = .ok answer := by
  constructor
  · rintro ⟨p, version, key, hchecks, keys, ciphertext, secret, response, hkeys, hencapsulated,
      hresponse⟩
    exact ⟨_, (_, response), checkInit_eq_ok.mpr ⟨p, version, key, hchecks, rfl⟩,
      answerInit_eq_ok.mpr ⟨keys, ciphertext, secret, hkeys, hencapsulated, hresponse, rfl⟩⟩
  · rintro ⟨checked, ⟨session, response⟩, hchecked, hanswer⟩
    obtain ⟨p, version, key, hchecks, rfl⟩ := checkInit_eq_ok.mp hchecked
    obtain ⟨keys, ciphertext, secret, hkeys, hencapsulated, hresponse, -⟩ :=
      answerInit_eq_ok.mp hanswer
    exact ⟨p, version, key, hchecks, keys, ciphertext, secret, response, hkeys, hencapsulated,
      hresponse⟩

/-- A coordinator has the same sessions as itself. -/
lemma SameSessions.refl (coordinator : HandshakeCoordinator) :
    SameSessions coordinator coordinator := fun _ => rfl

/-- A stored session that was not there before is a difference. -/
lemma not_sameSessions_of_new {after : HandshakeCoordinator} {id : Uuid}
    {session : HandshakeSession} (hnew : id ∉ coordinator.sessions)
    (hafter : after.sessions.lookup id = some session) : ¬ SameSessions coordinator after := by
  intro h
  have hid := h id
  rw [hafter, Finmap.lookup_eq_none.mpr hnew] at hid
  cases hid

/-- So is a session in another state. -/
lemma not_sameSessions_of_state {after : HandshakeCoordinator} {id : Uuid}
    {before session : HandshakeSession} (hbefore : coordinator.sessions.lookup id = some before)
    (hafter : after.sessions.lookup id = some session) (hstate : session.state ≠ before.state) :
    ¬ SameSessions coordinator after := by
  intro h
  have hid := h id
  rw [hafter, hbefore] at hid
  exact hstate (congrArg (fun view => view.1) (Option.some.inj hid))

/-- An init: an error changes the sessions iff it is answered and then refused. -/
lemma init_error_iff (htype : message.msgType = .handshake .init)
    (hfresh : env.sessionId ∉ coordinator.sessions) :
    (∀ e after, (processHandshakeInit P env message).run coordinator = (.error (.error e), after) →
      SameSessions coordinator after) ↔
    ¬ (coordinator.AnswersInit P env message ∧
      ProtocolStateMachine.refusesInit coordinator.stateMachine.currentState = true) := by
  rw [answersInit_iff]
  rcases processHandshakeInit_cases htype coordinator with
    ⟨hfails, e, hrun⟩ | ⟨checked, session, response, machine, hchecked, hanswer,
      ⟨hrefuses, e, hrun⟩ | ⟨hnot, hrun⟩⟩
  · refine iff_of_true (fun e' after h => ?_) fun h => ?_
    · rw [hrun] at h
      rw [← (Prod.mk.inj h).2]
      exact .refl coordinator
    · obtain ⟨⟨checked, answer, hchecked, hanswer⟩, -⟩ := h
      exact hfails checked hchecked answer hanswer
  · refine iff_of_false (fun h => ?_) fun h =>
      h ⟨⟨checked, (session, response), hchecked, hanswer⟩, hrefuses.2⟩
    -- the session is stored under a new identifier
    exact not_sameSessions_of_new hfresh (Finmap.lookup_insert _) (h e _ hrun)
  · refine iff_of_true (fun e' after h => ?_) fun h => hnot ⟨rfl, h.2⟩
    rw [hrun] at h
    cases h

/-- A response: an error changes the sessions iff the completion message cannot be signed. -/
lemma response_error_iff (htype : message.msgType = .handshake .response) :
    (∀ e after, (processHandshakeResponse P env message sessionId).run coordinator =
      (.error (.error e), after) → SameSessions coordinator after) ↔
    ¬ coordinator.FailsComplete P env message sessionId := by
  rcases processHandshakeResponse_cases htype sessionId coordinator with
    ⟨hfails, e, hrun⟩ | ⟨id, session, accepted, hfor, haccepted, hrest⟩
  · refine iff_of_true (fun e' after h => ?_) fun h => ?_
    · rw [hrun] at h
      rw [← (Prod.mk.inj h).2]
      exact .refl coordinator
    · obtain ⟨id, session, p, key, secret, hfor, hchecks, -⟩ := h
      exact hfails id session hfor _ (acceptResponse_eq_ok.mpr ⟨p, key, secret, hchecks, rfl⟩)
  · obtain ⟨p, key, secret, hchecks, rfl⟩ := acceptResponse_eq_ok.mp haccepted
    obtain ⟨rfl, hlookup, hstate⟩ := hfor
    rcases hrest with ⟨hunsigned, e, hrun⟩ | ⟨complete, machine, hcomplete, hrun⟩
    · refine iff_of_false (fun h => ?_) fun h =>
        h ⟨id, session, p, key, secret, ⟨rfl, hlookup, hstate⟩, hchecks, hunsigned⟩
      -- the session is no longer in the state in which it waits for a response
      refine not_sameSessions_of_state hlookup (Finmap.lookup_insert _) ?_ (h e _ hrun)
      rw [hstate]
      exact nofun
    · refine iff_of_true (fun e' after h => ?_) fun h => ?_
      · rw [hrun] at h
        cases h
      · obtain ⟨id', session', -, -, -, ⟨hid, hlookup', -⟩, -, hunsigned⟩ := h
        obtain rfl := Option.some.inj hid
        rw [hlookup] at hlookup'
        obtain rfl := Option.some.inj hlookup'
        exact hunsigned complete hcomplete

/-- **Errors leave the sessions as they were**, with their states, keys and secrets, exactly in the
calls without a late error. -/
theorem errors_atomic_iff (hfresh : env.sessionId ∉ coordinator.sessions) :
    (∀ e after, (processHandshakeMessage P env message sessionId).run coordinator =
      (.error (.error e), after) → SameSessions coordinator after) ↔
    ¬ coordinator.LateError P env message sessionId := by
  unfold LateError
  rcases processHandshakeMessage_cases message sessionId coordinator with
    ⟨htimely, hrun⟩ | ⟨hlate, e, hrun⟩
  · rw [hrun, and_iff_right htimely]
    unfold processTimely
    cases htype : message.msgType with
    | handshake handshakeType =>
      cases handshakeType with
      | init => simpa using init_error_iff htype hfresh
      | response => simpa using response_error_iff htype
      | complete =>
        refine iff_of_true (fun e after h => ?_) (by simp)
        dsimp only at h
        rcases processHandshakeComplete_cases htype sessionId coordinator with
          ⟨e', hrun⟩ | ⟨id, session, machine, -, hrun⟩
        · rw [hrun] at h
          rw [← (Prod.mk.inj h).2]
          exact .refl coordinator
        · rw [hrun] at h
          cases h
      | versionNegotiation =>
        refine iff_of_true (fun e after h => ?_) (by simp)
        have hstate := processVersionNegotiation_state (P := P) message coordinator
        dsimp only at h
        rw [h] at hstate
        rw [show after = coordinator from hstate]
        exact .refl coordinator
    | _ =>
      refine iff_of_true (fun e after h => ?_) (by simp)
      rw [← (Prod.mk.inj h).2]
      exact .refl coordinator
  · refine iff_of_true (fun e' after h => ?_) fun h => hlate h.1
    rw [hrun] at h
    rw [← (Prod.mk.inj h).2]
    exact .refl coordinator

/-! ## An init that comes too early -/

/-- What a call reads, by a number. -/
def readings (n : UInt8) : Env :=
  ⟨1000, [], [n], [n], [n], [n], ⟨List.replicate 16 n, rfl⟩, 7, 0, 0, 1000,
    ⟨List.replicate 16 n, rfl⟩, 1000, ⟨0, 0, 0, 0⟩⟩

/-- The init of a session with the keys of the first readings, before it is signed. -/
def unsignedInit : Message :=
  .new (.handshake .init) (HandshakeMessagePayload.codec.encode (.init (initPayload .default
    (readings 1) ⟨⟨List.replicate 1952 1, [1]⟩, ⟨[1], [1]⟩⟩)))
    (readings 1).messageId 1000

/-- The init with the signature of the stand-in. -/
def signedInit : Message :=
  { unsignedInit with signature := some (1 :: unsignedInit.getSignableData []) }

/-- A message that carries no payload is an error that changes nothing. -/
theorem errors_atomic_iff_empty :
    ¬ (new .default (.new .current 0)).LateError Platform.toy (readings 5)
        { signedInit with payload := [] } none ∧
      ∀ e after, (processHandshakeMessage Platform.toy (readings 5)
        { signedInit with payload := [] } none).run (new .default (.new .current 0)) =
          (.error (.error e), after) →
        SameSessions (new .default (.new .current 0)) after := by
  have hnot : ¬ (new .default (.new .current 0)).LateError Platform.toy (readings 5)
      { signedInit with payload := [] } none := by
    rintro ⟨-, ⟨-, ⟨p, version, key, hchecks, -⟩, -⟩ | ⟨htype, -⟩⟩
    · obtain ⟨rest, hcarries⟩ := hchecks.carries
      cases hcarries
    · cases htype
  exact ⟨hnot, (errors_atomic_iff Finmap.notMem_empty).mpr hnot⟩

/-- An init that reaches a new coordinator in time is refused by its state machine, and leaves a
half-open session with keys and secrets. -/
theorem not_errors_atomic :
    let before := new .default (.new .current 0)
    let result := (processHandshakeMessage Platform.toy (readings 5) signedInit none).run before
    result.1 = .error (.error (.stateMachine (.invalidTransition .initial
        (.handshake .inProgress)))) ∧
      before.sessions.lookup (readings 5).sessionId = none ∧
      (result.2.sessions.lookup (readings 5).sessionId).map HandshakeSession.state =
        some .responseSent ∧
      (result.2.getSharedSecrets (readings 5).sessionId).isSome = true ∧
      ¬ SameSessions before result.2 := by
  intro before result
  have heval : result.1 = .error (.error (.stateMachine (.invalidTransition .initial
        (.handshake .inProgress)))) ∧
      (result.2.sessions.lookup (readings 5).sessionId).map HandshakeSession.state =
        some .responseSent ∧
      (result.2.getSharedSecrets (readings 5).sessionId).isSome = true := by
    decide +kernel
  obtain ⟨herror, hstored, hsecrets⟩ := heval
  refine ⟨herror, rfl, hstored, hsecrets, ?_⟩
  obtain ⟨session, hsession, -⟩ := Option.map_eq_some_iff.mp hstored
  exact not_sameSessions_of_new Finmap.notMem_empty hsession

end HandshakeCoordinator

end QuDAG.Protocol
