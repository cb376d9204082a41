import QuDAG.Protocol.Handshake
import QuDAG.Protocol.Signatures
import QuDAG.Protocol.StateDiscipline

/-!
# What processing a handshake message does

One lemma for each function of the coordinator, which says what the function can do: with which
checks an error leaves the coordinator as it was, and how it changes otherwise.

## Main results

* `checkInit_eq_ok`, `answerInit_eq_ok`, `acceptResponse_eq_ok` — when the parts that only read
  succeed, and with what.
* `HandshakeCoordinator.processHandshakeInit_cases`,
  `HandshakeCoordinator.processHandshakeResponse_cases`,
  `HandshakeCoordinator.processHandshakeComplete_cases` — the messages.
-/

namespace QuDAG.Protocol

open RustStd

variable {P : Platform} {config : HandshakeConfig} {env : Env} {message : Message}

/-! ## The parts that only read -/

/-- The payload of the message is the given one. -/
def Carries (message : Message) (payload : HandshakeMessagePayload) : Prop :=
  ∃ rest, HandshakeMessagePayload.codec.decode message.payload = some (payload, rest)

/-- A message carries one payload. -/
lemma Carries.unique {payload payload' : HandshakeMessagePayload} (h : Carries message payload)
    (h' : Carries message payload') : payload = payload' := by
  obtain ⟨rest, h⟩ := h
  obtain ⟨rest', h'⟩ := h'
  rw [h] at h'
  exact (Prod.mk.inj (Option.some.inj h')).1

/-- Deserialization finds what the message carries. -/
lemma decodePayload_eq_ok {kind : String} {payload : HandshakeMessagePayload} :
    decodePayload P kind message.payload = .ok payload ↔ Carries message payload := by
  unfold decodePayload Carries
  cases HandshakeMessagePayload.codec.decode message.payload with
  | none => exact ⟨nofun, nofun⟩
  | some r =>
    constructor
    · exact fun h => ⟨r.2, congrArg some (Prod.ext (Except.ok.inj h) rfl)⟩
    · rintro ⟨rest, h⟩
      rw [Option.some.inj h]

/-- A signature is accepted iff it verifies. -/
lemma verifySignature_eq_ok {publicKey : MlDsaPublicKey} :
    verifySignature P env message publicKey = .ok () ↔
      message.verify P env.headerOrder publicKey = .ok true := by
  unfold verifySignature
  rw [bind_eq_ok]
  constructor
  · rintro ⟨verified, hverify, h⟩
    cases verified with
    | false => cases h
    | true => exact mapError_eq_ok.mp hverify
  · exact fun h => ⟨true, mapError_eq_ok.mpr h, rfl⟩

/-- The keys that are generated. -/
lemma generateKeys_eq_ok {signatureSeed kemSeed : Seed} {keys : HandshakeKeys}
    (h : generateKeys P signatureSeed kemSeed = .ok keys) :
    P.generateMlDsa signatureSeed = .ok keys.signatureKeypair ∧
      ∃ publicKey secretKey, P.keygen kemSeed = .ok (publicKey, secretKey) ∧
        keys.kemKeypair = ⟨publicKey.bytes, secretKey.bytes⟩ := by
  obtain ⟨signatureKeypair, hsignature, h⟩ := bind_eq_ok.mp h
  obtain ⟨⟨publicKey, secretKey⟩, hkem, h⟩ := bind_eq_ok.mp h
  obtain rfl := Except.ok.inj h
  exact ⟨mapError_eq_ok.mp hsignature, publicKey, secretKey, mapError_eq_ok.mp hkem, rfl⟩

/-- A message that is made and signed has its type and its payload. -/
lemma signedMessage_eq_ok {handshakeType : HandshakeType} {payload : HandshakeMessagePayload}
    {keys : HandshakeKeys} (h : signedMessage P env handshakeType payload keys = .ok message) :
    message.msgType = .handshake handshakeType ∧
      message.payload = HandshakeMessagePayload.codec.encode payload := by
  obtain ⟨signature, -, rfl⟩ := Message.sign_eq_ok (mapError_eq_ok.mp h)
  exact ⟨rfl, rfl⟩

/-- A message carries the payload that it was made with. -/
lemma carries_of_payload {payload : HandshakeMessagePayload}
    (hvalid : HandshakeMessagePayload.codec.Valid payload)
    (h : message.payload = HandshakeMessagePayload.codec.encode payload) :
    Carries message payload := by
  have hread := HandshakeMessagePayload.codec.decode_encode payload [] hvalid
  rw [List.append_nil] at hread
  exact ⟨[], h ▸ hread⟩

/-- A negotiated version is one of ours. -/
lemma mem_of_negotiateVersion {peerVersions : List ProtocolVersion}
    {peerPreferred version : ProtocolVersion}
    (h : negotiateVersion config peerVersions peerPreferred = .ok version) :
    version ∈ config.supportedVersions := by
  unfold negotiateVersion at h
  split_ifs at h with hmem
  · rwa [← Except.ok.inj h]
  · split at h
    · rw [← Except.ok.inj h]
      exact List.mem_of_find?_eq_some ‹_›
    · cases h

/-- The session that initiates a handshake. -/
def openedSession (env : Env) (peerId : Option (List UInt8)) (keys : HandshakeKeys) :
    HandshakeSession :=
  ⟨env.sessionId, peerId, .initSent, none, [], keys, none, none, env.startedAt, env.lastActivity,
    env.nonce⟩

/-- **A new session of the initiator.** -/
lemma openSession_eq_ok {peerId : Option (List UInt8)} {session : HandshakeSession}
    {first : Message} (h : openSession P config env peerId = .ok (session, first)) :
    ∃ keys, generateKeys P env.signatureSeed env.kemSeed = .ok keys ∧
      signedMessage P env .init (.init (initPayload config env keys)) keys = .ok first ∧
      session = openedSession env peerId keys := by
  obtain ⟨keys, hkeys, h⟩ := bind_eq_ok.mp h
  obtain ⟨first', hfirst, h⟩ := bind_eq_ok.mp h
  obtain ⟨rfl, rfl⟩ := Prod.mk.inj (Except.ok.inj h)
  exact ⟨keys, hkeys, hfirst, rfl⟩

/-- What an initial message has to pass. -/
structure ChecksInit (P : Platform) (config : HandshakeConfig) (env : Env) (message : Message)
    (p : InitPayload) (version : ProtocolVersion) (key : MlDsaPublicKey) : Prop where
  /-- The message carries the payload. -/
  carries : Carries message (.init p)
  /-- A version is negotiated. -/
  negotiated : negotiateVersion config p.supportedVersions p.protocolVersion = .ok version
  /-- The peer has the required capabilities. -/
  capable : verifyCapabilities config p.capabilities = .ok ()
  /-- The signature key of the peer is well-formed. -/
  keyed : MlDsaPublicKey.fromBytes P p.signaturePublicKey = .ok key
  /-- The signature verifies. -/
  verified : message.verify P env.headerOrder key = .ok true

/-- **The checks of an initial message.** -/
lemma checkInit_eq_ok {checked : CheckedInit} :
    checkInit P config env message = .ok checked ↔
      ∃ p version key, ChecksInit P config env message p version key ∧
        checked = ⟨version, p.capabilities, ⟨key, ⟨p.kemPublicKey⟩⟩, p.nonce⟩ := by
  unfold checkInit
  rw [bind_eq_ok]
  constructor
  · rintro ⟨payload, hpayload, h⟩
    rw [decodePayload_eq_ok] at hpayload
    cases payload with
    | init p =>
      obtain ⟨version, hversion, h⟩ := bind_eq_ok.mp h
      obtain ⟨⟨⟩, hcapable, h⟩ := bind_eq_ok.mp h
      obtain ⟨key, hkey, h⟩ := bind_eq_ok.mp h
      obtain ⟨kemKey, hkem, h⟩ := bind_eq_ok.mp h
      obtain ⟨⟨⟩, hverified, h⟩ := bind_eq_ok.mp h
      obtain rfl := Except.ok.inj (mapError_eq_ok.mp hkem)
      exact ⟨p, version, key, ⟨hpayload, hversion, hcapable, mapError_eq_ok.mp hkey,
        verifySignature_eq_ok.mp hverified⟩, (Except.ok.inj h).symm⟩
    | _ => cases h
  · rintro ⟨p, version, key, h, rfl⟩
    refine ⟨.init p, decodePayload_eq_ok.mpr h.carries, ?_⟩
    refine bind_eq_ok.mpr ⟨version, h.negotiated, bind_eq_ok.mpr ⟨(), h.capable, ?_⟩⟩
    refine bind_eq_ok.mpr ⟨key, mapError_eq_ok.mpr h.keyed, ?_⟩
    exact bind_eq_ok.mpr ⟨⟨p.kemPublicKey⟩, rfl,
      bind_eq_ok.mpr ⟨(), verifySignature_eq_ok.mpr h.verified, rfl⟩⟩

/-- The session that answers an initial message. -/
def answeringSession (P : Platform) (env : Env) (checked : CheckedInit) (keys : HandshakeKeys)
    (secret : SharedSecret) : HandshakeSession :=
  ⟨env.sessionId, none, .responseSent, some checked.negotiatedVersion, checked.capabilities, keys,
    some checked.peerKeys, some (deriveSessionKeys P secret checked.nonce env.nonce),
    env.startedAt, env.lastActivity, env.nonce⟩

/-- **The answer to an initial message.** -/
lemma answerInit_eq_ok {checked : CheckedInit} {session : HandshakeSession} {response : Message} :
    answerInit P config env checked = .ok (session, response) ↔
      ∃ keys ciphertext secret,
        generateKeys P env.signatureSeed env.kemSeed = .ok keys ∧
        P.encapsulate checked.peerKeys.kemPublicKey env.encapsulationSeed =
          .ok (ciphertext, secret) ∧
        signedMessage P env .response
          (.response (responsePayload config env checked keys ciphertext)) keys = .ok response ∧
        session = answeringSession P env checked keys secret := by
  unfold answerInit
  rw [bind_eq_ok]
  constructor
  · rintro ⟨keys, hkeys, h⟩
    obtain ⟨⟨ciphertext, secret⟩, hencapsulated, h⟩ := bind_eq_ok.mp h
    obtain ⟨response', hresponse, h⟩ := bind_eq_ok.mp h
    obtain ⟨rfl, rfl⟩ := Prod.mk.inj (Except.ok.inj h)
    exact ⟨keys, ciphertext, secret, hkeys, mapError_eq_ok.mp hencapsulated, hresponse, rfl⟩
  · rintro ⟨keys, ciphertext, secret, hkeys, hencapsulated, hresponse, rfl⟩
    exact ⟨keys, hkeys, bind_eq_ok.mpr ⟨(ciphertext, secret), mapError_eq_ok.mpr hencapsulated,
      bind_eq_ok.mpr ⟨response, hresponse, rfl⟩⟩⟩

/-- What a response has to pass. -/
structure ChecksResponse (P : Platform) (config : HandshakeConfig) (env : Env)
    (session : HandshakeSession) (message : Message) (p : ResponsePayload) (key : MlDsaPublicKey)
    (secret : SharedSecret) : Prop where
  /-- The message carries the payload. -/
  carries : Carries message (.response p)
  /-- The signature key of the peer is well-formed. -/
  keyed : MlDsaPublicKey.fromBytes P p.signaturePublicKey = .ok key
  /-- The signature verifies. -/
  verified : message.verify P env.headerOrder key = .ok true
  /-- The version is supported. -/
  supported : p.protocolVersion ∈ config.supportedVersions
  /-- The peer has the required capabilities. -/
  capable : verifyCapabilities config p.capabilities = .ok ()
  /-- The ciphertext is decapsulated. -/
  decapsulated :
    P.decapsulate ⟨session.ourKeys.kemKeypair.secretKey⟩ ⟨p.kemCiphertext⟩ = .ok secret

/-- The session after a response was accepted. -/
def acceptedSession (P : Platform) (env : Env) (session : HandshakeSession) (p : ResponsePayload)
    (key : MlDsaPublicKey) (secret : SharedSecret) : HandshakeSession :=
  { session with
    negotiatedVersion := some p.protocolVersion
    peerCapabilities := p.capabilities
    peerKeys := some ⟨key, ⟨session.ourKeys.kemKeypair.publicKey⟩⟩
    sharedSecrets := some (deriveSessionKeys P secret session.nonce p.nonce)
    state := .responseReceived
    lastActivity := env.lastActivity }

/-- **The acceptance of a response.** -/
lemma acceptResponse_eq_ok {session accepted : HandshakeSession} :
    acceptResponse P config env session message = .ok accepted ↔
      ∃ p key secret, ChecksResponse P config env session message p key secret ∧
        accepted = acceptedSession P env session p key secret := by
  unfold acceptResponse
  rw [bind_eq_ok]
  constructor
  · rintro ⟨payload, hpayload, h⟩
    rw [decodePayload_eq_ok] at hpayload
    cases payload with
    | response p =>
      obtain ⟨key, hkey, h⟩ := bind_eq_ok.mp h
      obtain ⟨⟨⟩, hverified, h⟩ := bind_eq_ok.mp h
      by_cases hversion : p.protocolVersion ∈ config.supportedVersions
      · rw [if_neg (not_not.mpr hversion)] at h
        obtain ⟨⟨⟩, hcapable, h⟩ := bind_eq_ok.mp h
        obtain ⟨ciphertext, hciphertext, h⟩ := bind_eq_ok.mp h
        obtain ⟨secretKey, hsecretKey, h⟩ := bind_eq_ok.mp h
        obtain ⟨secret, hsecret, h⟩ := bind_eq_ok.mp h
        obtain ⟨kemKey, hkemKey, h⟩ := bind_eq_ok.mp h
        obtain rfl := Except.ok.inj (mapError_eq_ok.mp hciphertext)
        obtain rfl := Except.ok.inj (mapError_eq_ok.mp hsecretKey)
        obtain rfl := Except.ok.inj (mapError_eq_ok.mp hkemKey)
        exact ⟨p, key, secret, ⟨hpayload, mapError_eq_ok.mp hkey,
          verifySignature_eq_ok.mp hverified, hversion, hcapable, mapError_eq_ok.mp hsecret⟩,
          (Except.ok.inj h).symm⟩
      · rw [if_pos hversion] at h
        cases h
    | _ => cases h
  · rintro ⟨p, key, secret, h, rfl⟩
    refine ⟨.response p, decodePayload_eq_ok.mpr h.carries, ?_⟩
    refine bind_eq_ok.mpr ⟨key, mapError_eq_ok.mpr h.keyed, ?_⟩
    refine bind_eq_ok.mpr ⟨(), verifySignature_eq_ok.mpr h.verified, ?_⟩
    rw [if_neg (not_not.mpr h.supported)]
    refine bind_eq_ok.mpr ⟨(), h.capable, bind_eq_ok.mpr ⟨⟨p.kemCiphertext⟩, rfl, ?_⟩⟩
    refine bind_eq_ok.mpr ⟨⟨session.ourKeys.kemKeypair.secretKey⟩, rfl, ?_⟩
    exact bind_eq_ok.mpr ⟨secret, mapError_eq_ok.mpr h.decapsulated,
      bind_eq_ok.mpr ⟨⟨session.ourKeys.kemKeypair.publicKey⟩, rfl, rfl⟩⟩

namespace HandshakeCoordinator

variable {coordinator : HandshakeCoordinator}

/-! ## The coordinator -/

/-- A part that only reads ends as it does. -/
lemma run_ofResult_ok {α : Type} {r : Except HandshakeError α} {a : α} (h : r = .ok a) :
    (ofResult r).run coordinator = (.ok a, coordinator) := by
  rw [h]
  rfl

/-- Such a part succeeds, or the whole call ends with its error. -/
lemma run_ofResult_bind {α β : Type} (r : Except HandshakeError α)
    (k : α → Fallible Failure HandshakeCoordinator β) (coordinator : HandshakeCoordinator) :
    (∃ a, r = .ok a ∧ (ofResult r >>= k).run coordinator = (k a).run coordinator) ∨
      ((∀ a, r ≠ .ok a) ∧
        ∃ e, (ofResult r >>= k).run coordinator = (.error (.error e), coordinator)) := by
  cases hr : r with
  | ok a => exact .inl ⟨a, rfl, Fallible.run_bind_of_ok (run_ofResult_ok rfl)⟩
  | error e => exact .inr ⟨nofun, e, Fallible.run_bind_of_error rfl⟩

/-- The state machine refuses the message. -/
def Refuses (machine : ProtocolStateMachine) (handshakeType : HandshakeType) : Prop :=
  handshakeType = .init ∧ ProtocolStateMachine.refusesInit machine.currentState = true

/-- The state machine accepts the message. -/
lemma run_updateStateMachine_of_ok {sessionId : Uuid} {coordinator : HandshakeCoordinator}
    {machine : ProtocolStateMachine}
    (h : (ProtocolStateMachine.processMessage env.clock message (some sessionId)).run
      coordinator.stateMachine = (.ok (), machine)) :
    (updateStateMachine env message sessionId).run coordinator =
      (.ok (), { coordinator with stateMachine := machine }) := by
  rw [Fallible.run]
  simp only [updateStateMachine, h]

/-- The state machine refuses the message, and the call ends with its error. -/
lemma run_updateStateMachine_of_error {sessionId : Uuid} {coordinator : HandshakeCoordinator}
    {machine : ProtocolStateMachine} {e : StateError}
    (h : (ProtocolStateMachine.processMessage env.clock message (some sessionId)).run
      coordinator.stateMachine = (.error e, machine)) :
    (updateStateMachine env message sessionId).run coordinator =
      (.error (.error (.stateMachine e)), { coordinator with stateMachine := machine }) := by
  rw [Fallible.run]
  simp only [updateStateMachine, h]

/-- The state machine accepts a handshake message or refuses it; nothing else changes. -/
lemma updateStateMachine_cases (env : Env) {handshakeType : HandshakeType}
    (htype : message.msgType = .handshake handshakeType) (sessionId : Uuid)
    (coordinator : HandshakeCoordinator) :
    ∃ machine,
      (Refuses coordinator.stateMachine handshakeType ∧
        ∃ e, (updateStateMachine env message sessionId).run coordinator =
          (.error (.error e), { coordinator with stateMachine := machine })) ∨
      (¬ Refuses coordinator.stateMachine handshakeType ∧
        (updateStateMachine env message sessionId).run coordinator =
          (.ok (), { coordinator with stateMachine := machine })) := by
  rcases ProtocolStateMachine.run_processMessage htype env.clock (some sessionId)
    coordinator.stateMachine with ⟨hinit, hrefused, hrun⟩ | ⟨hnot, machine, hrun, -⟩
  · exact ⟨_, .inl ⟨⟨hinit, hrefused⟩, _, run_updateStateMachine_of_error hrun⟩⟩
  · exact ⟨_, .inr ⟨hnot, run_updateStateMachine_of_ok hrun⟩⟩

/-- **An initial message**: it fails a check and nothing changes, or its session is stored and
the state machine decides. -/
lemma processHandshakeInit_cases (htype : message.msgType = .handshake .init)
    (coordinator : HandshakeCoordinator) :
    ((∀ checked, checkInit P coordinator.config env message = .ok checked →
        ∀ answer, answerInit P coordinator.config env checked ≠ .ok answer) ∧
      ∃ e, (processHandshakeInit P env message).run coordinator =
        (.error (.error e), coordinator)) ∨
    ∃ checked session response machine,
      checkInit P coordinator.config env message = .ok checked ∧
      answerInit P coordinator.config env checked = .ok (session, response) ∧
      let stored : HandshakeCoordinator :=
        ⟨coordinator.config, coordinator.sessions.insert env.sessionId session, machine⟩
      (Refuses coordinator.stateMachine .init ∧
        ∃ e, (processHandshakeInit P env message).run coordinator = (.error (.error e), stored)) ∨
      (¬ Refuses coordinator.stateMachine .init ∧
        (processHandshakeInit P env message).run coordinator = (.ok (some response), stored)) := by
  unfold processHandshakeInit
  rw [Fallible.run_bind_of_ok (Fallible.run_get coordinator)]
  rcases run_ofResult_bind (checkInit P coordinator.config env message) _ coordinator with
    ⟨checked, hchecked, hrun⟩ | ⟨hfails, e, hrun⟩
  · rw [hrun]
    rcases run_ofResult_bind (answerInit P coordinator.config env checked) _ coordinator with
      ⟨⟨session, response⟩, hanswer, hrun'⟩ | ⟨hfails, e, hrun'⟩
    · rw [hrun']
      obtain ⟨machine, ⟨hrefuses, e, hmachine⟩ | ⟨hnot, hmachine⟩⟩ :=
        updateStateMachine_cases env htype env.sessionId
          { coordinator with sessions := coordinator.sessions.insert env.sessionId session }
      · refine .inr ⟨checked, session, response, machine, hchecked, hanswer, .inl ⟨hrefuses, e, ?_⟩⟩
        exact (Fallible.run_bind_of_ok (Fallible.run_modify _ _)).trans
          (Fallible.run_bind_of_error hmachine)
      · refine .inr ⟨checked, session, response, machine, hchecked, hanswer, .inr ⟨hnot, ?_⟩⟩
        exact (Fallible.run_bind_of_ok (Fallible.run_modify _ _)).trans
          (Fallible.run_bind_of_ok hmachine)
    · refine .inl ⟨fun checked' hchecked' answer hanswer => ?_, e, hrun'⟩
      rw [hchecked] at hchecked'
      obtain rfl := Except.ok.inj hchecked'
      exact hfails answer hanswer
  · exact .inl ⟨fun checked hchecked => absurd hchecked (hfails checked), e, hrun⟩

/-- Storing a session and going on. -/
lemma run_setSession_bind {α : Type} (sessionId : Uuid) (session : HandshakeSession)
    (k : Unit → Fallible Failure HandshakeCoordinator α) (coordinator : HandshakeCoordinator) :
    (setSession sessionId session >>= k).run coordinator =
      (k ()).run { coordinator with
        sessions := coordinator.sessions.insert sessionId session } :=
  Fallible.run_bind_of_ok (Fallible.run_modify _ _)

/-- The message is for a stored session in the expected state. -/
def For (coordinator : HandshakeCoordinator) (expected : HandshakeSessionState)
    (sessionId : Option Uuid) (id : Uuid) (session : HandshakeSession) : Prop :=
  sessionId = some id ∧ coordinator.sessions.lookup id = some session ∧ session.state = expected

/-- The session that a message is for is found, or nothing changes. -/
lemma findSession_bind_cases {α : Type} (kind : String) (expected : HandshakeSessionState)
    (sessionId : Option Uuid)
    (k : Uuid × HandshakeSession → Fallible Failure HandshakeCoordinator α)
    (coordinator : HandshakeCoordinator) :
    (∃ id session, coordinator.For expected sessionId id session ∧
      (findSession kind expected sessionId >>= k).run coordinator =
        (k (id, session)).run coordinator) ∨
    (∀ id session, ¬ coordinator.For expected sessionId id session) ∧
      ∃ e, (findSession kind expected sessionId >>= k).run coordinator =
        (.error (.error e), coordinator) := by
  unfold findSession For
  cases sessionId with
  | none => exact .inr ⟨(fun _ _ h => nomatch h.1), _, rfl⟩
  | some id =>
    cases hlookup : coordinator.sessions.lookup id with
    | none =>
      refine .inr ⟨fun id' session h => ?_, .invalidMessage ("Session not found: " ++ id.display),
        Fallible.run_bind_of_error ?_⟩
      · rw [← Option.some.inj h.1, hlookup] at h
        cases h.2.1
      · dsimp only
        rw [Fallible.run_bind_of_ok (Fallible.run_get coordinator), hlookup]
        rfl
    | some session =>
      by_cases hstate : session.state = expected
      · refine .inl ⟨id, session, ⟨rfl, hlookup, hstate⟩, Fallible.run_bind_of_ok ?_⟩
        dsimp only
        rw [Fallible.run_bind_of_ok (Fallible.run_get coordinator), hlookup]
        dsimp only
        rw [if_neg (not_not.mpr hstate)]
        rfl
      · refine .inr ⟨fun id' session' h => ?_, .invalidMessage ("Invalid session state for " ++
          kind ++ ": " ++ session.state.debug), Fallible.run_bind_of_error ?_⟩
        · rw [← Option.some.inj h.1, hlookup] at h
          rw [Option.some.inj h.2.1] at hstate
          exact hstate h.2.2
        · dsimp only
          rw [Fallible.run_bind_of_ok (Fallible.run_get coordinator), hlookup]
          dsimp only
          rw [if_pos hstate]
          rfl

/-- The completion message of a session. -/
def completeMessage (P : Platform) (env : Env) (id : Uuid) (keys : HandshakeKeys) :
    Except HandshakeError Message :=
  signedMessage P env .complete (.complete ⟨id.bytes, env.payloadTime⟩) keys

/-- **A response**: it fails a check and nothing changes; or its session is updated, and it is
completed unless the completion message cannot be signed. -/
lemma processHandshakeResponse_cases (htype : message.msgType = .handshake .response)
    (sessionId : Option Uuid) (coordinator : HandshakeCoordinator) :
    ((∀ id session, coordinator.For .initSent sessionId id session →
        ∀ accepted, acceptResponse P coordinator.config env session message ≠ .ok accepted) ∧
      ∃ e, (processHandshakeResponse P env message sessionId).run coordinator =
        (.error (.error e), coordinator)) ∨
    ∃ id session accepted, coordinator.For .initSent sessionId id session ∧
      acceptResponse P coordinator.config env session message = .ok accepted ∧
      (((∀ complete, completeMessage P env id accepted.ourKeys ≠ .ok complete) ∧
        ∃ e, (processHandshakeResponse P env message sessionId).run coordinator =
          (.error (.error e), { coordinator with
            sessions := coordinator.sessions.insert id accepted })) ∨
      ∃ complete machine, completeMessage P env id accepted.ourKeys = .ok complete ∧
        (processHandshakeResponse P env message sessionId).run coordinator =
          (.ok (some complete), ⟨coordinator.config,
            (coordinator.sessions.insert id accepted).insert id
              { accepted with state := .completed }, machine⟩)) := by
  unfold processHandshakeResponse
  rcases findSession_bind_cases "response" .initSent sessionId _ coordinator with
    ⟨id, session, hfor, hrun⟩ | ⟨hnone, e, hrun⟩
  · rw [hrun]
    dsimp only
    rw [Fallible.run_bind_of_ok (Fallible.run_get coordinator)]
    rcases run_ofResult_bind (acceptResponse P coordinator.config env session message) _
      coordinator with ⟨accepted, haccepted, hrun⟩ | ⟨hfails, e, hrun⟩
    · refine .inr ⟨id, session, accepted, hfor, haccepted, ?_⟩
      rw [hrun, run_setSession_bind]
      rcases run_ofResult_bind (completeMessage P env id accepted.ourKeys) _
        { coordinator with sessions := coordinator.sessions.insert id accepted } with
        ⟨complete, hcomplete, hrun⟩ | ⟨hfails, e, hrun⟩
      · obtain ⟨machine, ⟨hrefuses, -⟩ | ⟨-, hmachine⟩⟩ := updateStateMachine_cases env htype id
          { coordinator with
            sessions := (coordinator.sessions.insert id accepted).insert id
              { accepted with state := .completed } }
        · exact absurd hrefuses.1 (by decide)
        · exact .inr ⟨complete, machine, hcomplete, hrun.trans
            ((run_setSession_bind _ _ _ _).trans (Fallible.run_bind_of_ok hmachine))⟩
      · exact .inl ⟨hfails, e, hrun⟩
    · refine .inl ⟨fun id' session' hfor' accepted => ?_, e, hrun⟩
      obtain ⟨rfl, hlookup, -⟩ := hfor
      obtain ⟨hid, hlookup', -⟩ := hfor'
      obtain rfl := Option.some.inj hid
      rw [hlookup] at hlookup'
      obtain rfl := Option.some.inj hlookup'
      exact hfails accepted
  · exact .inl ⟨fun id session hfor => absurd hfor (hnone id session), e, hrun⟩

/-- The session after a completion message. -/
def completedSession (env : Env) (session : HandshakeSession) : HandshakeSession :=
  { session with
    state := .completed
    lastActivity := env.lastActivity }

/-- **A completion message**: it fails a check and nothing changes, or its session is completed. -/
lemma processHandshakeComplete_cases (htype : message.msgType = .handshake .complete)
    (sessionId : Option Uuid) (coordinator : HandshakeCoordinator) :
    (∃ e, (processHandshakeComplete P env message sessionId).run coordinator =
      (.error (.error e), coordinator)) ∨
    ∃ id session machine, coordinator.For .responseSent sessionId id session ∧
      (processHandshakeComplete P env message sessionId).run coordinator =
        (.ok none, ⟨coordinator.config,
          coordinator.sessions.insert id (completedSession env session), machine⟩) := by
  unfold processHandshakeComplete
  rcases findSession_bind_cases "complete" .responseSent sessionId _ coordinator with
    ⟨id, session, hfor, hrun⟩ | ⟨-, e, hrun⟩
  · rw [hrun]
    dsimp only
    rcases run_ofResult_bind (verifyPeer P env session message) _ coordinator with
      ⟨⟨⟩, -, hrun⟩ | ⟨-, e, hrun⟩
    · obtain ⟨machine, ⟨hrefuses, -⟩ | ⟨-, hmachine⟩⟩ := updateStateMachine_cases env htype id
        { coordinator with
          sessions := coordinator.sessions.insert id (completedSession env session) }
      · exact absurd hrefuses.1 (by decide)
      · exact .inr ⟨id, session, machine, hfor, hrun.trans
          ((run_setSession_bind _ _ _ _).trans (Fallible.run_bind_of_ok hmachine))⟩
    · exact .inl ⟨e, hrun⟩
  · exact .inl ⟨e, hrun⟩

/-- Version negotiation changes nothing. -/
lemma processVersionNegotiation_state (message : Message) (coordinator : HandshakeCoordinator) :
    ((processVersionNegotiation P message).run coordinator).2 = coordinator := by
  unfold processVersionNegotiation
  rw [Fallible.run_bind_of_ok (Fallible.run_get coordinator)]
  rcases run_ofResult_bind (decodePayload P "version negotiation" message.payload) _ coordinator
    with ⟨payload, -, hrun⟩ | ⟨-, e, hrun⟩
  · rw [hrun]
    cases payload with
    | versionNegotiation p =>
      dsimp only
      rcases run_ofResult_bind (negotiateVersion coordinator.config p.supportedVersions
        p.preferredVersion) _ coordinator with ⟨version, -, hrun'⟩ | ⟨-, e, hrun'⟩
      · rw [hrun']
        rfl
      · rw [hrun']
    | _ => rfl
  · rw [hrun]

/-- The time of the message is accepted. -/
def Timely (P : Platform) (env : Env) (coordinator : HandshakeCoordinator) (message : Message) :
    Prop :=
  validateTimestamp P.overflowChecks coordinator.config env.now message = .ok ()

/-- The processing of a message whose time is accepted. -/
def processTimely (P : Platform) (env : Env) (message : Message) (sessionId : Option Uuid) :
    Fallible Failure HandshakeCoordinator (Option Message) :=
  match message.msgType with
  | .handshake .init => processHandshakeInit P env message
  | .handshake .response => processHandshakeResponse P env message sessionId
  | .handshake .complete => processHandshakeComplete P env message sessionId
  | .handshake .versionNegotiation => processVersionNegotiation P message
  | _ => failWith (.invalidMessage "Not a handshake message")

/-- **A handshake message** is processed if its time is accepted; nothing changes otherwise. -/
lemma processHandshakeMessage_cases (message : Message) (sessionId : Option Uuid)
    (coordinator : HandshakeCoordinator) :
    (coordinator.Timely P env message ∧
      (processHandshakeMessage P env message sessionId).run coordinator =
        (processTimely P env message sessionId).run coordinator) ∨
    ¬ coordinator.Timely P env message ∧
      ∃ e, (processHandshakeMessage P env message sessionId).run coordinator =
        (.error e, coordinator) := by
  unfold Timely
  cases htime : validateTimestamp P.overflowChecks coordinator.config env.now message with
  | ok u =>
    have hcheck : (checkTimestamp P env message).run coordinator = (.ok (), coordinator) := by
      unfold checkTimestamp
      rw [Fallible.run_bind_of_ok (Fallible.run_get coordinator), htime]
      rfl
    exact .inl ⟨rfl, Fallible.run_bind_of_ok hcheck⟩
  | err e =>
    have hcheck : (checkTimestamp P env message).run coordinator =
        (.error (.error e), coordinator) := by
      unfold checkTimestamp
      rw [Fallible.run_bind_of_ok (Fallible.run_get coordinator), htime]
      rfl
    exact .inr ⟨(fun h => by cases h), .error e, Fallible.run_bind_of_error hcheck⟩
  | panic =>
    have hcheck : (checkTimestamp P env message).run coordinator =
        (.error .panic, coordinator) := by
      unfold checkTimestamp
      rw [Fallible.run_bind_of_ok (Fallible.run_get coordinator), htime]
      rfl
    exact .inr ⟨(fun h => by cases h), .panic, Fallible.run_bind_of_error hcheck⟩

/-- **Initiating a handshake**: it fails and nothing changes, or a session is stored and its first
message sent. -/
lemma initiateHandshake_cases (peerId : Option (List UInt8)) (coordinator : HandshakeCoordinator) :
    (∃ e, (initiateHandshake P env peerId).run coordinator = (.error (.error e), coordinator)) ∨
    ∃ session first, openSession P coordinator.config env peerId = .ok (session, first) ∧
      (initiateHandshake P env peerId).run coordinator = (.ok (env.sessionId, first),
        { coordinator with sessions := coordinator.sessions.insert env.sessionId session }) := by
  unfold initiateHandshake
  rw [Fallible.run_bind_of_ok (Fallible.run_get coordinator)]
  rcases run_ofResult_bind (openSession P coordinator.config env peerId) _ coordinator with
    ⟨⟨session, first⟩, hopened, hrun⟩ | ⟨-, e, hrun⟩
  · exact .inr ⟨session, first, hopened, hrun.trans (run_setSession_bind _ _ _ _)⟩
  · exact .inl ⟨e, hrun⟩

/-- Processing a message does not change the configuration. -/
lemma config_processHandshakeMessage (message : Message) (sessionId : Option Uuid)
    (coordinator : HandshakeCoordinator) :
    ((processHandshakeMessage P env message sessionId).run coordinator).2.config =
      coordinator.config := by
  rcases processHandshakeMessage_cases message sessionId coordinator with
    ⟨-, hrun⟩ | ⟨-, e, hrun⟩
  · rw [hrun]
    unfold processTimely
    cases htype : message.msgType with
    | handshake handshakeType =>
      cases handshakeType with
      | init =>
        dsimp only
        rcases processHandshakeInit_cases htype coordinator with
          ⟨-, e, hrun⟩ | ⟨checked, session, response, machine, -, -, ⟨-, e, hrun⟩ | ⟨-, hrun⟩⟩
        all_goals rw [hrun]
      | response =>
        dsimp only
        rcases processHandshakeResponse_cases htype sessionId coordinator with
          ⟨-, e, hrun⟩ | ⟨id, session, accepted, -, -, ⟨-, e, hrun⟩ | ⟨complete, machine, -, hrun⟩⟩
        all_goals rw [hrun]
      | complete =>
        dsimp only
        rcases processHandshakeComplete_cases htype sessionId coordinator with
          ⟨e, hrun⟩ | ⟨id, session, machine, -, hrun⟩
        all_goals rw [hrun]
      | versionNegotiation =>
        exact congrArg HandshakeCoordinator.config (processVersionNegotiation_state message _)
    | _ => rfl
  · rw [hrun]

end HandshakeCoordinator

end QuDAG.Protocol
