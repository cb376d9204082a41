import QuDAG.Protocol.HandshakeReplay
import QuDAG.Protocol.Network

/-!
# Completed handshakes agree on their secrets

In an honest run the responder derives its secrets when it answers an init, the initiator when it
accepts the response, and the two sessions of a handshake that have completed hold the same
secrets.

## Main definitions

* `HandshakeConfig.Fits`, `Platform.Fits` — lists and keys that fit their length prefixes, as
  everything in memory does.

## Main results

* `Network.Agreeing.step` — an honest event keeps the invariant.
* `Network.secrets_agree` — completed sessions of one handshake have equal secrets.
-/

namespace QuDAG.Protocol

open RustStd HandshakeCoordinator

/-- The lists of a configuration fit their length prefixes. -/
structure HandshakeConfig.Fits (config : HandshakeConfig) : Prop where
  /-- The versions. -/
  versions : ProtocolVersion.codec.list.Valid config.supportedVersions
  /-- The capabilities. -/
  capabilities : Codec.string.list.Valid config.capabilities

/-- Keys and ciphertexts fit their length prefixes. -/
structure Platform.Fits (P : Platform) : Prop where
  /-- Signature keys. -/
  signatureKey : ∀ seed keypair, P.generateMlDsa seed = .ok keypair →
    keypair.publicKey.length < 2 ^ 64
  /-- Encapsulation keys. -/
  kemKey : ∀ seed publicKey secretKey, P.keygen seed = .ok (publicKey, secretKey) →
    publicKey.bytes.length < 2 ^ 64
  /-- Ciphertexts. -/
  ciphertext : ∀ publicKey seed ciphertext secret,
    P.encapsulate publicKey seed = .ok (ciphertext, secret) → ciphertext.bytes.length < 2 ^ 64

variable {P : Platform} {config : HandshakeConfig} {env : Env}

/-- The current version has no features. -/
lemma ProtocolVersion.valid_current : ProtocolVersion.codec.Valid .current := by
  refine ⟨⟨Codec.valid_u16 _, Codec.valid_u16 _, Codec.valid_u16 _, ?_⟩, rfl⟩
  exact ⟨by decide, fun _ h => absurd h List.not_mem_nil⟩

/-- An init is read back if its fields are. -/
lemma HandshakeMessagePayload.valid_init {p : InitPayload} (h : InitPayload.codec.Valid p) :
    HandshakeMessagePayload.codec.Valid (.init p) :=
  ⟨show 0 < 256 ^ 4 by decide, p, rfl, h, rfl⟩

/-- A response is read back if its fields are. -/
lemma HandshakeMessagePayload.valid_response {p : ResponsePayload}
    (h : ResponsePayload.codec.Valid p) : HandshakeMessagePayload.codec.Valid (.response p) :=
  ⟨show 1 < 256 ^ 4 by decide, p, rfl, h, rfl⟩

/-- The init of a new session is read back. -/
lemma valid_initPayload (hP : P.Fits) (hconfig : config.Fits) {keys : HandshakeKeys}
    (hkeys : generateKeys P env.signatureSeed env.kemSeed = .ok keys) :
    HandshakeMessagePayload.codec.Valid (.init (initPayload config env keys)) := by
  obtain ⟨hsignature, publicKey, secretKey, hkem, hpair⟩ := generateKeys_eq_ok hkeys
  have hpublic : keys.kemKeypair.publicKey.length < 2 ^ 64 := by
    rw [hpair]
    exact hP.kemKey _ _ _ hkem
  have hsigned := hP.signatureKey _ _ hsignature
  refine HandshakeMessagePayload.valid_init ⟨?_, rfl⟩
  exact ⟨ProtocolVersion.valid_current, hconfig.versions, hconfig.capabilities,
    (Codec.valid_byteVec _).mpr hsigned, (Codec.valid_byteVec _).mpr hpublic,
    Codec.valid_u64 _, Codec.valid_u64 _⟩

/-- The response of a new session is read back. -/
lemma valid_responsePayload (hP : P.Fits) (hconfig : config.Fits) {checked : CheckedInit}
    {keys : HandshakeKeys} {ciphertext : KemCiphertext} {secret : SharedSecret}
    (hversion : checked.negotiatedVersion ∈ config.supportedVersions)
    (hkeys : generateKeys P env.signatureSeed env.kemSeed = .ok keys)
    (hencapsulated : P.encapsulate checked.peerKeys.kemPublicKey env.encapsulationSeed =
      .ok (ciphertext, secret)) :
    HandshakeMessagePayload.codec.Valid
      (.response (responsePayload config env checked keys ciphertext)) := by
  obtain ⟨hsignature, -⟩ := generateKeys_eq_ok hkeys
  have hsigned := hP.signatureKey _ _ hsignature
  have hcipher := hP.ciphertext _ _ _ _ hencapsulated
  refine HandshakeMessagePayload.valid_response ⟨?_, rfl⟩
  exact ⟨hconfig.versions.2 _ hversion, hconfig.capabilities,
    (Codec.valid_byteVec _).mpr hsigned, (Codec.valid_byteVec _).mpr hcipher,
    Codec.valid_u64 _, Codec.valid_u64 _⟩

/-- What a message carries depends on its payload only. -/
lemma Carries.of_sameContent {message sent : Message} {payload : HandshakeMessagePayload}
    (h : Carries sent payload) (hsame : Network.SameContent message sent) :
    Carries message payload := by
  obtain ⟨rest, h⟩ := h
  exact ⟨rest, by rw [hsame.2, h]⟩

namespace Network

variable {ι : Type} {configs : ι → HandshakeConfig} {net : Network ι}

/-! ## New messages -/

/-- A new init. -/
lemma Agreeing.addInit (h : Agreeing P configs net) {r : ι × Uuid × Message}
    (hr : InitOk P net r) : Agreeing P configs { net with inits := r :: net.inits } := by
  refine ⟨h.config_eq, fun r' hr' => ?_, fun r' hr' => ?_, h.completes, h.unique⟩
  · rcases List.mem_cons.mp hr' with rfl | hr'
    · exact hr
    · exact h.inits r' hr'
  · obtain ⟨⟨message, hmessage⟩, hrest⟩ := h.responses r' hr'
    exact ⟨⟨message, List.mem_cons_of_mem _ hmessage⟩, hrest⟩

/-- A new response, from a session that has sent none. -/
lemma Agreeing.addResponse (h : Agreeing P configs net) {r : Pairing ι × Message}
    (hr : ResponseOk P net r) (hnew : ¬ net.Used r.1.responder r.1.responderSession) :
    Agreeing P configs { net with responses := r :: net.responses } := by
  refine ⟨h.config_eq, h.inits, fun r' hr' => ?_, fun r' hr' => ?_, fun r₁ h₁ r₂ h₂ => ?_⟩
  · rcases List.mem_cons.mp hr' with rfl | hr'
    · exact hr
    · exact h.responses r' hr'
  · obtain ⟨⟨message, hmessage⟩, hrest⟩ := h.completes r' hr'
    exact ⟨⟨message, List.mem_cons_of_mem _ hmessage⟩, hrest⟩
  · intro hresponder hid
    rcases List.mem_cons.mp h₁ with rfl | hold₁ <;> rcases List.mem_cons.mp h₂ with rfl | hold₂
    · rfl
    · exact absurd (Or.inr ⟨r₂, hold₂, hresponder.symm, hid.symm⟩) hnew
    · exact absurd (Or.inr ⟨r₁, hold₁, hresponder, hid⟩) hnew
    · exact h.unique r₁ hold₁ r₂ hold₂ hresponder hid

/-- A new completion message. -/
lemma Agreeing.addComplete (h : Agreeing P configs net) {r : Pairing ι × Message}
    (hr : CompleteOk net r) : Agreeing P configs { net with completes := r :: net.completes } := by
  refine ⟨h.config_eq, h.inits, fun r' hr' => ?_, fun r' hr' => ?_, h.unique⟩
  · obtain ⟨hsent, htype, q, secretKey, secret, nonce, hcarries, hsecret, hinitiator,
      hresponder⟩ := h.responses r' hr'
    refine ⟨hsent, htype, q, secretKey, secret, nonce, hcarries, hsecret, hinitiator,
      fun b hb => ?_⟩
    obtain ⟨hsecrets, hstate, hcompleted⟩ := hresponder b hb
    refine ⟨hsecrets, hstate, fun hdone => ?_⟩
    obtain ⟨complete, hcomplete⟩ := hcompleted hdone
    exact ⟨complete, List.mem_cons_of_mem _ hcomplete⟩
  · rcases List.mem_cons.mp hr' with rfl | hr'
    · exact hr
    · exact h.completes r' hr'

/-! ## Changes of one node -/

/-- A node that does not change. -/
lemma Continues.refl (net : Network ι) (i : ι) : net.Continues i (net.nodes i) :=
  ⟨rfl, fun id session hlookup _ => ⟨session, hlookup, .refl net i id session⟩⟩

/-- A session with a new identifier changes no session that has sent a message. -/
lemma Continues.insert_new {i : ι} {id : Uuid} (hnew : ¬ net.Used i id)
    (session : HandshakeSession) (machine : ProtocolStateMachine) :
    net.Continues i ⟨(net.nodes i).config, (net.nodes i).sessions.insert id session, machine⟩ := by
  refine ⟨rfl, fun id' session' hlookup hused => ?_⟩
  have hid : id' ≠ id := fun heq => hnew (heq ▸ hused)
  rw [Finmap.lookup_insert_of_ne _ hid] at hlookup
  exact ⟨session', hlookup, .refl net i id' session'⟩

/-- One session changes as it may. -/
lemma Continues.insert_evolved {i : ι} {id : Uuid} {before after : HandshakeSession}
    (hbefore : net.At i id before) (hevolves : Evolves net i id before after)
    (machine : ProtocolStateMachine) :
    net.Continues i ⟨(net.nodes i).config, (net.nodes i).sessions.insert id after, machine⟩ := by
  refine ⟨rfl, fun id' session' hlookup _ => ?_⟩
  by_cases hid : id' = id
  · subst hid
    rw [Finmap.lookup_insert] at hlookup
    obtain rfl := Option.some.inj hlookup
    exact ⟨before, hbefore, hevolves⟩
  · rw [Finmap.lookup_insert_of_ne _ hid] at hlookup
    exact ⟨session', hlookup, .refl net i id' session'⟩

/-- Cleaning up only removes sessions. -/
lemma Continues.cleanupSessions (net : Network ι) (i : ι) (now : ℕ) :
    net.Continues i ((net.nodes i).cleanupSessions now) := by
  refine ⟨rfl, fun id session hlookup _ => ?_⟩
  obtain ⟨hbefore, -⟩ := HashMap.lookup_retain.mp hlookup
  exact ⟨session, hbefore, .refl net i id session⟩

/-! ## The events -/

variable [DecidableEq ι]

/-- The session that a node has stored under an identifier, after a change of the node. -/
lemma eq_of_at_setNode {i : ι} {id : Uuid} {coordinator : HandshakeCoordinator}
    {session stored : HandshakeSession} (hat : (net.setNode i coordinator).At i id session)
    (hstored : coordinator.sessions.lookup id = some stored) : session = stored := by
  rcases at_setNode.mp hat with ⟨-, hlookup⟩ | ⟨hne, -⟩
  · rw [hstored] at hlookup
    exact (Option.some.inj hlookup).symm
  · exact absurd rfl hne

/-- **A node initiates a handshake.** -/
lemma Agreeing.initiate (h : Agreeing P configs net) (hP : P.Fits)
    (hconfig : ∀ i, (configs i).Fits) {i : ι} {peerId : Option (List UInt8)}
    (hnew : ¬ net.Used i env.sessionId) :
    Agreeing P configs (applyEvent P net (.initiate i env peerId)) := by
  dsimp only [applyEvent]
  rcases @initiateHandshake_cases P env peerId (net.nodes i) with
    ⟨e, hrun⟩ | ⟨session, first, hopened, hrun⟩
  · rw [hrun]
    exact h.setNode (.refl net i)
  · rw [hrun]
    have hset := h.setNode (Continues.insert_new hnew session (net.nodes i).stateMachine)
    obtain ⟨keys, hkeys, hfirst, rfl⟩ := openSession_eq_ok hopened
    obtain ⟨-, publicKey, secretKey, hkem, hpair⟩ := generateKeys_eq_ok hkeys
    obtain ⟨htype, hpayload⟩ := signedMessage_eq_ok hfirst
    rw [h.config_eq] at hpayload
    refine hset.addInit ⟨htype, _, env.kemSeed, secretKey,
      carries_of_payload (valid_initPayload hP (hconfig i) hkeys) hpayload, ?_, fun a ha => ?_⟩
    · rw [hkem]
      simp only [initPayload, hpair]
    · obtain rfl := eq_of_at_setNode ha (Finmap.lookup_insert _)
      refine ⟨?_, rfl⟩
      simp only [openedSession, hpair]

/-- **An init is delivered.** -/
lemma Agreeing.deliverInit (h : Agreeing P configs net) (hkem : P.KemCorrect) (hP : P.Fits)
    (hconfig : ∀ i, (configs i).Fits) {sent : ι × Uuid × Message} {j : ι} {message : Message}
    (hsent : sent ∈ net.inits) (hsame : SameContent message sent.2.2)
    (hnew : ¬ net.Used j env.sessionId) :
    Agreeing P configs (applyEvent P net (.deliverInit sent j env message)) := by
  obtain ⟨htype, p, seed, secretKey, hcarries, hkeygen, hsession⟩ := h.inits sent hsent
  rw [← hsame.1] at htype
  dsimp only [applyEvent]
  rcases @processHandshakeMessage_cases P env message none (net.nodes j) with
    ⟨-, hrun⟩ | ⟨-, e, hrun⟩
  · rw [hrun]
    unfold processTimely
    rw [htype]
    dsimp only
    rcases processHandshakeInit_cases htype (net.nodes j) with
      ⟨-, e, hrun⟩ | ⟨checked, session, response, machine, hchecked, hanswer,
        ⟨-, e, hrun⟩ | ⟨-, hrun⟩⟩
    · rw [hrun]
      exact h.setNode (.refl net j)
    · rw [hrun]
      exact h.setNode (.insert_new hnew session machine)
    · rw [hrun]
      have hset := h.setNode (Continues.insert_new hnew session machine)
      obtain ⟨p', version, key, hchecks, rfl⟩ := checkInit_eq_ok.mp hchecked
      obtain ⟨keys, ciphertext, secret, hkeys, hencapsulated, hresponse, rfl⟩ :=
        answerInit_eq_ok.mp hanswer
      obtain ⟨hresponseType, hpayload⟩ := signedMessage_eq_ok hresponse
      obtain rfl : p = p' := by
        cases hchecks.carries.unique (hcarries.of_sameContent hsame)
        rfl
      have hversion := mem_of_negotiateVersion hchecks.negotiated
      rw [h.config_eq] at hpayload hversion
      refine hset.addResponse ⟨⟨sent.2.2, hsent⟩, hresponseType, _, secretKey, secret, p.nonce,
        carries_of_payload (valid_responsePayload hP (hconfig j) hversion hkeys hencapsulated)
          hpayload, hkem _ _ _ _ _ _ hkeygen hencapsulated, fun a ha => ?_, fun b hb => ?_⟩ hnew
      · -- the session of the initiator is as it was
        obtain ⟨before, hbefore, hevolves⟩ := Continues.at
          (Continues.insert_new hnew _ machine) ha (.inl ⟨sent.2.2, hsent⟩)
        rw [hevolves.ourKeys, hevolves.nonce]
        exact hsession before hbefore
      · obtain rfl := eq_of_at_setNode hb (Finmap.lookup_insert _)
        exact ⟨rfl, by rintro ⟨⟩, by rintro ⟨⟩⟩
  · rw [hrun]
    exact h.setNode (.refl net j)

/-- **A response is delivered.** -/
lemma Agreeing.deliverResponse (h : Agreeing P configs net) {sent : Pairing ι × Message}
    {message : Message} (hsent : sent ∈ net.responses) (hsame : SameContent message sent.2) :
    Agreeing P configs (applyEvent P net (.deliverResponse sent env message)) := by
  obtain ⟨-, htype, q, secretKey, secret, nonce, hcarries, hsecret, hinitiator, hresponder⟩ :=
    h.responses sent hsent
  rw [← hsame.1] at htype
  dsimp only [applyEvent]
  rcases @processHandshakeMessage_cases P env message
    (some sent.1.initiatorSession) (net.nodes sent.1.initiator) with ⟨-, hrun⟩ | ⟨-, e, hrun⟩
  · rw [hrun]
    unfold processTimely
    rw [htype]
    dsimp only
    rcases processHandshakeResponse_cases htype
      (some sent.1.initiatorSession) (net.nodes sent.1.initiator) with
      ⟨-, e, hrun⟩ | ⟨id, session, accepted, hfor, haccepted, hrest⟩
    · rw [hrun]
      exact h.setNode (.refl net _)
    · obtain ⟨hid, hlookup, hstate⟩ := hfor
      obtain rfl := Option.some.inj hid
      obtain ⟨q', key, secret', hchecks, rfl⟩ := acceptResponse_eq_ok.mp haccepted
      obtain rfl : q = q' := by
        cases hchecks.carries.unique (hcarries.of_sameContent hsame)
        rfl
      rcases hrest with ⟨-, e, hrun⟩ | ⟨complete, machine, hcomplete, hrun⟩
      · -- the session waits for no response any more, but no message is sent
        have hevolves : Evolves net sent.1.initiator sent.1.initiatorSession session
            (acceptedSession P env session q key secret') :=
          ⟨rfl, rfl, .inr (.inl ⟨hstate, by rintro ⟨⟩⟩)⟩
        rw [hrun]
        exact h.setNode (.insert_evolved hlookup hevolves _)
      · have hevolves : Evolves net sent.1.initiator sent.1.initiatorSession session
            { acceptedSession P env session q key secret' with state := .completed } :=
          ⟨rfl, rfl, .inr (.inl ⟨hstate, by rintro ⟨⟩⟩)⟩
        have hcontinues := Continues.insert_evolved hlookup hevolves machine
        obtain ⟨hcompleteType, -⟩ := signedMessage_eq_ok hcomplete
        rw [hrun, Finmap.insert_insert]
        refine (h.setNode hcontinues).addComplete ⟨⟨sent.2, hsent⟩, hcompleteType,
          deriveSessionKeys P secret nonce q.nonce, fun a ha => ?_, fun b hb => ?_⟩
        · obtain rfl := eq_of_at_setNode ha (Finmap.lookup_insert _)
          obtain ⟨hsecretKey, hnonce⟩ := hinitiator session hlookup
          have hdecapsulated := hchecks.decapsulated
          rw [hsecretKey, hsecret] at hdecapsulated
          obtain rfl := Except.ok.inj hdecapsulated
          exact ⟨hnonce ▸ rfl, by rintro ⟨⟩⟩
        · -- the responder derived its secrets when it sent the response
          obtain ⟨before, hbefore, hchange⟩ := hcontinues.at hb (.inr ⟨sent, hsent, rfl, rfl⟩)
          obtain ⟨hsecrets, hwaits, -⟩ := hresponder before hbefore
          obtain ⟨hkept, hwaits'⟩ := hchange.secrets hwaits
          exact ⟨hkept.trans hsecrets, hwaits'⟩
  · rw [hrun]
    exact h.setNode (.refl net _)

/-- **A completion message is delivered.** -/
lemma Agreeing.deliverComplete (h : Agreeing P configs net) {sent : Pairing ι × Message}
    {message : Message} (hsent : sent ∈ net.completes) (hsame : SameContent message sent.2) :
    Agreeing P configs (applyEvent P net (.deliverComplete sent env message)) := by
  obtain ⟨-, htype, -⟩ := h.completes sent hsent
  rw [← hsame.1] at htype
  dsimp only [applyEvent]
  rcases @processHandshakeMessage_cases P env message
    (some sent.1.responderSession) (net.nodes sent.1.responder) with ⟨-, hrun⟩ | ⟨-, e, hrun⟩
  · rw [hrun]
    unfold processTimely
    rw [htype]
    dsimp only
    rcases processHandshakeComplete_cases htype
      (some sent.1.responderSession) (net.nodes sent.1.responder) with
      ⟨e, hrun⟩ | ⟨id, session, machine, hfor, hrun⟩
    · rw [hrun]
      exact h.setNode (.refl net _)
    · obtain ⟨hid, hlookup, -⟩ := hfor
      obtain rfl := Option.some.inj hid
      have hevolves : Evolves net sent.1.responder sent.1.responderSession session
          (completedSession env session) :=
        ⟨rfl, rfl, .inr (.inr ⟨rfl, rfl, sent, hsent, rfl, rfl⟩)⟩
      rw [hrun]
      exact h.setNode (.insert_evolved hlookup hevolves machine)
  · rw [hrun]
    exact h.setNode (.refl net _)

/-- **An honest event keeps the invariant.** -/
lemma Agreeing.step (h : Agreeing P configs net) (hkem : P.KemCorrect) (hP : P.Fits)
    (hconfig : ∀ i, (configs i).Fits) {event : Event ι} (hhonest : Honest net event) :
    Agreeing P configs (applyEvent P net event) := by
  cases event with
  | initiate i env peerId => exact h.initiate hP hconfig hhonest
  | deliverInit sent j env message =>
    exact h.deliverInit hkem hP hconfig hhonest.1 hhonest.2.1 hhonest.2.2
  | deliverResponse sent env message => exact h.deliverResponse hhonest.1 hhonest.2
  | deliverComplete sent env message => exact h.deliverComplete hhonest.1 hhonest.2
  | cleanup i now => exact h.setNode (.cleanupSessions net i now)

/-- **Completed handshakes agree.** After every honest run, for every handshake in which a response
was sent: if both of its sessions have completed, they hold the same secrets.

**Proof sketch.** The responder derives its secrets from the encapsulated secret and the two nonces
when it sends the response, and the initiator from the decapsulated secret and the same nonces when
it accepts that response. The responder completes only when it gets the completion message, which
the initiator sends only then. -/
theorem secrets_agree (hkem : P.KemCorrect) (hP : P.Fits) (hconfig : ∀ i, (configs i).Fits)
    {machines : ι → ProtocolStateMachine} {events : List (Event ι)}
    (hhonest : Runs.Steps (applyEvent P) Honest (start configs machines) events) :
    let net := Runs.run (applyEvent P) (start configs machines) events
    ∀ r ∈ net.responses, ∀ a b, net.At r.1.initiator r.1.initiatorSession a →
      net.At r.1.responder r.1.responderSession b → a.state = .completed → b.state = .completed →
        ∃ secrets, a.sharedSecrets = some secrets ∧ b.sharedSecrets = some secrets := by
  intro net r hr a b ha hb _ hb'
  have hagreeing : Agreeing P configs net :=
    Runs.run_rule (Agreeing P configs) (fun _ _ h => h.step hkem hP hconfig) hhonest
      (agreeing_start machines)
  obtain ⟨-, -, _, _, _, _, -, -, -, hanswered⟩ := hagreeing.responses r hr
  obtain ⟨complete, hcomplete⟩ := (hanswered b hb).2.2 hb'
  obtain ⟨-, -, secrets, hinitiator, hresponder⟩ := hagreeing.completes _ hcomplete
  exact ⟨secrets, (hinitiator a ha).1, (hresponder b hb).1⟩

/-! ## A handshake that completes -/

/-- A message of the stand-in, signed with the keys of some readings. -/
def toyMessage (keys message : UInt8) (handshakeType : HandshakeType)
    (payload : HandshakeMessagePayload) : Message :=
  let unsigned : Message := .new (.handshake handshakeType)
    (HandshakeMessagePayload.codec.encode payload) (readings message).messageId 1000
  { unsigned with signature := some (keys :: unsigned.getSignableData []) }

/-- The message as it is sent, with the hash of the key. -/
def asSent (keys : UInt8) (message : Message) : Message :=
  { message with
    senderKeyHash := some (Platform.toy.blake3 (List.replicate 1952 keys)) }

/-- The response to the init of the stand-in. -/
def toyResponse : Message :=
  toyMessage 5 5 .response (.response (responsePayload .default (readings 5)
    ⟨.current, HandshakeConfig.default.capabilities, ⟨⟨[]⟩, ⟨[1]⟩⟩, 7⟩
    ⟨⟨List.replicate 1952 5, [5]⟩, ⟨[5], [5]⟩⟩ ⟨[5]⟩))

/-- The completion message that answers it. -/
def toyComplete : Message :=
  toyMessage 1 6 .complete (.complete ⟨(readings 1).sessionId.bytes, 1000⟩)

/-- The sessions of the handshake. -/
def toyPairing : Pairing Bool := ⟨false, (readings 1).sessionId, true, (readings 5).sessionId⟩

/-- Two nodes that wait for a handshake. -/
def waitingNodes : Network Bool :=
  start (fun _ => .default) fun _ => waitingCoordinator.stateMachine

/-- A handshake whose messages lose the hash of the key on their way. -/
def toyHandshake : List (Event Bool) :=
  [.initiate false (readings 1) none,
    .deliverInit (false, (readings 1).sessionId, asSent 1 signedInit) true (readings 5) signedInit,
    .deliverResponse (toyPairing, asSent 5 toyResponse) (readings 6) toyResponse,
    .deliverComplete (toyPairing, asSent 1 toyComplete) (readings 7) toyComplete]

/-- The stand-in has short keys and ciphertexts. -/
lemma fits_toy : Platform.toy.Fits := by
  refine ⟨fun seed keypair h => ?_, fun seed publicKey secretKey h => ?_,
    fun publicKey seed ciphertext secret h => ?_⟩
  · rw [← Except.ok.inj h, List.length_replicate]
    decide
  · rw [← (Prod.mk.inj (Except.ok.inj h)).1]
    exact show 1 < 2 ^ 64 by decide
  · rw [← (Prod.mk.inj (Except.ok.inj h)).1]
    exact show 1 < 2 ^ 64 by decide

/-- The default configuration is short. -/
lemma fits_default : HandshakeConfig.default.Fits := by
  refine ⟨⟨by decide, fun version h => ?_⟩, ⟨by decide, fun capability h => ?_⟩⟩
  · rw [List.mem_singleton.mp h]
    exact ProtocolVersion.valid_current
  · rw [Codec.valid_string]
    revert capability
    decide

/-- Both sessions of the handshake complete, with the same secrets. -/
theorem secrets_agree_toy :
    let net := Runs.run (applyEvent Platform.toy) waitingNodes toyHandshake
    ∃ a b secrets, net.At false (readings 1).sessionId a ∧ net.At true (readings 5).sessionId b ∧
      a.state = .completed ∧ b.state = .completed ∧
      a.sharedSecrets = some secrets ∧ b.sharedSecrets = some secrets := by
  intro net
  have heval : Runs.Steps (applyEvent Platform.toy) Honest waitingNodes toyHandshake ∧
      ((net.nodes false).sessions.lookup (readings 1).sessionId).map HandshakeSession.state =
        some .completed ∧
      ((net.nodes true).sessions.lookup (readings 5).sessionId).map HandshakeSession.state =
        some .completed ∧ (toyPairing, asSent 5 toyResponse) ∈ net.responses := by
    decide +kernel
  obtain ⟨hhonest, hinitiator, hresponder, hsent⟩ := heval
  have hagree : ∀ r ∈ net.responses, ∀ a b, net.At r.1.initiator r.1.initiatorSession a →
      net.At r.1.responder r.1.responderSession b → a.state = .completed → b.state = .completed →
        ∃ secrets, a.sharedSecrets = some secrets ∧ b.sharedSecrets = some secrets :=
    secrets_agree Platform.kemCorrect_toy fits_toy (fun _ => fits_default) hhonest
  clear_value net
  obtain ⟨a, ha, hastate⟩ := Option.map_eq_some_iff.mp hinitiator
  obtain ⟨b, hb, hbstate⟩ := Option.map_eq_some_iff.mp hresponder
  obtain ⟨secrets, hasecrets, hbsecrets⟩ := hagree _ hsent a b ha hb hastate hbstate
  exact ⟨a, b, secrets, ha, hb, hastate, hbstate, hasecrets, hbsecrets⟩

end Network

end QuDAG.Protocol
