import QuDAG.Protocol.HandshakeSteps

/-!
# Networks of handshaking nodes

Any number of nodes run handshakes with each other, with any number of sessions at a time. Messages
that were sent may be delivered late, in any order, and more than once. What is delivered is what
was sent: it has the type and the payload of a message that was sent, and it is handed to the
session that it is for.

## Main definitions

* `Network` — the nodes, and the messages sent so far.
* `Network.Event`, `Network.Honest` — what happens, and what may.
* `Network.Agreeing` — the invariant of honest runs.

## Main results

* `Network.Agreeing.setNode` — what the change of one node keeps.

## Implementation notes

A message that was sent is kept with the session that it belongs to. The fields of a message
outside its type and payload may change on the way, as long as the receiver accepts its signature.
-/

namespace QuDAG.Protocol

open RustStd

/-- The two sessions of a handshake. -/
structure Pairing (ι : Type) where
  /-- The node that sent the init. -/
  initiator : ι
  /-- Its session. -/
  initiatorSession : Uuid
  /-- The node that answered it. -/
  responder : ι
  /-- Its session. -/
  responderSession : Uuid
  deriving DecidableEq

/-- The nodes, and the messages sent so far. -/
structure Network (ι : Type) where
  /-- The coordinators of the nodes. -/
  nodes : ι → HandshakeCoordinator
  /-- The inits, with the session that sent them. -/
  inits : List (ι × Uuid × Message)
  /-- The responses, with the sessions of their handshake. -/
  responses : List (Pairing ι × Message)
  /-- The completion messages, with the sessions of their handshake. -/
  completes : List (Pairing ι × Message)

namespace Network

variable {ι : Type}

/-- The network before anything was sent. -/
def start (configs : ι → HandshakeConfig) (machines : ι → ProtocolStateMachine) : Network ι :=
  ⟨fun i => .new (configs i) (machines i), [], [], []⟩

/-- The network with another coordinator at a node. -/
def setNode [DecidableEq ι] (net : Network ι) (i : ι) (coordinator : HandshakeCoordinator) :
    Network ι :=
  { net with nodes := Function.update net.nodes i coordinator }

/-- What happens in a network. -/
inductive Event (ι : Type)
  /-- A node initiates a handshake. -/
  | initiate (i : ι) (env : Env) (peerId : Option (List UInt8))
  /-- An init is delivered to a node. -/
  | deliverInit (sent : ι × Uuid × Message) (j : ι) (env : Env) (message : Message)
  /-- A response is delivered to the session whose init it answers. -/
  | deliverResponse (sent : Pairing ι × Message) (env : Env) (message : Message)
  /-- A completion message is delivered to the session whose response it answers. -/
  | deliverComplete (sent : Pairing ι × Message) (env : Env) (message : Message)
  /-- A node cleans up its sessions. -/
  | cleanup (i : ι) (now : ℕ)

/-- The network after an event. -/
def applyEvent [DecidableEq ι] (P : Platform) (net : Network ι) : Event ι → Network ι
  | .initiate i env peerId =>
    match (HandshakeCoordinator.initiateHandshake P env peerId).run (net.nodes i) with
    | (.ok opened, after) =>
      { net.setNode i after with inits := (i, opened.1, opened.2) :: net.inits }
    | (.error _, after) => net.setNode i after
  | .deliverInit sent j env message =>
    match (HandshakeCoordinator.processHandshakeMessage P env message none).run (net.nodes j) with
    | (.ok (some response), after) =>
      { net.setNode j after with
        responses := (⟨sent.1, sent.2.1, j, env.sessionId⟩, response) :: net.responses }
    | (_, after) => net.setNode j after
  | .deliverResponse sent env message =>
    match (HandshakeCoordinator.processHandshakeMessage P env message
      (some sent.1.initiatorSession)).run (net.nodes sent.1.initiator) with
    | (.ok (some complete), after) =>
      { net.setNode sent.1.initiator after with
        completes := (sent.1, complete) :: net.completes }
    | (_, after) => net.setNode sent.1.initiator after
  | .deliverComplete sent env message =>
    net.setNode sent.1.responder ((HandshakeCoordinator.processHandshakeMessage P env message
      (some sent.1.responderSession)).run (net.nodes sent.1.responder)).2
  | .cleanup i now => net.setNode i ((net.nodes i).cleanupSessions now)

/-- A session of the node has sent a message. -/
def Used (net : Network ι) (i : ι) (id : Uuid) : Prop :=
  (∃ message, (i, id, message) ∈ net.inits) ∨
    ∃ r ∈ net.responses, r.1.responder = i ∧ r.1.responderSession = id

/-- The message has the type and the payload of another. -/
def SameContent (message sent : Message) : Prop :=
  message.msgType = sent.msgType ∧ message.payload = sent.payload

/-- What may happen: new sessions have new identifiers, and what is delivered was sent. -/
def Honest (net : Network ι) : Event ι → Prop
  | .initiate i env _ => ¬ net.Used i env.sessionId
  | .deliverInit sent j env message =>
    sent ∈ net.inits ∧ SameContent message sent.2.2 ∧ ¬ net.Used j env.sessionId
  | .deliverResponse sent _ message => sent ∈ net.responses ∧ SameContent message sent.2
  | .deliverComplete sent _ message => sent ∈ net.completes ∧ SameContent message sent.2
  | .cleanup _ _ => True

section Decidable

variable [DecidableEq ι]

instance instDecidableUsed (net : Network ι) (i : ι) (id : Uuid) : Decidable (net.Used i id) :=
  decidable_of_iff ((∃ r ∈ net.inits, r.1 = i ∧ r.2.1 = id) ∨
      ∃ r ∈ net.responses, r.1.responder = i ∧ r.1.responderSession = id) <| by
    refine or_congr_left ⟨?_, ?_⟩
    · rintro ⟨⟨_, _, message⟩, hr, rfl, rfl⟩
      exact ⟨message, hr⟩
    · exact fun ⟨message, hr⟩ => ⟨(i, id, message), hr, rfl, rfl⟩

instance instDecidableSameContent (message sent : Message) :
    Decidable (SameContent message sent) :=
  inferInstanceAs (Decidable (_ ∧ _))

instance instDecidableHonest (net : Network ι) : ∀ event, Decidable (Honest net event)
  | .initiate _ _ _ => inferInstanceAs (Decidable (¬ _))
  | .deliverInit _ _ _ _ => inferInstanceAs (Decidable (_ ∧ _ ∧ ¬ _))
  | .deliverResponse _ _ _ => inferInstanceAs (Decidable (_ ∧ _))
  | .deliverComplete _ _ _ => inferInstanceAs (Decidable (_ ∧ _))
  | .cleanup _ _ => instDecidableTrue

end Decidable

/-! ## The invariant -/

/-- The session with an identifier at a node. -/
def At (net : Network ι) (i : ι) (id : Uuid) (session : HandshakeSession) : Prop :=
  (net.nodes i).sessions.lookup id = some session

/-- An init that was sent: its session has the secret key for the public key in it. -/
def InitOk (P : Platform) (net : Network ι) (r : ι × Uuid × Message) : Prop :=
  r.2.2.msgType = .handshake .init ∧ ∃ p seed secretKey, Carries r.2.2 (.init p) ∧
    P.keygen seed = .ok (⟨p.kemPublicKey⟩, secretKey) ∧
    ∀ a, net.At r.1 r.2.1 a → ⟨a.ourKeys.kemKeypair.secretKey⟩ = secretKey ∧ a.nonce = p.nonce

/-- A response that was sent: its ciphertext is decapsulated to the secret from which the
responder derived its keys, and the responder has completed only if there is a completion
message. -/
def ResponseOk (P : Platform) (net : Network ι) (r : Pairing ι × Message) : Prop :=
  (∃ message, (r.1.initiator, r.1.initiatorSession, message) ∈ net.inits) ∧
    r.2.msgType = .handshake .response ∧
    ∃ q secretKey secret nonce, Carries r.2 (.response q) ∧
      P.decapsulate secretKey ⟨q.kemCiphertext⟩ = .ok secret ∧
      (∀ a, net.At r.1.initiator r.1.initiatorSession a →
        ⟨a.ourKeys.kemKeypair.secretKey⟩ = secretKey ∧ a.nonce = nonce) ∧
      ∀ b, net.At r.1.responder r.1.responderSession b →
        b.sharedSecrets = some (deriveSessionKeys P secret nonce q.nonce) ∧
        b.state ≠ .initSent ∧
        (b.state = .completed → ∃ complete, (r.1, complete) ∈ net.completes)

/-- A completion message that was sent: both sessions have the same secrets. -/
def CompleteOk (net : Network ι) (r : Pairing ι × Message) : Prop :=
  (∃ message, (r.1, message) ∈ net.responses) ∧ r.2.msgType = .handshake .complete ∧
    ∃ secrets,
      (∀ a, net.At r.1.initiator r.1.initiatorSession a →
        a.sharedSecrets = some secrets ∧ a.state ≠ .initSent) ∧
      ∀ b, net.At r.1.responder r.1.responderSession b →
        b.sharedSecrets = some secrets ∧ b.state ≠ .initSent

/-- The invariant of honest runs. -/
structure Agreeing (P : Platform) (configs : ι → HandshakeConfig) (net : Network ι) : Prop where
  /-- The configurations do not change. -/
  config_eq : ∀ i, (net.nodes i).config = configs i
  /-- The inits. -/
  inits : ∀ r ∈ net.inits, InitOk P net r
  /-- The responses. -/
  responses : ∀ r ∈ net.responses, ResponseOk P net r
  /-- The completion messages. -/
  completes : ∀ r ∈ net.completes, CompleteOk net r
  /-- A session answers one init. -/
  unique : ∀ r ∈ net.responses, ∀ r' ∈ net.responses, r.1.responder = r'.1.responder →
    r.1.responderSession = r'.1.responderSession → r.1 = r'.1

variable {P : Platform} {configs : ι → HandshakeConfig} {net : Network ι}

/-- Nothing was sent at the start. -/
lemma agreeing_start (machines : ι → ProtocolStateMachine) :
    Agreeing P configs (start configs machines) :=
  ⟨fun _ => rfl, fun _ h => absurd h List.not_mem_nil, fun _ h => absurd h List.not_mem_nil,
    fun _ h => absurd h List.not_mem_nil, fun _ h => absurd h List.not_mem_nil⟩

/-- How a session that has sent a message may change: it keeps its keys and its nonce; and either it
keeps its secrets and its state, or it accepts a response, or it is completed by a completion
message. -/
structure Evolves (net : Network ι) (i : ι) (id : Uuid) (before after : HandshakeSession) :
    Prop where
  /-- The keys stay. -/
  ourKeys : after.ourKeys = before.ourKeys
  /-- So does the nonce. -/
  nonce : after.nonce = before.nonce
  /-- The secrets and the state. -/
  change : (after.sharedSecrets = before.sharedSecrets ∧ after.state = before.state) ∨
    (before.state = .initSent ∧ after.state ≠ .initSent) ∨
    (after.sharedSecrets = before.sharedSecrets ∧ after.state = .completed ∧
      ∃ r ∈ net.completes, r.1.responder = i ∧ r.1.responderSession = id)

/-- A session that does not change. -/
lemma Evolves.refl (net : Network ι) (i : ι) (id : Uuid) (session : HandshakeSession) :
    Evolves net i id session session := ⟨rfl, rfl, .inl ⟨rfl, rfl⟩⟩

/-- A session that is not waiting for a response keeps its secrets and does not wait for one. -/
lemma Evolves.secrets {i : ι} {id : Uuid} {before after : HandshakeSession}
    (h : Evolves net i id before after) (hstate : before.state ≠ .initSent) :
    after.sharedSecrets = before.sharedSecrets ∧ after.state ≠ .initSent := by
  rcases h.change with ⟨hsecrets, hsame⟩ | ⟨hinit, -⟩ | ⟨hsecrets, hcompleted, -⟩
  · exact ⟨hsecrets, hsame ▸ hstate⟩
  · exact absurd hinit hstate
  · exact ⟨hsecrets, by rw [hcompleted]; decide⟩

variable [DecidableEq ι]

/-- The sessions after a change of one node. -/
lemma at_setNode {i i' : ι} {coordinator : HandshakeCoordinator} {id : Uuid}
    {session : HandshakeSession} : (net.setNode i coordinator).At i' id session ↔
      (i' = i ∧ coordinator.sessions.lookup id = some session) ∨
        i' ≠ i ∧ net.At i' id session := by
  unfold At setNode
  by_cases hi : i' = i
  · subst hi
    simp
  · simp [hi]

/-- What the change of one node may do to the sessions that have sent messages. -/
def Continues (net : Network ι) (i : ι) (after : HandshakeCoordinator) : Prop :=
  after.config = (net.nodes i).config ∧
    ∀ id session, after.sessions.lookup id = some session → net.Used i id →
      ∃ before, net.At i id before ∧ Evolves net i id before session

/-- The sessions after such a change come from those before. -/
lemma Continues.at {i i' : ι} {after : HandshakeCoordinator} {id : Uuid}
    {session : HandshakeSession} (h : net.Continues i after)
    (hat : (net.setNode i after).At i' id session) (hused : net.Used i' id) :
    ∃ before, net.At i' id before ∧ Evolves net i' id before session := by
  rcases at_setNode.mp hat with ⟨rfl, hlookup⟩ | ⟨-, hat⟩
  · exact h.2 id session hlookup hused
  · exact ⟨session, hat, .refl _ _ _ _⟩

/-- **Such a change keeps the invariant.** -/
lemma Agreeing.setNode (h : Agreeing P configs net) {i : ι} {after : HandshakeCoordinator}
    (hcontinues : net.Continues i after) : Agreeing P configs (net.setNode i after) := by
  refine ⟨fun i' => ?_, fun r hr => ?_, fun r hr => ?_, fun r hr => ?_, h.unique⟩
  · by_cases hi : i' = i
    · subst hi
      show (Function.update net.nodes i' after i').config = _
      rw [Function.update_self, hcontinues.1, h.config_eq]
    · show (Function.update net.nodes i after i').config = _
      rw [Function.update_of_ne hi, h.config_eq]
  · obtain ⟨htype, p, seed, secretKey, hcarries, hkeygen, hsession⟩ := h.inits r hr
    refine ⟨htype, p, seed, secretKey, hcarries, hkeygen, fun a ha => ?_⟩
    obtain ⟨before, hbefore, hevolves⟩ := hcontinues.at ha (.inl ⟨r.2.2, hr⟩)
    rw [hevolves.ourKeys, hevolves.nonce]
    exact hsession before hbefore
  · obtain ⟨⟨sent, hsent⟩, htype, q, secretKey, secret, nonce, hcarries, hsecret, hinitiator,
      hresponder⟩ := h.responses r hr
    refine ⟨⟨sent, hsent⟩, htype, q, secretKey, secret, nonce, hcarries, hsecret, fun a ha => ?_,
      fun b hb => ?_⟩
    · obtain ⟨before, hbefore, hevolves⟩ := hcontinues.at ha (.inl ⟨sent, hsent⟩)
      rw [hevolves.ourKeys, hevolves.nonce]
      exact hinitiator before hbefore
    · obtain ⟨before, hbefore, hevolves⟩ := hcontinues.at hb (.inr ⟨r, hr, rfl, rfl⟩)
      obtain ⟨hsecrets, hstate, hcompleted⟩ := hresponder before hbefore
      obtain ⟨hkept, hstate'⟩ := hevolves.secrets hstate
      refine ⟨hkept.trans hsecrets, hstate', fun hafter => ?_⟩
      rcases hevolves.change with ⟨-, hsame⟩ | ⟨hinit, -⟩ | ⟨-, -, r', hr', hresponder', hid⟩
      · exact hcompleted (hsame ▸ hafter)
      · exact absurd hinit hstate
      · -- the completion message answers the response of this session
        obtain ⟨⟨message, hmessage⟩, -⟩ := h.completes r' hr'
        have hpairing : r'.1 = r.1 := h.unique _ hmessage r hr hresponder' hid
        exact ⟨r'.2, hpairing ▸ hr'⟩
  · obtain ⟨⟨sent, hsent⟩, htype, secrets, hinitiator, hresponder⟩ := h.completes r hr
    obtain ⟨⟨first, hfirst⟩, -⟩ := h.responses _ hsent
    refine ⟨⟨sent, hsent⟩, htype, secrets, fun a ha => ?_, fun b hb => ?_⟩
    · obtain ⟨before, hbefore, hevolves⟩ := hcontinues.at ha (.inl ⟨first, hfirst⟩)
      obtain ⟨hsecrets, hstate⟩ := hinitiator before hbefore
      obtain ⟨hkept, hstate'⟩ := hevolves.secrets hstate
      exact ⟨hkept.trans hsecrets, hstate'⟩
    · obtain ⟨before, hbefore, hevolves⟩ := hcontinues.at hb (.inr ⟨_, hsent, rfl, rfl⟩)
      obtain ⟨hsecrets, hstate⟩ := hresponder before hbefore
      obtain ⟨hkept, hstate'⟩ := hevolves.secrets hstate
      exact ⟨hkept.trans hsecrets, hstate'⟩

end Network

end QuDAG.Protocol
