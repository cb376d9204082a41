import QuDAG.Integrations.Publisher
import QuDAG.Lib.Promises

/-!
# The connection of a member (`MemberConnection` in `ruflo-nostr/client.mjs`)

One handler of socket messages serves the authentication, the acknowledgements of published events
and a read. The relay chooses all frames, and calls, timeouts and socket events come in any order.

## Main definitions

* `MemberConnection` — the fields of a connection, with its promises.
* `MemberConnection.handle` — the handler of a frame.
* `MemberConnection.apply` — what an event does.
* `MemberConnection.Contract` — what is promised after some events.

## Main results

* `MemberConnection.contract_run` — the promise is kept by all sequences of events.

## Implementation notes

The timer of a promise is cleared when the promise is settled, so a timeout is an event that does
nothing if its promise is not waiting. An identifier of an event is a text of 64 digits, which
counts as true. Text frames are what `JSON.parse` makes of them, if it makes anything.
-/

namespace QuDAG.Integrations

open RustStd

/-- The states of a socket. -/
inductive ReadyState
  | connecting
  | opened
  | closing
  | closed
  deriving DecidableEq, Repr

/-- What is sent to the relay. -/
inductive Sent
  | auth (event : Json)
  | event (event : Json)
  | request (authors : List String) (since : ℚ)
  | close

/-- Whether it is an answer to a challenge. -/
def Sent.isAuth : Sent → Bool
  | .auth _ => true
  | _ => false

/-- A read: the boundary of its events, and those accepted so far. -/
structure Reading where
  boundary : ℕ
  events : List EventBoundary.Accepted

/-- The fields of a connection and of its handlers, with the replay windows of the boundaries, the
promises of the calls and what was sent. -/
structure MemberConnection where
  socket : Option ReadyState
  ready : Bool
  authId : Option String
  authTimer : Bool
  connected : Option (Except Thrown Unit)
  publishes : Promises String (Except Thrown String)
  reading : Option Reading
  reads : Promises Unit (Except Thrown (List EventBoundary.Accepted))
  seen : ℕ → EventBoundary.Seen
  sent : List Sent

/-- What a connection is made of: the environment, the secret key, the profile and the boundaries
that reads may name. -/
structure Member where
  publisher : Publisher
  js : Runtime
  key : List UInt8
  profile : String
  boundaries : ℕ → EventBoundary

/-- What happens to a connection: calls of its methods, events of its socket, and timeouts. -/
inductive ConnectionEvent
  | connect
  | opened
  | closing
  | socketError
  | socketClosed
  | message (length : ℕ) (frame : Option Json) (now clock : ℚ)
  | authTimeout
  | publish (type : String) (payload : Json) (now : ℚ)
  | publishTimeout (id : String)
  | readRecent (boundary : Option ℕ) (now : ℚ)
  | readTimeout
  | close

/-- The identifier of an event. -/
def idOf (event : Json) : String := ((event.get "id").bind Json.asStr).getD ""

/-- Answer the challenge of a relay. -/
def Member.relayAuth (m : Member) (challenge : Option Json) (timestamp : ℚ) :
    Except Thrown Json := do
  let challenge ← orThrow (challenge.bind Json.asStr) (.error "Invalid relay challenge")
  require (1 ≤ challenge.length && (Bytes.ofString challenge).length ≤ 1024)
    "Invalid relay challenge"
  let relay ← orThrow (relayFor m.profile) (.error "Unknown relay profile")
  m.publisher.finalizeEvent 22242 timestamp [["relay", relay], ["challenge", challenge]] "" m.key

namespace MemberConnection

/-! ## The code -/

/-- A new connection. -/
def new : MemberConnection where
  socket := none
  ready := false
  authId := none
  authTimer := false
  connected := none
  publishes := .empty
  reading := none
  reads := .empty
  seen _ := ∅
  sent := []

/-- Settle the promise of `connect`, which keeps its first result. -/
def settleConnect (result : Except Thrown Unit) (c : MemberConnection) : MemberConnection :=
  { c with authTimer := false, connected := some (c.connected.getD result) }

/-- Reject all promises. -/
def rejectAll (thrown : Thrown) (c : MemberConnection) : MemberConnection :=
  { settleConnect (.error thrown) c with
    reading := none
    reads := c.reads.settleAll (.error thrown)
    publishes := c.publishes.settleAll (.error thrown) }

/-- Close the connection. -/
def close (c : MemberConnection) : MemberConnection :=
  { c with
    ready := false
    socket := c.socket.map fun state => if state = .closed then .closed else .closing }

/-- Reject all promises and close the connection. -/
def fail (message : String) (c : MemberConnection) : MemberConnection :=
  close (rejectAll (.error message) c)

/-- The item of a frame is the text. -/
def isText (frame : List Json) (i : ℕ) (text : String) : Bool :=
  frame[i]?.bind Json.asStr = some text

/-- The item of a frame is `true`. -/
def isTrue (frame : List Json) (i : ℕ) : Bool :=
  match frame[i]? with
  | some (.bool true) => true
  | _ => false

/-- `frame[1] === authId`: both are missing, or both are the same text. -/
def isAuthId (frame : List Json) (authId : Option String) : Bool :=
  match (frame[1]? : Option Json), authId with
  | none, none => true
  | some (.string text), some id => text == id
  | _, _ => false

variable (m : Member)

/-- Answer a challenge, unless there was one before. The first part is `true` if this throws. -/
def handleAuth (frame : List Json) (now : ℚ) (c : MemberConnection) : Bool × MemberConnection :=
  if c.authId.isSome then (true, c)
  else
    match m.relayAuth frame[1]? now with
    | .error _ => (true, c)
    | .ok event => (false, { c with authId := some (idOf event), sent := c.sent ++ [.auth event] })

/-- An event of a read, or the end of one. -/
def handleRead (frame : List Json) (name : String) (clock : ℚ) (c : MemberConnection) :
    Bool × MemberConnection :=
  match c.reading with
  | none => (false, c)
  | some reading =>
    if isText frame 0 "EVENT" && name == "qudag-read" then
      if 100 ≤ reading.events.length then (true, c)
      else
        let boundary := m.boundaries reading.boundary
        let accepted := boundary.accept m.js clock (frame[2]?.map m.publisher.stringify) none
          (c.seen reading.boundary)
        let c := { c with seen := Function.update c.seen reading.boundary accepted.2 }
        match accepted.1 with
        | .error _ => (true, c)
        | .ok event =>
          (false, { c with reading := some ⟨reading.boundary, reading.events ++ [event]⟩ })
    else if isText frame 0 "EOSE" && name == "qudag-read" then
      (false, { c with
        reading := none
        sent := c.sent ++ [.close]
        reads := c.reads.settle () (.ok reading.events) })
    -- other messages are never dispatched
    else (false, c)

/-- The handler of a frame. The first part is `true` if it throws. -/
def handle (frame : List Json) (now clock : ℚ) (c : MemberConnection) : Bool × MemberConnection :=
  if isText frame 0 "AUTH" then handleAuth m frame now c
  else if isText frame 0 "OK" && isAuthId frame c.authId then
    if isTrue frame 2 then (false, { settleConnect (.ok ()) c with ready := true }) else (true, c)
  else
    match frame[1]?.bind Json.asStr with
    | none => (false, c)
    | some name =>
      if isText frame 0 "OK" && decide (c.publishes.Waits name) then
        (false, { c with
          publishes := c.publishes.settle name
            (if isTrue frame 2 then .ok name else .error (.error "Publish denied")) })
      else handleRead m frame name clock c

/-- A message of the socket: the frame is handled if the socket is open. -/
def receive (length : ℕ) (frame : Option Json) (now clock : ℚ) (c : MemberConnection) :
    Bool × MemberConnection :=
  if 65536 < length then (true, c)
  else if c.socket = some .opened then
    match frame.bind Json.asArray with
    | none => (true, c)
    | some items => handle m items now clock c
  else (false, c)

/-- Publish a message. -/
def publish (type : String) (payload : Json) (now : ℚ) (c : MemberConnection) : MemberConnection :=
  let refuse (thrown : Thrown) := { c with publishes := c.publishes.refuse (.error thrown) }
  if !c.ready then refuse (.error "Relay is not authenticated")
  else if 4 ≤ c.publishes.waiting.length then refuse (.error "Publish concurrency exhausted")
  else
    match m.publisher.coordinationEvent m.key type payload now m.profile with
    | .error thrown => refuse thrown
    | .ok event =>
      if c.publishes.Waits (idOf event) then refuse (.error "Duplicate in-flight event")
      else { c with
        publishes := c.publishes.wait (idOf event)
        sent := c.sent ++ [.event event] }

/-- Read recent messages through a boundary. -/
def readRecent (boundary : Option ℕ) (now : ℚ) (c : MemberConnection) : MemberConnection :=
  let refuse :=
    { c with reads := c.reads.refuse (.error (.error "Invalid read state or boundary")) }
  match boundary with
  | none => refuse
  | some i =>
    let options := (m.boundaries i).options
    if !c.ready || c.reading.isSome || options.profile != m.profile ||
        options.allowedPubkeys.isEmpty then refuse
    else { c with
      reading := some ⟨i, []⟩
      reads := c.reads.wait ()
      sent := c.sent ++ [.request options.allowedPubkeys (now - options.maxAgeSeconds)] }

/-- What an event does. Only a connection with a socket gets events of a socket, or waits for its
authentication. -/
def apply (c : MemberConnection) : ConnectionEvent → MemberConnection
  | .connect =>
    if c.socket.isSome then c else { c with socket := some .connecting, authTimer := true }
  | .opened => if c.socket = some .connecting then { c with socket := some .opened } else c
  | .closing => if c.socket = some .opened then { c with socket := some .closing } else c
  | .socketError => if c.socket.isSome then fail "Relay connection failed" c else c
  | .socketClosed =>
    if c.socket.isSome then
      { rejectAll (.error "Relay closed") c with ready := false, socket := some .closed }
    else c
  | .message length frame now clock =>
    if c.socket.isSome then
      let (thrown, c) := receive m length frame now clock c
      if thrown then fail "Relay protocol or authentication failure" c else c
    else c
  | .authTimeout =>
    if c.socket.isSome ∧ c.authTimer then fail "Relay authentication timeout" c else c
  | .publish type payload now => publish m type payload now c
  | .publishTimeout id =>
    { c with publishes := c.publishes.settle id (.error (.error "Publish ack timeout")) }
  | .readRecent boundary now => readRecent m boundary now c
  | .readTimeout =>
    if c.reading.isSome then
      { c with
        reading := none
        sent := c.sent ++ [.close]
        reads := c.reads.settle () (.error (.error "Read timeout")) }
    else c
  | .close => close c

/-! ## What is promised -/

variable {m}

/-- An event is the delivery of an acknowledgement for an identifier to an open socket. -/
def Acknowledges (id : String) (c : MemberConnection) (event : ConnectionEvent) : Prop :=
  ∃ length items now clock, event = .message length (some (.array items)) now clock ∧
    length ≤ 65536 ∧ c.socket = some .opened ∧ isText items 0 "OK" = true ∧
    isText items 1 id = true ∧ isTrue items 2 = true

/-- An event closes the connection, or makes it fail. -/
def Ends (m : Member) (c : MemberConnection) (event : ConnectionEvent) : Prop :=
  c.socket.isSome ∧ (event = .close ∨ event = .socketClosed ∨ event = .socketError ∨
    (event = .authTimeout ∧ c.authTimer = true) ∨
    ∃ length frame now clock, event = .message length frame now clock ∧
      (receive m length frame now clock c).1 = true)

/-- The connection after some events. -/
def after (m : Member) (events : List ConnectionEvent) : MemberConnection :=
  Runs.run (apply m) new events

/-- The relay has acknowledged the one answer to a challenge that was sent. -/
def Authenticated (m : Member) (events : List ConnectionEvent) : Prop :=
  Runs.Happened (fun past event => ∃ auth, (after m past).sent.filter Sent.isAuth = [.auth auth] ∧
    Acknowledges (idOf auth) (after m past) event) events

/-- The relay has acknowledged an event while the call that published it was waiting. -/
def Published (m : Member) (n : ℕ) (id : String) (events : List ConnectionEvent) : Prop :=
  Runs.Happened (fun past event => (id, n) ∈ (after m past).publishes.waiting ∧
    (∃ published, .event published ∈ (after m past).sent ∧ idOf published = id) ∧
    Acknowledges id (after m past) event) events

/-- What is promised after some events. A connection is ready only if the relay has acknowledged the
one answer to a challenge, and the connection was neither closed nor failed. At most four calls of
`publish` wait, and every call waits or has one result; a waiting one is rejected by its timeout.
A call resolves only with an identifier that the relay has acknowledged. -/
structure Contract (m : Member) (events : List ConnectionEvent) (c : MemberConnection) : Prop where
  ready : c.ready = true → Authenticated m events ∧
    ¬ Runs.Happened (fun past event => Ends m (after m past) event) events
  one_auth : (c.sent.filter Sent.isAuth).length ≤ 1
  in_flight : c.publishes.waiting.length ≤ 4
  settled : c.publishes.Sound
  expires : ∀ id n, (id, n) ∈ c.publishes.waiting →
    ∃ thrown, (n, .error thrown) ∈ (apply m c (.publishTimeout id)).publishes.results
  resolved : ∀ n id, (n, .ok id) ∈ c.publishes.results →
    (n, id) ∈ c.publishes.keys ∧ Published m n id events

/-! ## What the handler does -/

variable {c c' : MemberConnection} {event : ConnectionEvent} {items : List Json} {now clock : ℚ}
  {id : String}

/-- What the handler of a frame can do. -/
inductive Handled (items : List Json) (c : MemberConnection) : Bool × MemberConnection → Prop
  | thrown (seen : ℕ → EventBoundary.Seen) : Handled items c (true, { c with seen := seen })
  | challenge (auth : Json) (hnone : c.authId = none) :
      Handled items c
        (false, { c with authId := some (idOf auth), sent := c.sent ++ [.auth auth] })
  | authenticated (hok : isText items 0 "OK" = true) (hid : isAuthId items c.authId = true)
      (htrue : isTrue items 2 = true) :
      Handled items c (false, { settleConnect (.ok ()) c with ready := true })
  | acknowledged (name : String) (hok : isText items 0 "OK" = true)
      (hname : isText items 1 name = true) :
      Handled items c (false, { c with
        publishes := c.publishes.settle name
          (if isTrue items 2 then .ok name else .error (.error "Publish denied")) })
  | accepted (reading : Reading) (seen : ℕ → EventBoundary.Seen) :
      Handled items c (false, { c with seen := seen, reading := some reading })
  | complete (reading : Reading) : Handled items c (false, { c with
      reading := none
      sent := c.sent ++ [.close]
      reads := c.reads.settle () (.ok reading.events) })
  | ignored : Handled items c (false, c)

lemma handled_handleAuth (m : Member) (items : List Json) (now : ℚ) (c : MemberConnection) :
    Handled items c (handleAuth m items now c) := by
  unfold handleAuth
  split_ifs with hauthId
  · exact .thrown c.seen
  · cases m.relayAuth items[1]? now with
    | error thrown => exact .thrown c.seen
    | ok auth => exact .challenge auth (by simpa using hauthId)

lemma handled_handleRead (m : Member) (items : List Json) (name : String) (clock : ℚ)
    (c : MemberConnection) : Handled items c (handleRead m items name clock c) := by
  unfold handleRead
  split
  · exact .ignored
  · rename_i reading _
    split
    · split
      · exact .thrown c.seen
      · dsimp only
        split
        · exact .thrown (Function.update c.seen reading.boundary _)
        · exact .accepted _ (Function.update c.seen reading.boundary _)
    split
    · exact .complete reading
    · exact .ignored

/-- **What the handler does.** -/
lemma handled (m : Member) (items : List Json) (now clock : ℚ) (c : MemberConnection) :
    Handled items c (handle m items now clock c) := by
  unfold handle
  split
  · exact handled_handleAuth m items now c
  split
  · rename_i hok
    rw [Bool.and_eq_true] at hok
    split
    · rename_i htrue
      exact .authenticated hok.1 hok.2 htrue
    · exact .thrown c.seen
  split
  · exact .ignored
  · rename_i name hname
    split
    · rename_i hwaits
      rw [Bool.and_eq_true] at hwaits
      exact .acknowledged name hwaits.1 (by rw [isText, hname, decide_eq_true_eq])
    · exact handled_handleRead m items name clock c

/-- The identifier of the answer is compared with a text. -/
lemma isText_of_isAuthId (hid : isAuthId items c.authId = true) (htrue : isTrue items 2 = true) :
    ∃ id, c.authId = some id ∧ isText items 1 id = true := by
  unfold isAuthId at hid
  split at hid
  · -- a frame without an item 1 has no item 2
    rename_i hone _
    have hlength : items.length ≤ 2 :=
      (List.getElem?_eq_none_iff.mp hone).trans (Nat.le_succ 1)
    rw [isTrue, List.getElem?_eq_none hlength] at htrue
    cases htrue
  · rename_i text id hone hauthId
    rw [beq_iff_eq] at hid
    exact ⟨id, hauthId, by rw [isText, hone, ← hid]; simp [Json.asStr]⟩
  · cases hid

/-! ## What an event does -/

/-- The connection was closed or has failed. -/
def Down (c : MemberConnection) : Prop :=
  c.ready = false ∧ (c.socket = some .closing ∨ c.socket = some .closed)

/-- What an event can do, as far as it matters for the promise. -/
inductive Effect (m : Member) (c : MemberConnection) (event : ConnectionEvent) :
    MemberConnection → Prop
  | quiet {c' : MemberConnection} (alive : ¬ Ends m c event)
      (publishes : c'.publishes = c.publishes) (ready : c'.ready = true → c.ready = true)
      (authId : c'.authId = c.authId)
      (sent : ∃ l, c'.sent = c.sent ++ l ∧ l.filter Sent.isAuth = []) (down : c.Down → c'.Down) :
      Effect m c event c'
  | ended {c' : MemberConnection} (publishes : c'.publishes = c.publishes ∨
        ∃ thrown, c'.publishes = c.publishes.settleAll (.error thrown))
      (authId : c'.authId = c.authId) (sent : c'.sent = c.sent) (down : c'.Down) :
      Effect m c event c'
  | challenge (alive : ¬ Ends m c event) (auth : Json) (hnone : c.authId = none) :
      Effect m c event { c with authId := some (idOf auth), sent := c.sent ++ [.auth auth] }
  | authenticated {id : String} (alive : ¬ Ends m c event) (hid : c.authId = some id)
      (hacknowledges : Acknowledges id c event) :
      Effect m c event { settleConnect (.ok ()) c with ready := true }
  | refused (alive : ¬ Ends m c event) (thrown : Thrown) :
      Effect m c event { c with publishes := c.publishes.refuse (.error thrown) }
  | waits (alive : ¬ Ends m c event) (published : Json)
      (hfree : ¬ c.publishes.Waits (idOf published)) (hfew : c.publishes.waiting.length < 4) :
      Effect m c event { c with
        publishes := c.publishes.wait (idOf published)
        sent := c.sent ++ [.event published] }
  | settled (alive : ¬ Ends m c event) (name : String) (result : Except Thrown String)
      (hresult : (∃ thrown, result = .error thrown) ∨
        (result = .ok name ∧ Acknowledges name c event)) :
      Effect m c event { c with publishes := c.publishes.settle name result }

/-- A connection with a socket is down after it is closed. -/
lemma down_close (h : c.socket.isSome) : (close c).Down := by
  obtain ⟨state, hstate⟩ := Option.isSome_iff_exists.mp h
  refine ⟨rfl, ?_⟩
  simp only [close, hstate, Option.map_some]
  split_ifs
  · exact .inr rfl
  · exact .inl rfl

/-- A failure. -/
lemma effect_fail (h : c.socket.isSome) (seen : ℕ → EventBoundary.Seen) (message : String) :
    Effect m c event (fail message { c with seen := seen }) :=
  .ended (.inr ⟨_, rfl⟩) rfl rfl (down_close h)

/-- A message whose frame is handled. -/
lemma effect_handled {length : ℕ} {frame : Option Json} {r : Bool × MemberConnection}
    (hsocket : c.socket = some .opened) (hlength : length ≤ 65536)
    (hframe : frame = some (.array items)) (hr : receive m length frame now clock c = r)
    (h : Handled items c r) :
    Effect m c (.message length frame now clock)
      (if r.1 then fail "Relay protocol or authentication failure" r.2 else r.2) := by
  have halive (hno : r.1 = false) : ¬ Ends m c (.message length frame now clock) := by
    rintro ⟨-, hends | hends | hends | ⟨hends, -⟩ | ⟨_, _, _, _, hends, hthrown⟩⟩
    · cases hends
    · cases hends
    · cases hends
    · cases hends
    · cases hends
      rw [hr, hno] at hthrown
      cases hthrown
  cases h with
  | thrown seen =>
    have hsome : c.socket.isSome := by rw [hsocket, Option.isSome_some]
    exact effect_fail hsome seen _
  | challenge auth hnone => exact .challenge (halive rfl) auth hnone
  | authenticated hok hid htrue =>
    obtain ⟨id, hauthId, hone⟩ := isText_of_isAuthId hid htrue
    exact .authenticated (halive rfl) hauthId
      ⟨length, items, now, clock, by rw [hframe], hlength, hsocket, hok, hone, htrue⟩
  | acknowledged name hok hname =>
    refine .settled (halive rfl) name _ ?_
    cases htrue : isTrue items 2 with
    | false => exact .inl ⟨_, if_neg (by simp)⟩
    | true => exact .inr ⟨if_pos rfl,
        ⟨length, items, now, clock, by rw [hframe], hlength, hsocket, hok, hname, htrue⟩⟩
  | accepted reading seen => exact .quiet (halive rfl) rfl id rfl ⟨[], by simp, rfl⟩ id
  | complete reading => exact .quiet (halive rfl) rfl id rfl ⟨[.close], rfl, rfl⟩ id
  | ignored => exact .quiet (halive rfl) rfl id rfl ⟨[], by simp, rfl⟩ id

/-- A message. -/
lemma effect_message (length : ℕ) (frame : Option Json) (now clock : ℚ)
    (hsocket : c.socket.isSome) :
    Effect m c (.message length frame now clock) (if (receive m length frame now clock c).1 then
        fail "Relay protocol or authentication failure" (receive m length frame now clock c).2
      else (receive m length frame now clock c).2) := by
  rcases lt_or_ge 65536 length with hlong | hlength
  · rw [show receive m length frame now clock c = (true, c) from if_pos hlong]
    exact effect_fail hsocket c.seen _
  by_cases hopened : c.socket = some .opened
  · cases hitems : frame.bind Json.asArray with
    | none =>
      have hr : receive m length frame now clock c = (true, c) := by
        rw [receive, if_neg (not_lt.mpr hlength), if_pos hopened, hitems]
      rw [hr]
      exact effect_fail hsocket c.seen _
    | some items =>
      obtain ⟨value, hvalue, harray⟩ := Option.bind_eq_some_iff.mp hitems
      have hr : receive m length frame now clock c = handle m items now clock c := by
        rw [receive, if_neg (not_lt.mpr hlength), if_pos hopened, hitems]
      have hframe : frame = some (.array items) := by rw [hvalue, Json.asArray_eq_some.mp harray]
      exact effect_handled hopened hlength hframe rfl (hr ▸ handled m items now clock c)
  · have hr : receive m length frame now clock c = (false, c) := by
      rw [receive, if_neg (not_lt.mpr hlength), if_neg hopened]
    rw [hr]
    refine .quiet ?_ rfl id rfl ⟨[], by simp, rfl⟩ id
    rintro ⟨-, hends | hends | hends | ⟨hends, -⟩ | ⟨_, _, _, _, hends, hthrown⟩⟩
    · cases hends
    · cases hends
    · cases hends
    · cases hends
    · cases hends
      rw [hr] at hthrown
      cases hthrown

/-- A call of `publish`. -/
lemma effect_publish (type : String) (payload : Json) (now : ℚ) (c : MemberConnection) :
    Effect m c (.publish type payload now) (publish m type payload now c) := by
  have halive : ¬ Ends m c (.publish type payload now) := by
    rintro ⟨-, hends | hends | hends | ⟨hends, -⟩ | ⟨_, _, _, _, hends, -⟩⟩ <;> cases hends
  unfold publish
  dsimp only
  split_ifs with hready hfull
  · exact .refused halive _
  · exact .refused halive _
  · cases m.publisher.coordinationEvent m.key type payload now m.profile with
    | error thrown => exact .refused halive thrown
    | ok published =>
      dsimp only
      split_ifs with hduplicate
      · exact .refused halive _
      · exact .waits halive published hduplicate (not_le.mp hfull)

/-- An event that changes neither the readiness nor what matters else. -/
lemma effect_quiet (alive : ¬ Ends m c event) (publishes : c'.publishes = c.publishes)
    (ready : c'.ready = c.ready) (authId : c'.authId = c.authId)
    (sent : ∃ l, c'.sent = c.sent ++ l ∧ l.filter Sent.isAuth = [])
    (socket : c.Down → c'.socket = c.socket) : Effect m c event c' :=
  .quiet alive publishes (fun h => ready ▸ h) authId sent fun hdown =>
    ⟨ready.trans hdown.1, (socket hdown).symm ▸ hdown.2⟩

/-- **What an event does**. -/
lemma effect_apply (m : Member) (c : MemberConnection) (event : ConnectionEvent) :
    Effect m c event (apply m c event) := by
  have hnothing : ∃ l, c.sent = c.sent ++ l ∧ l.filter Sent.isAuth = [] := ⟨[], by simp, rfl⟩
  cases event with
  | connect =>
    have halive : ¬ Ends m c .connect := by simp [Ends]
    rw [apply]
    split_ifs with hsocket
    · exact effect_quiet halive rfl rfl rfl hnothing fun _ => rfl
    · refine effect_quiet halive rfl rfl rfl hnothing fun hdown => ?_
      rcases hdown.2 with h | h <;> simp [h] at hsocket
  | opened =>
    have halive : ¬ Ends m c .opened := by simp [Ends]
    rw [apply]
    split_ifs with hsocket
    · refine effect_quiet halive rfl rfl rfl hnothing fun hdown => ?_
      rcases hdown.2 with h | h <;> simp [h] at hsocket
    · exact effect_quiet halive rfl rfl rfl hnothing fun _ => rfl
  | closing =>
    have halive : ¬ Ends m c .closing := by simp [Ends]
    rw [apply]
    split_ifs with hsocket
    · refine effect_quiet halive rfl rfl rfl hnothing fun hdown => ?_
      rcases hdown.2 with h | h <;> simp [h] at hsocket
    · exact effect_quiet halive rfl rfl rfl hnothing fun _ => rfl
  | socketError =>
    rw [apply]
    split_ifs with hsocket
    · exact effect_fail hsocket c.seen _
    · exact effect_quiet (fun hends => hsocket hends.1) rfl rfl rfl hnothing fun _ => rfl
  | socketClosed =>
    rw [apply]
    split_ifs with hsocket
    · exact .ended (.inr ⟨_, rfl⟩) rfl rfl ⟨rfl, .inr rfl⟩
    · exact effect_quiet (fun hends => hsocket hends.1) rfl rfl rfl hnothing fun _ => rfl
  | message length frame now clock =>
    rw [apply]
    split_ifs with hsocket
    · exact effect_message length frame now clock hsocket
    · exact effect_quiet (fun hends => hsocket hends.1) rfl rfl rfl hnothing fun _ => rfl
  | authTimeout =>
    rw [apply]
    split_ifs with htimer
    · exact effect_fail htimer.1 c.seen _
    · refine effect_quiet (fun hends => htimer ⟨hends.1, ?_⟩) rfl rfl rfl hnothing fun _ => rfl
      simpa using hends.2
  | publish type payload now => exact effect_publish type payload now c
  | publishTimeout id => exact .settled (by simp [Ends]) id _ (.inl ⟨_, rfl⟩)
  | readRecent boundary now =>
    have halive : ¬ Ends m c (.readRecent boundary now) := by simp [Ends]
    rw [apply]
    unfold readRecent
    cases boundary with
    | none => exact effect_quiet halive rfl rfl rfl hnothing fun _ => rfl
    | some i =>
      dsimp only
      split
      · exact effect_quiet halive rfl rfl rfl hnothing fun _ => rfl
      · exact effect_quiet halive rfl rfl rfl ⟨[.request _ _], rfl, rfl⟩ fun _ => rfl
  | readTimeout =>
    have halive : ¬ Ends m c .readTimeout := by simp [Ends]
    rw [apply]
    split_ifs
    · exact effect_quiet halive rfl rfl rfl ⟨[.close], rfl, rfl⟩ fun _ => rfl
    · exact effect_quiet halive rfl rfl rfl hnothing fun _ => rfl
  | close =>
    rw [apply]
    cases hsocket : c.socket.isSome with
    | true => exact .ended (.inl rfl) rfl rfl (down_close hsocket)
    | false =>
      refine .quiet (fun hends => ?_) rfl (fun h => absurd h (by simp [close])) rfl hnothing
        fun hdown => ?_
      · exact absurd hends.1 (by simp [hsocket])
      · rcases hdown.2 with h | h <;> simp [h] at hsocket

/-! ## All sequences of events -/

/-- What holds after some events. -/
structure Inv (m : Member) (events : List ConnectionEvent) (c : MemberConnection) : Prop where
  /-- The identifier is that of the one answer that was sent. -/
  auth : (c.authId = none ∧ c.sent.filter Sent.isAuth = []) ∨
    ∃ auth, c.authId = some (idOf auth) ∧ c.sent.filter Sent.isAuth = [.auth auth]
  ready : c.ready = true → Authenticated m events
  /-- A connection that was closed or has failed stays down. -/
  down : Runs.Happened (fun past event => Ends m (after m past) event) events → c.Down
  in_flight : c.publishes.waiting.length ≤ 4
  settled : c.publishes.Sound
  sent : ∀ id n, (id, n) ∈ c.publishes.waiting → ∃ published, .event published ∈ c.sent ∧
    idOf published = id
  resolved : ∀ n id, (n, .ok id) ∈ c.publishes.results →
    (n, id) ∈ c.publishes.keys ∧ Published m n id events

variable {past : List ConnectionEvent}

/-- What has happened stays so. -/
lemma Authenticated.concat (h : Authenticated m past) (event : ConnectionEvent) :
    Authenticated m (past ++ [event]) := Runs.happened_concat.mpr (.inl h)

/-- What has happened stays so. -/
lemma Published.concat {n : ℕ} (h : Published m n id past) (event : ConnectionEvent) :
    Published m n id (past ++ [event]) := Runs.happened_concat.mpr (.inl h)

/-- An acknowledgement comes to an open socket. -/
lemma Acknowledges.not_down (h : Acknowledges id c event) : ¬ c.Down := by
  obtain ⟨_, _, _, _, -, -, hsocket, -⟩ := h
  rintro ⟨-, hdown | hdown⟩
  · rw [hsocket] at hdown
    cases hdown
  · rw [hsocket] at hdown
    cases hdown

/-- **One more event** keeps the invariant. -/
lemma Inv.step (h : Inv m past (after m past)) (event : ConnectionEvent) :
    Inv m (past ++ [event]) (apply m (after m past) event) := by
  have heffect := effect_apply m (after m past) event
  have hdown (hends : ¬ Ends m (after m past) event) :
      Runs.Happened (fun past event => Ends m (after m past) event) (past ++ [event]) →
        (after m past).Down := fun hhappened =>
    (Runs.happened_concat.mp hhappened).elim h.down fun hnow => absurd hnow hends
  generalize hc' : apply m (after m past) event = c' at heffect
  cases heffect with
  | quiet alive publishes ready authId sent down =>
    obtain ⟨l, hl, hnone⟩ := sent
    refine ⟨?_, fun hready => (h.ready (ready hready)).concat event,
      fun hhappened => down (hdown alive hhappened), publishes ▸ h.in_flight, publishes ▸ h.settled,
      fun id n hwaits => ?_, fun n id hresult => ?_⟩
    · rw [authId, hl, List.filter_append, hnone, List.append_nil]
      exact h.auth
    · rw [publishes] at hwaits
      obtain ⟨published, hsent, hid⟩ := h.sent id n hwaits
      exact ⟨published, hl ▸ List.mem_append_left _ hsent, hid⟩
    · rw [publishes] at hresult ⊢
      exact ⟨(h.resolved n id hresult).1, (h.resolved n id hresult).2.concat event⟩
  | ended publishes authId sent down =>
    refine ⟨by rw [authId, sent]; exact h.auth, fun hready => ?_, fun _ => down, ?_, ?_,
      fun id n hwaits => ?_, fun n id hresult => ?_⟩
    · rw [down.1] at hready
      cases hready
    · rcases publishes with publishes | ⟨thrown, publishes⟩
      · exact publishes ▸ h.in_flight
      · rw [publishes]
        exact Nat.zero_le _
    · rcases publishes with publishes | ⟨thrown, publishes⟩
      · exact publishes ▸ h.settled
      · exact publishes ▸ h.settled.settleAll _
    · rcases publishes with publishes | ⟨thrown, publishes⟩
      · rw [publishes] at hwaits
        rw [sent]
        exact h.sent id n hwaits
      · rw [publishes] at hwaits
        exact absurd hwaits List.not_mem_nil
    · have hold : (n, .ok id) ∈ (after m past).publishes.results := by
        rcases publishes with publishes | ⟨thrown, publishes⟩
        · exact publishes ▸ hresult
        · rw [publishes, Promises.mem_results_settleAll] at hresult
          exact hresult.resolve_right fun hnew => (nomatch hnew.2)
      have hkeys : c'.publishes.keys = (after m past).publishes.keys := by
        rcases publishes with publishes | ⟨thrown, publishes⟩ <;> rw [publishes]
        rfl
      rw [hkeys]
      exact ⟨(h.resolved n id hold).1, (h.resolved n id hold).2.concat event⟩
  | challenge alive auth hnone =>
    refine ⟨.inr ⟨auth, rfl, ?_⟩, fun hready => (h.ready hready).concat event,
      fun hhappened => hdown alive hhappened, h.in_flight, h.settled, fun id n hwaits => ?_,
      fun n id hresult => ⟨(h.resolved n id hresult).1, (h.resolved n id hresult).2.concat event⟩⟩
    · rcases h.auth with ⟨-, hempty⟩ | ⟨auth', hsome, -⟩
      · rw [List.filter_append, hempty]
        rfl
      · rw [hnone] at hsome
        cases hsome
    · obtain ⟨published, hsent, hid⟩ := h.sent id n hwaits
      exact ⟨published, List.mem_append_left _ hsent, hid⟩
  | authenticated alive hid hacknowledges =>
    rename_i authId
    refine ⟨h.auth, fun _ => ?_, fun hhappened => ?_, h.in_flight, h.settled, h.sent,
      fun n id hresult => ⟨(h.resolved n id hresult).1, (h.resolved n id hresult).2.concat event⟩⟩
    · refine Runs.happened_concat.mpr (.inr ?_)
      rcases h.auth with ⟨hnone, -⟩ | ⟨auth, hsome, hsent⟩
      · rw [hid] at hnone
        cases hnone
      · rw [hid] at hsome
        exact ⟨auth, hsent, Option.some.inj hsome ▸ hacknowledges⟩
    · exact absurd (hdown alive hhappened) hacknowledges.not_down
  | refused alive thrown =>
    refine ⟨h.auth, fun hready => (h.ready hready).concat event,
      fun hhappened => hdown alive hhappened, h.in_flight, h.settled.refuse _, h.sent,
      fun n id hresult => ?_⟩
    have hold := (Promises.mem_results_refuse.mp hresult).resolve_right fun hnew => (nomatch hnew.2)
    exact ⟨(h.resolved n id hold).1, (h.resolved n id hold).2.concat event⟩
  | waits alive published hfree hfew =>
    refine ⟨?_, fun hready => (h.ready hready).concat event,
      fun hhappened => hdown alive hhappened, ?_, h.settled.wait hfree, fun id n hwaits => ?_,
      fun n id hresult => ⟨List.mem_append_left _ (h.resolved n id hresult).1,
        (h.resolved n id hresult).2.concat event⟩⟩
    · rw [List.filter_append]
      simpa [Sent.isAuth] using h.auth
    · rw [Promises.wait, List.length_append]
      exact hfew
    · rcases List.mem_append.mp hwaits with hwaits | hwaits
      · obtain ⟨published', hsent, hid⟩ := h.sent id n hwaits
        exact ⟨published', List.mem_append_left _ hsent, hid⟩
      · obtain ⟨rfl, -⟩ := Prod.mk.inj (List.mem_singleton.mp hwaits)
        exact ⟨published, List.mem_append_right _ (List.mem_singleton_self _), rfl⟩
  | settled alive name result hresult =>
    refine ⟨h.auth, fun hready => (h.ready hready).concat event,
      fun hhappened => hdown alive hhappened,
      (List.length_filter_le _ _).trans h.in_flight, h.settled.settle _ _,
      fun id n hwaits => h.sent id n (List.mem_of_mem_filter hwaits), fun n id hmem => ?_⟩
    rcases Promises.mem_results_settle.mp hmem with hold | ⟨hwaits, hok⟩
    · exact ⟨(h.resolved n id hold).1, (h.resolved n id hold).2.concat event⟩
    · rcases hresult with ⟨thrown, hthrown⟩ | ⟨hname, hacknowledges⟩
      · rw [hthrown] at hok
        cases hok
      · obtain rfl : id = name := Except.ok.inj (hok.trans hname)
        exact ⟨h.settled.keyed _ hwaits,
          Runs.happened_concat.mpr (.inr ⟨hwaits, h.sent id n hwaits, hacknowledges⟩)⟩

/-- Every sequence of events keeps the invariant. -/
lemma inv_after (m : Member) (events : List ConnectionEvent) : Inv m events (after m events) := by
  refine Runs.history_rule (fun events c => Inv m events c) (V := fun _ => True)
    (fun _ _ _ => trivial) ?_ (fun past event _ h => h.step event) trivial
  refine ⟨.inl ⟨rfl, rfl⟩, fun h => (nomatch h), fun h => absurd h Runs.not_happened_nil,
    Nat.zero_le _, Promises.sound_empty, fun _ _ h => absurd h List.not_mem_nil,
    fun _ _ h => absurd h List.not_mem_nil⟩

/-- **The contract of a connection**: for every relay, environment and sequence of calls, frames,
timeouts and socket events. -/
theorem contract_run (m : Member) (events : List ConnectionEvent) :
    Contract m events (after m events) := by
  have h := inv_after m events
  refine ⟨fun hready => ⟨h.ready hready, fun hends => ?_⟩, ?_, h.in_flight, h.settled,
    fun id n hwaits => ?_, h.resolved⟩
  · rw [(h.down hends).1] at hready
    cases hready
  · rcases h.auth with ⟨-, hsent⟩ | ⟨auth, -, hsent⟩
    · rw [hsent]
      exact Nat.zero_le 1
    · rw [hsent]
      exact le_refl 1
  · exact ⟨_, Promises.mem_results_settle.mpr (.inr ⟨hwaits, rfl⟩)⟩

end MemberConnection

end QuDAG.Integrations
