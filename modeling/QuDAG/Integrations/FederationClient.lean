import QuDAG.Integrations.EventBoundary

/-!
# The federation client (`ruflo-x/client.mjs`)

A client sends JSON-RPC requests over HTTP. Its first invocation opens a session with a handshake:
an `initialize` request and then the notification `notifications/initialized`. Invocations that
arrive during the handshake wait for it. All of them run in turns of one event loop, up to what
they wait for.

## Main definitions

* `FederationClient` — the fields of a client.
* `System` — a client with its requests, handshakes and invocations.
* `Step` — invocations, answers of the gateway, and continuations.

## Implementation notes

Invocations are told apart by their numbers. The requests and the handshakes are kept when they are
done. What the reader of a body returns is given with the step, and so is what a cancelled body
returns. The invocations are those of `initialize`, `call` and `readResource`: `close`, which ends
the session, is not among them. A deadline makes `fetch` or the reader fail.
-/

namespace QuDAG.Integrations.Federation

open RustStd

/-! ## Checks -/

/-- The protocol version. -/
def protocol : String := "2025-03-26"

/-- The resources that may be read. -/
def resources : List String :=
  ["ruv://federation/registry", "ruv://swarm/roster", "ruv://claims/board"]

/-- The tools that may be called. -/
def tools : List String := ["federation_identity", "federation_sync", "claims_status"]

/-- The number of UTF-16 code units of a text. -/
def utf16Length (text : String) : ℕ :=
  text.toList.foldl (fun n c => n + if c.toNat < 0x10000 then 1 else 2) 0

/-- An integer between two bounds. -/
def isIntegerIn (low high : ℚ) : Json → Bool
  | .number x => x.isInt && low ≤ x && x ≤ high
  | _ => false

/-- A text of at most 64 code units. -/
def isShortText : Json → Bool
  | .string text => utf16Length text ≤ 64
  | _ => false

/-- The local policy for calls of tools. -/
def validateCall (name args : Json) : Except Thrown Unit := do
  require (tools.any fun tool => name.asStr = some tool) "Tool forbidden by local read-only policy"
  let members ← orThrow args.asObject (.error "Arguments must be an object")
  let allowed :=
    if name.asStr = some "federation_sync" then ["sinceSeconds", "limit", "type"] else []
  require (members.all fun member => member.1 ∈ allowed) "Unknown argument"
  require ((args.get "sinceSeconds").all (isIntegerIn 0 86400)) "Invalid sinceSeconds"
  require ((args.get "limit").all (isIntegerIn 1 100)) "Invalid limit"
  require ((args.get "type").all isShortText) "Invalid type"

/-- The policy for resources. -/
def validateResource (uri : Json) : Except Thrown Unit :=
  require (resources.any fun resource => uri.asStr = some resource)
    "Resource forbidden by local policy"

/-- The member of a value is an object. -/
def hasObject (name : String) (value : Json) : Bool := ((value.get name).bind Json.asObject).isSome

/-- The result of a compatible initialization. -/
def checkInitialization (result : Json) : Except Thrown Unit :=
  require ((result.get "protocolVersion").bind Json.asStr = some protocol &&
    hasObject "capabilities" result && hasObject "serverInfo" result)
    "Incompatible MCP initialization"

/-- The result of a tool. -/
def checkTool (result : Json) : Except Thrown Json := do
  let content := (result.get "content").bind Json.asArray
  let isError := (result.get "isError").all fun value => value matches .bool _
  require (content.isSome && isError) "Invalid tool result"
  pure result

/-- The contents of a resource. -/
def checkResource (uri : Json) (result : Json) : Except Thrown Json := do
  let contents := (result.get "contents").bind Json.asArray
  require (contents.any fun items => items.length ≠ 0 && items.all fun item =>
    (item.get "uri").bind Json.asStr = uri.asStr && ((item.get "text").bind Json.asStr).isSome)
    "Invalid resource result"
  pure result

/-- A session identifier: up to 256 printable characters. -/
def isSession (session : String) : Bool :=
  1 ≤ session.toList.length && session.toList.length ≤ 256 &&
    session.toList.all fun c => '!' ≤ c && c ≤ '~'

/-! ## Requests -/

/-- What is invoked. -/
inductive Invocation
  | initializeClient
  | call (name args : Json)
  | readResource (uri : Json)

/-- What an invocation checks before anything else. -/
def Invocation.validate : Invocation → Except Thrown Unit
  | .initializeClient => .ok ()
  | .call name args => validateCall name args
  | .readResource uri => validateResource uri

/-- What a request is for: a handshake, or an invocation. -/
inductive Purpose
  | initializeRequest (handshake : ℕ)
  | initialized (handshake : ℕ)
  | call (invocation : ℕ) (name args : Json)
  | read (invocation : ℕ) (uri : Json)

/-- The method of a request. -/
def Purpose.method : Purpose → String
  | .initializeRequest _ => "initialize"
  | .initialized _ => "notifications/initialized"
  | .call _ _ _ => "tools/call"
  | .read _ _ => "resources/read"

/-- The parameters of a request. -/
def Purpose.params : Purpose → Json
  | .initializeRequest _ => .object
      [("protocolVersion", .string protocol), ("capabilities", .object []),
        ("clientInfo", .object [("name", .string "qudag-ruflo-x"), ("version", .string "2.0.0")])]
  | .initialized _ => .object []
  | .call _ name args => .object [("name", name), ("arguments", args)]
  | .read _ uri => .object [("uri", uri)]

/-- A notification has no identifier, and its answer has no body that matters. -/
def Purpose.notification : Purpose → Bool
  | .initialized _ => true
  | _ => false

/-- How far a request is: it waits for the head of the answer, or for the body, or it is done. -/
inductive Status
  | waiting
  | reading
  | done (ok : Bool)

/-- A request, with its body. -/
structure Request where
  purpose : Purpose
  body : Json
  /-- Whether the request has the header for the protocol version. -/
  protocolHeader : Bool
  session : Option String
  status : Status

/-- The head of an answer: whether the HTTP status is a success, and the session header. -/
structure Head where
  ok : Bool
  status : ℕ
  session : Option String

/-! ## The client -/

/-- The fields of a client. -/
structure FederationClient where
  id : ℕ
  ready : Bool
  session : Option String
  /-- The handshake whose promise is in the field. -/
  opening : Option ℕ

/-- A new client. -/
def FederationClient.new : FederationClient := ⟨0, false, none, none⟩

/-- What an invocation waits for. -/
inductive Phase
  /-- For a handshake that it has started. -/
  | starting (handshake : ℕ)
  /-- For a handshake that was started before. -/
  | joined (handshake : ℕ)
  /-- For its continuation, after `initialize` has returned. -/
  | initialized
  /-- For the answer to its request. -/
  | sent

/-- An invocation that has not returned. -/
structure Waiting where
  invocation : Invocation
  phase : Phase

/-- A client with its requests, its handshakes and its invocations. -/
structure System where
  client : FederationClient
  requests : HashMap ℕ Request
  /-- The number of the next request. -/
  sent : ℕ
  /-- The results of the handshakes, or nothing while they go on. -/
  handshakes : HashMap ℕ (Option (Except Thrown Unit))
  /-- The number of the next handshake. -/
  started : ℕ
  invocations : HashMap ℕ Waiting
  /-- What the invocations returned. -/
  answers : List (ℕ × Except Thrown Json)

namespace System

/-- A new client. -/
def start : System := ⟨.new, ∅, 0, ∅, 0, ∅, []⟩

variable (s : System)

/-- Send a request. -/
def post (purpose : Purpose) : System :=
  let id := if purpose.notification then s.client.id else s.client.id + 1
  { s with
    client := { s.client with id := id }
    requests := s.requests.insert s.sent
      { purpose := purpose
        body := .object ([("jsonrpc", .string "2.0")] ++
          (if purpose.notification then [] else [("id", .number id)]) ++
          [("method", .string purpose.method), ("params", purpose.params)])
        protocolHeader := s.client.ready
        session := s.client.session
        status := .waiting }
    sent := s.sent + 1 }

/-- An invocation waits in another phase. -/
def await (call : ℕ) (invocation : Invocation) (phase : Phase) : System :=
  { s with invocations := s.invocations.insert call ⟨invocation, phase⟩ }

/-- An invocation returns. -/
def answer (call : ℕ) (result : Except Thrown Json) : System :=
  { s with
    invocations := s.invocations.erase call
    answers := s.answers ++ [(call, result)] }

/-- A handshake ends. -/
def settle (handshake : ℕ) (result : Except Thrown Unit) : System :=
  { s with handshakes := s.handshakes.insert handshake (some result) }

/-- The client is ready, or no longer. -/
def setReady (ready : Bool) : System := { s with client := { s.client with ready := ready } }

/-- The promise of a handshake in the field `opening`. -/
def setOpening (opening : Option ℕ) : System :=
  { s with client := { s.client with opening := opening } }

/-- Start a handshake. -/
def openSession : System :=
  { s with
    client := { s.client with opening := some s.started }
    handshakes := s.handshakes.insert s.started none
    started := s.started + 1 }.post (.initializeRequest s.started)

/-- An invocation, up to what it waits for. -/
def invoke (call : ℕ) (invocation : Invocation) : System :=
  match invocation.validate with
  | .error e => s.answer call (.error e)
  | .ok () =>
    if s.client.ready then s.await call invocation .initialized
    else
      match s.client.opening with
      | some handshake => s.await call invocation (.joined handshake)
      | none => s.openSession.await call invocation (.starting s.started)

/-- An invocation goes on after `initialize` has returned. -/
def proceed (call : ℕ) (invocation : Invocation) : System :=
  match invocation with
  | .initializeClient => s.answer call (.ok .null)
  | .call name args => (s.post (.call call name args)).await call invocation .sent
  | .readResource uri => (s.post (.read call uri)).await call invocation .sent

/-- The continuation of an invocation. -/
def wake (call : ℕ) : System :=
  match s.invocations.lookup call with
  | some ⟨invocation, .initialized⟩ => s.proceed call invocation
  | some ⟨invocation, .joined handshake⟩ =>
    match s.handshakes.lookup handshake with
    | some (some (.ok ())) => s.proceed call invocation
    | some (some (.error e)) => s.answer call (.error e)
    | _ => s
  | some ⟨invocation, .starting handshake⟩ =>
    match s.handshakes.lookup handshake with
    | some (some (.ok ())) => (s.setOpening none).await call invocation .initialized
    | some (some (.error e)) => (s.setOpening none).answer call (.error e)
    | _ => s
  | _ => s

/-- A request is done: what it was for goes on. -/
def finish (purpose : Purpose) (result : Except Thrown Json) : System :=
  match purpose with
  | .initializeRequest handshake =>
    match result.bind checkInitialization with
    | .ok () => (s.setReady true).post (.initialized handshake)
    | .error e => s.settle handshake (.error e)
  | .initialized handshake =>
    match result with
    | .ok _ => s.settle handshake (.ok ())
    | .error e => (s.setReady false).settle handshake (.error e)
  | .call call _ _ => s.answer call (result.bind checkTool)
  | .read call uri => s.answer call (result.bind (checkResource uri))

/-- A request changes its status. -/
def setStatus (request : ℕ) (r : Request) (status : Status) : System :=
  { s with requests := s.requests.insert request { r with status := status } }

/-- A request is done, with a result. -/
def complete (request : ℕ) (r : Request) (result : Except Thrown Json) : System :=
  (s.setStatus request r (.done result.toOption.isSome)).finish r.purpose result

/-- What the client checks of the head of an answer, with the session after it. -/
def checkHead (head : Head) : Except Thrown (Option String) := do
  require head.ok ("MCP HTTP " ++ toString head.status)
  match head.session with
  | none => pure s.client.session
  | some session =>
    if session = "" then pure s.client.session
    else
      require (isSession session && s.client.session.all (· = session)) "Invalid session id"
      pure (some session)

/-- The head of an answer arrives, or `fetch` fails. -/
def respond (request : ℕ) (head : Except Thrown Head) : System :=
  match s.requests.lookup request with
  | some r =>
    match r.status with
    | .waiting =>
      match head.bind s.checkHead with
      | .error e => s.complete request r (.error e)
      | .ok session =>
        { s with client := { s.client with session := session } }.setStatus request r .reading
    | _ => s
  | none => s

/-- The body of an answer has been read, or cancelled. -/
def read (request : ℕ) (result : Except Thrown Json) : System :=
  match s.requests.lookup request with
  | some r =>
    match r.status with
    | .reading => s.complete request r result
    | _ => s
  | none => s

end System

/-- What happens next. -/
inductive Step
  | invoke (call : ℕ) (invocation : Invocation)
  | wake (call : ℕ)
  | respond (request : ℕ) (head : Except Thrown Head)
  | read (request : ℕ) (result : Except Thrown Json)

namespace Step

/-- The system after a step. -/
def apply (s : System) : Step → System
  | .invoke call invocation => s.invoke call invocation
  | .wake call => s.wake call
  | .respond request head => s.respond request head
  | .read request result => s.read request result

end Step

end QuDAG.Integrations.Federation
