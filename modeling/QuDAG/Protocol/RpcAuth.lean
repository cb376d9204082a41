import QuDAG.Lib.Hex
import QuDAG.Lib.Json
import QuDAG.Protocol.Message

/-!
# Authentication of RPC requests (`rpc_server.rs`)

A request is admitted by a token, or by a signature of a registered client. The signature covers
the method and the identifier of the request, and nothing else: a client that has signed them has
admitted every request with this method and identifier, whatever its parameters, and as often as it
is received.

## Main definitions

* `RpcServer`, with `authenticateRequest` and `handleRequest`.
* `RpcServer.AcceptsBySignature` — a request is admitted by the signature of a client.
* `RpcServer.Unforgeable` — what verifies was signed.
* `RpcServer.BindsRequests` — a signed message determines one request.
* `RpcServer.BindsMethods` — a signed message determines a method and an identifier.

## Main results

* `RpcRequest.signedMessage_injective` — what is signed tells the method and the identifier.
* `RpcServer.bindsMethods` — what a signature binds.

## Implementation notes

ML-DSA is a relation between keys, messages and signatures. Executing a command is a function of the
request. The set of keys does not change while requests are received.
-/

namespace QuDAG.Protocol

open RustStd

/-! ## Requests -/

/-- The text of a UUID: its digits in groups. -/
def Uuid.hyphenated (id : Uuid) : List Char :=
  let digits := Hex.digits id.bytes
  digits.take 8 ++ '-' :: ((digits.drop 8).take 4 ++ '-' :: ((digits.drop 12).take 4 ++
    '-' :: ((digits.drop 16).take 4 ++ '-' :: digits.drop 20)))

/-- RPC request. -/
structure RpcRequest where
  id : Uuid
  method : String
  params : Json

/-- RPC error. -/
structure RpcError where
  code : Int
  message : String
  data : Option Json

/-- RPC response. -/
structure RpcResponse where
  id : Uuid
  result : Option Json
  error : Option RpcError

/-- A parameter that is a text. -/
def RpcRequest.param (request : RpcRequest) (name : String) : Option String :=
  (request.params.get name).bind Json.asStr

/-- The message that is signed: the request method and ID. -/
def RpcRequest.signedMessage (request : RpcRequest) : String :=
  request.method ++ ":" ++ String.ofList request.id.hyphenated

/-! ## The server -/

/-- What authentication needs to know. -/
structure RpcServer (Key : Type) where
  authToken : Option String
  authKeys : HashMap String Key
  /-- Whether a signature of a message verifies. -/
  verify : Key → List UInt8 → List UInt8 → Bool

namespace RpcServer

variable {Key : Type} (server : RpcServer Key)

/-- The token of a request is right, or there is nothing to authenticate with. -/
def admitsToken (request : RpcRequest) : Bool :=
  match server.authToken with
  | some expected => request.param "auth_token" == some expected
  | none => server.authKeys.keys.card == 0

/-- The signature of a request verifies under the key of its client. -/
def checkSignature (request : RpcRequest) : Bool :=
  match request.param "client_id", request.param "signature" with
  | some clientId, some signature =>
    match server.authKeys.lookup clientId, Hex.decode signature with
    | some publicKey, some bytes =>
      server.verify publicKey (Bytes.ofString request.signedMessage) bytes
    | _, _ => false
  | _, _ => false

/-- Authenticate RPC request. -/
def authenticateRequest (request : RpcRequest) : Bool :=
  if server.admitsToken request then true else server.checkSignature request

/-- Handle RPC request. -/
def handleRequest (execute : RpcRequest → RpcResponse) (request : RpcRequest) : RpcResponse :=
  if server.authenticateRequest request then execute request
  else ⟨request.id, none, some ⟨-32001, "Authentication required", none⟩⟩

/-! ## What is signed -/

/-- A request is admitted through its client identifier and signature. -/
def AcceptsBySignature (clientId : String) (request : RpcRequest) : Prop :=
  server.authenticateRequest request = true ∧ server.admitsToken request = false ∧
    request.param "client_id" = some clientId

/-- Whatever verifies under the key of a client was signed by it. -/
def Unforgeable (signed : String → Set (List UInt8)) : Prop :=
  ∀ clientId publicKey message signature, server.authKeys.lookup clientId = some publicKey →
    server.verify publicKey message signature = true → message ∈ signed clientId

/-- Two requests have the same parameters, up to their signatures. -/
def SameParams (request request' : RpcRequest) : Prop :=
  ∀ name, name ≠ "signature" → request.params.get name = request'.params.get name

/-- Over a history, a signed message determines a request, which is admitted once. -/
structure BindsRequests (signed : String → Set (List UInt8)) (history : List RpcRequest) :
    Prop where
  signs : ∀ request ∈ history, ∀ clientId, server.AcceptsBySignature clientId request →
    Bytes.ofString request.signedMessage ∈ signed clientId
  determines : ∀ request ∈ history, ∀ request' ∈ history, ∀ clientId,
    server.AcceptsBySignature clientId request → server.AcceptsBySignature clientId request' →
    request.signedMessage = request'.signedMessage →
      request.method = request'.method ∧ request.id = request'.id ∧ SameParams request request'
  once : ∀ i j (hi : i < history.length) (hj : j < history.length) clientId,
    server.AcceptsBySignature clientId (history.get ⟨i, hi⟩) →
    server.AcceptsBySignature clientId (history.get ⟨j, hj⟩) →
    (history.get ⟨i, hi⟩).signedMessage = (history.get ⟨j, hj⟩).signedMessage → i = j

/-- Over a history, a signed message determines a method and an identifier. It admits the requests
that have them, with any other parameters. -/
structure BindsMethods (signed : String → Set (List UInt8)) (history : List RpcRequest) :
    Prop where
  signs : ∀ request ∈ history, ∀ clientId, server.AcceptsBySignature clientId request →
    Bytes.ofString request.signedMessage ∈ signed clientId
  determines : ∀ request ∈ history, ∀ request' ∈ history,
    request.signedMessage = request'.signedMessage →
      request.method = request'.method ∧ request.id = request'.id
  admits : ∀ request ∈ history, ∀ clientId, server.AcceptsBySignature clientId request →
    ∀ request' ∈ history, request'.method = request.method → request'.id = request.id →
      (∀ name ∈ ["auth_token", "client_id", "signature"],
        request'.param name = request.param name) →
        server.AcceptsBySignature clientId request'

end RpcServer

/-! ## What a signature binds -/

lemma Uuid.length_hyphenated (id : Uuid) : id.hyphenated.length = 36 := by
  have hdigits : (Hex.digits id.bytes).length = 32 := by
    rw [Hex.length_digits, id.length_eq]
  simp only [Uuid.hyphenated, List.length_append, List.length_cons, List.length_take,
    List.length_drop, hdigits]
  omega

/-- The groups of a text, put together. -/
lemma Uuid.groups_append (digits : List Char) :
    digits.take 8 ++ ((digits.drop 8).take 4 ++ ((digits.drop 12).take 4 ++
      ((digits.drop 16).take 4 ++ digits.drop 20))) = digits := by
  have hjoin (n : ℕ) : (digits.drop n).take 4 ++ digits.drop (n + 4) = digits.drop n := by
    rw [← List.drop_drop, List.take_append_drop]
  rw [hjoin 16, hjoin 12, hjoin 8, List.take_append_drop]

/-- The text of a UUID tells the UUID. -/
lemma Uuid.hyphenated_injective : Function.Injective Uuid.hyphenated := by
  rintro ⟨bytes, hbytes⟩ ⟨bytes', hbytes'⟩ h
  have hlength : (Hex.digits bytes).length = (Hex.digits bytes').length := by
    rw [Hex.length_digits, Hex.length_digits, hbytes, hbytes']
  simp only [Uuid.hyphenated] at h
  -- The groups are compared from the left.
  obtain ⟨h₁, h⟩ := List.append_inj h (by simp only [List.length_take, hlength])
  obtain ⟨h₂, h⟩ := List.append_inj (List.cons.inj h).2
    (by simp only [List.length_take, List.length_drop, hlength])
  obtain ⟨h₃, h⟩ := List.append_inj (List.cons.inj h).2
    (by simp only [List.length_take, List.length_drop, hlength])
  obtain ⟨h₄, h⟩ := List.append_inj (List.cons.inj h).2
    (by simp only [List.length_take, List.length_drop, hlength])
  have hdigits : Hex.digits bytes = Hex.digits bytes' := by
    rw [← Uuid.groups_append (Hex.digits bytes), h₁, h₂, h₃, h₄, (List.cons.inj h).2,
      Uuid.groups_append]
  have heq : some bytes = some bytes' := by
    rw [← Hex.ofDigits_digits, ← Hex.ofDigits_digits, hdigits]
  cases heq
  rfl

/-- **What is signed tells the method and the identifier**: the identifier is the last 36
characters. -/
theorem RpcRequest.signedMessage_injective {request request' : RpcRequest}
    (h : request.signedMessage = request'.signedMessage) :
    request.method = request'.method ∧ request.id = request'.id := by
  have hchars := congrArg String.toList h
  simp only [RpcRequest.signedMessage, String.toList_append, String.toList_ofList] at hchars
  have hlength : request.id.hyphenated.length = request'.id.hyphenated.length := by
    rw [Uuid.length_hyphenated, Uuid.length_hyphenated]
  obtain ⟨hmethod, hid⟩ := List.append_inj' hchars hlength
  refine ⟨?_, Uuid.hyphenated_injective hid⟩
  exact String.toList_inj.mp (List.append_cancel_right hmethod)

namespace RpcServer

variable {Key : Type} (server : RpcServer Key)

/-- A request that is admitted by a signature has one that verifies. -/
lemma AcceptsBySignature.checkSignature {server : RpcServer Key} {clientId : String}
    {request : RpcRequest} (h : server.AcceptsBySignature clientId request) :
    server.checkSignature request = true := by
  obtain ⟨haccepts, htoken, -⟩ := h
  rw [authenticateRequest, htoken] at haccepts
  simpa using haccepts

/-- The key and the signature that admit a request. -/
lemma AcceptsBySignature.exists_verify {server : RpcServer Key} {clientId : String}
    {request : RpcRequest} (h : server.AcceptsBySignature clientId request) :
    ∃ publicKey signature, server.authKeys.lookup clientId = some publicKey ∧
      server.verify publicKey (Bytes.ofString request.signedMessage) signature = true := by
  have hcheck := h.checkSignature
  rw [RpcServer.checkSignature, h.2.2] at hcheck
  cases hsignature : request.param "signature" with
  | none => simp [hsignature] at hcheck
  | some signature =>
    cases hkey : server.authKeys.lookup clientId with
    | none => simp [hsignature, hkey] at hcheck
    | some publicKey =>
      cases hbytes : Hex.decode signature with
      | none => simp [hsignature, hkey, hbytes] at hcheck
      | some bytes =>
        simp only [hsignature, hkey, hbytes] at hcheck
        exact ⟨publicKey, bytes, rfl, hcheck⟩

/-- A client whose signature admits a request has signed its message. -/
lemma AcceptsBySignature.mem_signed {server : RpcServer Key} {clientId : String}
    {request : RpcRequest} {signed : String → Set (List UInt8)}
    (h : server.AcceptsBySignature clientId request) (hsigned : server.Unforgeable signed) :
    Bytes.ofString request.signedMessage ∈ signed clientId := by
  obtain ⟨publicKey, signature, hkey, hverify⟩ := h.exists_verify
  exact hsigned clientId publicKey _ signature hkey hverify

/-- The token of a request is looked for in its parameters only. -/
lemma admitsToken_congr {request request' : RpcRequest}
    (h : request'.param "auth_token" = request.param "auth_token") :
    server.admitsToken request' = server.admitsToken request := by
  rw [admitsToken, admitsToken, h]

/-- The signature of a request is checked against its method and identifier only. -/
lemma checkSignature_congr {request request' : RpcRequest}
    (hmessage : request'.signedMessage = request.signedMessage)
    (hclient : request'.param "client_id" = request.param "client_id")
    (hsignature : request'.param "signature" = request.param "signature") :
    server.checkSignature request' = server.checkSignature request := by
  rw [RpcServer.checkSignature, RpcServer.checkSignature, hmessage, hclient, hsignature]

/-- A signature admits the request again, and with other parameters. -/
lemma AcceptsBySignature.congr {server : RpcServer Key} {clientId : String}
    {request request' : RpcRequest} (h : server.AcceptsBySignature clientId request)
    (hmethod : request'.method = request.method) (hid : request'.id = request.id)
    (hparams : ∀ name ∈ ["auth_token", "client_id", "signature"],
      request'.param name = request.param name) :
    server.AcceptsBySignature clientId request' := by
  have hclient := hparams "client_id" (by simp)
  have htoken := server.admitsToken_congr (hparams "auth_token" (by simp))
  have hmessage : request'.signedMessage = request.signedMessage := by
    rw [RpcRequest.signedMessage, RpcRequest.signedMessage, hmethod, hid]
  have hcheck := server.checkSignature_congr hmessage hclient (hparams "signature" (by simp))
  refine ⟨?_, htoken.trans h.2.1, hclient.trans h.2.2⟩
  rw [authenticateRequest, hcheck, h.checkSignature, ite_self]

/-- **What a signature binds**: a request that is admitted by the signature of a client has a method
and an identifier that the client has signed. The other parameters are not bound, and nothing keeps
the request from being received again. -/
theorem bindsMethods (signed : String → Set (List UInt8)) (history : List RpcRequest)
    (h : server.Unforgeable signed) : server.BindsMethods signed history where
  signs _ _ _ haccepts := haccepts.mem_signed h
  determines _ _ _ _ hmessage := RpcRequest.signedMessage_injective hmessage
  admits _ _ _ haccepts _ _ hmethod hid hparams := haccepts.congr hmethod hid hparams

/-! ## One signature, two commands -/

/-- The message that adds a peer, under the identifier of zeros. -/
def sampleMessage : String := "add_peer:00000000-0000-0000-0000-000000000000"

/-- A server with one client, which has signed one message. -/
def sampleServer : RpcServer Unit where
  authToken := none
  authKeys := Finmap.singleton "operator" ()
  verify _ message signature := message == Bytes.ofString sampleMessage && signature == [1]

/-- What the client has signed. -/
def sampleSigned (clientId : String) : Set (List UInt8) :=
  {message | clientId = "operator" ∧ message = Bytes.ofString sampleMessage}

/-- A request to add a peer, with the signature. -/
def sampleRequest (address : String) : RpcRequest where
  id := Uuid.nil
  method := "add_peer"
  params := .object
    [("address", .string address), ("client_id", .string "operator"), ("signature", .string "01")]

lemma unforgeable_sampleServer : sampleServer.Unforgeable sampleSigned := by
  intro clientId publicKey message signature hkey hverify
  have hclient : clientId = "operator" := by
    by_contra hne
    have hnone : (Finmap.singleton "operator" () : HashMap String Unit).lookup clientId = none :=
      Finmap.lookup_eq_none.mpr (by rwa [Finmap.mem_singleton])
    rw [sampleServer, hnone] at hkey
    exact Option.some_ne_none _ hkey.symm
  simp only [sampleServer, Bool.and_eq_true, beq_iff_eq] at hverify
  exact ⟨hclient, hverify.1⟩

lemma signedMessage_sampleRequest (address : String) :
    (sampleRequest address).signedMessage = sampleMessage := by
  have hid : String.ofList Uuid.nil.hyphenated = "00000000-0000-0000-0000-000000000000" := by
    decide +kernel
  show "add_peer" ++ ":" ++ String.ofList Uuid.nil.hyphenated = sampleMessage
  rw [hid]
  decide +kernel

lemma acceptsBySignature_sampleRequest (address : String) :
    sampleServer.AcceptsBySignature "operator" (sampleRequest address) := by
  have hclient : (sampleRequest address).param "client_id" = some "operator" := rfl
  have hsignature : (sampleRequest address).param "signature" = some "01" := rfl
  have hbytes : Hex.decode "01" = some [1] := by decide +kernel
  have htoken : sampleServer.admitsToken (sampleRequest address) = false := by
    simp [admitsToken, sampleServer, Finmap.keys_singleton]
  refine ⟨?_, htoken, hclient⟩
  rw [authenticateRequest, htoken, checkSignature, hclient, hsignature]
  simp only [hbytes, signedMessage_sampleRequest, sampleServer]
  simp

/-- The theorem at the server whose client has signed one message. -/
theorem bindsMethods_sample :
    sampleServer.BindsMethods sampleSigned [sampleRequest "10.0.0.1:8000"] :=
  sampleServer.bindsMethods sampleSigned _ unforgeable_sampleServer

/-- One signature adds two peers, and adds one peer twice. -/
theorem not_bindsRequests_sampleRequest :
    sampleServer.Unforgeable sampleSigned ∧
      ¬ sampleServer.BindsRequests sampleSigned
        [sampleRequest "10.0.0.1:8000", sampleRequest "10.0.0.2:8000"] ∧
      ¬ sampleServer.BindsRequests sampleSigned
        [sampleRequest "10.0.0.1:8000", sampleRequest "10.0.0.1:8000"] := by
  have haccepts := acceptsBySignature_sampleRequest
  refine ⟨unforgeable_sampleServer, ?_, ?_⟩
  · intro hbinds
    have hmessage : (sampleRequest "10.0.0.1:8000").signedMessage =
        (sampleRequest "10.0.0.2:8000").signedMessage := by
      rw [signedMessage_sampleRequest, signedMessage_sampleRequest]
    have hparams := (hbinds.determines _ (by simp) _ (by simp) "operator" (haccepts _) (haccepts _)
      hmessage).2.2 "address" (by decide)
    simp [sampleRequest, Json.get] at hparams
  · intro hbinds
    have honce := hbinds.once 0 1 (by decide) (by decide) "operator" (haccepts _) (haccepts _) rfl
    exact absurd honce (by decide)

end RpcServer

end QuDAG.Protocol
