import QuDAG.Integrations.EventBoundary
import QuDAG.Lib.JsonText

/-!
# Published events (`coordinationEvent` in `ruflo-nostr/client.mjs`)

The publisher writes a payload, its type and the time into the content of a signed event. The
boundary of the same profile reads them back.

## Main definitions

* `Publisher` — what the environment of the publisher computes.
* `Publisher.coordinationEvent` — the event of a payload.

## Main results

* `Publisher.accept_coordinationEvent` — a new boundary accepts the event exactly if its time is a
  whole number of seconds and its text fits, and then returns the type and the payload.

## Implementation notes

The date and the signature of an event are parameters. The bound of the publisher is on the bytes
of the content, and the bound of the boundary is on those of the text of the event, in which the
content is escaped once more.
-/

namespace QuDAG.Integrations

open RustStd

/-- What the environment of the publisher computes. -/
structure Publisher where
  /-- The text of a number. -/
  number : ℚ → String
  /-- `new Date(milliseconds).toISOString()`, or nothing if it throws. -/
  toISOString : ℚ → Option String
  /-- `getPublicKey`, or nothing if it throws. -/
  getPublicKey : List UInt8 → Option String
  nostr : Nostr
  /-- The signature of a hash with a key. -/
  sign : List UInt8 → String → String

namespace Publisher

open EventBoundary Json JsonText

variable (publisher : Publisher)

/-- `JSON.stringify` of a value. -/
def stringify (value : Json) : String := value.stringify publisher.number

/-- The tags of an event. -/
def tagsFor (type relay : String) : List (List String) :=
  [["t", group], ["k", type], ["relay", relay]]

/-- An event with its public key, its identifier and its signature. -/
def signed (kind createdAt : ℚ) (tags : List (List String)) (content : String) (key : List UInt8)
    (pubkey : String) : Json :=
  let id := publisher.nostr.hash ⟨pubkey, createdAt, kind, tags, content⟩
  .object
    [("kind", .number kind), ("created_at", .number createdAt),
      ("tags", .array (tags.map fun tag => .array (tag.map .string))),
      ("content", .string content), ("pubkey", .string pubkey), ("id", .string id),
      ("sig", .string (publisher.sign key id))]

/-- Sign an event. -/
def finalizeEvent (kind createdAt : ℚ) (tags : List (List String)) (content : String)
    (key : List UInt8) : Except Thrown Json := do
  let pubkey ← orThrow (publisher.getPublicKey key) .runtime
  pure (publisher.signed kind createdAt tags content key pubkey)

/-- The content of an event: the payload with the type and the time. -/
def contentOf (type ts : String) (payload : List (String × Json)) : Json :=
  .object (set "ts" (.string ts) (set "type" (.string type) payload))

/-- The event of a payload. -/
def coordinationEvent (key : List UInt8) (type : String) (payload : Json) (timestamp : ℚ)
    (profile : String) : Except Thrown Json := do
  require (validMessageType type) "Invalid message type or payload"
  let members ← orThrow payload.asObject (.error "Invalid message type or payload")
  let ts ← orThrow (publisher.toISOString (timestamp * 1000)) .runtime
  let content := publisher.stringify (contentOf type ts members)
  require ((Bytes.ofString content).length ≤ 16384) "Message too large"
  let relay ← orThrow (relayFor profile) (.error "Unknown relay profile")
  publisher.finalizeEvent 1 timestamp (tagsFor type relay) content key

/-- `JSON.parse` reads what `JSON.stringify` writes for a value. -/
def Reads (js : Runtime) (value : Json) : Prop :=
  js.parse (publisher.stringify value) = some value

/-- The payload as it is read back: without the type and with the time. -/
def received (ts : String) (payload : List (String × Json)) : Json :=
  .object (set "ts" (.string ts) (without "type" payload))

/-! ## The parts of an event -/

variable {publisher} {key : List UInt8} {type profile : String} {payload event : Json}
  {timestamp : ℚ}

/-- A list of texts is read back. -/
lemma textsOf_map (texts : List String) : textsOf (texts.map .string) = some texts := by
  induction texts with
  | nil => rfl
  | cons text texts ih => rw [List.map_cons, textsOf, ih, Option.map_some]

/-- The tags of an event are read back. -/
lemma tagsOf_map (tags : List (List String)) :
    tagsOf (tags.map fun tag => .array (tag.map .string)) = some tags := by
  induction tags with
  | nil => rfl
  | cons tag tags ih =>
    rw [List.map_cons, tagsOf, textsOf_map, ih]
    rfl

/-- An event is verified if its signature is. -/
lemma verifyEvent_signed (publisher : Publisher) (kind createdAt : ℚ) (tags : List (List String))
    (content : String) (key : List UInt8) (pubkey : String) :
    let id := publisher.nostr.hash ⟨pubkey, createdAt, kind, tags, content⟩
    publisher.nostr.verifyEvent (publisher.signed kind createdAt tags content key pubkey) =
      publisher.nostr.verify (publisher.sign key id) id pubkey := by
  have hparts : partsOf (publisher.signed kind createdAt tags content key pubkey) =
      some ⟨pubkey, createdAt, kind, tags, content⟩ := by
    simp [partsOf, signed, Json.get, List.lookup_cons, asStr, asNumber, asArray, tagsOf_map]
  rw [Nostr.verifyEvent, hparts]
  simp [signed, Json.get, List.lookup_cons, asStr]

/-- What is known of a payload that has an event. -/
structure Published (publisher : Publisher) (key : List UInt8) (type profile : String)
    (timestamp : ℚ) (members : List (String × Json)) (ts relay pubkey : String) : Prop where
  valid : validMessageType type = true
  iso : publisher.toISOString (timestamp * 1000) = some ts
  fits : (Bytes.ofString (publisher.stringify (contentOf type ts members))).length ≤ 16384
  relay : relayFor profile = some relay
  pubkey : publisher.getPublicKey key = some pubkey

/-- The event of a payload with the parts. -/
def eventOf (publisher : Publisher) (key : List UInt8) (type : String) (timestamp : ℚ)
    (members : List (String × Json)) (ts relay pubkey : String) : Json :=
  publisher.signed 1 timestamp (tagsFor type relay)
    (publisher.stringify (contentOf type ts members)) key pubkey

/-- The parts of an event that was returned. -/
lemma of_coordinationEvent_eq_ok
    (h : publisher.coordinationEvent key type payload timestamp profile = .ok event) :
    ∃ members ts relay pubkey, payload = .object members ∧
      Published publisher key type profile timestamp members ts relay pubkey ∧
      event = eventOf publisher key type timestamp members ts relay pubkey := by
  simp only [coordinationEvent, finalizeEvent, bind_eq_ok, require_eq_ok, orThrow_eq_ok,
    decide_eq_true_eq] at h
  obtain ⟨_, hvalid, members, hmembers, ts, hts, _, hfits, relay, hrelay, pubkey, hpubkey, h⟩ := h
  refine ⟨members, ts, relay, pubkey, ?_, ⟨hvalid, hts, hfits, hrelay, hpubkey⟩, ?_⟩
  · cases payload <;> simp_all [asObject]
  · cases h
    rfl

/-- A payload with the parts has an event. -/
lemma coordinationEvent_eq_ok {members : List (String × Json)} {ts relay pubkey : String}
    (h : Published publisher key type profile timestamp members ts relay pubkey) :
    publisher.coordinationEvent key type (.object members) timestamp profile =
      .ok (eventOf publisher key type timestamp members ts relay pubkey) := by
  simp only [coordinationEvent, finalizeEvent, bind_eq_ok, require_eq_ok, orThrow_eq_ok,
    decide_eq_true_eq]
  exact ⟨(), h.valid, members, rfl, ts, h.iso, (), h.fits, relay, h.relay, pubkey, h.pubkey, rfl⟩

/-! ## The checks of the boundary -/

section Checks

variable {js : Runtime} {boundary : EventBoundary} {members : List (String × Json)}
  {ts relay pubkey : String}

/-- The content has the type of the event, and the payload without it. -/
lemma envelopeOf_contentOf (hvalid : validMessageType type = true)
    (members : List (String × Json)) (ts : String) :
    envelopeOf (contentOf type ts members) =
      .ok (type, set "ts" (.string ts) (without "type" members)) := by
  have htype : (contentOf type ts members).get "type" = some (.string type) := by
    rw [contentOf, Json.get, lookup_set_of_ne (by decide), lookup_set_self]
  have hrest : (set "ts" (.string ts) (set "type" (.string type) members)).filter
      (fun member => member.1 != "type") = set "ts" (.string ts) (without "type" members) := by
    rw [← without_set_self "type" (.string type) members, ← without_set (by decide)]
    rfl
  simp only [envelopeOf, bind_eq_ok, orThrow_eq_ok, require_eq_ok]
  refine ⟨_, rfl, type, ?_, (), hvalid, ?_⟩
  · rw [htype]
    rfl
  · rw [← hrest]
    rfl

/-- A payload with the time is not a legacy payload. -/
lemma payloadOf_set (ts : String) (members : List (String × Json)) :
    payloadOf (set "ts" (.string ts) members) = .ok (.object (set "ts" (.string ts) members)) := by
  have hmem := mem_set "ts" (.string ts) members
  rw [payloadOf]
  · rintro inner hwrapped
    simp [hwrapped] at hmem
  · rintro inner hwrapped
    simp [hwrapped] at hmem

/-- The tags of an event, as they are read back. -/
def tagItems (type relay : String) : List Json :=
  (tagsFor type relay).map fun tag => .array (tag.map .string)

/-- An event has one tag with each of its names. -/
lemma tagged_tagItems (type relay : String) :
    tagged (tagItems type relay) "t" = [[.string "t", .string group]] ∧
      tagged (tagItems type relay) "k" = [[.string "k", .string type]] ∧
      tagged (tagItems type relay) "relay" = [[.string "relay", .string relay]] := by
  simp [tagged, tagItems, tagsFor, asArray, asStr]

/-- The tags name the group and the relay of the boundary. -/
lemma inDomain_tagItems (boundary : EventBoundary) (type : String) :
    boundary.inDomain (tagItems type boundary.relay) = true := by
  obtain ⟨hgroup, -, hrelay⟩ := tagged_tagItems type boundary.relay
  simp [inDomain, hgroup, hrelay, asStr]

/-- A new boundary lets the event pass if it has a whole time and its text fits. -/
lemma validate_eventOf
    (hpublished : Published publisher key type boundary.options.profile timestamp members ts relay
      pubkey)
    (hallowed : pubkey ∈ boundary.options.allowedPubkeys) {time : ℚ}
    (hrecent : boundary.recent time timestamp = true) {event : Json}
    (hevent : event = eventOf publisher key type timestamp members ts relay pubkey)
    (hcontent : publisher.Reads js (contentOf type ts members)) (hparse : publisher.Reads js event)
    (hverify : js.verifyEvent event = true) (hwhole : timestamp.isInt = true)
    (hsize : (Bytes.ofString (publisher.stringify event)).length ≤ 32768) :
    ∃ id, validate js boundary time (some (publisher.stringify event)) none =
      .ok ⟨event, id, pubkey, timestamp, ⟨type, received ts members⟩, false⟩ := by
  have hrelay : relay = boundary.relay :=
    Option.some.inj (hpublished.relay.symm.trans boundary.relay_eq)
  subst hrelay hevent
  obtain ⟨hgroup, htype, -⟩ := tagged_tagItems type boundary.relay
  let content := publisher.stringify (contentOf type ts members)
  refine ⟨publisher.nostr.hash ⟨pubkey, timestamp, 1, tagsFor type boundary.relay, content⟩, ?_⟩
  simp only [validate, bind_eq_ok, require_eq_ok, orThrow_eq_ok]
  refine ⟨(), by simp, _, rfl, (), by simpa using hsize, _, hparse, (), beq_self_eq_true _,
    timestamp, rfl, (), by simp [hwhole, hrecent], tagItems type boundary.relay, rfl, (), ?_, (),
    inDomain_tagItems boundary type, pubkey, rfl, (), by simpa using hallowed, content, rfl, (),
    by simpa using hpublished.fits, _, hcontent, _,
    envelopeOf_contentOf hpublished.valid members ts, (), ?_, (), ?_, _, payloadOf_set ts _, _, rfl,
    rfl⟩
  · simp [tagItems, tagsFor, hverify]
  · simp [htype, asStr]
  · simp [hgroup]

/-- The boundary checks the time and the text of every event. -/
lemma isInt_of_validate {time : ℚ} {input : String} {accepted : Accepted}
    (h : validate js boundary time (some input) none = .ok accepted) :
    accepted.createdAt.isInt = true ∧ (Bytes.ofString input).length ≤ 32768 := by
  simp only [validate, bind_eq_ok, require_eq_ok, orThrow_eq_ok, Bool.and_eq_true,
    decide_eq_true_eq] at h
  obtain ⟨_, -, serialized, hinput, _, hsize, event, -, _, -, createdAt, -, _, ⟨hwhole, -⟩, tags, -,
    _, -, _, -, pubkey, -, _, -, text, -, _, -, content, -, ⟨type, rest⟩, -, _, -, _, -, payload, -,
    eventId, -, h⟩ := h
  cases hinput
  cases h
  exact ⟨hwhole, hsize⟩

/-- An event whose text is too large is rejected. -/
lemma validate_of_tooLarge (js : Runtime) (boundary : EventBoundary) (time : ℚ) {input : String}
    (h : 32768 < (Bytes.ofString input).length) :
    validate js boundary time (some input) none = .error (.error "Event too large") := by
  simp [validate, orThrow, require, bind, Except.bind, Nat.not_le.mpr h]

end Checks

/-- A new boundary that allows the key accepts a published event exactly if its time is a whole
number of seconds and its text fits. The message has the type and the payload, with the time. -/
theorem accept_coordinationEvent (publisher : Publisher) (js : Runtime) (boundary : EventBoundary)
    {key : List UInt8} {type ts : String} {members : List (String × Json)} {timestamp time : ℚ}
    {event : Json}
    (hpublished : publisher.coordinationEvent key type (.object members) timestamp
      boundary.options.profile = .ok event)
    (hts : publisher.toISOString (timestamp * 1000) = some ts)
    (hallowed : ∀ pubkey ∈ publisher.getPublicKey key, pubkey ∈ boundary.options.allowedPubkeys)
    (hclock : time ∈ Set.Icc (timestamp - boundary.options.futureSkewSeconds)
      (timestamp + boundary.options.maxAgeSeconds))
    (hcontent : publisher.Reads js (contentOf type ts members)) (hreads : publisher.Reads js event)
    (hverify : js.verifyEvent event = true) :
    let returned := (accept js boundary time (some (publisher.stringify event)) none ∅).1
    ((∃ accepted, returned = .ok accepted) ↔
      timestamp.isInt = true ∧ (Bytes.ofString (publisher.stringify event)).length ≤ 32768) ∧
    ∀ accepted, returned = .ok accepted → accepted.message = ⟨type, received ts members⟩ := by
  obtain ⟨members', ts', relay, pubkey, hmembers, hparts, hevent⟩ :=
    of_coordinationEvent_eq_ok hpublished
  cases hmembers
  cases Option.some.inj (hparts.iso.symm.trans hts)
  have hrecent : boundary.recent time timestamp = true := by
    simp only [recent, Bool.and_eq_true, Bool.not_eq_true', decide_eq_false_iff_not, not_lt]
    exact ⟨sub_le_iff_le_add.mpr hclock.2, sub_le_iff_le_add.mp hclock.1⟩
  have hvalidate (hwhole : timestamp.isInt = true)
      (hsize : (Bytes.ofString (publisher.stringify event)).length ≤ 32768) :=
    validate_eventOf hparts (hallowed pubkey hparts.pubkey) hrecent hevent hcontent hreads hverify
      hwhole hsize
  have hcreatedAt {accepted : Accepted}
      (h : validate js boundary time (some (publisher.stringify event)) none = .ok accepted) :
      accepted.createdAt = timestamp := by
    have hget := (of_validate_eq_ok h).2.2.2.1
    have hinput := (of_validate_eq_ok h).1
    rw [Option.bind_some, show js.parse (publisher.stringify event) = some event from hreads,
      Option.some.injEq] at hinput
    rw [← hinput, hevent] at hget
    exact (Json.number.inj (Option.some.inj hget)).symm
  simp only [accept_empty]
  refine ⟨⟨?_, ?_⟩, fun accepted h => ?_⟩
  · rintro ⟨accepted, h⟩
    rw [← hcreatedAt h]
    exact isInt_of_validate h
  · rintro ⟨hwhole, hsize⟩
    obtain ⟨id, h⟩ := hvalidate hwhole hsize
    exact ⟨_, h⟩
  · have hboth := isInt_of_validate h
    rw [hcreatedAt h] at hboth
    obtain ⟨id, hok⟩ := hvalidate hboth.1 hboth.2
    cases h.symm.trans hok
    rfl

/-! ## Payloads of quotation marks -/

/-- A publisher with one public key and one signature. -/
def samplePublisher : Publisher where
  number value := toString value.num
  toISOString milliseconds :=
    if milliseconds = 1000000 then some "1970-01-01T00:16:40.000Z" else none
  getPublicKey key := if key.length = 32 then some sampleKey else none
  nostr := sampleNostr
  sign _ _ := String.ofList (List.replicate 128 'b')

/-- A secret key. -/
def sampleSecret : List UInt8 := List.replicate 32 1

/-- A payload with a number of quotation marks. -/
def samplePayload (n : ℕ) : List (String × Json) := [("a", .string (repeated n "\""))]

/-- The content of the event of the payload. -/
def samplePublished (n : ℕ) : Json :=
  contentOf "Status" "1970-01-01T00:16:40.000Z" (samplePayload n)

/-- The event of the payload. -/
def sampleFinalized (n : ℕ) : Json :=
  samplePublisher.eventOf sampleSecret "Status" 1000 (samplePayload n) "1970-01-01T00:16:40.000Z"
    "wss://relay.ruv.io" sampleKey

/-- A runtime that knows the texts of the event and of its content. -/
def sampleReader (n : ℕ) : Runtime :=
  sampleRuntime
    [(samplePublisher.stringify (samplePublished n), samplePublished n),
      (samplePublisher.stringify (sampleFinalized n), sampleFinalized n)]

/-- The bytes of a repeated text. -/
lemma length_ofString_repeated (n : ℕ) (text : String) :
    (Bytes.ofString (repeated n text)).length = n * (Bytes.ofString text).length := by
  induction n with
  | zero => simp [repeated, Bytes.ofString]
  | succ n ih =>
    rw [repeated, Bytes.ofString_append, List.length_append, ih, Nat.succ_mul, add_comm]

/-- The text of the content has a backslash before each quotation mark. -/
lemma stringify_samplePublished (n : ℕ) :
    samplePublisher.stringify (samplePublished n) =
      "\x7b\"a\":\"" ++ (repeated n "\\\"" ++
        "\",\"type\":\"Status\",\"ts\":\"1970-01-01T00:16:40.000Z\"\x7d") := by
  have hquote : escaped "\"" = "\\\"" := by decide
  change samplePublisher.stringify (.object
    [("a", .string (repeated n "\"")), ("type", .string "Status"),
      ("ts", .string "1970-01-01T00:16:40.000Z")]) = _
  simp only [stringify, Json.stringify, memberTexts, quote, String.intercalate_cons_cons,
    String.intercalate_singleton, escaped_repeated, hquote, String.append_assoc]
  rfl

/-- Each quotation mark takes two bytes of the content. -/
lemma length_stringify_samplePublished (n : ℕ) :
    (Bytes.ofString (samplePublisher.stringify (samplePublished n))).length = 2 * n + 56 := by
  have hfront : (Bytes.ofString "\x7b\"a\":\"").length = 6 := by decide
  have hback : (Bytes.ofString
      "\",\"type\":\"Status\",\"ts\":\"1970-01-01T00:16:40.000Z\"\x7d").length = 50 := by decide
  have hquote : (Bytes.ofString "\\\"").length = 2 := by decide
  rw [stringify_samplePublished, Bytes.ofString_append, Bytes.ofString_append, List.length_append,
    List.length_append, length_ofString_repeated, hfront, hback, hquote]
  omega

/-- Each quotation mark takes four bytes of the text of the event. -/
lemma le_length_stringify_sampleFinalized (n : ℕ) :
    4 * n + 113 ≤ (Bytes.ofString (samplePublisher.stringify (sampleFinalized n))).length := by
  have hquote : escaped "\\\"" = "\\\\\\\"" := by decide
  have htags : samplePublisher.stringify (.array (tagItems "Status" "wss://relay.ruv.io")) =
      "[[\"t\",\"ruflo-swarm\"],[\"k\",\"Status\"],[\"relay\",\"wss://relay.ruv.io\"]]" := by
    decide +kernel
  have hcontent := stringify_samplePublished n
  simp only [samplePublished, stringify] at hcontent
  simp only [tagItems, stringify] at htags
  -- The tags, and the content without its quotation marks, take the other bytes.
  have hlengthTags : (Bytes.ofString
      "[[\"t\",\"ruflo-swarm\"],[\"k\",\"Status\"],[\"relay\",\"wss://relay.ruv.io\"]]").length =
      67 := by decide +kernel
  have hlengthBack : (Bytes.ofString (escaped
      "\",\"type\":\"Status\",\"ts\":\"1970-01-01T00:16:40.000Z\"\x7d")).length = 59 := by
    decide +kernel
  have hlengthQuote : (Bytes.ofString "\\\\\\\"").length = 4 := by decide
  simp only [sampleFinalized, eventOf, signed, stringify, hcontent, htags, Json.stringify.eq_6,
    memberTexts, String.intercalate_cons_cons, Bytes.ofString_append, List.length_append]
  simp only [Json.stringify.eq_4, quote, escaped_append, escaped_repeated, Bytes.ofString_append,
    List.length_append, length_ofString_repeated, hquote, hlengthTags, hlengthBack, hlengthQuote]
  omega

/-- The parts of the event. -/
lemma published_sample {n : ℕ} (hn : n ≤ 8164) :
    Published samplePublisher sampleSecret "Status" sampleBoundary.options.profile 1000
      (samplePayload n) "1970-01-01T00:16:40.000Z" "wss://relay.ruv.io" sampleKey where
  valid := by decide
  iso := by
    have hms : (1000 : ℚ) * 1000 = 1000000 := by decide +kernel
    simp [samplePublisher, hms]
  fits := by
    have hlength := length_stringify_samplePublished n
    rw [samplePublished] at hlength
    omega
  relay := rfl
  pubkey := rfl

/-- The event is verified. -/
lemma verifyEvent_sample (n : ℕ) : sampleNostr.verifyEvent (sampleFinalized n) = true :=
  (verifyEvent_signed samplePublisher 1 1000 _ _ sampleSecret sampleKey).trans (beq_self_eq_true _)

/-- The texts are read. -/
lemma reads_sample (n : ℕ) :
    samplePublisher.Reads (sampleReader n) (samplePublished n) ∧
      samplePublisher.Reads (sampleReader n) (sampleFinalized n) := by
  have hne : (samplePublisher.stringify (sampleFinalized n) ==
      samplePublisher.stringify (samplePublished n)) = false := by
    refine beq_false_of_ne fun heq => ?_
    have hle := le_length_stringify_sampleFinalized n
    rw [heq, length_stringify_samplePublished] at hle
    omega
  constructor
  · simp [Reads, sampleReader, sampleRuntime]
  · simp [Reads, sampleReader, sampleRuntime, List.lookup_cons, hne]

/-- One quotation mark arrives. -/
theorem accept_coordinationEvent_quote :
    let returned := (accept (sampleReader 1) sampleBoundary 1000
      (some (samplePublisher.stringify (sampleFinalized 1))) none ∅).1
    ((∃ accepted, returned = .ok accepted) ↔ (1000 : ℚ).isInt = true ∧
      (Bytes.ofString (samplePublisher.stringify (sampleFinalized 1))).length ≤ 32768) ∧
    ∀ accepted, returned = .ok accepted →
      accepted.message =
        ⟨"Status", received "1970-01-01T00:16:40.000Z" (samplePayload 1)⟩ := by
  have hparts := published_sample (n := 1) (by decide)
  refine accept_coordinationEvent samplePublisher (sampleReader 1) sampleBoundary
    (coordinationEvent_eq_ok hparts) hparts.iso ?_ ?_ (reads_sample 1).1 (reads_sample 1).2
    (verifyEvent_sample 1)
  · intro pubkey hpubkey
    rw [hparts.pubkey, Option.mem_some_iff] at hpubkey
    exact hpubkey ▸ List.mem_singleton_self sampleKey
  · decide +kernel

/-- 8164 quotation marks fit into the content, and not into the text of the event. -/
theorem not_accept_coordinationEvent :
    samplePublisher.coordinationEvent sampleSecret "Status" (.object (samplePayload 8164)) 1000
        sampleBoundary.options.profile = .ok (sampleFinalized 8164) ∧
      samplePublisher.Reads (sampleReader 8164) (sampleFinalized 8164) ∧
      (sampleReader 8164).verifyEvent (sampleFinalized 8164) = true ∧
      (accept (sampleReader 8164) sampleBoundary 1000
        (some (samplePublisher.stringify (sampleFinalized 8164))) none ∅).1 =
          .error (.error "Event too large") := by
  refine ⟨coordinationEvent_eq_ok (published_sample le_rfl), (reads_sample 8164).2,
    verifyEvent_sample 8164, ?_⟩
  have hle := le_length_stringify_sampleFinalized 8164
  rw [accept_empty]
  exact validate_of_tooLarge _ _ _ (by omega)

end Publisher

end QuDAG.Integrations
