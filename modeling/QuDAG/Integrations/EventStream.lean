import QuDAG.Integrations.FederationClient
import QuDAG.Lib.JsonText
import QuDAG.Lib.Tokens
import QuDAG.Lib.Utf8

/-!
# Reading the answer to a request (`ruflo-x/client.mjs`)

The body of an answer is JSON, or a stream of events that are separated by blank lines. A stream is
read chunk by chunk, up to the event with the answer.

## Main definitions

* `parseResponse` — the result in a text.
* `readEvents`, `readBody` — read a stream, and a body.
* `eventTokens` — the events that blank lines complete.

## Main results

* `readEvents_eq` — reading a stream in chunks is reading it as a whole.
* `readBody_streaming` — the result of a stream of events.

## Implementation notes

A text without surrogates is a list of characters. `JSON.parse` and the text of a number are
parameters, and what else is thrown by the language is not told apart.
-/

namespace QuDAG.Integrations.Federation

/-- What the language brings along: `JSON.parse`, or nothing if it throws, and the text of a
number. -/
structure JavaScript where
  parse : String → Option Json
  number : ℚ → String

/-! ## Texts -/

/-- A text contains another one. -/
def includes (text part : String) : Bool := decide (part.toList <:+: text.toList)

/-- White space. -/
def isWhitespace (c : Char) : Bool :=
  c.toNat ∈ [0x9, 0xa, 0xb, 0xc, 0xd, 0x20, 0xa0, 0x1680, 0x2028, 0x2029, 0x202f, 0x205f, 0x3000,
    0xfeff] || 0x2000 ≤ c.toNat && c.toNat ≤ 0x200a

/-- What is left after `\r?\n` at the beginning. -/
def dropNewline : List Char → Option (List Char)
  | '\r' :: '\n' :: text => some text
  | '\n' :: text => some text
  | _ => none

/-- What is left after `\r?\n\r?\n` at the beginning. -/
def dropBoundary (text : List Char) : Option (List Char) := (dropNewline text).bind dropNewline

/-- The text before the first boundary, and the text after it. -/
def nextEvent : List Char → Option (List Char × List Char)
  | [] => none
  | c :: text =>
    match dropBoundary (c :: text) with
    | some rest => some ([], rest)
    | none => (nextEvent text).map fun r => (c :: r.1, r.2)

/-- Put a character before the first of some texts. -/
def consFirst (c : Char) : List (List Char) → List (List Char)
  | [] => [[c]]
  | text :: texts => (c :: text) :: texts

/-- Split at `\r?\n`. -/
def splitLines : List Char → List (List Char)
  | [] => [[]]
  | '\r' :: '\n' :: text => [] :: splitLines text
  | '\n' :: text => [] :: splitLines text
  | c :: text => consFirst c (splitLines text)

/-- Split at two line feeds. -/
def splitBlank : List Char → List (List Char)
  | [] => [[]]
  | '\n' :: '\n' :: text => [] :: splitBlank text
  | c :: text => consFirst c (splitBlank text)

/-- Replace every `\r\n` by a line feed. -/
def replaceCrlf : List Char → List Char
  | [] => []
  | '\r' :: '\n' :: text => '\n' :: replaceCrlf text
  | c :: text => c :: replaceCrlf text

/-- The data lines, joined. -/
def joinData (lines : List (List Char)) : List Char :=
  ['\n'].intercalate
    ((lines.filter fun line => "data:".toList.isPrefixOf line).map fun line =>
      (line.drop 5).dropWhile isWhitespace)

/-! ## Answers -/

/-- The message is an object with the identifier of the request. -/
def isAnswer (id : ℕ) (message : Json) : Bool :=
  message.asObject.isSome && (message.get "id").bind Json.asNumber = some (id : ℚ)

/-- The result of a message, or its error. -/
def checkEnvelope (js : JavaScript) (message : Json) : Except Thrown Json := do
  require ((message.get "jsonrpc").bind Json.asStr = some "2.0" &&
    (message.get "result").isSome != (message.get "error").isSome) "Invalid JSON-RPC envelope"
  match message.get "error" with
  | some error =>
    let code ← orThrow ((error.get "code").bind Json.asNumber) (.error "Invalid JSON-RPC error")
    require (error.asObject.isSome && code.isInt && ((error.get "message").bind Json.asStr).isSome)
      "Invalid JSON-RPC error"
    .error (.error ("Remote JSON-RPC error " ++ js.number code))
  | none => orThrow (message.get "result") .runtime

/-- The messages in a text, by its type. -/
def messages (js : JavaScript) (text : List Char) (contentType : String) :
    Except Thrown (List Json) :=
  if includes contentType "text/event-stream" then
    let events := (splitBlank (replaceCrlf text)).filter (· ≠ [])
    let data := (events.map fun event => joinData (event.splitOn '\n')).filter (· ≠ [])
    data.mapM fun data => orThrow (js.parse (String.ofList data)) .runtime
  else if includes contentType "application/json" then do
    let message ← orThrow (js.parse (String.ofList text)) .runtime
    pure [message]
  else .error (.error "Unsupported response content type")

/-- The result in a text. -/
def parseResponse (js : JavaScript) (text : List Char) (contentType : String) (id : ℕ) :
    Except Thrown Json := do
  let messages ← messages js text contentType
  match messages.filter (isAnswer id) with
  | [message] => checkEnvelope js message
  | _ => .error (.error "Missing or duplicate response id")

/-! ## Reading -/

/-- The data of an event. -/
def eventData (event : List Char) : List Char := joinData (splitLines event)

/-- What an event makes of the request: nothing, or its end. -/
def handleEvent (js : JavaScript) (id : ℕ) (event : List Char) : Option (Except Thrown Json) :=
  if eventData event = [] then none
  else
    match js.parse (String.ofList (eventData event)) with
    | none => some (.error .runtime)
    | some message =>
      if isAnswer id message then some (parseResponse js (eventData event) "application/json" id)
      else none

/-! ## Boundaries -/

section Boundary

variable {c : Char} {text more rest event : List Char}

/-- A newline is taken off the beginning. -/
lemma dropNewline_eq_some (h : dropNewline text = some rest) :
    text = '\r' :: '\n' :: rest ∨ text = '\n' :: rest := by
  unfold dropNewline at h
  split at h
  · cases h
    exact .inl rfl
  · cases h
    exact .inr rfl
  · cases h

/-- A newline stays one when more comes. -/
lemma dropNewline_append (h : dropNewline text = some rest) :
    dropNewline (text ++ more) = some (rest ++ more) := by
  rcases dropNewline_eq_some h with rfl | rfl <;> rfl

/-- A newline is there already, or some of it has still to come. -/
lemma dropNewline_of_append (h : dropNewline (text ++ more) = some rest) :
    (∃ left, dropNewline text = some left ∧ rest = left ++ more) ∨ text = [] ∨ text = ['\r'] := by
  rcases dropNewline_eq_some h with heq | heq
  · match text, heq with
    | [], _ => exact .inr (.inl rfl)
    | [a], heq =>
      cases heq
      exact .inr (.inr rfl)
    | a :: b :: left, heq =>
      cases heq
      exact .inl ⟨left, rfl, rfl⟩
  · match text, heq with
    | [], _ => exact .inr (.inl rfl)
    | a :: left, heq =>
      cases heq
      exact .inl ⟨left, rfl, rfl⟩

/-- A boundary stays one when more comes. -/
lemma dropBoundary_append (h : dropBoundary text = some rest) :
    dropBoundary (text ++ more) = some (rest ++ more) := by
  obtain ⟨left, hleft, hrest⟩ := Option.bind_eq_some_iff.mp h
  rw [dropBoundary, dropNewline_append hleft, Option.bind_some, dropNewline_append hrest]

/-- If some of the first boundary has still to come, there is no boundary after it either. -/
lemma nextEvent_of_dropBoundary_append (hnone : dropBoundary (c :: text) = none)
    (h : dropBoundary (c :: text ++ more) = some rest) : nextEvent text = none := by
  obtain ⟨left, hleft, hrest⟩ := Option.bind_eq_some_iff.mp h
  rcases dropNewline_of_append hleft with ⟨left', hleft', rfl⟩ | hnil | hreturn
  · rw [dropBoundary, hleft', Option.bind_some] at hnone
    rcases dropNewline_of_append hrest with ⟨_, hsome, -⟩ | rfl | rfl
    · cases hnone.symm.trans hsome
    · rcases dropNewline_eq_some hleft' with heq | heq <;> cases heq <;> rfl
    · rcases dropNewline_eq_some hleft' with heq | heq <;> cases heq <;> rfl
  · cases hnil
  · cases hreturn
    rfl

/-- **The first event stays the first** when more comes. -/
lemma nextEvent_append (h : nextEvent text = some (event, rest)) :
    nextEvent (text ++ more) = some (event, rest ++ more) := by
  induction text generalizing event with
  | nil => cases h
  | cons c text ih =>
    rw [nextEvent] at h
    rw [List.cons_append, nextEvent]
    cases hboundary : dropBoundary (c :: text) with
    | some left =>
      rw [hboundary] at h
      cases h
      rw [show c :: (text ++ more) = c :: text ++ more from rfl, dropBoundary_append hboundary]
    | none =>
      rw [hboundary] at h
      obtain ⟨⟨event', rest'⟩, hnext, heq⟩ := Option.map_eq_some_iff.mp h
      cases heq
      cases hmore : dropBoundary (c :: (text ++ more)) with
      | some left => cases (nextEvent_of_dropBoundary_append hboundary hmore).symm.trans hnext
      | none => simp only [ih hnext, Option.map_some]

/-- The first event ends at a blank line, with any of the two newlines. -/
lemma nextEvent_eq_some (h : nextEvent text = some (event, rest)) :
    ∃ newline newline', (newline = ['\r', '\n'] ∨ newline = ['\n']) ∧
      (newline' = ['\r', '\n'] ∨ newline' = ['\n']) ∧
      text = event ++ newline ++ newline' ++ rest := by
  have hone : ∀ {text rest : List Char}, dropNewline text = some rest →
      ∃ newline, (newline = ['\r', '\n'] ∨ newline = ['\n']) ∧ text = newline ++ rest := by
    intro text rest h
    rcases dropNewline_eq_some h with rfl | rfl
    · exact ⟨_, .inl rfl, rfl⟩
    · exact ⟨_, .inr rfl, rfl⟩
  induction text generalizing event with
  | nil => cases h
  | cons c text ih =>
    rw [nextEvent] at h
    cases hboundary : dropBoundary (c :: text) with
    | some left =>
      rw [hboundary] at h
      cases h
      obtain ⟨middle, hmiddle, hrest⟩ := Option.bind_eq_some_iff.mp hboundary
      obtain ⟨newline, hnewline, htext⟩ := hone hmiddle
      obtain ⟨newline', hnewline', rfl⟩ := hone hrest
      exact ⟨newline, newline', hnewline, hnewline', by
        rw [htext, List.nil_append, List.append_assoc]⟩
    | none =>
      rw [hboundary] at h
      obtain ⟨⟨event', rest'⟩, hnext, heq⟩ := Option.map_eq_some_iff.mp h
      cases heq
      obtain ⟨newline, newline', hnewline, hnewline', rfl⟩ := ih hnext
      exact ⟨newline, newline', hnewline, hnewline', rfl⟩

/-- An event takes up something. -/
lemma length_nextEvent_lt (h : nextEvent text = some (event, rest)) :
    rest.length < text.length := by
  obtain ⟨newline, newline', hnewline, -, rfl⟩ := nextEvent_eq_some h
  have hpos : 0 < newline.length := by rcases hnewline with rfl | rfl <;> decide
  simp only [List.length_append]
  omega

end Boundary

/-- The events that blank lines complete. -/
def eventTokens : Tokenizer Char (List Char) where
  next := nextEvent
  length_lt := length_nextEvent_lt
  next_append _ := nextEvent_append

/-! ## Streams -/

variable (js : JavaScript)

/-- Read a stream: what is known are the number of bytes so far, the text that is left, and the
decoder. -/
def readEvents (maxBytes id bytes : ℕ) (pending : List Char) (decoder : TextDecoder) :
    List (List UInt8) → Except Thrown Json
  | [] => .error (.error "Missing completed SSE response event")
  | value :: values =>
    if maxBytes < bytes + value.length then .error (.error "Response exceeds byte limit")
    else
      match decoder.decode value with
      | none => .error .runtime
      | some (text, decoder) =>
        match eventTokens.drain (handleEvent js id) (pending ++ text) with
        | .inl result => result
        | .inr pending => readEvents maxBytes id (bytes + value.length) pending decoder values

/-- Read a body that is no stream. -/
def readChunks (maxBytes bytes : ℕ) : List (List UInt8) → Except Thrown (List UInt8)
  | [] => .ok []
  | value :: values =>
    if maxBytes < bytes + value.length then .error (.error "Response exceeds byte limit")
    else (readChunks maxBytes (bytes + value.length) values).map (value ++ ·)

/-- Read the body of an answer. -/
def readBody (maxBytes : ℕ) (contentType : String) (id : ℕ) (values : List (List UInt8)) :
    Except Thrown Json :=
  if includes contentType "text/event-stream" then readEvents js maxBytes id 0 [] .new values
  else do
    let bytes ← readChunks maxBytes 0 values
    parseResponse js (Bytes.fromUtf8Lossy bytes).toList contentType id

variable {js} {maxBytes id bytes : ℕ} {pending text : List Char} {decoder after : TextDecoder}
  {values : List (List UInt8)}

/-- **Reading a stream in chunks is reading it as a whole.** -/
lemma readEvents_eq (hdecode : decoder.decode values.flatten = some (text, after))
    (hbytes : bytes + values.flatten.length ≤ maxBytes)
    (hpending : eventTokens.next pending = none) :
    readEvents js maxBytes id bytes pending decoder values =
      (eventTokens.drain (handleEvent js id) (pending ++ text)).elim (fun result => result)
        fun _ => .error (.error "Missing completed SSE response event") := by
  induction values generalizing bytes pending text decoder with
  | nil =>
    rw [List.flatten_nil, TextDecoder.decode_nil] at hdecode
    cases hdecode
    rw [List.append_nil, Tokenizer.drain_of_none hpending]
    rfl
  | cons value values ih =>
    rw [List.flatten_cons, TextDecoder.decode_append] at hdecode
    rw [List.flatten_cons, List.length_append] at hbytes
    obtain ⟨⟨first, next⟩, hfirst, hrest⟩ := Option.bind_eq_some_iff.mp hdecode
    obtain ⟨⟨second, last⟩, hsecond, heq⟩ := Option.map_eq_some_iff.mp hrest
    cases heq
    rw [readEvents, if_neg (by omega), hfirst, ← List.append_assoc, Tokenizer.drain_append]
    dsimp only
    cases hdrain : eventTokens.drain (handleEvent js id) (pending ++ first) with
    | inl result => rfl
    | inr left =>
      exact ih hsecond (by omega) (Tokenizer.next_of_drain hdrain)

/-! ## The answer in a stream -/

/-- The events of a text that blank lines complete. -/
def completeEvents (text : String) : List (List Char) :=
  (eventTokens.tokens (TextDecoder.serialize false text.toList)).1

/-- An event is passed over: it has no data, or its data is a message but not the answer. -/
def Passed (js : JavaScript) (id : ℕ) (event : List Char) : Prop :=
  eventData event = [] ∨
    ∃ message, js.parse (String.ofList (eventData event)) = some message ∧
      isAnswer id message = false

/-- An event is the answer: its data is an object with the identifier of the request. -/
def Answers (js : JavaScript) (id : ℕ) (event : List Char) : Prop :=
  eventData event ≠ [] ∧
    ∃ message, js.parse (String.ofList (eventData event)) = some message ∧
      isAnswer id message = true

section Answer

variable {event : List Char} {result : Json}

/-- An event that is passed over makes nothing of the request. -/
lemma handleEvent_eq_none_iff : handleEvent js id event = none ↔ Passed js id event := by
  rw [handleEvent, Passed]
  split_ifs with hdata
  · exact ⟨fun _ => .inl hdata, fun _ => rfl⟩
  · cases js.parse (String.ofList (eventData event)) with
    | none => simp [hdata]
    | some message => simp [hdata]

/-- An event ends the request with a result iff it is the answer and has the result. -/
lemma handleEvent_eq_ok_iff :
    handleEvent js id event = some (.ok result) ↔
      Answers js id event ∧
        parseResponse js (eventData event) "application/json" id = .ok result := by
  rw [handleEvent, Answers]
  split_ifs with hdata
  · simp [hdata]
  · cases js.parse (String.ofList (eventData event)) with
    | none => simp
    | some message => simp [hdata]

end Answer

/-- The first event that is not passed over decides about the result of a stream. -/
lemma readBody_eq {contentType : String} {text : String} {values : List (List UInt8)}
    (hsse : includes contentType "text/event-stream" = true)
    (hvalues : values.flatten = Bytes.ofString text)
    (hbytes : (Bytes.ofString text).length ≤ maxBytes) :
    readBody js maxBytes contentType id values =
      ((completeEvents text).findSome? (handleEvent js id)).getD
        (.error (.error "Missing completed SSE response event")) := by
  obtain ⟨after, hdecode⟩ := TextDecoder.decode_ofString text
  rw [← hvalues] at hdecode hbytes
  rw [readBody, if_pos hsse,
    readEvents_eq hdecode ((Nat.zero_add _).trans_le hbytes) rfl, List.nil_append,
    Tokenizer.drain_eq, completeEvents]
  cases List.findSome? (handleEvent js id)
    (eventTokens.tokens (TextDecoder.serialize false text.toList)).1 <;> rfl

/-- However the bytes of a stream of events are split, reading it ends in the same way. It has a
result iff an event that a blank line completes is the answer and has this result, and the events
before it are passed over. -/
theorem readBody_streaming (js : JavaScript) (maxBytes id : ℕ) (contentType text : String)
    (values values' : List (List UInt8))
    (hsse : includes contentType "text/event-stream" = true)
    (hvalues : values.flatten = Bytes.ofString text)
    (hvalues' : values'.flatten = Bytes.ofString text)
    (hbytes : (Bytes.ofString text).length ≤ maxBytes) :
    readBody js maxBytes contentType id values = readBody js maxBytes contentType id values' ∧
      ∀ result, readBody js maxBytes contentType id values = .ok result ↔
        ∃ before event later, completeEvents text = before ++ event :: later ∧
          (∀ earlier ∈ before, Passed js id earlier) ∧ Answers js id event ∧
          parseResponse js (eventData event) "application/json" id = .ok result := by
  rw [readBody_eq hsse hvalues hbytes, readBody_eq hsse hvalues' hbytes]
  refine ⟨rfl, fun result => ?_⟩
  have hresult : ((completeEvents text).findSome? (handleEvent js id)).getD
      (.error (.error "Missing completed SSE response event")) = .ok result ↔
        (completeEvents text).findSome? (handleEvent js id) = some (.ok result) := by
    cases (completeEvents text).findSome? (handleEvent js id) <;> simp
  rw [hresult, List.findSome?_eq_some_iff]
  simp only [handleEvent_eq_ok_iff, handleEvent_eq_none_iff]
  constructor
  · rintro ⟨before, event, later, heq, hanswers, hpassed⟩
    exact ⟨before, event, later, heq, hpassed, hanswers⟩
  · rintro ⟨before, event, later, heq, hpassed, hanswers⟩
    exact ⟨before, event, later, heq, hanswers, hpassed⟩

/-- An answer to the first request. -/
def sampleAnswer : Json :=
  .object [("jsonrpc", .string "2.0"), ("id", .number 1), ("result", .null)]

/-- The text of this answer. -/
def sampleAnswerText : String := sampleAnswer.stringify fun _ => "1"

/-- The text is the only one that is parsed. -/
def sampleJavaScript : JavaScript where
  parse text := if text = sampleAnswerText then some sampleAnswer else none
  number _ := "1"

/-- The bytes of a stream with the answer. -/
def sampleStream : List UInt8 :=
  Bytes.ofString ("data: " ++ sampleAnswerText ++ "\r\n\r\n")

/-- The stream as a whole, and with its last line terminator split. -/
theorem readBody_streaming_sample :
    readBody sampleJavaScript sampleStream.length "text/event-stream" 1
        [sampleStream.take (sampleStream.length - 1),
          sampleStream.drop (sampleStream.length - 1)] =
      readBody sampleJavaScript sampleStream.length "text/event-stream" 1 [sampleStream] :=
  (readBody_streaming sampleJavaScript sampleStream.length 1 "text/event-stream" _
    [sampleStream.take (sampleStream.length - 1), sampleStream.drop (sampleStream.length - 1)]
    [sampleStream] (decide_eq_true (List.infix_refl _))
    (by rw [List.flatten_cons, List.flatten_singleton, List.take_append_drop, sampleStream])
    (by rw [List.flatten_singleton, sampleStream]) le_rfl).1

end QuDAG.Integrations.Federation
