import QuDAG.Lib.Base64
import QuDAG.Lib.Framing

/-!
# Protocol obfuscation (`traffic_obfuscation.rs`)

The bytes of a message are disguised as traffic of another protocol. Most disguises put a header in
front of the bytes, with their length or without, and lose nothing. The one as a DNS query keeps
only a part of the bytes, and the one as a TLS record has 16 bits for the length, whatever it is.

## Main definitions

* `ObfuscationPattern` — the protocols.
* `ProtocolObfuscator.obfuscateAs` — the disguise of a byte string.
* `ProtocolObfuscator.declaredLength` — the length field, as a receiver reads it.
* `ProtocolObfuscator.Recoverable` — the disguise determines the byte string, and its length field
  is right.

## Main results

* `ProtocolObfuscator.recoverable_iff` — when it is.

## Implementation notes

Random values are arguments; the identifier of a request is a text.
-/

namespace QuDAG.Network

open Framing

/-- Protocol obfuscation patterns. -/
inductive ObfuscationPattern
  /-- HTTP-like traffic. -/
  | http
  /-- HTTPS-like traffic. -/
  | https
  /-- WebSocket-like traffic. -/
  | webSocket
  /-- DNS-like traffic. -/
  | dns
  /-- Custom pattern. -/
  | custom (header : List UInt8)
  deriving DecidableEq, Repr

/-- The random values of a disguise. -/
structure ObfuscationDraws where
  /-- The identifier of an HTTP request. -/
  requestId : String
  /-- The masking key of a WebSocket frame. -/
  mask : Fin 4 → UInt8
  /-- The number whose first two bytes are the identifier of a DNS query. -/
  queryId : UInt32

namespace ProtocolObfuscator

/-! ## Disguises -/

/-- The text of an HTTP request in front of the length. -/
def httpStart : List Char :=
  ("POST /api/v1/data HTTP/1.1\r\n" ++
    "Host: example.com\r\n" ++
    "User-Agent: Mozilla/5.0\r\n" ++
    "Content-Type: application/octet-stream\r\n" ++
    "Content-Length: ").toList

/-- The text in front of a body of `n` characters. -/
def httpHeader (requestId : String) (n : ℕ) : List Char :=
  httpStart ++ decimal n ++ "\r\nX-Request-ID: ".toList ++ requestId.toList ++ "\r\n\r\n".toList

/-- Create HTTP-like request, with the base64 text as its body. -/
def obfuscateAsHttp (requestId : String) (data : List UInt8) : List UInt8 :=
  Bytes.ofString (String.ofList (frame (httpHeader requestId) Base64.encodeChars data))

/-- TLS record header: application data, TLS version 1.2, and the length as 16 bits. -/
def tlsHeader (n : ℕ) : List UInt8 := [0x17, 0x03, 0x03] ++ beBytes 2 (UInt16.ofNat n).toNat

/-- Simulate TLS record. -/
def obfuscateAsHttps (data : List UInt8) : List UInt8 := frame tlsHeader id data

/-- The payload length of a WebSocket frame, with the bit that says that it is masked. -/
def webSocketLength (n : ℕ) : List UInt8 :=
  if n < 126 then [UInt8.ofNat n ||| 0x80]
  else if n < 65536 then (126 ||| 0x80) :: beBytes 2 (UInt16.ofNat n).toNat
  else (127 ||| 0x80) :: beBytes 8 (UInt64.ofNat n).toNat

/-- The first byte (FIN = 1, opcode = binary), the payload length and the masking key. -/
def webSocketHeader (mask : Fin 4 → UInt8) (n : ℕ) : List UInt8 :=
  0x82 :: (webSocketLength n ++ [mask 0, mask 1, mask 2, mask 3])

/-- Create WebSocket frame. -/
def obfuscateAsWebSocket (mask : Fin 4 → UInt8) (data : List UInt8) : List UInt8 :=
  frame (webSocketHeader mask) (Framing.mask fun i => mask (Fin.ofNat 4 i)) data

/-- A DNS label, after its length. -/
def dnsLabel (label : List Char) : List UInt8 :=
  let bytes := Bytes.ofString (String.ofList label)
  UInt8.ofNat bytes.length :: bytes

/-- Create DNS-like query with data encoded in subdomains. -/
def obfuscateAsDns (queryId : UInt32) (data : List UInt8) : List UInt8 :=
  let encoded := (Base64.encodeChars data).filter Char.isAlphanum
  let labels := encoded.toChunks 63
  -- header: identifier, flags, one question, no records
  (beBytes 4 queryId.toNat).take 2 ++ [0x01, 0x00] ++ [0x00, 0x01] ++ [0x00, 0x00] ++
    [0x00, 0x00] ++ [0x00, 0x00] ++
    -- at most four labels and the root label, query type and class
    (labels.take 4).flatMap dnsLabel ++ [0x00] ++ [0x00, 0x01] ++ [0x00, 0x01]

/-- Prepend custom header. -/
def obfuscateWithCustom (data header : List UInt8) : List UInt8 := header ++ data

/-- Disguise a byte string with a pattern. -/
def obfuscateAs (pattern : ObfuscationPattern) (draws : ObfuscationDraws) (data : List UInt8) :
    List UInt8 :=
  match pattern with
  | .http => obfuscateAsHttp draws.requestId data
  | .https => obfuscateAsHttps data
  | .webSocket => obfuscateAsWebSocket draws.mask data
  | .dns => obfuscateAsDns draws.queryId data
  | .custom header => obfuscateWithCustom data header

/-! ## What a receiver can tell -/

/-- The length field of a WebSocket frame, from its second byte on. -/
def readWebSocketLength : List UInt8 → ℕ
  | [] => 0
  | b :: bytes =>
    if b &&& 0x7F = 126 then beValue (bytes.take 2)
    else if b &&& 0x7F = 127 then beValue (bytes.take 8)
    else (b &&& 0x7F).toNat

/-- The length field, as a receiver reads it; the last two patterns have none. -/
def declaredLength (pattern : ObfuscationPattern) (wire : List UInt8) : Option ℕ :=
  match pattern with
  | .http => (Bytes.fromUtf8 wire).map fun text =>
    decimalValue (text.toList.drop httpStart.length)
  | .https => some (beValue ((wire.drop 3).take 2))
  | .webSocket => some (readWebSocketLength (wire.drop 1))
  | .dns => none
  | .custom _ => none

/-- The length that the field has to hold. -/
def payloadLength (pattern : ObfuscationPattern) (data : List UInt8) : Option ℕ :=
  match pattern with
  | .http => some (Base64.encodeChars data).length
  | .https => some data.length
  | .webSocket => some data.length
  | .dns => none
  | .custom _ => none

/-- **The data can be recovered**: no other data has this disguise, and its length field holds the
length of the payload. -/
structure Recoverable (pattern : ObfuscationPattern) (draws : ObfuscationDraws)
    (data : List UInt8) : Prop where
  determined : ∀ data', obfuscateAs pattern draws data' = obfuscateAs pattern draws data →
    data' = data
  length_eq : declaredLength pattern (obfuscateAs pattern draws data) = payloadLength pattern data

/-- The pattern is not DNS, and the length fits the field, whose size is 16 bits for HTTPS and 64
bits for WebSocket. -/
structure Suits (pattern : ObfuscationPattern) (data : List UInt8) : Prop where
  not_dns : pattern ≠ .dns
  https_length : pattern = .https → data.length < 2 ^ 16
  webSocket_length : pattern = .webSocket → data.length < 2 ^ 64

/-! ## Disguises that determine the data -/

/-- The base64 text determines the data. -/
lemma encodeChars_injective : Function.Injective Base64.encodeChars := by
  intro data data' h
  have hdecode := congrArg Base64.decodeChars h
  rw [Base64.decodeChars_encodeChars, Base64.decodeChars_encodeChars] at hdecode
  exact Option.some.inj hdecode

lemma length_httpHeader_monotone (requestId : String) :
    Monotone fun n => (httpHeader requestId n).length := by
  intro m n h
  have hdecimal := length_decimal_monotone h
  simp only [httpHeader, List.length_append]
  simp only at hdecimal
  omega

lemma length_webSocketLength_monotone : Monotone fun n => (webSocketLength n).length := by
  intro m n h
  simp only [webSocketLength]
  split_ifs <;> simp <;> omega

/-- **Every disguise but the DNS query determines the data.** -/
theorem obfuscateAs_injective {pattern : ObfuscationPattern} (h : pattern ≠ .dns)
    (draws : ObfuscationDraws) : Function.Injective (obfuscateAs pattern draws) := by
  intro data data' heq
  cases pattern with
  | http =>
    have htext := String.ofList_injective (Bytes.ofString_injective heq)
    exact frame_injective (length_httpHeader_monotone _) encodeChars_injective htext
  | https =>
    refine @frame_injective _ _ tlsHeader id ?_ Function.injective_id _ _ heq
    intro m n _
    simp [tlsHeader]
  | webSocket =>
    refine @frame_injective _ _ (webSocketHeader draws.mask) _ ?_ (mask_injective _) _ _ heq
    intro m n hmn
    have hlength := length_webSocketLength_monotone hmn
    simpa [webSocketHeader] using hlength
  | dns => exact absurd rfl h
  | custom header => exact List.append_cancel_left heq

/-- Three bytes whose base64 text has no alphanumeric characters. -/
def invisible : List UInt8 := [0xFB, 0xEF, 0xBE]

/-- **A DNS query does not determine the data**: three such bytes in front make no difference. -/
theorem obfuscateAsDns_invisible (queryId : UInt32) (data : List UInt8) :
    obfuscateAsDns queryId (invisible ++ data) = obfuscateAsDns queryId data := by
  have hencode : Base64.encodeChars (invisible ++ data) =
      "++++".toList ++ Base64.encodeChars data := rfl
  have hfilter : (Base64.encodeChars (invisible ++ data)).filter Char.isAlphanum =
      (Base64.encodeChars data).filter Char.isAlphanum := by
    rw [hencode, List.filter_append]
    rfl
  rw [obfuscateAsDns, obfuscateAsDns, hfilter]

/-! ## Length fields -/

/-- The length of an HTTP body is read back. -/
lemma declaredLength_http (draws : ObfuscationDraws) (data : List UInt8) :
    declaredLength .http (obfuscateAs .http draws data) = payloadLength .http data := by
  have hdrop : (frame (httpHeader draws.requestId) Base64.encodeChars data).drop httpStart.length =
      decimal (Base64.encodeChars data).length ++ '\r' :: ("\nX-Request-ID: ".toList ++
        draws.requestId.toList ++ "\r\n\r\n".toList ++ Base64.encodeChars data) := by
    simp only [frame, httpHeader, List.append_assoc, List.drop_left]
    rfl
  rw [declaredLength, obfuscateAs, obfuscateAsHttp, Codec.fromUtf8_ofString, Option.map_some,
    String.toList_ofList, hdrop, decimalValue_decimal _ (by decide)]
  rfl

/-- The length of a TLS record is read modulo 2^16. -/
lemma declaredLength_https (draws : ObfuscationDraws) (data : List UInt8) :
    declaredLength .https (obfuscateAs .https draws data) = some (data.length % 2 ^ 16) := by
  have hfield : ((obfuscateAs .https draws data).drop 3).take 2 =
      beBytes 2 (UInt16.ofNat data.length).toNat := by
    simp [obfuscateAs, obfuscateAsHttps, frame, tlsHeader]
  have hlt : (UInt16.ofNat data.length).toNat < 256 ^ 2 := UInt16.toNat_lt _
  rw [declaredLength, hfield, beValue_beBytes hlt, UInt16.toNat_ofNat']

/-- The length of a WebSocket frame is read modulo 2^64. -/
lemma readWebSocketLength_webSocketLength (n : ℕ) (rest : List UInt8) :
    readWebSocketLength (webSocketLength n ++ rest) = n % 2 ^ 64 := by
  rw [webSocketLength]
  split_ifs with hsmall hmedium
  · have hread : ∀ n < 126, (UInt8.ofNat n ||| 0x80) &&& 0x7F ≠ 126 ∧
        (UInt8.ofNat n ||| 0x80) &&& 0x7F ≠ 127 ∧
        ((UInt8.ofNat n ||| 0x80) &&& 0x7F).toNat = n := by decide +kernel
    obtain ⟨h126, h127, hvalue⟩ := hread n hsmall
    rw [List.singleton_append, readWebSocketLength, if_neg h126, if_neg h127, hvalue]
    omega
  · have hlt : (UInt16.ofNat n).toNat < 256 ^ 2 := UInt16.toNat_lt _
    rw [List.cons_append, readWebSocketLength, if_pos (by decide),
      List.take_left' (length_beBytes _ _), beValue_beBytes hlt, UInt16.toNat_ofNat']
    omega
  · have hlt : (UInt64.ofNat n).toNat < 256 ^ 8 := UInt64.toNat_lt _
    rw [List.cons_append, readWebSocketLength, if_neg (by decide), if_pos (by decide),
      List.take_left' (length_beBytes _ _), beValue_beBytes hlt, UInt64.toNat_ofNat']

/-- The length field is right iff the length fits it. -/
lemma declaredLength_iff (pattern : ObfuscationPattern) (draws : ObfuscationDraws)
    (data : List UInt8) :
    declaredLength pattern (obfuscateAs pattern draws data) = payloadLength pattern data ↔
      (pattern = .https → data.length < 2 ^ 16) ∧
        (pattern = .webSocket → data.length < 2 ^ 64) := by
  cases pattern with
  | http => simp [declaredLength_http]
  | https =>
    rw [declaredLength_https, payloadLength, Option.some_inj, Nat.mod_eq_iff_lt (by decide)]
    simp
  | webSocket =>
    have hread : declaredLength .webSocket (obfuscateAs .webSocket draws data) =
        some (data.length % 2 ^ 64) := by
      rw [declaredLength, ← readWebSocketLength_webSocketLength]
      simp [obfuscateAs, obfuscateAsWebSocket, frame, webSocketHeader]
      rfl
    rw [hread, payloadLength, Option.some_inj, Nat.mod_eq_iff_lt (by decide)]
    simp
  | dns => simp [declaredLength, payloadLength]
  | custom header => simp [declaredLength, payloadLength]

/-- **The data can be recovered exactly if the pattern is not DNS and the length fits.** -/
lemma recoverable_iff (pattern : ObfuscationPattern) (draws : ObfuscationDraws)
    (data : List UInt8) : Recoverable pattern draws data ↔ Suits pattern data := by
  constructor
  · rintro ⟨hdetermined, hlength⟩
    obtain ⟨hhttps, hwebSocket⟩ := (declaredLength_iff pattern draws data).mp hlength
    refine ⟨?_, hhttps, hwebSocket⟩
    rintro rfl
    have hsame := hdetermined _ (obfuscateAsDns_invisible draws.queryId data)
    have hlength := congrArg List.length hsame
    rw [List.length_append] at hlength
    have hinvisible : invisible.length = 3 := rfl
    omega
  · rintro ⟨hdns, hhttps, hwebSocket⟩
    exact ⟨fun data' h => obfuscateAs_injective hdns draws h,
      (declaredLength_iff pattern draws data).mpr ⟨hhttps, hwebSocket⟩⟩

end ProtocolObfuscator

end QuDAG.Network
