import QuDAG.Protocol.Message

/-!
# Which signed messages verify

Signing writes the hash of the signer's key into the message after the bytes to sign were taken,
and verifying takes these bytes from the message with the hash in it. So the bytes agree only if
the hash was there before. They also contain the headers in the order in which the map happens to
be iterated over.

## Main definitions

* `Message.Verifies` — the message verifies, and so does what is received of it.

## Main results

* `Message.verify_signed_iff` — when a signature verifies, for given orders.
* `Message.sign_verifies_iff` — when a signed message verifies for all orders.
-/

namespace QuDAG.Protocol

open RustStd

namespace Message

/-- The message verifies under the key, and so does every message that is read from its bytes,
whatever the orders of the headers on both sides. -/
def Verifies (P : Platform) (publicKey : MlDsaPublicKey) (signed : Message) : Prop :=
  (∀ order, signed.headers.Enumerates order → signed.verify P order publicKey = .ok true) ∧
  ∀ order order', signed.headers.Enumerates order → signed.headers.Enumerates order' →
    ∃ received, fromBytes (signed.toBytes order) = .ok received ∧
      received.verify P order' publicKey = .ok true

variable {P : Platform} {keypair : MlDsaKeyPair} {publicKey : MlDsaPublicKey} {seed : Seed}
  {m signed : Message} {order order' : List (String × String)}

/-- The key of the pair that is read from its bytes is the public key of the pair. -/
lemma keyBytes_of_fromBytes {bytes : List UInt8}
    (h : MlDsaPublicKey.fromBytes P bytes = .ok publicKey) : publicKey.keyBytes = bytes := by
  unfold MlDsaPublicKey.fromBytes at h
  split_ifs at h
  rw [← Except.ok.inj h]

/-- Signing adds the signature and the hash of the key. -/
lemma sign_eq_ok (h : m.sign P order keypair seed = .ok signed) :
    ∃ signature, P.signMlDsa keypair (m.getSignableData order) seed = .ok signature ∧
      signed = { m with
        signature := some signature
        senderKeyHash := some (P.blake3 keypair.publicKey) } := by
  unfold sign at h
  cases hsign : P.signMlDsa keypair (m.getSignableData order) seed with
  | error e => simp [hsign] at h
  | ok signature =>
    simp only [hsign] at h
    exact ⟨signature, rfl, (Except.ok.inj h).symm⟩

/-- A message with the hash of the key verifies iff its signature does. -/
lemma verify_eq_ok_iff {signature : List UInt8} (hsignature : m.signature = some signature)
    (hhash : m.senderKeyHash = some (P.blake3 publicKey.keyBytes)) :
    m.verify P order publicKey = .ok true ↔
      P.verifyMlDsa publicKey (m.getSignableData order) signature = .ok () := by
  unfold verify
  rw [hsignature, hhash]
  simp only [Option.any_some, bne_self_eq_false, Bool.false_eq_true, if_false]
  cases P.verifyMlDsa publicKey (m.getSignableData order) signature with
  | error e => simp
  | ok u => simp

/-- The bytes to sign are those of another message iff the messages differ at most in their
signatures, and the orders of the headers are the same. -/
lemma getSignableData_inj {m' : Message} (hfits : WireMessage.codec.Valid (m.wire order))
    (hfits' : WireMessage.codec.Valid (m'.wire order')) :
    m.getSignableData order = m'.getSignableData order' ↔
      wire order { m with signature := none } = wire order' { m' with signature := none } :=
  toBytes_inj (valid_unsigned hfits) (valid_unsigned hfits')

/-- **When a signature verifies**: the hash of the key was in the message before, and the order of
the headers is the one at signing. -/
lemma verify_signed_iff (hkey : MlDsaPublicKey.fromBytes P keypair.publicKey = .ok publicKey)
    (horder : m.headers.Enumerates order) (horder' : m.headers.Enumerates order')
    (hsign : m.sign P order keypair seed = .ok signed)
    (hexact : ∀ signature, P.signMlDsa keypair (m.getSignableData order) seed = .ok signature →
      ∀ data, P.verifyMlDsa publicKey data signature = .ok () ↔ data = m.getSignableData order)
    (hfits : m.Fits) (hfits' : signed.Fits) :
    signed.verify P order' publicKey = .ok true ↔
      m.senderKeyHash = some (P.blake3 keypair.publicKey) ∧ order' = order := by
  obtain ⟨signature, hsignature, rfl⟩ := sign_eq_ok hsign
  have hhash : some (P.blake3 keypair.publicKey) = some (P.blake3 publicKey.keyBytes) := by
    rw [keyBytes_of_fromBytes hkey]
  rw [verify_eq_ok_iff rfl hhash, hexact signature hsignature,
    getSignableData_inj (hfits' order' horder') (hfits order horder)]
  constructor
  · intro h
    have hsender := congrArg WireMessage.senderKeyHash h
    have hheaders := congrArg WireMessage.headers h
    exact ⟨hsender.symm, hheaders⟩
  · rintro ⟨hsender, rfl⟩
    simp only [wire, hsender]

/-- **Signed messages verify** iff they held the hash of the signer's key before they were signed
and have at most one header. -/
theorem sign_verifies_iff (hkey : MlDsaPublicKey.fromBytes P keypair.publicKey = .ok publicKey)
    (horder : m.headers.Enumerates order)
    (hsign : m.sign P order keypair seed = .ok signed)
    (hexact : ∀ signature, P.signMlDsa keypair (m.getSignableData order) seed = .ok signature →
      ∀ data, P.verifyMlDsa publicKey data signature = .ok () ↔ data = m.getSignableData order)
    (hfits : m.Fits) (hfits' : signed.Fits) :
    Verifies P publicKey signed ↔
      m.senderKeyHash = some (P.blake3 keypair.publicKey) ∧ m.headers.keys.card ≤ 1 := by
  have hheaders : signed.headers = m.headers := by
    obtain ⟨signature, -, rfl⟩ := sign_eq_ok hsign
    rfl
  have hverify := fun order' (h : m.headers.Enumerates order') =>
    verify_signed_iff hkey horder h hsign hexact hfits hfits'
  rw [← horder.unique_iff]
  unfold Verifies
  rw [hheaders]
  constructor
  · rintro ⟨hlocal, -⟩
    exact ⟨((hverify order horder).mp (hlocal order horder)).1,
      fun order' h => ((hverify order' h).mp (hlocal order' h)).2⟩
  · rintro ⟨hsender, hunique⟩
    have hlocal := fun order' h => (hverify order' h).mpr ⟨hsender, hunique order' h⟩
    exact ⟨hlocal, fun order' order'' h' h'' => ⟨signed,
      fromBytes_toBytes hfits' (hheaders ▸ h'), hlocal order'' h''⟩⟩

/-! ## A ping -/

/-- A ping with one header, from a sender whose key hash is given. -/
def ping (senderKeyHash : Option (List UInt8)) : Message :=
  { Message.new (.control .ping) [1, 2, 3] ⟨List.replicate 16 7, rfl⟩ 1000 with
    headers := HashMap.ofList [("trace", "1")]
    senderKeyHash := senderKeyHash }

/-- A key pair. -/
def pingKeys : MlDsaKeyPair := ⟨List.replicate 1952 5, [5]⟩

/-- The public key of the pair is read back. -/
lemma fromBytes_pingKeys :
    MlDsaPublicKey.fromBytes Platform.toy pingKeys.publicKey = .ok ⟨pingKeys.publicKey⟩ := by
  have hlength : pingKeys.publicKey.length = 1952 := List.length_replicate
  unfold MlDsaPublicKey.fromBytes
  rw [if_neg (not_not.mpr hlength)]
  rfl

/-- The one order of the headers. -/
lemma enumerates_ping (senderKeyHash : Option (List UInt8)) :
    (ping senderKeyHash).headers.Enumerates [("trace", "1")] :=
  HashMap.enumerates_ofList (by decide)

/-- The ping and its signed form fit. -/
lemma fits_ping {senderKeyHash signature : Option (List UInt8)}
    (hhash : Codec.byteVec.option.Valid senderKeyHash)
    (hsignature : Codec.byteVec.option.Valid signature) :
    Message.Fits { ping senderKeyHash with signature := signature } := by
  intro order horder
  have hcard : (HashMap.ofList [("trace", "1")] : HashMap String String).keys.card ≤ 1 := by
    decide
  obtain rfl := (enumerates_ping senderKeyHash).unique_iff.mpr hcard order horder
  have hping : ControlMessageType.codec.Valid .ping := ⟨show 0 < 256 ^ 4 by decide, rfl⟩
  have htype : MessageType.codec.Valid (.control .ping) :=
    ⟨show 4 < 256 ^ 4 by decide, .ping, rfl, hping, rfl⟩
  have hheaders : (Codec.string.pair Codec.string).list.Valid [("trace", "1")] := by
    rw [Codec.valid_list]
    refine ⟨by decide, fun e he => ?_⟩
    obtain rfl := List.mem_singleton.mp he
    exact ⟨(Codec.valid_string _).mpr (by decide), (Codec.valid_string _).mpr (by decide)⟩
  have hpayload : Codec.byteVec.Valid [1, 2, 3] := (Codec.valid_byteVec _).mpr (by decide)
  have hversion : ProtocolVersion.codec.Valid .current :=
    ⟨⟨Codec.valid_u16 _, Codec.valid_u16 _, Codec.valid_u16 _, by decide, by
      rintro a ⟨⟩⟩, rfl⟩
  exact ⟨⟨Uuid.valid_codec _, hversion, htype, hpayload, Codec.valid_u64 _, hsignature, hheaders,
    hhash, Codec.valid_u64 _, Codec.valid_option_none _⟩, rfl⟩

/-- The signature that the stand-in makes is valid for the bytes that it was made for. -/
lemma toy_exact (m : Message) (order : List (String × String)) (seed : Seed) :
    ∀ signature, Platform.toy.signMlDsa pingKeys (m.getSignableData order) seed = .ok signature →
      ∀ data, Platform.toy.verifyMlDsa ⟨pingKeys.publicKey⟩ data signature = .ok () ↔
        data = m.getSignableData order := by
  intro signature hsignature data
  obtain rfl := Except.ok.inj hsignature
  show (if (5 : UInt8) :: m.getSignableData order = 5 :: data then Except.ok () else _) = _ ↔ _
  split_ifs with h
  · exact iff_of_true rfl (List.cons.inj h).2.symm
  · exact iff_of_false (fun hok => by cases hok) fun hdata => h (by rw [hdata])

/-- The ping signed with the stand-in. -/
def signedPing (senderKeyHash : Option (List UInt8)) : Message :=
  { ping senderKeyHash with
    signature := some (5 :: (ping senderKeyHash).getSignableData [("trace", "1")])
    senderKeyHash := some (Platform.toy.blake3 pingKeys.publicKey) }

/-- Signing the ping. -/
lemma sign_ping (senderKeyHash : Option (List UInt8)) :
    (ping senderKeyHash).sign Platform.toy [("trace", "1")] pingKeys [] =
      .ok (signedPing senderKeyHash) := rfl

/-- A ping that already holds the hash of the key verifies once it is signed. -/
theorem sign_verifies_iff_ping :
    Verifies Platform.toy ⟨pingKeys.publicKey⟩
      (signedPing (some (Platform.toy.blake3 pingKeys.publicKey))) := by
  have hhash : Codec.byteVec.option.Valid (some (Platform.toy.blake3 pingKeys.publicKey)) :=
    (Codec.valid_option_some _ _).mpr ((Codec.valid_byteVec _).mpr (by decide +kernel))
  have hsignature : Codec.byteVec.option.Valid
      (signedPing (some (Platform.toy.blake3 pingKeys.publicKey))).signature :=
    (Codec.valid_option_some _ _).mpr ((Codec.valid_byteVec _).mpr (by decide +kernel))
  have hsign := sign_ping (some (Platform.toy.blake3 pingKeys.publicKey))
  exact (sign_verifies_iff fromBytes_pingKeys (enumerates_ping _) hsign (toy_exact _ _ _)
    (fits_ping hhash (Codec.valid_option_none _)) (fits_ping hhash hsignature)).mpr
    ⟨rfl, by decide +kernel⟩

/-- A new ping is signed, and its signature, valid for exactly the bytes that were signed, does not
verify: the bytes that are checked hold the hash of the key. -/
theorem not_sign_verifies :
    (ping none).sign Platform.toy [("trace", "1")] pingKeys [] = .ok (signedPing none) ∧
      (∀ data, Platform.toy.verifyMlDsa ⟨pingKeys.publicKey⟩ data
        (5 :: (ping none).getSignableData [("trace", "1")]) = .ok () ↔
          data = (ping none).getSignableData [("trace", "1")]) ∧
      (signedPing none).verify Platform.toy [("trace", "1")] ⟨pingKeys.publicKey⟩ =
        .error .verificationFailed ∧
      ¬ Verifies Platform.toy ⟨pingKeys.publicKey⟩ (signedPing none) := by
  have hverify : (signedPing none).verify Platform.toy [("trace", "1")] ⟨pingKeys.publicKey⟩ =
      .error .verificationFailed := by decide +kernel
  refine ⟨sign_ping none, toy_exact _ _ [] _ rfl, hverify, fun h => ?_⟩
  have hok := h.1 [("trace", "1")] (enumerates_ping none)
  rw [hverify] at hok
  cases hok

end Message

end QuDAG.Protocol
