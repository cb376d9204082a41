import Mathlib.Data.Set.Basic
import QuDAG.Lib.Framing

/-!
# Messages encrypted with HQC (`hqc.rs`)

A ciphertext is a key that was encapsulated with HQC, and a message that was encrypted with a key
derived from it. Its bytes are the length of the message, the encapsulated key and the message. What
follows after the message is ignored, so many byte strings decode to one ciphertext.

## Main definitions

* `HqcKem` — the key encapsulation.
* `encrypt`, `decrypt` — messages of at most 64 KB.
* `Ciphertext`, with `asBytes` and `fromBytesWithParams`.
* `ExactOn` — of some byte strings exactly those are accepted that ciphertexts have.
* `NoSurplus` — nothing follows after the message.

## Main results

* `decrypt_fromBytes_asBytes` — a message is read back.
* `format_iff_noSurplus` — the byte strings for which the format is exact.

## Implementation notes

A BLAKE3 hash has 32 bytes, so the key of the stream cipher is never empty. Lengths are those of a
machine with 64 bits.
-/

namespace QuDAG.Crypto

/-! ## Key encapsulation -/

/-- Security parameter sets for HQC as defined in the NIST submission. -/
inductive SecurityParameter
  /-- 128-bit security level. -/
  | hqc128
  /-- 192-bit security level. -/
  | hqc192
  /-- 256-bit security level. -/
  | hqc256

/-- What is used of HQC, for every security level. The coins are what is drawn. -/
structure HqcKem (Coins : Type) where
  publicKeyBytes : SecurityParameter → ℕ
  secretKeyBytes : SecurityParameter → ℕ
  ciphertextBytes : SecurityParameter → ℕ
  sharedSecretBytes : SecurityParameter → ℕ
  /-- A public and a secret key. -/
  keypair : SecurityParameter → Coins → List UInt8 × List UInt8
  /-- A shared secret, and its ciphertext for a public key. -/
  encapsulate : SecurityParameter → List UInt8 → Coins → List UInt8 × List UInt8
  /-- The shared secret of a ciphertext for a secret key. -/
  decapsulate : SecurityParameter → List UInt8 → List UInt8 → List UInt8

/-- Keys and ciphertexts have fixed lengths, and decapsulation undoes encapsulation. -/
structure HqcKem.Lawful {Coins : Type} (K : HqcKem Coins) : Prop where
  publicKey_length : ∀ security coins,
    (K.keypair security coins).1.length = K.publicKeyBytes security
  secretKey_length : ∀ security coins,
    (K.keypair security coins).2.length = K.secretKeyBytes security
  ciphertext_length : ∀ security publicKey coins,
    (K.encapsulate security publicKey coins).2.length = K.ciphertextBytes security
  decapsulates : ∀ security keyCoins coins,
    K.decapsulate security (K.encapsulate security (K.keypair security keyCoins).1 coins).2
        (K.keypair security keyCoins).2 =
      (K.encapsulate security (K.keypair security keyCoins).1 coins).1

/-! ## Ciphertexts -/

/-- Parameters for HQC encryption scheme based on NIST submission. -/
structure Parameters where
  /-- Security level. -/
  security : SecurityParameter
  /-- Public key size in bytes. -/
  publicKeySize : ℕ
  /-- Secret key size in bytes. -/
  secretKeySize : ℕ
  /-- Ciphertext size in bytes. -/
  ciphertextSize : ℕ
  /-- Shared secret size in bytes. -/
  sharedSecretSize : ℕ

/-- Error types for HQC operations. -/
inductive HqcError
  | invalidPublicKey
  | invalidSecretKey
  | invalidCiphertext
  | messageTooLong

/-- Ciphertext for HQC that contains both KEM ciphertext and encrypted message. -/
structure Ciphertext where
  /-- HQC KEM ciphertext. -/
  kemCiphertext : List UInt8
  /-- Encrypted message using derived key. -/
  encryptedMessage : List UInt8
  params : Parameters

variable {Coins : Type} (K : HqcKem Coins)

/-- Create new HQC parameters for given security level. -/
def Parameters.new (security : SecurityParameter) : Parameters where
  security := security
  publicKeySize := K.publicKeyBytes security
  secretKeySize := K.secretKeyBytes security
  ciphertextSize := K.ciphertextBytes security
  sharedSecretSize := K.sharedSecretBytes security

/-- The bytes of a ciphertext: the length of the message, the KEM ciphertext, the message. -/
def Ciphertext.asBytes (self : Ciphertext) : List UInt8 :=
  Codec.wordBytes 4 self.encryptedMessage.length ++ self.kemCiphertext ++ self.encryptedMessage

/-- Create ciphertext from bytes with specific security level. -/
def fromBytesWithParams (bytes : List UInt8) (security : SecurityParameter) :
    Except HqcError Ciphertext :=
  let params := Parameters.new K security
  if bytes.length < 4 + params.ciphertextSize then .error .invalidCiphertext
  else
    -- Read message length
    let msgLen := Framing.leValue (bytes.take 4)
    if bytes.length < 4 + params.ciphertextSize + msgLen then .error .invalidCiphertext
    else
      .ok {
        kemCiphertext := (bytes.drop 4).take params.ciphertextSize
        encryptedMessage := (bytes.drop (4 + params.ciphertextSize)).take msgLen
        params := params }

/-! ## Encryption -/

variable (blake3 : List UInt8 → List UInt8)

/-- Derive encryption key from shared secret. -/
def deriveKey (sharedSecret : List UInt8) : List UInt8 :=
  blake3 (Bytes.ofString "HQC-KEY-DERIVATION" ++ sharedSecret)

/-- Simple XOR-based stream cipher for message encryption. -/
def xorEncrypt (message key : List UInt8) : List UInt8 :=
  Framing.mask (fun i => key.getD (i % key.length) 0) message

/-- Simple XOR-based stream cipher for message decryption. -/
def xorDecrypt (ciphertext key : List UInt8) : List UInt8 := xorEncrypt ciphertext key

/-- Encrypt a message using HQC KEM + symmetric encryption. -/
def encrypt (params : Parameters) (message publicKey : List UInt8) (coins : Coins) :
    Except HqcError Ciphertext :=
  if 65536 < message.length then .error .messageTooLong
  else if publicKey.length ≠ K.publicKeyBytes params.security then .error .invalidPublicKey
  else
    let (sharedSecret, kemCiphertext) := K.encapsulate params.security publicKey coins
    let key := deriveKey blake3 sharedSecret
    .ok {
      kemCiphertext := kemCiphertext
      encryptedMessage := xorEncrypt message key
      params := params }

/-- Decrypt a ciphertext using HQC KEM + symmetric decryption. -/
def decrypt (params : Parameters) (ct : Ciphertext) (secretKey : List UInt8) :
    Except HqcError (List UInt8) :=
  if secretKey.length ≠ K.secretKeyBytes params.security then .error .invalidSecretKey
  else if ct.kemCiphertext.length ≠ K.ciphertextBytes params.security then
    .error .invalidCiphertext
  else
    let sharedSecret := K.decapsulate params.security ct.kemCiphertext secretKey
    .ok (xorDecrypt ct.encryptedMessage (deriveKey blake3 sharedSecret))

/-! ## The format -/

/-- A ciphertext of a security level. The length of its message fits its field. -/
structure Ciphertext.OfLevel (security : SecurityParameter) (c : Ciphertext) : Prop where
  kem_length : c.kemCiphertext.length = K.ciphertextBytes security
  message_length : c.encryptedMessage.length < 2 ^ 32
  params : c.params = Parameters.new K security

/-- A message is encrypted, and decrypted after a trip through bytes. -/
def RoundTrips (security : SecurityParameter) (message : List UInt8) (keyCoins coins : Coins) :
    Prop :=
  ∃ c c', encrypt K blake3 (.new K security) message (K.keypair security keyCoins).1 coins = .ok c ∧
    fromBytesWithParams K c.asBytes security = .ok c' ∧
    decrypt K blake3 (.new K security) c' (K.keypair security keyCoins).2 = .ok message

/-- Of some byte strings, exactly those are accepted that ciphertexts have, and each of them is
that of its own ciphertext alone. -/
structure ExactOn (security : SecurityParameter) (strings : Set (List UInt8)) : Prop where
  accepts : ∀ b ∈ strings, (∃ c, fromBytesWithParams K b security = .ok c) ↔
    ∃ c : Ciphertext, c.OfLevel K security ∧ c.asBytes = b
  asBytes_eq : ∀ b ∈ strings, ∀ c, fromBytesWithParams K b security = .ok c → c.asBytes = b
  injective : ∀ b ∈ strings, ∀ b' ∈ strings, ∀ c, fromBytesWithParams K b security = .ok c →
    fromBytesWithParams K b' security = .ok c → b = b'

/-- Nothing follows after the message whose length a byte string begins with. -/
def NoSurplus (security : SecurityParameter) (b : List UInt8) : Prop :=
  b.length ≤ 4 + K.ciphertextBytes security + Framing.leValue (b.take 4)

variable {K blake3} {security : SecurityParameter}

/-- The bytes of a ciphertext decode to it. -/
lemma fromBytes_asBytes {c : Ciphertext} (h : c.OfLevel K security) :
    fromBytesWithParams K c.asBytes security = .ok c := by
  have hlength : (Codec.wordBytes 4 c.encryptedMessage.length).length = 4 :=
    Framing.length_wordBytes 4 _
  have htake : c.asBytes.take 4 = Codec.wordBytes 4 c.encryptedMessage.length := by
    rw [Ciphertext.asBytes, List.append_assoc, List.take_left' hlength]
  have hvalue : Framing.leValue (c.asBytes.take 4) = c.encryptedMessage.length := by
    rw [htake]
    exact Framing.leValue_wordBytes h.message_length
  have hbytes : c.asBytes.length =
      4 + K.ciphertextBytes security + c.encryptedMessage.length := by
    rw [Ciphertext.asBytes, List.length_append, List.length_append, hlength, h.kem_length]
  have hkem : (c.asBytes.drop 4).take (K.ciphertextBytes security) = c.kemCiphertext := by
    rw [Ciphertext.asBytes, List.append_assoc, List.drop_left' hlength,
      List.take_left' h.kem_length]
  have hmessage : c.asBytes.drop (4 + K.ciphertextBytes security) = c.encryptedMessage := by
    rw [Ciphertext.asBytes, List.drop_left']
    rw [List.length_append, hlength, h.kem_length]
  have hsize : (Parameters.new K security).ciphertextSize = K.ciphertextBytes security := rfl
  unfold fromBytesWithParams
  simp only [hsize, hvalue, hbytes, hkem, hmessage]
  rw [if_neg (by omega), if_neg (Nat.lt_irrefl _), List.take_length, ← h.params]

/-- What a byte string decodes to is a ciphertext of the level, and its bytes are those of the
string up to the end of the message. -/
lemma asBytes_of_fromBytes {b : List UInt8} {c : Ciphertext}
    (h : fromBytesWithParams K b security = .ok c) :
    c.OfLevel K security ∧
      c.asBytes = b.take (4 + K.ciphertextBytes security + Framing.leValue (b.take 4)) := by
  unfold fromBytesWithParams at h
  dsimp only at h
  split_ifs at h with hshort hmessage
  have hsize : (Parameters.new K security).ciphertextSize = K.ciphertextBytes security := rfl
  rw [hsize] at hshort hmessage h
  have hlen : Framing.leValue (b.take 4) < 2 ^ 32 := by
    have hlt := Framing.leValue_lt (b.take 4)
    rwa [List.length_take, Nat.min_eq_left (by omega)] at hlt
  obtain rfl := Except.ok.inj h
  have hencrypted : ((b.drop (4 + K.ciphertextBytes security)).take
      (Framing.leValue (b.take 4))).length = Framing.leValue (b.take 4) := by
    rw [List.length_take, List.length_drop, Nat.min_eq_left (by omega)]
  refine ⟨⟨?_, ?_, rfl⟩, ?_⟩
  · rw [List.length_take, List.length_drop, Nat.min_eq_left (by omega)]
  · rwa [hencrypted]
  · have hfield : Codec.wordBytes 4 (Framing.leValue (b.take 4)) = b.take 4 := by
      have hbytes := Framing.wordBytes_leValue (b.take 4)
      rwa [List.length_take, Nat.min_eq_left (by omega)] at hbytes
    rw [Ciphertext.asBytes, hencrypted, hfield, ← List.take_add, ← List.take_add]

/-- A message that is not too long is encrypted. -/
lemma encrypt_eq_ok {message publicKey : List UInt8} (h : message.length ≤ 65536)
    (hkey : publicKey.length = K.publicKeyBytes security) (coins : Coins) :
    encrypt K blake3 (.new K security) message publicKey coins =
      .ok ⟨(K.encapsulate security publicKey coins).2,
        xorEncrypt message (deriveKey blake3 (K.encapsulate security publicKey coins).1),
        .new K security⟩ := by
  rw [encrypt, if_neg (Nat.not_lt.mpr h)]
  exact if_neg (not_not.mpr hkey)

/-- A ciphertext is decrypted with the shared secret of its first part. -/
lemma decrypt_eq_ok {c : Ciphertext} {secretKey : List UInt8}
    (hkem : c.kemCiphertext.length = K.ciphertextBytes security)
    (hkey : secretKey.length = K.secretKeyBytes security) :
    decrypt K blake3 (.new K security) c secretKey =
      .ok (xorDecrypt c.encryptedMessage
        (deriveKey blake3 (K.decapsulate security c.kemCiphertext secretKey))) :=
  (if_neg (not_not.mpr hkey)).trans (if_neg (not_not.mpr hkem))

/-- **A message is read back**: it is encrypted, and decrypted from the bytes of its
ciphertext. -/
theorem decrypt_fromBytes_asBytes (hK : K.Lawful) {message : List UInt8}
    (h : message.length ≤ 65536) (keyCoins coins : Coins) :
    RoundTrips K blake3 security message keyCoins coins := by
  have hkem := hK.ciphertext_length security (K.keypair security keyCoins).1 coins
  have hencrypt := @encrypt_eq_ok _ K blake3 security _ _ h
    (hK.publicKey_length security keyCoins) coins
  refine ⟨_, _, hencrypt, fromBytes_asBytes ⟨hkem, ?_, rfl⟩, ?_⟩
  · rw [xorEncrypt, Framing.length_mask]
    omega
  · rw [decrypt_eq_ok hkem (hK.secretKey_length security keyCoins), hK.decapsulates, xorDecrypt,
      xorEncrypt, xorEncrypt, Framing.mask_mask]

/-- The format is exact for the byte strings in which nothing follows after the message. -/
lemma exactOn_iff {strings : Set (List UInt8)} :
    ExactOn K security strings ↔ ∀ b ∈ strings, NoSurplus K security b := by
  constructor
  · intro h b hb
    by_contra hsurplus
    have hlong := Nat.not_le.mp hsurplus
    -- what is too long is accepted, and loses its end
    obtain ⟨c, hc⟩ : ∃ c, fromBytesWithParams K b security = .ok c := by
      have hsize : (Parameters.new K security).ciphertextSize = K.ciphertextBytes security := rfl
      unfold fromBytesWithParams
      dsimp only
      rw [hsize, if_neg (by omega), if_neg (by omega)]
      exact ⟨_, rfl⟩
    have hlength := congrArg List.length (h.asBytes_eq b hb c hc)
    rw [(asBytes_of_fromBytes hc).2, List.length_take, Nat.min_eq_left hlong.le] at hlength
    omega
  · intro h
    have hexact : ∀ b ∈ strings, ∀ c, fromBytesWithParams K b security = .ok c →
        c.asBytes = b := fun b hb c hc => by
      rw [(asBytes_of_fromBytes hc).2]
      exact List.take_of_length_le (h b hb)
    refine ⟨fun b hb => ⟨?_, ?_⟩, hexact, fun b hb b' hb' c hc hc' => ?_⟩
    · rintro ⟨c, hc⟩
      exact ⟨c, (asBytes_of_fromBytes hc).1, hexact b hb c hc⟩
    · rintro ⟨c, hc, rfl⟩
      exact ⟨c, fromBytes_asBytes hc⟩
    · exact (hexact b hb c hc).symm.trans (hexact b' hb' c hc')

/-- **The message format**: every message of at most 64 KB is read back, and the format is exact on
a set of byte strings iff in none of them anything follows after the message. -/
theorem format_iff_noSurplus (hK : K.Lawful) (blake3 : List UInt8 → List UInt8)
    (security : SecurityParameter) :
    (∀ message : List UInt8, message.length ≤ 65536 → ∀ keyCoins coins,
        RoundTrips K blake3 security message keyCoins coins) ∧
      ∀ strings, ExactOn K security strings ↔ ∀ b ∈ strings, NoSurplus K security b :=
  ⟨fun _ h keyCoins coins => decrypt_fromBytes_asBytes hK h keyCoins coins, fun _ => exactOn_iff⟩

/-! ## One byte more -/

/-- A key encapsulation whose ciphertexts are the shared secrets. -/
def sampleKem : HqcKem UInt8 where
  publicKeyBytes _ := 1
  secretKeyBytes _ := 1
  ciphertextBytes _ := 1
  sharedSecretBytes _ := 1
  keypair _ coin := ([coin], [coin])
  encapsulate _ _ coin := ([coin], [coin])
  decapsulate _ ciphertext _ := ciphertext

lemma lawful_sampleKem : sampleKem.Lawful :=
  ⟨fun _ _ => rfl, fun _ _ => rfl, fun _ _ _ => rfl, fun _ _ _ => rfl⟩

theorem format_iff_noSurplus_sample :
    (∀ message : List UInt8, message.length ≤ 65536 → ∀ keyCoins coins,
        RoundTrips sampleKem id .hqc128 message keyCoins coins) ∧
      ∀ strings, ExactOn sampleKem .hqc128 strings ↔
        ∀ b ∈ strings, NoSurplus sampleKem .hqc128 b :=
  format_iff_noSurplus lawful_sampleKem id .hqc128

/-- The bytes of an empty message, and one byte more, are accepted. -/
theorem not_exactOn_surplus : ¬ExactOn sampleKem .hqc128 Set.univ := by
  intro h
  have hlength := h.asBytes_eq [0, 0, 0, 0, 7, 0] (Set.mem_univ _) _ rfl
  exact absurd hlength (by decide)

end QuDAG.Crypto
