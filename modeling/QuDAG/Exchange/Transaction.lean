import QuDAG.Exchange.Account
import QuDAG.Lib.Base64
import QuDAG.Lib.Codec

/-!
# Transactions

Transactions of the exchange (`transaction.rs`), their serialization and their identifiers. The
hash function, the signature scheme and the base64 text format come from other crates and are
parameters.

## Main definitions

* `Primitives` — what comes from other crates.
* `TransactionType`, `Transaction`.
* `Transaction.id` — the identifier: the hash of the transaction without its signature.
* `Transaction.sender`, `Transaction.isExpired`, `Transaction.verifySignature`.

## Implementation notes

Serialization cannot fail here: `bincode` fails only on sequences of unknown length.
-/

namespace QuDAG.Exchange

/-- What the exchange uses of other crates. -/
structure Primitives where
  /-- The BLAKE3 hash. -/
  blake3 : List UInt8 → Hash
  /-- Parse a public key of the signature scheme, or say what is wrong with it. -/
  parsePublicKey : List UInt8 → Except String Unit
  /-- Verify a signature: public key, message, signature. -/
  verify : List UInt8 → List UInt8 → List UInt8 → Bool
  /-- The base64 text of a byte string. -/
  encodeBase64 : List UInt8 → String
  /-- The bytes of a base64 text. -/
  decodeBase64 : String → Option (List UInt8)
  /-- Decoding gives the bytes back. -/
  decode_encodeBase64 : ∀ bytes, decodeBase64 (encodeBase64 bytes) = some bytes

/-- A stand-in for the other crates: a checksum of all bytes for the hash, and a signature
that repeats the key and the message. -/
def Primitives.toy : Primitives where
  blake3 bytes := ⟨List.replicate 32 (bytes.foldl (fun h b => h * 31 + b) 7), rfl⟩
  parsePublicKey _ := .ok ()
  verify publicKey message signature := decide (signature = publicKey ++ message)
  encodeBase64 := Base64.encode
  decodeBase64 := Base64.decode
  decode_encodeBase64 := Base64.decode_encode

/-- Transaction identifier. -/
structure TransactionId where
  /-- The underlying hash. -/
  hash : Hash
  deriving DecidableEq

/-- Transaction status in the system. -/
inductive TransactionStatus
  /-- Pending confirmation. -/
  | pending
  /-- Being processed. -/
  | processing
  /-- Confirmed and finalized. -/
  | confirmed
  /-- Rejected. -/
  | rejected
  /-- Expired before confirmation. -/
  | expired
  deriving DecidableEq, Repr

/-- Transaction type. -/
inductive TransactionType
  /-- Transfer between accounts. -/
  | transfer (sender recipient : AccountId) (amount : RUv)
  /-- Mint new tokens (privileged operation). -/
  | mint (recipient : AccountId) (amount : RUv)
  /-- Burn tokens. -/
  | burn (sender : AccountId) (amount : RUv)
  /-- Create a new account with an initial balance. -/
  | createAccount (account : AccountId) (initialBalance : RUv)
  /-- Update account metadata. -/
  | updateAccount (account : AccountId) (publicKey : Option (List UInt8))
  deriving DecidableEq, Repr

/-- Transaction signature. -/
structure TransactionSignature where
  /-- Algorithm used. -/
  algorithm : String
  /-- Public key of the signer. -/
  publicKey : List UInt8
  /-- The signature bytes. -/
  signature : List UInt8
  deriving DecidableEq, Repr

/-- Transaction metadata. -/
structure TransactionMetadata where
  /-- Optional memo. -/
  memo : Option String
  /-- Protocol version. -/
  version : UInt32
  /-- Chain ID for replay protection. -/
  chainId : UInt64
  deriving DecidableEq, Repr

/-- No memo, version 1, chain 1. -/
def TransactionMetadata.default : TransactionMetadata := ⟨none, 1, 1⟩

/-- Main transaction structure. -/
structure Transaction where
  /-- Transaction type and data. -/
  txType : TransactionType
  /-- Transaction nonce (for ordering and replay protection). -/
  nonce : Nonce
  /-- When the transaction was created. -/
  timestamp : Timestamp
  /-- Fee paid for the transaction. -/
  fee : RUv
  /-- Optional expiry. -/
  expiresAt : Option Timestamp
  /-- Signature. -/
  signature : Option TransactionSignature
  /-- Additional metadata. -/
  metadata : TransactionMetadata
  deriving DecidableEq, Repr

/-! ## Serialization -/

/-- Amounts are 64-bit numbers. -/
def RUv.codec : Codec RUv := Codec.u64.refine (fun n => some ⟨n⟩) RUv.amount

/-- Times are 64-bit numbers. -/
def Timestamp.codec : Codec Timestamp := Codec.u64.refine (fun n => some ⟨n⟩) Timestamp.millis

/-- Nonces are 64-bit numbers. -/
def Nonce.codec : Codec Nonce := Codec.u64.refine (fun n => some ⟨n⟩) Nonce.value

/-- Hashes are arrays of 32 bytes. -/
def Hash.codec : Codec Hash :=
  (Codec.u8.array 32).refine (fun l => if h : l.length = 32 then some ⟨l, h⟩ else none) Hash.bytes

@[simp] lemma RUv.valid_codec (r : RUv) : RUv.codec.Valid r := ⟨Codec.valid_u64 _, rfl⟩

@[simp] lemma Timestamp.valid_codec (t : Timestamp) : Timestamp.codec.Valid t :=
  ⟨Codec.valid_u64 _, rfl⟩

@[simp] lemma Nonce.valid_codec (n : Nonce) : Nonce.codec.Valid n := ⟨Codec.valid_u64 _, rfl⟩

@[simp] lemma Hash.valid_codec (h : Hash) : Hash.codec.Valid h :=
  ⟨⟨h.length_eq, fun b _ => Codec.valid_u8 b⟩, dif_pos h.length_eq⟩

/-- Account ids are strings. -/
def AccountId.codec : Codec AccountId := Codec.string.refine (fun s => some ⟨s⟩) AccountId.value

/-- A transaction type is written as its number and its fields. -/
def TransactionType.codec : Codec TransactionType :=
  Codec.variant
    (fun
      | .transfer _ _ _ => 0
      | .mint _ _ => 1
      | .burn _ _ => 2
      | .createAccount _ _ => 3
      | .updateAccount _ _ => 4)
    (fun
      | 0 => (AccountId.codec.pair (AccountId.codec.pair RUv.codec)).case
          (fun p => .transfer p.1 p.2.1 p.2.2) fun
          | .transfer sender recipient amount => some (sender, recipient, amount)
          | _ => none
      | 1 => (AccountId.codec.pair RUv.codec).case (fun p => .mint p.1 p.2) fun
          | .mint recipient amount => some (recipient, amount)
          | _ => none
      | 2 => (AccountId.codec.pair RUv.codec).case (fun p => .burn p.1 p.2) fun
          | .burn sender amount => some (sender, amount)
          | _ => none
      | 3 => (AccountId.codec.pair RUv.codec).case (fun p => .createAccount p.1 p.2) fun
          | .createAccount account initialBalance => some (account, initialBalance)
          | _ => none
      | 4 => (AccountId.codec.pair Codec.byteVec.option).case
          (fun p => .updateAccount p.1 p.2) fun
          | .updateAccount account publicKey => some (account, publicKey)
          | _ => none
      | _ => Codec.reject)

/-- The fields of a signature. -/
def TransactionSignature.codec : Codec TransactionSignature :=
  (Codec.string.pair (Codec.byteVec.pair Codec.byteVec)).refine
    (fun p => some ⟨p.1, p.2.1, p.2.2⟩) fun s => (s.algorithm, s.publicKey, s.signature)

/-- The fields of the metadata. -/
def TransactionMetadata.codec : Codec TransactionMetadata :=
  (Codec.string.option.pair (Codec.u32.pair Codec.u64)).refine
    (fun p => some ⟨p.1, p.2.1, p.2.2⟩) fun m => (m.memo, m.version, m.chainId)

namespace Transaction

/-- The fields of a transaction. -/
def codec : Codec Transaction :=
  (TransactionType.codec.pair (Nonce.codec.pair (Timestamp.codec.pair (RUv.codec.pair
    (Timestamp.codec.option.pair (TransactionSignature.codec.option.pair
      TransactionMetadata.codec)))))).refine
    (fun p => some ⟨p.1, p.2.1, p.2.2.1, p.2.2.2.1, p.2.2.2.2.1, p.2.2.2.2.2.1, p.2.2.2.2.2.2⟩)
    fun t => (t.txType, t.nonce, t.timestamp, t.fee, t.expiresAt, t.signature, t.metadata)

/-- The transaction without its signature. -/
def unsigned (tx : Transaction) : Transaction := { tx with signature := none }

/-- The bytes that are signed and hashed: the transaction without its signature. -/
def toBytes (tx : Transaction) : List UInt8 := codec.encode tx.unsigned

/-- Compute the transaction ID. -/
def id (P : Primitives) (tx : Transaction) : TransactionId := ⟨P.blake3 tx.toBytes⟩

/-- Get the sender account, if the transaction has one. -/
def sender (tx : Transaction) : Option AccountId :=
  match tx.txType with
  | .transfer sender _ _ => some sender
  | .burn sender _ => some sender
  | .updateAccount account _ => some account
  | _ => none

/-- Check if the transaction is expired. -/
def isExpired (tx : Transaction) (currentTime : Timestamp) : Bool :=
  match tx.expiresAt with
  | some exp => decide (exp.millis < currentTime.millis)
  | none => false

/-- Verify the transaction signature under the key that it carries. -/
def verifySignature (P : Primitives) (tx : Transaction) : Except Error Bool :=
  match tx.signature with
  | none => .error (.other "No signature present")
  | some sigData =>
    let message := tx.toBytes
    match P.parsePublicKey sigData.publicKey with
    | .error e => .error (.other ("Invalid public key: " ++ e))
    | .ok _ => .ok (P.verify sigData.publicKey message sigData.signature)

end Transaction

end QuDAG.Exchange
