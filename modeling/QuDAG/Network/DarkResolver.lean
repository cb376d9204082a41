import QuDAG.Lib.Framing
import QuDAG.Network.MessageQueue

/-!
# Resolving dark domains (`dark_resolver.rs`)

A resolver keeps the records of domains that it has registered or looked up, and a table of the
addresses of those that it has registered. Registering, updating and looking up a domain each take
the locks of the two tables one after the other, and talk to the DHT outside of them; what happens
under one lock is one definition here.

## Main definitions

* `DarkResolver`, with `registerDomain`, `lookupDomain`, `updateDomain` and `cleanupExpired`.
* `DarkCrates` — what a resolver uses of other crates.
* `DhtClient` — what the DHT does during a call.
* `DarkResolver.prepare` — what registering does before the first lock.

## Main results

* `DarkResolver.lookupDomain_cases` — what a lookup returns, and what it stores.
* `DarkResolver.lookup_removeExpired`, `DarkResolver.lookup_reverse_removeExpired` — what a cleanup
  removes.

## Implementation notes

Generating keys, signing and checking signatures, hashes, the encoding of records and what counts as
alphanumeric are parameters. The client of the DHT may do something else in every call. A call reads
the clock once. Removing a record from the DHT has no outcome. No lock is poisoned.
-/

namespace QuDAG.Network

open RustStd
open QuDAG.Protocol (PeerId NetworkAddress DarkDomainRecord)

/-! ## Records -/

/-- Errors that can occur during dark domain operations. -/
inductive DarkResolverError
  | domainExists
  | domainNotFound
  | invalidDomain
  | cryptoError (reason : String)
  | storageError
  | domainExpired
  | invalidSignature
  | addressGenerationError (reason : String)
  | dhtError (reason : String)
  | mlDsaError (reason : String)
  deriving DecidableEq, Repr

/-- What a resolver uses of other crates. -/
structure DarkCrates where
  blake3 : Blake3
  /-- Base58. -/
  encode58 : List UInt8 → String
  /-- Check a signature of a message under a public key. -/
  verify : List UInt8 → List UInt8 → List UInt8 → Except String Unit
  /-- The encoding of records, with the metadata in some order. -/
  serialize : DarkDomainRecord → Except String (List UInt8)
  deserialize : List UInt8 → Except String DarkDomainRecord
  /-- Whether a character is a letter or a digit, in any script. -/
  isAlphanumeric : Char → Bool

/-- Dark address derived from ML-DSA public key. -/
structure DarkAddress where
  /-- The .dark address. -/
  address : String
  /-- Full domain name. -/
  domain : String
  deriving DecidableEq, Repr

/-- What is passed to a registration. -/
structure DarkRegistration where
  customName : Option String
  addresses : List NetworkAddress
  «alias» : Option String
  ttl : UInt32
  ownerId : PeerId

/-- What a registration reads from outside. -/
structure RegisterDraws where
  /-- The public key of the ML-DSA keypair. -/
  signing : Except String (List UInt8)
  /-- The public key of the ML-KEM keypair. -/
  encryption : Except String (List UInt8)
  /-- Sign with the secret key of the ML-DSA keypair. -/
  sign : List UInt8 → Except String (List UInt8)

/-- The bytes of a text. -/
def utf8 (text : String) : List UInt8 := text.toUTF8.data.toList

/-- The encoding of an address. -/
def serializeAddress (address : NetworkAddress) : List UInt8 :=
  (match address.ip with
  | .v4 a b c d => [0, 0, 0, 0, a, b, c, d]
  | .v6 segments =>
    [1, 0, 0, 0] ++ (List.ofFn segments).flatMap fun s => Framing.beBytes 2 s.toNat) ++
    Codec.wordBytes 2 address.port.toNat

namespace DarkResolver

variable (K : DarkCrates)

/-- Convert record to bytes for signing (excludes signature field). -/
def toSignableBytes (record : DarkDomainRecord) : List UInt8 :=
  (K.blake3 (record.signingPublicKey ++ record.encryptionPublicKey ++
    record.addresses.flatMap serializeAddress ++ (record.alias.map utf8).getD [] ++
    Codec.wordBytes 4 record.ttl.toNat ++ Codec.wordBytes 8 record.registeredAt.toNat ++
    Codec.wordBytes 8 record.expiresAt.toNat ++ record.ownerId.bytes)).bytes

/-- Verify the record's signature. -/
def verifySignature (record : DarkDomainRecord) : Except DarkResolverError Unit :=
  (K.verify record.signingPublicKey (toSignableBytes K record) record.signature).mapError
    .mlDsaError

/-- Check if the record has expired. -/
def isExpired (now : UInt64) (record : DarkDomainRecord) : Bool := decide (record.expiresAt < now)

/-- Create a new domain record. -/
def newRecord (draws : RegisterDraws) (signing encryption : List UInt8)
    (request : DarkRegistration) (now : UInt64) : Except DarkResolverError DarkDomainRecord := do
  let record : DarkDomainRecord :=
    { signingPublicKey := signing
      encryptionPublicKey := encryption
      addresses := request.addresses
      «alias» := request.alias
      ttl := request.ttl
      registeredAt := now
      expiresAt := now + request.ttl.toUInt64
      ownerId := request.ownerId
      signature := []
      metadata := ∅ }
  let signature ← (draws.sign (toSignableBytes K record)).mapError .mlDsaError
  .ok { record with signature }

/-! ## Names -/

/-- Validate custom name for .dark domain. -/
def isValidCustomName (name : String) : Bool :=
  decide (3 ≤ name.utf8ByteSize) && decide (name.utf8ByteSize ≤ 63) &&
    name.toList.all (fun c => K.isAlphanumeric c || c == '-') &&
    decide (name.toList.head? ≠ some '-') && decide (name.toList.getLast? ≠ some '-')

/-- Validates a .dark domain name format. -/
def isValidDarkDomain (domain : String) : Bool :=
  if ".dark".toList.isSuffixOf domain.toList then
    let subdomain := String.ofList (domain.toList.take (domain.toList.length - 5))
    decide (3 ≤ subdomain.utf8ByteSize) && decide (subdomain.utf8ByteSize ≤ 63) &&
      decide (subdomain.toList.head? ≠ some '-') && decide (subdomain.toList.getLast? ≠ some '-') &&
      !decide (['-', '-'] <:+: subdomain.toList) &&
      subdomain.toList.all fun c => K.isAlphanumeric c || c == '-'
  else false

/-- The address of a public key. -/
def addressOf (publicKey : List UInt8) : String :=
  K.encode58 ((K.blake3 (utf8 "dark_address_v1" ++ publicKey)).bytes.take 20)

/-- Generate a .dark address from ML-DSA public key. -/
def generateDarkAddress (publicKey : List UInt8) (customName : Option String) :
    Except DarkResolverError DarkAddress :=
  let address := addressOf K publicKey
  match customName with
  | some name =>
    if isValidCustomName K name then .ok ⟨address, name ++ ".dark"⟩ else .error .invalidDomain
  | none => .ok ⟨address, (String.ofList (address.toList.take 8)).toLower ++ ".dark"⟩

/-- Convert domain to DHT key. -/
def domainToDhtKey (domain : String) : List UInt8 :=
  (K.blake3 (utf8 "dark_domain:" ++ utf8 domain)).bytes

/-- What registering does before it takes a lock. -/
def prepare (draws : RegisterDraws) (request : DarkRegistration) (now : UInt64) :
    Except DarkResolverError (DarkAddress × DarkDomainRecord) := do
  let signing ← draws.signing.mapError .mlDsaError
  let encryption ← draws.encryption.mapError .cryptoError
  let darkAddress ← generateDarkAddress K signing request.customName
  if isValidDarkDomain K darkAddress.domain then
    let record ← newRecord K draws signing encryption request now
    .ok (darkAddress, record)
  else .error .invalidDomain

end DarkResolver

/-! ## Resolvers -/

/-- What the DHT does during a call. -/
structure DhtClient where
  /-- Store a value in the DHT. -/
  put : List UInt8 → List UInt8 → Except DarkResolverError Unit
  /-- Retrieve a value from the DHT. -/
  get : List UInt8 → Except DarkResolverError (Option (List UInt8))

/-- Dark domain resolver that manages .dark domain registrations and lookups. -/
structure DarkResolver where
  /-- Thread-safe storage for domain records. -/
  domains : HashMap String DarkDomainRecord
  /-- Reverse lookup: dark address -> domain name. -/
  reverseLookup : HashMap String String
  deriving DecidableEq

namespace DarkResolver

/-- Creates a new dark domain resolver. -/
def new : DarkResolver := ⟨∅, ∅⟩

/-! ## What is done under one lock -/

/-- Store a record under a domain. -/
def store (domain : String) (record : DarkDomainRecord) (self : DarkResolver) : DarkResolver :=
  { self with domains := self.domains.insert domain record }

/-- Update reverse lookup. -/
def enterAddress (darkAddress : DarkAddress) (self : DarkResolver) : DarkResolver :=
  { self with reverseLookup := self.reverseLookup.insert darkAddress.address darkAddress.domain }

variable (K : DarkCrates)

/-- Try local storage. -/
def findLocal (now : UInt64) (domain : String) (self : DarkResolver) :
    Option (Except DarkResolverError DarkDomainRecord) :=
  (self.domains.lookup domain).map fun record =>
    if isExpired now record then .error .domainExpired
    else (verifySignature K record).map fun _ => record

/-- Find expired domains. -/
def collectExpired (order : HashMap.Iteration String DarkDomainRecord) (now : UInt64)
    (self : DarkResolver) : List String :=
  ((order.order self.domains).filter fun e => isExpired now e.2).map Prod.fst

/-- Remove domains, whatever their records are by now, and count them. -/
def removeExpired : List String → DarkResolver → ℕ × DarkResolver
  | [], self => (0, self)
  | domain :: domains, self =>
    match self.domains.lookup domain with
    | some record =>
      let removed := removeExpired domains
        { domains := self.domains.erase domain
          reverseLookup := self.reverseLookup.erase (addressOf K record.signingPublicKey) }
      (removed.1 + 1, removed.2)
    | none => removeExpired domains self

/-! ## What is done outside of the locks -/

/-- Store a record in the DHT, if there is one. -/
def putRecord (dht : Option DhtClient) (domain : String) (record : DarkDomainRecord) :
    Except DarkResolverError Unit :=
  match dht with
  | some client => do
    let value ← (K.serialize record).mapError .dhtError
    client.put (domainToDhtKey K domain) value
  | none => .ok ()

/-- Try DHT, if there is one. -/
def fetchRecord (dht : Option DhtClient) (now : UInt64) (domain : String) :
    Except DarkResolverError (Option DarkDomainRecord) :=
  match dht with
  | some client => do
    match ← client.get (domainToDhtKey K domain) with
    | some value =>
      let record ← (K.deserialize value).mapError .dhtError
      if isExpired now record then .error .domainExpired
      else
        verifySignature K record
        .ok (some record)
    | none => .ok none
  | none => .ok none

/-! ## Calls -/

/-- Register a new .dark domain. -/
def registerDomain (dht : Option DhtClient) (draws : RegisterDraws) (request : DarkRegistration)
    (now : UInt64) (self : DarkResolver) : Except DarkResolverError DarkAddress × DarkResolver :=
  match prepare K draws request now with
  | .error e => (.error e, self)
  | .ok (darkAddress, record) =>
    if darkAddress.domain ∈ self.domains then (.error .domainExists, self)
    else
      ((putRecord K dht darkAddress.domain record).map fun _ => darkAddress,
        (self.store darkAddress.domain record).enterAddress darkAddress)

/-- Look up a .dark domain and return its record. -/
def lookupDomain (dht : Option DhtClient) (now : UInt64) (domain : String) (self : DarkResolver) :
    Except DarkResolverError DarkDomainRecord × DarkResolver :=
  if isValidDarkDomain K domain then
    match self.findLocal K now domain with
    | some found => (found, self)
    | none =>
      match fetchRecord K dht now domain with
      | .error e => (.error e, self)
      | .ok none => (.error .domainNotFound, self)
      | .ok (some record) => (.ok record, self.store domain record)
  else (.error .invalidDomain, self)

/-- Update domain record (requires signature from owner). -/
def updateDomain (dht : Option DhtClient) (now : UInt64) (domain : String)
    (record : DarkDomainRecord) (self : DarkResolver) :
    Except DarkResolverError Unit × DarkResolver :=
  match verifySignature K record with
  | .error e => (.error e, self)
  | .ok _ =>
    match self.lookupDomain K dht now domain with
    | (.error e, self) => (.error e, self)
    | (.ok existing, self) =>
      if existing.signingPublicKey ≠ record.signingPublicKey then (.error .invalidSignature, self)
      else (putRecord K dht domain record, self.store domain record)

/-- Remove expired domains. -/
def cleanupExpired (order : HashMap.Iteration String DarkDomainRecord) (now : UInt64)
    (self : DarkResolver) : Except DarkResolverError ℕ × DarkResolver :=
  let removed := self.removeExpired K (self.collectExpired order now)
  (.ok removed.1, removed.2)

/-! ## What calls return and store -/

variable {K} {dht : Option DhtClient} {now : UInt64} {domain : String} {record : DarkDomainRecord}
  {self : DarkResolver}

@[simp] lemma lookup_store (domain' : String) : (self.store domain record).domains.lookup domain' =
    if domain' = domain then some record else self.domains.lookup domain' :=
  HashMap.lookup_insert_ite _ _ _ _

@[simp] lemma domains_enterAddress (darkAddress : DarkAddress) :
    (self.enterAddress darkAddress).domains = self.domains := rfl

@[simp] lemma reverseLookup_store :
    (self.store domain record).reverseLookup = self.reverseLookup := rfl

@[simp] lemma lookup_enterAddress (darkAddress : DarkAddress) (address : String) :
    (self.enterAddress darkAddress).reverseLookup.lookup address =
      if address = darkAddress.address then some darkAddress.domain
      else self.reverseLookup.lookup address :=
  HashMap.lookup_insert_ite _ _ _ _

/-- A record that is stored already may be stored again. -/
lemma store_self (h : self.domains.lookup domain = some record) :
    self.store domain record = self := by
  have hsame : self.domains.insert domain record = self.domains := by
    refine Finmap.ext_lookup fun domain' => ?_
    rw [HashMap.lookup_insert_ite]
    split_ifs with heq
    · rw [heq, h]
    · rfl
  unfold store
  rw [hsame]

/-- The address of a public key does not depend on the name. -/
lemma generateDarkAddress_eq_ok {publicKey : List UInt8} {customName : Option String}
    {address : DarkAddress} (h : generateDarkAddress K publicKey customName = .ok address) :
    address.address = addressOf K publicKey := by
  unfold generateDarkAddress at h
  cases customName with
  | none =>
    cases h
    rfl
  | some name =>
    dsimp only at h
    split_ifs at h
    cases h
    rfl

/-- A registration prepares a record with the key that its address is for. -/
lemma prepare_eq_ok {draws : RegisterDraws} {request : DarkRegistration} {address : DarkAddress}
    (h : prepare K draws request now = .ok (address, record)) :
    address.address = addressOf K record.signingPublicKey := by
  obtain ⟨signing, -, h⟩ := bind_eq_ok.mp h
  obtain ⟨encryption, -, h⟩ := bind_eq_ok.mp h
  obtain ⟨generated, hgenerated, h⟩ := bind_eq_ok.mp h
  split_ifs at h with hvalid
  obtain ⟨record', hrecord, h⟩ := bind_eq_ok.mp h
  cases h
  obtain ⟨signature, -, h⟩ := bind_eq_ok.mp hrecord
  cases h
  exact generateDarkAddress_eq_ok hgenerated

/-- A record that is found locally is stored, valid and signed. -/
lemma findLocal_eq_ok (h : self.findLocal K now domain = some (.ok record)) :
    self.domains.lookup domain = some record ∧ isExpired now record = false ∧
      verifySignature K record = .ok () := by
  obtain ⟨stored, hstored, hfound⟩ := Option.map_eq_some_iff.mp h
  by_cases hexpired : isExpired now stored = true
  · rw [if_pos hexpired] at hfound
    cases hfound
  · rw [if_neg hexpired] at hfound
    obtain ⟨_, hverify, rfl⟩ := map_eq_ok.mp hfound
    exact ⟨hstored, Bool.not_eq_true _ ▸ hexpired, hverify⟩

/-- A record from the DHT is valid and signed. -/
lemma fetchRecord_eq_some (h : fetchRecord K dht now domain = .ok (some record)) :
    isExpired now record = false ∧ verifySignature K record = .ok () := by
  unfold fetchRecord at h
  cases dht with
  | none => cases h
  | some client =>
    obtain ⟨answer, -, h⟩ := bind_eq_ok.mp h
    cases answer with
    | none => cases h
    | some value =>
      obtain ⟨fetched, -, h⟩ := bind_eq_ok.mp h
      by_cases hexpired : isExpired now fetched = true
      · rw [if_pos hexpired] at h
        cases h
      · rw [if_neg hexpired] at h
        obtain ⟨_, hverify, h⟩ := bind_eq_ok.mp h
        cases h
        exact ⟨Bool.not_eq_true _ ▸ hexpired, hverify⟩

/-- **What a lookup returns, and what it stores**: a record that it found locally, or one from the
DHT that it has stored. -/
lemma lookupDomain_cases (dht : Option DhtClient) (now : UInt64) (domain : String)
    (self : DarkResolver) :
    ((self.lookupDomain K dht now domain).2 = self ∧
      ∀ record, (self.lookupDomain K dht now domain).1 = .ok record →
        self.domains.lookup domain = some record ∧ isExpired now record = false ∧
          verifySignature K record = .ok ()) ∨
      ∃ record, self.domains.lookup domain = none ∧
        fetchRecord K dht now domain = .ok (some record) ∧
        self.lookupDomain K dht now domain = (.ok record, self.store domain record) := by
  unfold lookupDomain
  by_cases hvalid : isValidDarkDomain K domain = true
  · rw [if_pos hvalid]
    cases hfound : self.findLocal K now domain with
    | some found =>
      refine Or.inl ⟨rfl, fun record hok => findLocal_eq_ok ?_⟩
      rw [hfound]
      exact congrArg some hok
    | none =>
      cases hfetched : fetchRecord K dht now domain with
      | error e => exact Or.inl ⟨rfl, nofun⟩
      | ok fetched =>
        cases fetched with
        | none => exact Or.inl ⟨rfl, nofun⟩
        | some record => exact Or.inr ⟨record, Option.map_eq_none_iff.mp hfound, rfl, rfl⟩
  · rw [if_neg hvalid]
    exact Or.inl ⟨rfl, nofun⟩

/-- An update fails, after a lookup at most, or it finds a record with the same key and stores the
new one. -/
lemma updateDomain_cases (dht : Option DhtClient) (now : UInt64) (domain : String)
    (record : DarkDomainRecord) (self : DarkResolver) :
    ((∃ e, (self.updateDomain K dht now domain record).1 = .error e) ∧
      ((self.updateDomain K dht now domain record).2 = self ∨
        (self.updateDomain K dht now domain record).2 =
          (self.lookupDomain K dht now domain).2)) ∨
      ∃ existing, verifySignature K record = .ok () ∧
        (self.lookupDomain K dht now domain).1 = .ok existing ∧
        existing.signingPublicKey = record.signingPublicKey ∧
        self.updateDomain K dht now domain record = (putRecord K dht domain record,
          (self.lookupDomain K dht now domain).2.store domain record) := by
  unfold updateDomain
  cases hverify : verifySignature K record with
  | error e => exact Or.inl ⟨⟨e, rfl⟩, Or.inl rfl⟩
  | ok _ =>
    obtain ⟨found, looked⟩ := self.lookupDomain K dht now domain
    cases found with
    | error e => exact Or.inl ⟨⟨e, rfl⟩, Or.inr rfl⟩
    | ok existing =>
      by_cases hkey : existing.signingPublicKey = record.signingPublicKey
      · exact Or.inr ⟨existing, rfl, rfl, hkey, if_neg (not_not.mpr hkey)⟩
      · refine Or.inl ?_
        dsimp only
        rw [if_pos hkey]
        exact ⟨⟨_, rfl⟩, Or.inr rfl⟩

/-- **A cleanup removes the records of the domains that it was given**, whatever they are. -/
lemma lookup_removeExpired {domain : String} : ∀ {domains : List String} {self : DarkResolver},
    (self.removeExpired K domains).2.domains.lookup domain =
      if domain ∈ domains then none else self.domains.lookup domain := by
  intro domains
  induction domains with
  | nil => exact (if_neg List.not_mem_nil).symm
  | cons first domains ih =>
    intro self
    rw [removeExpired]
    cases hfirst : self.domains.lookup first with
    | none =>
      dsimp only
      rw [ih]
      by_cases heq : domain = first
      · subst heq
        simp [hfirst]
      · simp [heq]
    | some record =>
      dsimp only
      rw [ih]
      by_cases heq : domain = first
      · subst heq
        simp [Finmap.lookup_erase]
      · simp [heq, Finmap.lookup_erase_ne heq]

/-- The addresses that are left in the reverse lookup are those of no record that was removed. -/
lemma lookup_reverse_removeExpired {address domain : String} :
    ∀ {domains : List String} {self : DarkResolver},
      (self.removeExpired K domains).2.reverseLookup.lookup address = some domain ↔
        self.reverseLookup.lookup address = some domain ∧ ∀ d ∈ domains, ∀ record,
          self.domains.lookup d = some record → addressOf K record.signingPublicKey ≠ address := by
  intro domains
  induction domains with
  | nil => simp [removeExpired]
  | cons first domains ih =>
    intro self
    rw [removeExpired]
    cases hfirst : self.domains.lookup first with
    | none =>
      dsimp only
      rw [ih, List.forall_mem_cons]
      simp [hfirst]
    | some record =>
      dsimp only
      rw [ih, List.forall_mem_cons]
      have hreverse : (self.reverseLookup.erase
          (addressOf K record.signingPublicKey)).lookup address = some domain ↔
            addressOf K record.signingPublicKey ≠ address ∧
              self.reverseLookup.lookup address = some domain := by
        by_cases heq : address = addressOf K record.signingPublicKey
        · subst heq
          simp [Finmap.lookup_erase]
        · simp [Finmap.lookup_erase_ne heq, Ne.symm heq]
      have hothers : (∀ d ∈ domains, ∀ r, (self.domains.erase first).lookup d = some r →
          addressOf K r.signingPublicKey ≠ address) ∧
          addressOf K record.signingPublicKey ≠ address ↔
          (∀ d ∈ domains, ∀ r, self.domains.lookup d = some r →
            addressOf K r.signingPublicKey ≠ address) ∧
          addressOf K record.signingPublicKey ≠ address := by
        refine and_congr_left fun hne => forall₂_congr fun d hd => forall_congr' fun r => ?_
        by_cases heq : d = first
        · subst heq
          simp [hfirst]
          rintro rfl
          exact hne
        · rw [Finmap.lookup_erase_ne heq]
      rw [hreverse, hfirst]
      constructor
      · rintro ⟨⟨hne, hlookup⟩, hall⟩
        refine ⟨hlookup, ?_, (hothers.mp ⟨hall, hne⟩).1⟩
        rintro r ⟨⟩
        exact hne
      · rintro ⟨hlookup, hne, hall⟩
        have hne' := hne record rfl
        exact ⟨⟨hne', hlookup⟩, (hothers.mpr ⟨hall, hne'⟩).1⟩

end DarkResolver

/-! ## Sample cryptography -/

/-- A peer that owns a domain. -/
def sampleOwner : PeerId := ⟨List.replicate 32 61, List.length_replicate⟩

/-- A record of `abc.dark` that is registered at 0 for 60 seconds. -/
def sampleDarkRecord (publicKey : List UInt8) : DarkDomainRecord where
  signingPublicKey := publicKey
  encryptionPublicKey := [2]
  addresses := []
  «alias» := none
  ttl := 60
  registeredAt := 0
  expiresAt := 60
  ownerId := sampleOwner
  signature := publicKey ++ [4]
  metadata := ∅

/-- Every hash has the bytes 4. A signature is the key and the first byte of what is signed, and a
record is encoded by its key. -/
def sampleDarkCrates : DarkCrates where
  blake3 _ := ⟨List.replicate 32 4, List.length_replicate⟩
  encode58 bytes := String.ofList (bytes.map fun b => Char.ofNat (97 + b.toNat % 26))
  verify publicKey message signature :=
    if signature = publicKey ++ message.take 1 then .ok () else .error "VerificationFailed"
  serialize record := .ok record.signingPublicKey
  deserialize bytes := .ok (sampleDarkRecord bytes)
  isAlphanumeric := Char.isAlphanum

/-- A registration of `abc.dark` for 60 seconds. -/
def sampleRegistration : DarkRegistration where
  customName := some "abc"
  addresses := []
  «alias» := none
  ttl := 60
  ownerId := sampleOwner

/-- The keys of a registration. -/
def sampleRegisterDraws (publicKey : List UInt8) : RegisterDraws where
  signing := .ok publicKey
  encryption := .ok [2]
  sign message := .ok (publicKey ++ message.take 1)

/-- A DHT that stores everything, and answers every request with a value. -/
def sampleDhtClient (value : List UInt8) : DhtClient where
  put _ _ := .ok ()
  get _ := .ok (some value)

/-- What registering with the key `[7]` prepares. -/
lemma prepare_sampleRegistration :
    DarkResolver.prepare sampleDarkCrates (sampleRegisterDraws [7]) sampleRegistration 0 =
      .ok (⟨"eeeeeeeeeeeeeeeeeeee", "abc.dark"⟩, sampleDarkRecord [7]) := by
  decide

end QuDAG.Network
