import QuDAG.Network.DarkResolver

/-!
# What the signature of a domain record covers (`dark_resolver.rs`)

The fields of a record are written one after the other, without their lengths, and hashed. The
metadata is left out. The times and the owner at the end have fixed widths. In front of them, bytes
can slide from the keys into the addresses, and addresses into the alias.

## Main definitions

* `DarkResolver.signedMessage` — the bytes that are hashed.
* `DarkResolver.SameContent` — two records differ in their signatures at most.
* `DarkResolver.SlidesInto` — how bytes slide between fields.

## Main results

* `DarkResolver.signedMessage_eq_iff` — the records with the same bytes.
* `DarkResolver.covered_iff` — the changes of a record that the bytes show.
-/

namespace QuDAG.Network

open RustStd Framing
open QuDAG.Protocol (PeerId NetworkAddress IpAddr DarkDomainRecord)

/-! ## Addresses -/

lemma wordBytes_port_injective :
    Function.Injective fun port : UInt16 => Codec.wordBytes 2 port.toNat := by
  intro a b h
  have hval : ∀ port : UInt16, leValue (Codec.wordBytes 2 port.toNat) = port.toNat := fun port =>
    leValue_wordBytes port.toNat_lt
  exact UInt16.toNat_inj.mp ((hval a).symm.trans ((congrArg leValue h).trans (hval b)))

lemma beBytes_segment_injective :
    Function.Injective fun segment : UInt16 => beBytes 2 segment.toNat := by
  intro a b h
  have hval : ∀ segment : UInt16, beValue (beBytes 2 segment.toNat) = segment.toNat :=
    fun segment => beValue_beBytes segment.toNat_lt
  exact UInt16.toNat_inj.mp ((hval a).symm.trans ((congrArg beValue h).trans (hval b)))

/-- The segments of an address are told apart by their bytes. -/
lemma segmentBytes_injective : Function.Injective fun segments : Fin 8 → UInt16 =>
    (List.ofFn segments).flatMap fun s => beBytes 2 s.toNat := by
  intro segments segments' h
  have hlength : ∀ s : UInt16, (beBytes 2 s.toNat).length = 2 := fun s => length_beBytes 2 s.toNat
  exact List.ofFn_injective
    (flatMap_block_injective hlength beBytes_segment_injective (by simp) h)

/-- The tag in front of an address says how long it is. -/
lemma prefixFree_serializeAddress : PrefixFree serializeAddress := by
  rintro ⟨ip, port⟩ ⟨ip', port'⟩ rest rest' h
  unfold serializeAddress at h
  cases ip with
  | v4 a b c d =>
    cases ip' with
    | v4 a' b' c' d' =>
      simp only [List.cons_append, List.nil_append, List.cons.injEq, true_and] at h
      obtain ⟨rfl, rfl, rfl, rfl, h⟩ := h
      obtain ⟨hport, hrest⟩ := List.append_inj h (by rw [length_wordBytes, length_wordBytes])
      rw [wordBytes_port_injective hport, hrest]
      exact ⟨rfl, rfl⟩
    | v6 segments' => simp at h
  | v6 segments =>
    cases ip' with
    | v4 a' b' c' d' => simp at h
    | v6 segments' =>
      simp only [List.append_assoc, List.append_cancel_left_eq] at h
      obtain ⟨hsegments, h⟩ := List.append_inj h (by simp)
      obtain ⟨hport, hrest⟩ := List.append_inj h (by rw [length_wordBytes, length_wordBytes])
      rw [segmentBytes_injective hsegments, wordBytes_port_injective hport, hrest]
      exact ⟨rfl, rfl⟩

/-! ## Bytes for signing -/

namespace DarkResolver

/-- The bytes of the two public keys. -/
def keyBytes (record : DarkDomainRecord) : List UInt8 :=
  record.signingPublicKey ++ record.encryptionPublicKey

/-- The bytes of the alias, of which there are none if it is missing. -/
def aliasBytes (record : DarkDomainRecord) : List UInt8 := (record.alias.map utf8).getD []

/-- The bytes of addresses. -/
def addressBytes (addresses : List NetworkAddress) : List UInt8 :=
  addresses.flatMap serializeAddress

/-- The fields of fixed width at the end. -/
def termBytes (record : DarkDomainRecord) : List UInt8 :=
  Codec.wordBytes 4 record.ttl.toNat ++ (Codec.wordBytes 8 record.registeredAt.toNat ++
    (Codec.wordBytes 8 record.expiresAt.toNat ++ record.ownerId.bytes))

/-- The bytes that are hashed for signing. -/
def signedMessage (record : DarkDomainRecord) : List UInt8 :=
  keyBytes record ++ (addressBytes record.addresses ++ aliasBytes record) ++ termBytes record

/-! ## What the bytes show -/

/-- The records differ in their signatures at most. -/
def SameContent (record altered : DarkDomainRecord) : Prop :=
  { record with signature := altered.signature } = altered

/-- The records have the same times and the same owner. -/
def SameTerms (record altered : DarkDomainRecord) : Prop :=
  record.ttl = altered.ttl ∧ record.registeredAt = altered.registeredAt ∧
    record.expiresAt = altered.expiresAt ∧ record.ownerId = altered.ownerId

/-- How bytes slide between fields. Either the keys have the same bytes, and the last addresses of
one record are the beginning of the alias of the other one; or the last bytes of the keys are the
beginning of the addresses and the alias. -/
def SlidesInto (record altered : DarkDomainRecord) : Prop :=
  (keyBytes record = keyBytes altered ∧ ∃ more, record.addresses = altered.addresses ++ more ∧
      aliasBytes altered = addressBytes more ++ aliasBytes record) ∨
    ∃ bytes ≠ [], keyBytes record = keyBytes altered ++ bytes ∧
      addressBytes altered.addresses ++ aliasBytes altered =
        bytes ++ (addressBytes record.addresses ++ aliasBytes record)

variable (record altered : DarkDomainRecord)

lemma wordBytes_ttl_inj {a b : UInt32}
    (h : Codec.wordBytes 4 a.toNat = Codec.wordBytes 4 b.toNat) : a = b := by
  have hval := congrArg leValue h
  rw [leValue_wordBytes a.toNat_lt, leValue_wordBytes b.toNat_lt] at hval
  exact UInt32.toNat_inj.mp hval

lemma wordBytes_time_inj {a b : UInt64}
    (h : Codec.wordBytes 8 a.toNat = Codec.wordBytes 8 b.toNat) : a = b := by
  have hval := congrArg leValue h
  rw [leValue_wordBytes a.toNat_lt, leValue_wordBytes b.toNat_lt] at hval
  exact UInt64.toNat_inj.mp hval

/-- The fields of fixed width are told apart. -/
lemma termBytes_eq_iff : termBytes record = termBytes altered ↔ SameTerms record altered := by
  constructor
  · intro h
    obtain ⟨httl, h⟩ := List.append_inj h (by rw [length_wordBytes, length_wordBytes])
    obtain ⟨hregistered, h⟩ := List.append_inj h (by rw [length_wordBytes, length_wordBytes])
    obtain ⟨hexpires, howner⟩ := List.append_inj h (by rw [length_wordBytes, length_wordBytes])
    exact ⟨wordBytes_ttl_inj httl, wordBytes_time_inj hregistered, wordBytes_time_inj hexpires,
      Protocol.PeerId.ext_iff_bytes.mpr howner⟩
  · rintro ⟨httl, hregistered, hexpires, howner⟩
    rw [termBytes, termBytes, httl, hregistered, hexpires, howner]

lemma length_termBytes : (termBytes record).length = 52 := by
  simp only [termBytes, List.length_append, length_wordBytes, record.ownerId.length_eq]

/-- The bytes of the fields in front of the times. -/
def frontBytes (record : DarkDomainRecord) : List UInt8 :=
  keyBytes record ++ (addressBytes record.addresses ++ aliasBytes record)

variable {record altered}

/-- A slide does not change the bytes. -/
lemma frontBytes_eq_of_slidesInto (h : SlidesInto record altered) :
    frontBytes record = frontBytes altered := by
  rw [frontBytes, frontBytes]
  rcases h with ⟨hkeys, more, hmore, halias⟩ | ⟨bytes, -, hkeys, hrest⟩
  · rw [hkeys, hmore, halias, addressBytes, addressBytes, List.flatMap_append, List.append_assoc]
    rfl
  · rw [hkeys, hrest, List.append_assoc]

/-- If the same bytes follow keys of which one may have more, there is a slide. -/
lemma slides_of_append {bytes : List UInt8} (hkeys : keyBytes record = keyBytes altered ++ bytes)
    (hrest : addressBytes altered.addresses ++ aliasBytes altered =
      bytes ++ (addressBytes record.addresses ++ aliasBytes record)) :
    SlidesInto record altered ∨ SlidesInto altered record := by
  by_cases hbytes : bytes = []
  · -- with the same keys, only whole addresses slide
    subst hbytes
    rw [List.append_nil] at hkeys
    rcases (flatMap_append_eq_iff prefixFree_serializeAddress).mp hrest with
      ⟨more, hmore, halias⟩ | ⟨more, hmore, halias⟩
    · exact .inr (.inl ⟨hkeys.symm, more, hmore, halias⟩)
    · exact .inl (.inl ⟨hkeys, more, hmore, halias⟩)
  · exact .inl (.inr ⟨bytes, hbytes, hkeys, hrest⟩)

variable (record altered)

/-- The fields in front have the same bytes iff some slide. -/
lemma frontBytes_eq_iff :
    frontBytes record = frontBytes altered ↔
      SlidesInto record altered ∨ SlidesInto altered record := by
  constructor
  · intro h
    rcases List.append_eq_append_iff.mp h with ⟨bytes, hkeys, hrest⟩ | ⟨bytes, hkeys, hrest⟩
    · exact (slides_of_append hkeys hrest).symm
    · exact slides_of_append hkeys hrest
  · rintro (h | h)
    · exact frontBytes_eq_of_slidesInto h
    · exact (frontBytes_eq_of_slidesInto h).symm

/-- Two records have the same bytes iff their times and owners are the same, and their other fields
are so up to a slide. The metadata plays no role. -/
theorem signedMessage_eq_iff :
    signedMessage record = signedMessage altered ↔
      SameTerms record altered ∧ (SlidesInto record altered ∨ SlidesInto altered record) := by
  rw [← termBytes_eq_iff, ← frontBytes_eq_iff]
  constructor
  · intro h
    obtain ⟨hfront, hterms⟩ := List.append_inj' h (by rw [length_termBytes, length_termBytes])
    exact ⟨hterms, hfront⟩
  · rintro ⟨hterms, hfront⟩
    exact congrArg₂ (· ++ ·) hfront hterms

/-- A change of a record is shown by the bytes that are hashed iff it is a change of the times or
the owner, or not only a slide of bytes between the other fields. -/
theorem covered_iff :
    (¬SameContent record altered → signedMessage record ≠ signedMessage altered) ↔
      SameContent record altered ∨ ¬SameTerms record altered ∨
        ¬(SlidesInto record altered ∨ SlidesInto altered record) := by
  rw [Ne, signedMessage_eq_iff]
  tauto

/-! ## A change that the signature does not show -/

/-- The owner has a fixed width. -/
lemma length_sampleOwner : (List.replicate 32 (0 : UInt8)).length = 32 := List.length_replicate

/-- A record. -/
def sampleRecord : DarkDomainRecord where
  signingPublicKey := List.replicate 1952 1
  encryptionPublicKey := List.replicate 1184 2
  addresses := [⟨.v4 1 2 3 4, 8080⟩]
  «alias» := none
  ttl := 3600
  registeredAt := 1700000000
  expiresAt := 1700003600
  ownerId := ⟨List.replicate 32 0, length_sampleOwner⟩
  signature := []
  metadata := ∅

/-- The record with metadata. -/
def labelledRecord : DarkDomainRecord :=
  { sampleRecord with metadata := (∅ : HashMap String String).insert "role" "exit" }

/-- Metadata can be added to a record, and every signature stays valid. -/
theorem not_covered_metadata :
    ¬SameContent sampleRecord labelledRecord ∧
      signedMessage sampleRecord = signedMessage labelledRecord ∧
      ∀ K, verifySignature K sampleRecord = verifySignature K labelledRecord := by
  refine ⟨?_, rfl, fun K => rfl⟩
  intro h
  have hmetadata : (∅ : HashMap String String) = (∅ : HashMap String String).insert "role" "exit" :=
    congrArg DarkDomainRecord.metadata h
  have hrole := congrArg (Finmap.lookup "role") hmetadata
  rw [Finmap.lookup_empty, Finmap.lookup_insert] at hrole
  cases hrole

end DarkResolver

end QuDAG.Network
