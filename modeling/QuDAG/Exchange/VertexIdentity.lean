import QuDAG.Dag.StorageGraph
import QuDAG.Exchange.Transaction
import QuDAG.Lib.Framing

/-!
# What the identities of nodes and vertices hash

The hash of a node (`node.rs`) is taken over its payload and the hashes of its parents, and that of
a vertex of the exchange (`compute_vertex_id` in `consensus.rs`) over its transactions, without
their signatures, and its parents. Nothing says where the parents begin.

## Main definitions

* `Node.hashInput` — what is hashed for a node.
* `Exchange.ConsensusAdapter.computeVertexId` — the identity of a vertex.

## Main results

* `Node.hashInput_ne_iff`, `Exchange.ConsensusAdapter.vertexInput_ne_iff` — which contents are told
  apart.
-/

namespace QuDAG

/-! ## Nodes -/

namespace Node

/-- What is hashed for a node. -/
def hashInput (payload : List UInt8) (parents : List SerializableHash) : List UInt8 :=
  payload ++ parents.flatMap SerializableHash.bytes

/-- The second payload is the first one with the first parents of the first node, and the second
node has the other parents. -/
def Absorbs (payload : List UInt8) (parents : List SerializableHash) (payload' : List UInt8)
    (parents' : List SerializableHash) : Prop :=
  ∃ first ≠ [], parents = first ++ parents' ∧
    payload' = payload ++ first.flatMap SerializableHash.bytes

variable {payload payload' : List UInt8} {parents parents' : List SerializableHash}

/-- Different contents are hashed alike, with at least as many parents on the left, iff parents of
the left one are in the payload of the right one. -/
lemma hashInput_eq_iff (hle : parents'.length ≤ parents.length) :
    ((payload, parents) ≠ (payload', parents') ∧
      hashInput payload parents = hashInput payload' parents') ↔
        Absorbs payload parents payload' parents' := by
  have hinjective : Function.Injective SerializableHash.bytes := fun _ _ h =>
    SerializableHash.ext_iff_bytes.mpr h
  rw [hashInput, hashInput,
    Framing.append_flatMap_eq_iff SerializableHash.length_eq hinjective hle]
  constructor
  · rintro ⟨hne, first, hparents, hpayload⟩
    refine ⟨first, ?_, hparents, hpayload⟩
    rintro rfl
    exact hne (by rw [hparents, hpayload, List.nil_append, List.flatMap_nil, List.append_nil])
  · rintro ⟨first, hfirst, rfl, rfl⟩
    refine ⟨fun heq => hfirst ?_, first, rfl, rfl⟩
    exact List.self_eq_append_left.mp (Prod.mk.inj heq).2.symm

/-- More parents cannot be absorbed. -/
lemma Absorbs.length_lt (h : Absorbs payload parents payload' parents') :
    parents'.length < parents.length := by
  obtain ⟨first, hfirst, rfl, -⟩ := h
  have hpos := List.length_pos_of_ne_nil hfirst
  rw [List.length_append]
  omega

/-- **The contents of two nodes are told apart** unless parents of one are in the payload of the
other. -/
theorem hashInput_ne_iff :
    ((payload, parents) ≠ (payload', parents') →
      hashInput payload parents ≠ hashInput payload' parents') ↔
        ¬ Absorbs payload parents payload' parents' ∧
          ¬ Absorbs payload' parents' payload parents := by
  rw [← not_or, ← not_iff_not, not_not, Classical.not_imp, not_ne_iff]
  rcases Nat.le_total parents'.length parents.length with hle | hle
  · rw [hashInput_eq_iff hle, or_iff_left fun h => absurd h.length_lt (Nat.not_lt.mpr hle)]
  · rw [ne_comm, eq_comm, hashInput_eq_iff hle,
      or_iff_right fun h => absurd h.length_lt (Nat.not_lt.mpr hle)]

end Node

/-! ## Vertices of the exchange -/

namespace Exchange

/-- Vertex identifier. -/
structure VertexId where
  /-- The underlying hash. -/
  hash : Hash
  deriving DecidableEq

namespace ConsensusAdapter

/-- What is hashed for a vertex. -/
def vertexInput (transactions : List Transaction) (parents : List VertexId) : List UInt8 :=
  transactions.flatMap Transaction.toBytes ++ parents.flatMap fun parent => parent.hash.bytes

/-- Compute vertex ID from contents. -/
def computeVertexId (P : Primitives) (transactions : List Transaction) (parents : List VertexId) :
    VertexId := ⟨P.blake3 (vertexInput transactions parents)⟩

/-- The second vertex has the transactions of the first one, but for signatures, and then others
whose bytes are the first parents of the first vertex; it has the other parents. -/
def Absorbs (transactions : List Transaction) (parents : List VertexId)
    (transactions' : List Transaction) (parents' : List VertexId) : Prop :=
  ∃ first ≠ [], ∃ more, parents = first ++ parents' ∧
    transactions'.map Transaction.unsigned = transactions.map Transaction.unsigned ++ more ∧
    more.flatMap Transaction.codec.encode = first.flatMap fun parent => parent.hash.bytes

/-- The contents differ in signatures only. -/
def DifferInSignatures (transactions : List Transaction) (parents : List VertexId)
    (transactions' : List Transaction) (parents' : List VertexId) : Prop :=
  transactions ≠ transactions' ∧
    transactions.map Transaction.unsigned = transactions'.map Transaction.unsigned ∧
    parents = parents'

/-- The lengths of the transactions fit their prefixes. -/
def Fits (transactions : List Transaction) : Prop :=
  ∀ tx ∈ transactions, Transaction.codec.Valid tx.unsigned

variable {transactions transactions' : List Transaction} {parents parents' : List VertexId}

/-- The bytes of transactions are those of transactions without signatures. -/
lemma flatMap_toBytes (transactions : List Transaction) :
    transactions.flatMap Transaction.toBytes =
      (transactions.map Transaction.unsigned).flatMap Transaction.codec.encode := by
  rw [List.flatMap_map]
  rfl

/-- A transaction has bytes. -/
lemma encode_ne_nil (tx : Transaction) : Transaction.codec.encode tx ≠ [] := by
  simp [Transaction.codec, TransactionType.codec, Codec.refine, Codec.pair, Codec.variant,
    Codec.depend, Codec.word, Codec.wordBytes]

/-- With at least as many parents on the left, contents are hashed alike iff the transactions on the
right go on with the bytes of the first parents on the left. -/
lemma vertexInput_eq_iff (hfits : Fits transactions) (hfits' : Fits transactions')
    (hle : parents'.length ≤ parents.length) :
    vertexInput transactions parents = vertexInput transactions' parents' ↔
      ∃ first more, parents = first ++ parents' ∧
        transactions'.map Transaction.unsigned = transactions.map Transaction.unsigned ++ more ∧
        more.flatMap Transaction.codec.encode = first.flatMap fun parent => parent.hash.bytes := by
  have hvalid {txs : List Transaction} (h : Fits txs) :
      ∀ tx ∈ txs.map Transaction.unsigned, Transaction.codec.Valid tx := by
    simpa [Fits] using h
  have hinjective : Function.Injective fun parent : VertexId => parent.hash.bytes := by
    rintro ⟨⟨bytes, hbytes⟩⟩ ⟨⟨bytes', hbytes'⟩⟩ h
    obtain rfl : bytes = bytes' := h
    rfl
  rw [vertexInput, vertexInput, flatMap_toBytes, flatMap_toBytes,
    Framing.append_flatMap_eq_iff (fun parent => parent.hash.length_eq) hinjective hle]
  constructor
  · rintro ⟨first, hparents, hbytes⟩
    obtain ⟨more, hmore, hfirst⟩ := Transaction.codec.flatMap_encode_eq_append encode_ne_nil
      (hvalid hfits) (hvalid hfits') hbytes
    exact ⟨first, more, hparents, hmore, hfirst⟩
  · rintro ⟨first, more, hparents, hmore, hfirst⟩
    exact ⟨first, hparents, by rw [hmore, List.flatMap_append, hfirst]⟩

/-- More parents cannot be absorbed. -/
lemma Absorbs.length_lt (h : Absorbs transactions parents transactions' parents') :
    parents'.length < parents.length := by
  obtain ⟨first, hfirst, -, rfl, -⟩ := h
  have hpos := List.length_pos_of_ne_nil hfirst
  rw [List.length_append]
  omega

/-- Different contents are hashed alike, with at least as many parents on the left, iff they differ
in signatures only or parents on the left are read as transactions on the right. -/
lemma ne_and_vertexInput_eq_iff (hfits : Fits transactions) (hfits' : Fits transactions')
    (hle : parents'.length ≤ parents.length) :
    ((transactions, parents) ≠ (transactions', parents') ∧
      vertexInput transactions parents = vertexInput transactions' parents') ↔
        DifferInSignatures transactions parents transactions' parents' ∨
          Absorbs transactions parents transactions' parents' := by
  rw [vertexInput_eq_iff hfits hfits' hle]
  constructor
  · rintro ⟨hne, first, more, hparents, hmore, hfirst⟩
    rcases eq_or_ne first [] with rfl | hsome
    · -- No parents are read as transactions, so there are no more of these.
      have hnil : more = [] := by
        cases more with
        | nil => rfl
        | cons tx more => simp [encode_ne_nil] at hfirst
      rw [List.nil_append] at hparents
      rw [hnil, List.append_nil] at hmore
      refine .inl ⟨fun heq => hne ?_, hmore.symm, hparents⟩
      rw [heq, hparents]
    · exact .inr ⟨first, hsome, more, hparents, hmore, hfirst⟩
  · rintro (⟨hne, hunsigned, rfl⟩ | h)
    · exact ⟨fun heq => hne (Prod.mk.inj heq).1, [], [], rfl, by simp [hunsigned], rfl⟩
    · have hlt := h.length_lt
      obtain ⟨first, -, more, hparts⟩ := h
      refine ⟨fun heq => ?_, first, more, hparts⟩
      rw [(Prod.mk.inj heq).2] at hlt
      exact lt_irrefl _ hlt

/-- **The contents of two vertices are told apart** unless they differ in signatures only, or
parents of one have the bytes of transactions of the other. -/
theorem vertexInput_ne_iff (hfits : Fits transactions) (hfits' : Fits transactions') :
    ((transactions, parents) ≠ (transactions', parents') →
      vertexInput transactions parents ≠ vertexInput transactions' parents') ↔
        ¬ DifferInSignatures transactions parents transactions' parents' ∧
          ¬ Absorbs transactions parents transactions' parents' ∧
            ¬ Absorbs transactions' parents' transactions parents := by
  have hsymm : DifferInSignatures transactions' parents' transactions parents ↔
      DifferInSignatures transactions parents transactions' parents' := by
    simp only [DifferInSignatures, ne_comm, eq_comm]
  rw [← not_or, ← not_or, ← not_iff_not, not_not, Classical.not_imp, not_ne_iff]
  rcases Nat.le_total parents'.length parents.length with hle | hle
  · rw [ne_and_vertexInput_eq_iff hfits hfits' hle,
      or_iff_left fun h : Absorbs transactions' _ _ _ =>
        absurd h.length_lt (Nat.not_lt.mpr hle)]
  · rw [ne_comm, eq_comm, ne_and_vertexInput_eq_iff hfits' hfits hle, hsymm,
      or_iff_right fun h : Absorbs transactions _ _ _ =>
        absurd h.length_lt (Nat.not_lt.mpr hle)]

/-- **What identities tell apart**: contents of nodes unless parents of one are in the payload of
the other, and contents of vertices unless they differ in signatures only or parents of one have the
bytes of transactions of the other. -/
theorem identities_ne_iff (payload payload' : List UInt8) (hashes hashes' : List SerializableHash)
    (transactions transactions' : List Transaction) (parents parents' : List VertexId)
    (hfits : Fits transactions) (hfits' : Fits transactions') :
    (((payload, hashes) ≠ (payload', hashes') →
        Node.hashInput payload hashes ≠ Node.hashInput payload' hashes') ↔
      ¬ Node.Absorbs payload hashes payload' hashes' ∧
        ¬ Node.Absorbs payload' hashes' payload hashes) ∧
    (((transactions, parents) ≠ (transactions', parents') →
        vertexInput transactions parents ≠ vertexInput transactions' parents') ↔
      ¬ DifferInSignatures transactions parents transactions' parents' ∧
        ¬ Absorbs transactions parents transactions' parents' ∧
          ¬ Absorbs transactions' parents' transactions parents) :=
  ⟨Node.hashInput_ne_iff, vertexInput_ne_iff hfits hfits'⟩

/-- A transaction that burns an amount. -/
def sampleBurn (amount : UInt64) : Transaction where
  txType := .burn ⟨"alice"⟩ ⟨amount⟩
  nonce := ⟨0⟩
  timestamp := ⟨0⟩
  fee := ⟨0⟩
  expiresAt := none
  signature := none
  metadata := .default

/-- The lengths of the transaction fit. -/
lemma fits_sampleBurn (amount : UInt64) : Fits [sampleBurn amount] := by
  have htype : TransactionType.codec.Valid (sampleBurn amount).txType := by
    refine ⟨by show 2 < 256 ^ 4; decide, (⟨"alice"⟩, ⟨amount⟩), rfl, ?_, rfl⟩
    simp [AccountId.codec]
    decide
  have hmetadata : TransactionMetadata.codec.Valid (sampleBurn amount).metadata :=
    ⟨⟨Codec.valid_option_none _, Codec.valid_u32 _, Codec.valid_u64 _⟩, rfl⟩
  have htransaction : Transaction.codec.Valid (sampleBurn amount).unsigned :=
    ⟨⟨htype, Nonce.valid_codec _, Timestamp.valid_codec _, RUv.valid_codec _,
      Codec.valid_option_none _, Codec.valid_option_none _, hmetadata⟩, rfl⟩
  simpa [Fits] using htransaction

/-- Two burns of different amounts are told apart. -/
theorem identities_ne_iff_sampleBurn :
    vertexInput [sampleBurn 1] [] ≠ vertexInput [sampleBurn 2] [] := by
  have hne : ([sampleBurn 1], ([] : List VertexId)) ≠ ([sampleBurn 2], []) := by decide
  refine (identities_ne_iff [] [] [] [] [sampleBurn 1] [sampleBurn 2] [] [] (fits_sampleBurn 1)
    (fits_sampleBurn 2)).2.mpr ⟨fun h => absurd h.2.1 (by decide), ?_, ?_⟩ hne
  · rintro ⟨first, hfirst, -, hparents, -⟩
    exact hfirst (List.append_eq_nil_iff.mp hparents.symm).1
  · rintro ⟨first, hfirst, -, hparents, -⟩
    exact hfirst (List.append_eq_nil_iff.mp hparents.symm).1

/-- A payload of 32 bytes without parents is hashed like these bytes as a parent of no payload. -/
theorem not_identities_ne_parent :
    (List.replicate 32 0, ([] : List SerializableHash)) ≠
        ([], [⟨List.replicate 32 0, rfl⟩]) ∧
      Node.hashInput (List.replicate 32 0) [] =
        Node.hashInput [] [⟨List.replicate 32 0, rfl⟩] := by
  decide

end ConsensusAdapter

end Exchange

end QuDAG
