import QuDAG.Lib.Bytes
import QuDAG.Lib.Collections

/-!
# Vertices (`vertex.rs`, `error.rs`)

Vertex identifiers are byte strings; a vertex carries its parents as a vector, which may repeat
an entry, while `Vertex.parentSet` is the source's view of them as a set.

## Main definitions

* `VertexId`, `Vertex`, `Vertex.new`, `Vertex.parentSet`.
* `VertexError`, `ConsensusError`, `DagError` — the errors of the crate root.
-/

namespace QuDAG

open RustStd

/-- Errors that can occur during vertex operations. -/
inductive VertexError
  | invalidParent
  | parentNotFound
  | invalidPayload
  | invalidSignature
  | creationFailed
  deriving DecidableEq, Repr

/-- Errors that can occur during consensus operations. -/
inductive ConsensusError
  | invalidVertex
  | conflictingVertices
  | consensusFailure
  | invalidState
  | forkDetected (message : String)
  | validationError (message : String)
  | byzantineBehavior (message : String)
  | insufficientVotes
  | timeout
  deriving DecidableEq, Repr

/-- Errors of the crate root (`error.rs`). -/
inductive DagError
  | nodeExists (node : String)
  | nodeNotFound (node : String)
  | cycleDetected (source target : String)
  | missingParent (node : String)
  | missingChild (node : String)
  | invalidStateTransition (node : String)
  | consensusError (message : String)
  | vertexError (error : VertexError)
  deriving DecidableEq, Repr

/-- A unique vertex identifier, a byte string. -/
structure VertexId where
  bytes : List UInt8
  deriving DecidableEq, Repr

namespace VertexId

/-- Create a vertex id from bytes. -/
def fromBytes (bytes : List UInt8) : VertexId := ⟨bytes⟩

/-- The raw bytes of a vertex id. -/
def asBytes (self : VertexId) : List UInt8 := self.bytes

/-- Ids are compared by their raw bytes. -/
lemma asBytes_injective : Function.Injective asBytes := fun ⟨_⟩ ⟨_⟩ h => congrArg VertexId.mk h

/-- Ids in the byte-lexicographic order. -/
instance : LinearOrder VertexId where
  le a b := a.asBytes ≤ b.asBytes
  lt a b := a.asBytes < b.asBytes
  le_refl a := le_refl a.asBytes
  le_trans _ _ _ h h' := le_trans h h'
  le_antisymm _ _ h h' := asBytes_injective (le_antisymm h h')
  le_total a b := le_total a.asBytes b.asBytes
  lt_iff_le_not_ge _ _ := lt_iff_le_not_ge
  toDecidableLE a b := inferInstanceAs (Decidable (a.asBytes ≤ b.asBytes))
  toDecidableEq := inferInstance
  toDecidableLT a b := inferInstanceAs (Decidable (a.asBytes < b.asBytes))

/-- The text the derived `Debug` implementation prints. -/
def debug (self : VertexId) : String :=
  "VertexId([" ++ ", ".intercalate (self.bytes.map fun b => toString b.toNat) ++ "])"

end VertexId

/-- A vertex: a payload with references to parent vertices. -/
structure Vertex where
  id : VertexId
  parents : List VertexId
  payload : List UInt8
  timestamp : ℕ
  signature : List UInt8
  deriving DecidableEq, Repr

namespace Vertex

/-- Create a vertex at time `now`. The parents come as a hash set, which is collected in the
order `parents` that it happens to be iterated in. -/
def new (id : VertexId) (payload : List UInt8) (parents : List VertexId) (now : ℕ) : Vertex where
  id := id
  parents := parents
  payload := payload
  timestamp := now
  signature := []

/-- The parents as a set (the method `parents()`). -/
def parentSet (self : Vertex) : HashSet VertexId := self.parents.toFinset

@[simp] lemma mem_parentSet {self : Vertex} {p : VertexId} :
    p ∈ self.parentSet ↔ p ∈ self.parents := List.mem_toFinset

end Vertex

end QuDAG
