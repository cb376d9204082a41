import QuDAG.Dag.Vertex
import QuDAG.Lib.DepthFirst
import QuDAG.Lib.Multimap
import QuDAG.Lib.Runs

/-!
# Tip selection (`tip_selection.rs`)

The tips and weights that `AdvancedTipSelection` keeps for the selection of parents. A call writes
the weight of the new vertex only, and makes it a tip whatever was added before.

## Main definitions

* `AdvancedTipSelection` — the tips, the weights and the known parents and children.
* `AdvancedTipSelection.addVertex` — the call that adds a vertex.
* `AdvancedTipSelection.calculateCumulativeWeight` — the search for the descendants.

## Implementation notes

Weights are whole numbers, which floats represent exactly up to `2 ^ 53`. The recursion of the
search gets a bound that it cannot exceed, since it visits no vertex twice.
-/

namespace QuDAG

open RustStd

/-- Vertex weight information for parent selection. -/
structure VertexWeight where
  cumulativeWeight : ℕ
  directWeight : ℕ
  approvers : ℕ
  lastUpdated : ℕ
  deriving DecidableEq, Repr

/-- Advanced tip selection: the tips, the weights, the parents of each vertex and its children. -/
structure AdvancedTipSelection where
  tips : HashSet VertexId
  weights : HashMap VertexId VertexWeight
  adjacency : HashMap VertexId (HashSet VertexId)
  reverseAdjacency : HashMap VertexId (HashSet VertexId)

namespace AdvancedTipSelection

/-- A new instance. -/
def new : AdvancedTipSelection := ⟨∅, ∅, ∅, ∅⟩

/-- The direct weight of a vertex, one if it has no weight yet. -/
def directWeight (self : AdvancedTipSelection) (vertexId : VertexId) : ℕ :=
  ((self.weights.lookup vertexId).map VertexWeight.directWeight).getD 1

/-- Add up the direct weights of a vertex and its descendants that are not visited yet. The children
of a vertex are seen in the order `it`. -/
def calculateCumulativeWeightRecursive (self : AdvancedTipSelection)
    (it : HashSet.Iteration VertexId) :
    (fuel : ℕ) → VertexId → HashSet VertexId → ℕ × HashSet VertexId
  | 0, _, visited => (0, visited)
  | fuel + 1, vertexId, visited =>
    if vertexId ∈ visited then (0, visited)
    else
      (it.order (self.reverseAdjacency.members vertexId)).foldl (fun r child =>
        let below := self.calculateCumulativeWeightRecursive it fuel child r.2
        (r.1 + below.1, below.2)) (self.directWeight vertexId, insert vertexId visited)

/-- The vertices that are children. -/
def knownChildren (self : AdvancedTipSelection) : HashSet VertexId :=
  self.reverseAdjacency.keys.biUnion self.reverseAdjacency.members

/-- Calculate the cumulative weight of a vertex. -/
def calculateCumulativeWeight (self : AdvancedTipSelection) (it : HashSet.Iteration VertexId)
    (vertexId : VertexId) : ℕ :=
  (self.calculateCumulativeWeightRecursive it (self.knownChildren.card + 2) vertexId ∅).1

/-- Update the weight of a vertex at time `now`. -/
def updateVertexWeight (self : AdvancedTipSelection) (it : HashSet.Iteration VertexId)
    (vertexId : VertexId) (now : ℕ) : AdvancedTipSelection :=
  { self with
    weights := self.weights.insert vertexId {
      cumulativeWeight := self.calculateCumulativeWeight it vertexId
      directWeight := 1
      approvers := (self.reverseAdjacency.members vertexId).card
      lastUpdated := now } }

/-- Add a vertex at time `now`. -/
def addVertex (self : AdvancedTipSelection) (it : HashSet.Iteration VertexId) (vertex : Vertex)
    (now : ℕ) : AdvancedTipSelection :=
  let parents := it.order vertex.parentSet
  let self := { self with
    adjacency := self.adjacency.insert vertex.id vertex.parentSet
    reverseAdjacency :=
      parents.foldl (fun m parent => m.addMember parent vertex.id) self.reverseAdjacency
    -- the parents are no tips any more, the vertex becomes one
    tips := insert vertex.id (parents.foldl (fun tips parent => tips.erase parent) self.tips) }
  self.updateVertexWeight it vertex.id now

/-- A call: the vertex that is added, the time and the order in which sets are iterated over. -/
structure Call where
  vertex : Vertex
  now : ℕ
  it : HashSet.Iteration VertexId

/-- The state after a call. -/
def apply (self : AdvancedTipSelection) (c : Call) : AdvancedTipSelection :=
  self.addVertex c.it c.vertex c.now

end AdvancedTipSelection

end QuDAG
