import QuDAG.Network.Circuits
import QuDAG.Network.OnionRoundTrip
import QuDAG.Protocol.StateStore

/-!
# Anonymous routing (`router.rs`)

A message is routed anonymously by building a circuit, encrypting the message for an active circuit
and turning the hops of the circuit into peers. The encryption never succeeds, so no message is ever
routed anonymously.

## Main definitions

* `Router.routeAnonymous` — the route of a message.
* `Router.Enough` — there are enough eligible peers, and the directory has their nodes.
* `Router.Anonymizes` — a route that is returned is as it should be, and one is returned if there is
  enough to choose from.

## Main results

* `Router.anonymizes_iff` — it does so exactly when there is not enough.

## Implementation notes

The onion router and the circuits have a directory each. The text of a routing error is its context
and the debug form of its cause.
-/

namespace QuDAG.Network

open RustStd
open QuDAG.Protocol (PeerId)

/-- Network errors: what failed, and the error behind it. -/
inductive NetworkError
  | routingError (context : String) (cause : Option OnionError)
  | internal (context : String) (cause : OnionError)
  deriving DecidableEq, Repr

/-- Network message structure. -/
structure NetworkMessage where
  /-- Source node identifier. -/
  source : List UInt8
  /-- Destination node identifier. -/
  destination : List UInt8
  /-- Message payload. -/
  payload : List UInt8

/-- Anonymous router for network messages with ML-KEM onion routing. -/
structure Router where
  /-- Known peers in the network. -/
  peers : HashSet PeerId
  /-- ML-KEM onion router instance. -/
  onionRouter : MLKEMOnionRouter
  /-- Circuit manager. -/
  circuitManager : CircuitManager
  /-- Directory client. -/
  directoryClient : DirectoryClient

/-- What routing reads from outside. -/
structure RouteDraws where
  /-- For the circuit. -/
  circuit : CircuitDraws
  /-- When the circuit is activated. -/
  activated : Instant
  /-- The order of the circuits. -/
  order : HashMap.Iteration UInt64 Circuit
  /-- When it looks which circuits are alive. -/
  activeChecked : Instant
  /-- For the layers. -/
  layers : ℕ → LayerDraws
  /-- When the metrics are updated. -/
  updated : Instant

/-- A route, with the circuit that the message was encrypted for and the one whose metrics were
updated. -/
structure Routed where
  route : List PeerId
  encrypted : UInt64
  measured : UInt64

/-- The peer with an ID of 32 bytes. -/
def peerOfBytes (bytes : List UInt8) : Option PeerId :=
  if h : bytes.length = 32 then some ⟨bytes, h⟩ else none

namespace Router

/-- A circuit of the router is built, with its directory. -/
def buildCircuit (draws : CircuitDraws) (hops : ℕ) :
    Fallible (Abort NetworkError) Router UInt64 := fun router =>
  let built := (CircuitManager.buildCircuit draws hops).run
    (router.circuitManager, router.directoryClient)
  (built.1.mapError (Abort.map fun e => .routingError "Circuit build failed: " (some e)),
    { router with circuitManager := built.2.1, directoryClient := built.2.2 })

/-- A circuit of the router is activated. -/
def activateCircuit (now : Instant) (circuitId : UInt64) :
    Fallible (Abort NetworkError) Router Unit := fun router =>
  let activated := (CircuitManager.activateCircuit now circuitId).run router.circuitManager
  (activated.1.mapError (Abort.map fun e =>
      .routingError "Circuit activation failed: " (some e)),
    { router with circuitManager := activated.2 })

/-- The peers that are neither the source nor the destination. -/
def availablePeers (message : NetworkMessage) (router : Router) : HashSet PeerId :=
  router.peers.filter fun p =>
    some p ≠ peerOfBytes message.source ∧ some p ≠ peerOfBytes message.destination

/-- Route a message anonymously using ML-KEM onion routing. -/
def routeAnonymous (K : OnionCrates) (draws : RouteDraws) (message : NetworkMessage) (hops : ℕ) :
    Fallible (Abort NetworkError) Router Routed := do
  -- at least 3 hops for anonymity
  let actualHops := max hops 3
  let router ← Fallible.get
  if (router.availablePeers message).card < hops then
    Fallible.fail (.error (.routingError "Not enough peers for anonymous routing" none))
  else do
    let circuitId ← buildCircuit draws.circuit actualHops
    activateCircuit draws.activated circuitId
    let router ← Fallible.get
    match router.circuitManager.getActiveCircuit draws.order draws.activeChecked with
    | none => Fallible.fail (.error (.routingError "No active circuit available" none))
    | some circuit => do
      let _ ← Fallible.ofExcept ((router.onionRouter.encryptLayers K draws.layers message.payload
        circuit.hops).mapError fun e =>
          .error (.routingError "Onion encryption failed: " (some e)))
      let route := circuit.hops.filterMap peerOfBytes
      Fallible.modify fun router =>
        { router with
          circuitManager := router.circuitManager.updateCircuitMetrics draws.updated circuitId
            message.payload.length true }
      return ⟨route, circuit.id, circuitId⟩

/-- Enough eligible peers are known, and the directory has their nodes. -/
def Enough (router : Router) (message : NetworkMessage) (hops : ℕ) : Prop :=
  max hops 3 ≤ ((router.availablePeers message).filter fun p =>
    p.bytes ∈ router.directoryClient.nodes).card

/-- The route has as many peers as it should, different ones that are known and neither the source
nor the destination, and the metrics are those of the circuit that was used. -/
structure Good (router : Router) (message : NetworkMessage) (hops : ℕ) (routed : Routed) :
    Prop where
  length_eq : routed.route.length = max hops 3
  nodup : routed.route.Nodup
  available : ∀ p ∈ routed.route, p ∈ router.availablePeers message
  measured_eq : routed.measured = routed.encrypted

/-- A route that is returned is good, and one is returned if there is enough to choose from. -/
def Anonymizes (K : OnionCrates) (draws : RouteDraws) (router : Router) (message : NetworkMessage)
    (hops : ℕ) : Prop :=
  (∀ routed after, (routeAnonymous K draws message hops).run router = (.ok routed, after) →
    router.Good message hops routed) ∧
  (router.Enough message hops →
    ∃ routed after, (routeAnonymous K draws message hops).run router = (.ok routed, after))

/-- **No route is ever returned.** -/
lemma routeAnonymous_ne_ok (K : OnionCrates) (draws : RouteDraws) (router after : Router)
    (message : NetworkMessage) (hops : ℕ) (routed : Routed) :
    (routeAnonymous K draws message hops).run router ≠ (.ok routed, after) := by
  intro h
  unfold routeAnonymous at h
  obtain ⟨_, _, -, h⟩ := Fallible.run_bind_ok.mp h
  split_ifs at h
  · simp at h
  obtain ⟨circuitId, _, -, h⟩ := Fallible.run_bind_ok.mp h
  obtain ⟨_, _, -, h⟩ := Fallible.run_bind_ok.mp h
  obtain ⟨current, _, -, h⟩ := Fallible.run_bind_ok.mp h
  split at h
  · simp at h
  obtain ⟨layers, _, hlayers, -⟩ := Fallible.run_bind_ok.mp h
  exact MLKEMOnionRouter.encryptLayers_ne_ok _ _ _ layers
    (mapError_eq_ok.mp (Fallible.run_ofExcept_ok.mp hlayers).1)

/-- **Exactly when anonymous routing does what it should**: when there is not enough to choose
from. -/
theorem anonymizes_iff (K : OnionCrates) (draws : RouteDraws) (router : Router)
    (message : NetworkMessage) (hops : ℕ) :
    Anonymizes K draws router message hops ↔ ¬router.Enough message hops := by
  constructor
  · rintro ⟨-, hreturns⟩ henough
    obtain ⟨routed, after, hrun⟩ := hreturns henough
    exact routeAnonymous_ne_ok K draws router after message hops routed hrun
  · intro hfew
    refine ⟨fun routed after hrun => ?_, fun henough => absurd henough hfew⟩
    exact absurd hrun (routeAnonymous_ne_ok K draws router after message hops routed)

/-! ## Three peers -/

/-- Draws for a circuit: every random number is 0. -/
noncomputable def sampleSelectDraws : SelectDraws :=
  ⟨0, 0, fun i => List.replicate 1184 (UInt8.ofNat i), fun _ => 0, .arbitrary, 0, fun _ => 0⟩

/-- Draws for a route, a day after the start. -/
noncomputable def sampleRouteDraws : RouteDraws :=
  ⟨⟨86400 * 10 ^ 9, 0, sampleSelectDraws, 1, 0, 0⟩, 0, .arbitrary, 0, fun _ => sampleLayerDraws, 0⟩

/-- The peer with the ID of the `i`-th dummy node. -/
def dummyPeer (i : ℕ) : PeerId := ⟨List.replicate 32 (UInt8.ofNat i), List.length_replicate⟩

/-- A router that knows three peers whose nodes are in its directory. -/
noncomputable def sampleRouter : Router where
  peers := {dummyPeer 0, dummyPeer 1, dummyPeer 15}
  onionRouter := sampleOnionRouter
  circuitManager := .new 0
  directoryClient :=
    ⟨DirectoryClient.populateDummyNodes sampleSelectDraws ∅, 0, 3600 * 10 ^ 9⟩

/-- There are enough peers, and no route is returned. -/
theorem not_anonymizes_threePeers :
    sampleRouter.Enough ⟨[], [], [1, 2, 3]⟩ 3 ∧
      ¬Anonymizes sampleCrates sampleRouteDraws sampleRouter ⟨[], [], [1, 2, 3]⟩ 3 := by
  have henough : sampleRouter.Enough ⟨[], [], [1, 2, 3]⟩ 3 := by
    unfold Enough
    decide +kernel
  refine ⟨henough, fun h => ?_⟩
  obtain ⟨routed, after, hrun⟩ := h.2 henough
  exact routeAnonymous_ne_ok _ _ _ _ _ _ _ hrun

end Router

end QuDAG.Network
