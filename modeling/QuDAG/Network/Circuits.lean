import QuDAG.Lib.Fallible
import QuDAG.Network.Onion

/-!
# Circuits and the directory (`onion.rs`)

A circuit is a list of public keys of nodes that the directory picks at random, weighted by their
bandwidth.

## Main definitions

* `DirectoryClient.selectRandomNodes` — the keys of a circuit.
* `CircuitManager.buildCircuit`, `CircuitManager.getActiveCircuit`.

## Implementation notes

A random number below a bound is an argument modulo the bound, which is any number below it. The
order in which a map is iterated over, the readings of the clock and the generated keys are
arguments as well. Bandwidths are natural numbers, whose sum panics if it does not fit 64 bits, and
rates and scores are rational numbers.
-/

namespace QuDAG.Network

open RustStd

/-- How code stops short: with an error, or in a panic. -/
inductive Abort (ε : Type)
  | error (e : ε)
  | panic
  deriving DecidableEq, Repr

/-- Change the error. -/
def Abort.map {ε ε' : Type} (f : ε → ε') : Abort ε → Abort ε'
  | .error e => .error (f e)
  | .panic => .panic

/-! ## The directory -/

/-- What selecting nodes reads from outside. -/
structure SelectDraws where
  /-- When it looks whether the directory is to be updated. -/
  updateChecked : Instant
  /-- When the directory is updated. -/
  updated : Instant
  /-- The keys of the dummy nodes. -/
  publicKeys : ℕ → List UInt8
  /-- When the dummy nodes are seen. -/
  seen : ℕ → Instant
  /-- The order of the nodes. -/
  order : HashMap.Iteration (List UInt8) NodeInfo
  /-- When it looks which nodes are active. -/
  activeChecked : Instant
  /-- The random numbers. -/
  range : ℕ → ℕ

namespace DirectoryClient

/-- A dummy node. -/
def dummyNode (draws : SelectDraws) (i : ℕ) : NodeInfo :=
  ⟨List.replicate 32 (UInt8.ofNat i), draws.publicKeys i, 1000000 * (i + 1), decide (i < 5),
    decide (15 ≤ i), true, draws.seen i⟩

/-- Populate dummy nodes for testing. -/
def populateDummyNodes (draws : SelectDraws) (nodes : HashMap (List UInt8) NodeInfo) :
    HashMap (List UInt8) NodeInfo :=
  (List.range 20).foldl
    (fun nodes i => nodes.insert (dummyNode draws i).id (dummyNode draws i)) nodes

/-- Update directory from directory servers. -/
def updateDirectoryIfNeeded (draws : SelectDraws) (directory : DirectoryClient) :
    DirectoryClient :=
  if directory.lastUpdate.elapsed draws.updateChecked < directory.updateInterval then directory
  else
    { directory with
      nodes := populateDummyNodes draws directory.nodes
      lastUpdate := draws.updated }

/-- Select a node weighted by bandwidth, and what is left. -/
def pickWeighted : ℕ → List NodeInfo → Option (NodeInfo × List NodeInfo)
  | _, [] => none
  | target, node :: nodes =>
    if target < node.bandwidth then some (node, nodes)
    else (pickWeighted (target - node.bandwidth) nodes).map fun r => (r.1, node :: r.2)

/-- The loop that selects `count` nodes, from the `i`-th on. -/
def selectLoop (range : ℕ → ℕ) (count : ℕ) : ℕ → ℕ → List NodeInfo → List (List UInt8) →
    Except (Abort OnionError) (List (List UInt8))
  | 0, _, _, selected => .ok selected
  | remaining + 1, i, available, selected =>
    -- for entry guard, prefer nodes with guard flag
    let guards := available.filter NodeInfo.guard
    let available := if i = 0 ∧ guards ≠ [] then guards else available
    -- for exit node, require exit flag
    let available := if i = count - 1 then available.filter NodeInfo.exit else available
    if i = count - 1 ∧ available = [] then
      .error (.error (.routeError "No exit nodes available"))
    else
      let totalBandwidth := (available.map NodeInfo.bandwidth).sum
      -- the sum is one of 64 bits
      if 2 ^ 64 ≤ totalBandwidth then .error .panic
      else if totalBandwidth = 0 then
        -- uniform fallback, from an empty range if no node is left
        match available[range i % available.length]? with
        | none => .error .panic
        | some node => selectLoop range count remaining (i + 1)
          (available.eraseIdx (range i % available.length)) (selected ++ [node.publicKey])
      else
        match pickWeighted (range i % totalBandwidth) available with
        | some (node, rest) =>
          selectLoop range count remaining (i + 1) rest (selected ++ [node.publicKey])
        | none => selectLoop range count remaining (i + 1) available selected

/-- The nodes that were seen in the last hour and are stable. -/
def activeNodes (draws : SelectDraws) (directory : DirectoryClient) : List NodeInfo :=
  ((draws.order.order directory.nodes).map Prod.snd).filter fun n =>
    n.lastSeen.elapsed draws.activeChecked < 3600 * 10 ^ 9 ∧ n.stable = true

/-- Select random nodes for circuit building. -/
def selectRandomNodes (draws : SelectDraws) (count : ℕ) :
    Fallible (Abort OnionError) DirectoryClient (List (List UInt8)) := do
  Fallible.modify (updateDirectoryIfNeeded draws)
  let directory ← Fallible.get
  let active := activeNodes draws directory
  if active.length < count then
    Fallible.fail (.error (.routeError "Not enough active nodes"))
  else Fallible.ofExcept (selectLoop draws.range count count 0 active [])

end DirectoryClient

/-! ## Circuits -/

/-- Circuit state. -/
inductive OnionCircuitState
  /-- Circuit is being built. -/
  | building
  /-- Circuit is active and ready. -/
  | active
  /-- Circuit is being torn down. -/
  | tearingDown
  /-- Circuit is closed. -/
  | closed
  /-- Circuit failed. -/
  | failed (reason : String)
  deriving DecidableEq

/-- Onion routing circuit. -/
structure Circuit where
  /-- Circuit ID. -/
  id : UInt64
  /-- Circuit hops (node public keys). -/
  hops : List (List UInt8)
  /-- Circuit state. -/
  state : OnionCircuitState
  /-- Creation timestamp. -/
  createdAt : Instant
  /-- Last activity timestamp. -/
  lastActivity : Instant
  /-- Circuit bandwidth usage. -/
  bandwidthUsed : ℕ
  /-- Circuit quality score. -/
  qualityScore : ℚ

/-- Circuit management for onion routing. -/
structure CircuitManager where
  /-- Active circuits. -/
  circuits : HashMap UInt64 Circuit
  /-- Circuit creation rate limiter. -/
  creationRate : ℚ
  /-- Last circuit creation time. -/
  lastCreation : Instant
  /-- Maximum concurrent circuits. -/
  maxCircuits : ℕ
  /-- Circuit lifetime. -/
  circuitLifetime : Duration

/-- What building a circuit reads from outside. -/
structure CircuitDraws where
  /-- When it looks at the rate of creation. -/
  rateChecked : Instant
  /-- When it looks which circuits are too old. -/
  cleanupChecked : Instant
  /-- For the hops. -/
  select : SelectDraws
  /-- The ID. -/
  circuitId : UInt64
  /-- When the circuit is made. -/
  created : Instant
  /-- When that is noted. -/
  noted : Instant

namespace CircuitManager

/-- Create new circuit manager. -/
def new (now : Instant) : CircuitManager := ⟨∅, 1, now, 100, 600 * 10 ^ 9⟩

/-- Cleanup inactive or expired circuits. -/
def cleanupInactiveCircuits (now : Instant) (manager : CircuitManager) : CircuitManager :=
  { manager with
    circuits := manager.circuits.retain fun _ circuit =>
      match circuit.state with
      | .closed | .failed _ => false
      | _ => circuit.createdAt.elapsed now < manager.circuitLifetime * 2 }

/-- Build a new circuit with specified number of hops. -/
def buildCircuit (draws : CircuitDraws) (hops : ℕ) :
    Fallible (Abort OnionError) (CircuitManager × DirectoryClient) UInt64 := do
  let (manager, _) ← Fallible.get
  -- rate limiting
  if (manager.lastCreation.elapsed draws.rateChecked : ℚ) / 10 ^ 9 < 1 / manager.creationRate then
    Fallible.fail (.error (.routeError "Circuit creation rate limit exceeded"))
  else do
    -- remove inactive circuits at the limit
    if manager.maxCircuits ≤ manager.circuits.keys.card then
      Fallible.modify fun s => (s.1.cleanupInactiveCircuits draws.cleanupChecked, s.2)
    let (manager, _) ← Fallible.get
    if manager.maxCircuits ≤ manager.circuits.keys.card then
      Fallible.fail (.error (.routeError "Maximum circuits reached"))
    else do
      let nodes ← Fallible.zoom Prod.snd (fun directory s => (s.1, directory))
        (DirectoryClient.selectRandomNodes draws.select hops)
      let circuit : Circuit :=
        ⟨draws.circuitId, nodes, .building, draws.created, draws.created, 0, 1⟩
      Fallible.modify fun s =>
        ({ s.1 with
            circuits := s.1.circuits.insert draws.circuitId circuit
            lastCreation := draws.noted }, s.2)
      return draws.circuitId

/-- Activate a circuit after successful building. -/
def activateCircuit (now : Instant) (circuitId : UInt64) :
    Fallible (Abort OnionError) CircuitManager Unit := do
  let manager ← Fallible.get
  match manager.circuits.lookup circuitId with
  | none => Fallible.fail (.error (.routeError "Circuit not found"))
  | some circuit =>
    if circuit.state ≠ .building then
      Fallible.fail (.error (.routeError "Circuit not in building state"))
    else
      Fallible.modify fun manager =>
        { manager with
          circuits := manager.circuits.insert circuitId
            { circuit with state := .active, lastActivity := now } }

/-- The last circuit with the best quality. -/
def bestCircuit : List Circuit → Option Circuit
  | [] => none
  | circuit :: circuits =>
    match bestCircuit circuits with
    | none => some circuit
    | some best => if circuit.qualityScore ≤ best.qualityScore then some best else some circuit

/-- Get an active circuit for use. -/
def getActiveCircuit (order : HashMap.Iteration UInt64 Circuit) (now : Instant)
    (manager : CircuitManager) : Option Circuit :=
  bestCircuit (((order.order manager.circuits).map Prod.snd).filter fun c =>
    c.state = .active ∧ c.createdAt.elapsed now < manager.circuitLifetime)

/-- Update circuit metrics. -/
def updateCircuitMetrics (now : Instant) (circuitId : UInt64) (bytesSent : ℕ) (success : Bool)
    (manager : CircuitManager) : CircuitManager :=
  match manager.circuits.lookup circuitId with
  | none => manager
  | some circuit =>
    let score := circuit.qualityScore
    { manager with
      circuits := manager.circuits.insert circuitId
        { circuit with
          lastActivity := now
          bandwidthUsed := circuit.bandwidthUsed + bytesSent
          qualityScore :=
            if success then min (score * (95 / 100) + 1 * (5 / 100)) 1
            else max (score * (95 / 100)) 0 } }

end CircuitManager

end QuDAG.Network
