import QuDAG.Integrations.EventBoundary

/-!
# Concurrent calls of the vector index (`ruvector-index/index.mjs`)

The index has a native database of vectors and a map with the metadata of the entries. Calls of
`add`, `search` and `close` run up to the native operation that they wait for, and go on in a later
turn of the event loop. In between other calls run, and native operations finish.

## Main definitions

* `RuvectorIndex` — the private fields of an index.
* `System` — an index with its native database and the calls that wait.
* `Step` — calls, native operations that finish, and continuations.

## Implementation notes

A native insertion that fails has no effect, and a native search finds entries that are stored.
What the native operations and `rmSync` return is given with the steps. A native operation that
throws at once is one that fails with no step in between. Metadata is taken by its content.
-/

namespace QuDAG.Integrations.Ruvector

open RustStd

variable {Input Vector Value : Type}

/-- `Number.isSafeInteger`. -/
def isSafeInteger (x : ℚ) : Bool := x.isInt && -(2 ^ 53 - 1) ≤ x && x ≤ 2 ^ 53 - 1

/-- What the index uses of the environment. -/
structure Environment (Input Vector Value : Type) where
  /-- An input of the dimension divided by its norm, or what is thrown for it. -/
  vector : ℕ → Input → Except Thrown Vector
  null : Value
  /-- A copy of a value, or what is thrown for a value that cannot be copied. -/
  structuredClone : Value → Except Thrown Value
  /-- A copy can be copied, and has the same content. -/
  clone_clone : ∀ {value copy}, structuredClone value = .ok copy → structuredClone copy = .ok copy
  /-- Whether the native database has a method `close`. -/
  hasClose : Bool

/-! ## The index -/

/-- The fields of an index. -/
structure RuvectorIndex (Value : Type) where
  dimensions : ℕ
  maxElements : ℕ
  /-- `#db` is not `null`. -/
  db : Bool
  metadata : HashMap String Value
  pending : HashSet String
  closed : Bool

/-- A hit of a search. -/
structure Hit (Value : Type) where
  id : String
  score : ℚ
  /-- The metadata, unless it is `undefined`. -/
  metadata : Option Value

/-- What a call returns. -/
inductive Answer (Value : Type)
  | id (id : String)
  | hits (hits : List (Hit Value))
  | closed

/-- A call that waits for a native operation, with what the operation returned. -/
inductive Call (Vector Value : Type)
  | add (id : String) (vector : Vector) (copy : Value) (native : Option (Except Thrown Unit))
  | search (vector : Vector) (k : ℕ) (native : Option (Except Thrown (List (String × ℚ))))
  | close (native : Option (Except Thrown Unit))

/-- An entry of the native database. The metadata is that of the call which added it: the database
does not have it. -/
structure Entry (Vector Value : Type) where
  id : String
  vector : Vector
  metadata : Value

namespace RuvectorIndex

/-- A new index with the options, if they are valid. -/
def new (dimensions maxElements : ℚ) : Except Thrown (RuvectorIndex Value) := do
  require (isSafeInteger dimensions && 1 ≤ dimensions && dimensions ≤ 65536)
    "dimensions must be 1..65536"
  require (isSafeInteger maxElements && 1 ≤ maxElements) "maxElements must be positive"
  pure ⟨dimensions.num.toNat, maxElements.num.toNat, true, ∅, ∅, false⟩

variable (env : Environment Input Vector Value) (self : RuvectorIndex Value)

/-- What `add` checks before it waits: the identifier, the vector and the copy of the metadata. -/
def checkAdd (id : Json) (vector : Input) (metadata : Option Value) :
    Except Thrown (String × Vector × Value) := do
  require (!self.closed) "index is closed"
  let id ← orThrow id.asStr (.error "id must be a nonempty string of at most 1024 bytes")
  require (id ≠ "" && (Bytes.ofString id).length ≤ 1024)
    "id must be a nonempty string of at most 1024 bytes"
  require (id ∉ self.metadata && id ∉ self.pending) "duplicate id: entries are immutable"
  require (self.metadata.keys.card + self.pending.card < self.maxElements)
    "index capacity exceeded"
  let normalized ← env.vector self.dimensions vector
  let copy ← env.structuredClone (metadata.getD env.null)
  pure (id, normalized, copy)

/-- What `search` checks before it waits. -/
def checkSearch (vector : Input) (k : ℚ) : Except Thrown Vector := do
  require (!self.closed) "index is closed"
  require (isSafeInteger k && 1 ≤ k && k ≤ self.maxElements) "k must be 1..maxElements"
  env.vector self.dimensions vector

/-- The hit for a result of the native search. -/
def hit (result : String × ℚ) : Except Thrown (Hit Value) :=
  match self.metadata.lookup result.1 with
  | none => .ok ⟨result.1, result.2, none⟩
  | some value => (env.structuredClone value).map fun copy => ⟨result.1, result.2, some copy⟩

/-- The index with a pending identifier. -/
def pend (id : String) : RuvectorIndex Value := { self with pending := insert id self.pending }

/-- The index without the pending identifier. -/
def unpend (id : String) : RuvectorIndex Value := { self with pending := self.pending.erase id }

/-- The index with the entry instead of the pending identifier. -/
def commit (id : String) (copy : Value) : RuvectorIndex Value :=
  { self with metadata := self.metadata.insert id copy, pending := self.pending.erase id }

/-- The index that takes no more calls. -/
def shut : RuvectorIndex Value := { self with closed := true }

/-- The end of `close`: the reference to the database and the metadata are dropped. -/
def drop : RuvectorIndex Value := { self with db := false, metadata := ∅ }

end RuvectorIndex

/-! ## Calls -/

/-- An index, its native database and the calls that wait. -/
structure System (Vector Value : Type) where
  index : RuvectorIndex Value
  native : List (Entry Vector Value)
  calls : HashMap ℕ (Call Vector Value)

namespace System

variable (env : Environment Input Vector Value) (s : System Vector Value)

/-- A new index, with an empty database. -/
def start (index : RuvectorIndex Value) : System Vector Value := ⟨index, [], ∅⟩

/-- Add an entry, up to the native insertion. A call gets an answer, or none while it waits. -/
def add (call : ℕ) (id : Json) (vector : Input) (metadata : Option Value) :
    Option (Except Thrown (Answer Value)) × System Vector Value :=
  match s.index.checkAdd env id vector metadata with
  | .error e => (some (.error e), s)
  | .ok (id, normalized, copy) =>
    (none, { s with
      index := s.index.pend id
      calls := s.calls.insert call (.add id normalized copy none) })

/-- Search for the nearest entries, up to the native search. -/
def search (call : ℕ) (vector : Input) (k : ℚ) :
    Option (Except Thrown (Answer Value)) × System Vector Value :=
  match s.index.checkSearch env vector k with
  | .error e => (some (.error e), s)
  | .ok normalized =>
    if s.index.metadata.keys.card = 0 then (some (.ok (.hits [])), s)
    else
      let limit := min k.num.toNat s.index.metadata.keys.card
      (none, { s with calls := s.calls.insert call (.search normalized limit none) })

/-- Close the index, up to the native `close` if there is one. `removed` is what the removal of the
directory returns. -/
def close (call : ℕ) (removed : Except Thrown Unit) :
    Option (Except Thrown (Answer Value)) × System Vector Value :=
  if s.index.pending ≠ ∅ then (some (.error (.error "insertions are still pending")), s)
  else if s.index.closed then (some (.ok .closed), s)
  else if env.hasClose then
    (none, { s with
      index := s.index.shut
      calls := s.calls.insert call (.close none) })
  else
    (some (removed.map fun _ => .closed),
      { s with index := s.index.shut.drop })

/-- A native insertion finishes. -/
def inserted (call : ℕ) (result : Except Thrown Unit) : System Vector Value :=
  match s.calls.lookup call with
  | some (.add id vector copy none) =>
    { s with
      native := match result with
        | .ok () => s.native ++ [⟨id, vector, copy⟩]
        | .error _ => s.native
      calls := s.calls.insert call (.add id vector copy (some result)) }
  | _ => s

/-- A native search finishes. -/
def searched (call : ℕ) (result : Except Thrown (List (String × ℚ))) : System Vector Value :=
  match s.calls.lookup call with
  | some (.search vector k none) =>
    { s with calls := s.calls.insert call (.search vector k (some result)) }
  | _ => s

/-- The native `close` finishes. -/
def nativeClosed (call : ℕ) (result : Except Thrown Unit) : System Vector Value :=
  match s.calls.lookup call with
  | some (.close none) => { s with calls := s.calls.insert call (.close (some result)) }
  | _ => s

/-- A call goes on after its native operation. -/
def resume (call : ℕ) (removed : Except Thrown Unit) :
    Option (Except Thrown (Answer Value)) × System Vector Value :=
  let rest := s.calls.erase call
  match s.calls.lookup call with
  | some (.add id _ copy (some (.ok ()))) =>
    (some (.ok (.id id)), { s with index := s.index.commit id copy, calls := rest })
  | some (.add id _ _ (some (.error e))) =>
    (some (.error e), { s with index := s.index.unpend id, calls := rest })
  | some (.search _ _ (some (.ok results))) =>
    (some ((results.mapM (s.index.hit env)).map .hits), { s with calls := rest })
  | some (.search _ _ (some (.error e))) => (some (.error e), { s with calls := rest })
  | some (.close (some (.ok ()))) =>
    (some (removed.map fun _ => .closed), { s with index := s.index.drop, calls := rest })
  | some (.close (some (.error e))) => (some (.error e), { s with calls := rest })
  | _ => (none, s)

end System

/-- What happens next: a call, the end of a native operation, or the continuation of a call. -/
inductive Step (Input Value : Type)
  | add (call : ℕ) (id : Json) (vector : Input) (metadata : Option Value)
  | search (call : ℕ) (vector : Input) (k : ℚ)
  | close (call : ℕ) (removed : Except Thrown Unit)
  | inserted (call : ℕ) (result : Except Thrown Unit)
  | searched (call : ℕ) (result : Except Thrown (List (String × ℚ)))
  | nativeClosed (call : ℕ) (result : Except Thrown Unit)
  | resume (call : ℕ) (removed : Except Thrown Unit)

namespace Step

variable (env : Environment Input Vector Value)

/-- The answer that a call gets in a step, and the system after it. -/
def run (s : System Vector Value) :
    Step Input Value → Option (Except Thrown (Answer Value)) × System Vector Value
  | .add call id vector metadata => s.add env call id vector metadata
  | .search call vector k => s.search env call vector k
  | .close call removed => s.close env call removed
  | .inserted call result => (none, s.inserted call result)
  | .searched call result => (none, s.searched call result)
  | .nativeClosed call result => (none, s.nativeClosed call result)
  | .resume call removed => s.resume env call removed

/-- The system after a step. -/
def apply (s : System Vector Value) (step : Step Input Value) : System Vector Value :=
  (step.run env s).2

/-- New calls get new numbers, a native operation finishes once, and a native search finds entries
that are stored. -/
def Valid (s : System Vector Value) : Step Input Value → Prop
  | .add call _ _ _ => call ∉ s.calls
  | .search call _ _ => call ∉ s.calls
  | .close call _ => call ∉ s.calls
  | .inserted call _ => ∃ id vector copy, s.calls.lookup call = some (.add id vector copy none)
  | .searched call result => (∃ vector k, s.calls.lookup call = some (.search vector k none)) ∧
      ∀ results, result = .ok results → ∀ r ∈ results, ∃ e ∈ s.native, e.id = r.1
  | .nativeClosed call _ => s.calls.lookup call = some (.close none)
  | .resume _ _ => True

end Step

end QuDAG.Integrations.Ruvector
