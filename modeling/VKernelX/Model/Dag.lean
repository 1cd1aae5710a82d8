/-
  Model/Dag.lean --- the event graph checks of `dag.rs`.
-/
import VKernelX.Foundation.Kahn
import VKernelX.Model.Storage

set_option autoImplicit false

namespace VKernelX

/-- `dag.rs`, `DagConflict`. -/
structure DagConflict where
  eventHash : String
  reason : String
  deriving DecidableEq, Repr

/-- The loop of `event_index`, with the position it has reached. -/
def indexEvents : List VectorEvent → ℕ → BTreeMap String ℕ → Except String (BTreeMap String ℕ)
  | [], _, index => .ok index
  | e :: rest, i, index =>
      if e.eventHash = "" then .error ("event " ++ e.eventId ++ " has empty event_hash")
      else if index[e.eventHash]? ≠ none then
        .error ("duplicate event_hash detected: " ++ e.eventHash)
      else indexEvents rest (i + 1) (index.insert e.eventHash i)

/-- `event_index`: where each hash stands in the list. -/
def eventIndex (events : List VectorEvent) : Except String (BTreeMap String ℕ) :=
  indexEvents events 0 ∅

/-- `dag.rs`, `sort_key`. -/
def dagSortKey (e : VectorEvent) : EventKey :=
  toLex (e.logicalClock.toNat, toLex (e.timestamp.toNat, toLex (e.eventHash, e.eventId)))

/-! ## Conflicts -/

/-- The conflicts of one parent list. -/
def parentConflicts (index : BTreeMap String ℕ) (eventHash : String) :
    List String → List String → List DagConflict
  | [], _ => []
  | parent :: rest, seenParents =>
      (if parent ∈ seenParents then
        [{ eventHash := eventHash, reason := "duplicate parent hash in event: " ++ parent }]
      else []) ++
      (if index[parent]? = none then
        [{ eventHash := eventHash, reason := "missing parent event: " ++ parent }]
      else []) ++
      parentConflicts index eventHash rest (parent :: seenParents)

/-- The conflicts of one event. -/
def eventConflicts (index : BTreeMap String ℕ) (e : VectorEvent) : List DagConflict :=
  (if e.eventHash ∈ e.parentHashes then
    [{ eventHash := e.eventHash, reason := "self-parent cycle detected" }]
  else []) ++ parentConflicts index e.eventHash e.parentHashes []

/-- `detect_conflicts`. -/
def detectConflicts (events : List VectorEvent) : List DagConflict :=
  match eventIndex events with
  | .ok index => events.flatMap (eventConflicts index)
  | .error err => [{ eventHash := "", reason := err }]

/-! ## Linking parents -/

/-- Enter one event's parents in the tables.  A repeated parent is an error; `check` says
whether a parent is entered, skipped or refused. -/
def linkParents (check : String → Outcome String Bool) (eventHash : String) :
    List String → List String → GraphTables String → Outcome String (GraphTables String)
  | [], _, tables => .ok tables
  | parent :: rest, seenParents, tables => do
      Outcome.require (parent ∉ seenParents) ("duplicate parent hash in event: " ++ eventHash)
      let linked ← check parent
      linkParents check eventHash rest (parent :: seenParents)
        (if linked then tables.addEdge parent eventHash else tables)

/-- The tables of a list of events: every event as a vertex, then every admitted edge. -/
def buildTables (check : VectorEvent → String → Outcome String Bool)
    (events : List VectorEvent) : Outcome String (GraphTables String) :=
  events.foldlM (fun tables e => linkParents (check e) e.eventHash e.parentHashes [] tables)
    ((events.map VectorEvent.eventHash).foldl GraphTables.addNode GraphTables.empty)

/-! ## Validation -/

/-- `validate_region_admissibility`. -/
def validateRegionAdmissibility (parent child : VectorEvent) : Outcome String Unit :=
  Outcome.require (parent.regionId = child.regionId)
    ("region inadmissible: parent region " ++ parent.regionId ++ " != child region " ++
      child.regionId)

/-- The checks `validate_dag` makes on a parent before it links it. -/
def admitParent (events : List VectorEvent) (index : BTreeMap String ℕ) (child : VectorEvent)
    (parentHash : String) : Outcome String Bool := do
  let parentIndex ← Outcome.okOr ("missing parent event: " ++ parentHash) index[parentHash]?
  let parent ← Outcome.unwrap events[parentIndex]?
  validateRegionAdmissibility parent child
  return true

/-- The event under a hash, through its position. -/
def indexedEvent (events : List VectorEvent) (index : BTreeMap String ℕ) (hash : String) :
    Option VectorEvent :=
  index[hash]?.bind (fun i => events[i]?)

/-- `validate_dag`.  The queue is first in, first out; `visited` counts its rounds. -/
def validateDag (events : List VectorEvent) : Outcome String Unit := do
  let index ← Outcome.ofResult (eventIndex events)
  let graph ← buildTables (admitParent events index) events
  let visited ← drainLoop graph.children (fun _ => .ok ())
    (sortByKey (fun hash => (indexedEvent events index hash).map dagSortKey))
    Arrangement.queue graph.roots graph.indegree []
  Outcome.require (visited.length = events.length) "cycle detected in event DAG"

/-! ## Ordering -/

/-- The events by hash.  A later event replaces an earlier one under its hash. -/
def eventMap (events : List VectorEvent) : BTreeMap String VectorEvent :=
  events.foldl (fun byHash e => byHash.insert e.eventHash e) ∅

/-- The tables `topological_order` builds.  The events have passed validation by then, so
every parent is entered as it stands. -/
def ancestryTables (events : List VectorEvent) : GraphTables String :=
  events.foldl (fun tables e =>
      e.parentHashes.foldl (fun tables parent => tables.addEdge parent e.eventHash) tables)
    ((events.map VectorEvent.eventHash).foldl GraphTables.addNode GraphTables.empty)

/-- `topological_order`. -/
def topologicalOrder (events : List VectorEvent) : Outcome String (List VectorEvent) := do
  validateDag events
  let byHash := eventMap events
  let tables := ancestryTables events
  let key := fun hash : String => (byHash[hash]?).map dagSortKey
  let ready ← sortByKey key tables.roots
  let ordered ← drainLoop tables.children
    (fun node => Outcome.okOr ("missing node in event map: " ++ node) byHash[node]?)
    (sortByKey key) (Arrangement.priority key) ready tables.indegree []
  Outcome.require (ordered.length = events.length)
    "topological ordering failed due to unresolved cycle or missing ancestry"
  return ordered

end VKernelX
