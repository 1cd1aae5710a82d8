/-
  Model/Replay.lean --- rebuilding the state from events, as `replay.rs` does it.
-/
import VKernelX.Model.Dag

set_option autoImplicit false

namespace VKernelX

/-- `replay.rs`, `ReplayResult`. -/
structure ReplayResult where
  finalState : BTreeMap String VectorState
  coreState : CoreState
  stateRoot : StateRoot
  replayHash : String
  appliedEventHashes : List String
  deriving DecidableEq

/-- The ordering key of replay: two clocks and three texts. -/
abbrev ReplayKey : Type := ℕ ×ₗ ℕ ×ₗ String ×ₗ String ×ₗ String

/-- `replay.rs`, `sort_key`. -/
def replaySortKey (e : VectorEvent) : ReplayKey :=
  toLex (e.logicalClock.toNat, toLex (e.timestamp.toNat,
    toLex (e.entityId, toLex (e.eventId, e.eventHash))))

/-! ## One entity's history -/

/-- The map of an entity's events by hash. -/
def entityEventsByHash (events : List VectorEvent) :
    Outcome String (BTreeMap String VectorEvent) :=
  events.foldlM (fun byHash e => do
    Outcome.require (byHash[e.eventHash]? = none)
      ("duplicate event_hash detected: " ++ e.eventHash)
    return byHash.insert e.eventHash e) ∅

/-- `order_entity_events`.  A parent outside the entity's own events is skipped. -/
def orderEntityEvents (events : List VectorEvent) : Outcome String (List VectorEvent) :=
  if events = [] then .ok []
  else do
    let byHash ← entityEventsByHash events
    let tables ← buildTables (fun _ parent => .ok (byHash[parent]?).isSome) events
    let rootCount := tables.roots.length
    Outcome.require (rootCount = 1)
      ("entity history must have exactly one root event, found " ++ decimal rootCount ++ " roots")
    let key := fun hash : String => (byHash[hash]?).map replaySortKey
    let ready ← sortByKey key tables.roots
    let ordered ← drainLoop tables.children
      (fun node => Outcome.okOr ("missing node in entity replay map: " ++ node) byHash[node]?)
      (sortByKey key) (Arrangement.priority key) ready tables.indegree []
    Outcome.require (ordered.length = events.length)
      "entity replay ordering failed due to unresolved ancestry or cycle"
    return ordered

/-- Group events by entity, each group in list order. -/
def groupByEntity (events : List VectorEvent) : BTreeMap String (List VectorEvent) :=
  events.foldl
    (fun byEntity e => byEntity.insert e.entityId ((byEntity[e.entityId]?).getD [] ++ [e])) ∅

/-! ## Applying events -/

section

variable (env : Platform)

/-- `apply_event`, on the entity states and the core registry. -/
def applyEvent (state : BTreeMap String VectorState) (core : CoreState) (e : VectorEvent) :
    Outcome String (BTreeMap String VectorState × CoreState) :=
  if isRegionCreateEvent e = true then do
    let core' ← (applyRegionEvent env core e).mapErr KernelXError.text
    return (state.insert e.entityId e.vectorAfter, core')
  else do
    match e.operation with
    | .originCreate =>
        Outcome.require (state[e.entityId]? = none)
          ("origin create attempted for existing entity_id: " ++ e.entityId)
    | _ =>
        let current ← Outcome.okOr
          ("non-origin event references missing entity state: " ++ e.entityId)
          state[e.entityId]?
        Outcome.require (current = e.vectorBefore)
          ("vector_before mismatch for entity_id " ++ e.entityId)
    return (state.insert e.entityId e.vectorAfter, core)

/-- The variables the replay loop works on. -/
structure ReplayProgress where
  state : BTreeMap String VectorState
  core : CoreState
  appliedEventHashes : List String
  logicalClock : UInt64

/-- The loop body: apply one event and take note of it. -/
def applyNext (progress : ReplayProgress) (e : VectorEvent) : Outcome String ReplayProgress := do
  let (state, core) ← applyEvent env progress.state progress.core e
  return {
    state := state
    core := core
    appliedEventHashes := progress.appliedEventHashes ++ [e.eventHash]
    logicalClock := max progress.logicalClock e.logicalClock }

/-- Order one entity's events and apply them. -/
def replayEntity (progress : ReplayProgress) (events : List VectorEvent) :
    Outcome String ReplayProgress := do
  let ordered ← orderEntityEvents events
  ordered.foldlM (applyNext env) progress

/-- Where replay starts. -/
def ReplayProgress.start : ReplayProgress where
  state := ∅
  core := CoreState.new env
  appliedEventHashes := []
  logicalClock := 0

/-- What replay returns at the end. -/
def ReplayProgress.result (progress : ReplayProgress) : ReplayResult where
  finalState := progress.state
  coreState := progress.core
  stateRoot := computeStateRootFromCanonicalBytes env (canonicalStateMapBytes progress.state)
    (UInt64.ofNat progress.appliedEventHashes.length) progress.logicalClock
  replayHash := canonicalReplayHash env progress.appliedEventHashes
  appliedEventHashes := progress.appliedEventHashes

/-- `replay_events`. -/
def replayEvents (events : List VectorEvent) : Outcome String ReplayResult := do
  validateDag events
  let progress ← (BTreeMap.values (groupByEntity events)).foldlM (replayEntity env)
    (ReplayProgress.start env)
  return progress.result env

end

end VKernelX
