/-
  Model/Engine.lean --- the kernel engine of `engine.rs` over the in-memory store.

  Every public operation is a procedure on the engine: what it wrote before it stopped is
  in the state it leaves.  A call's readings of the clock are a function `now`, numbered in
  the order in which the call makes them.
-/
import VKernelX.Model.Operations
import VKernelX.Model.Replay
import VKernelX.Model.StateRoot

set_option autoImplicit false

namespace VKernelX

/-- `engine.rs`, `KernelEngine<MemoryStore>`. -/
structure KernelEngine where
  store : MemoryStore
  consensus : ConsensusPolicy

/-- A method on `&mut self`. -/
abbrev EngineProc (α : Type) : Type := Proc KernelEngine KernelXError α

namespace KernelEngine

/-- `KernelEngine::new`. -/
def new : KernelEngine := { store := MemoryStore.empty, consensus := ConsensusPolicy.default }

/-! ## Queries -/

/-- `query_events`.  The store hands the events out sorted, and they are sorted again. -/
def queryEvents (eng : KernelEngine) : List VectorEvent :=
  sortEvents eng.store.loadEventsForReplay

/-- `query_regions`. -/
def queryRegions (eng : KernelEngine) : Outcome KernelXError (List RegionState) :=
  listRegionsFromEvents eng.queryEvents

/-- `query_region`. -/
def queryRegion (eng : KernelEngine) (regionId : String) :
    Outcome KernelXError (Option RegionState) := do
  let regions ← eng.queryRegions
  return regions.find? (fun region => region.regionId = regionId)

/-- `query_region_by_name`. -/
def queryRegionByName (eng : KernelEngine) (regionName : String)
    (regionPrefix : Option String) : Outcome KernelXError (Option RegionState) :=
  findRegionByLookupKey eng.queryEvents regionName regionPrefix

/-- `resolve_region_id`. -/
def resolveRegionId (eng : KernelEngine) (regionName : String) (regionPrefix : Option String) :
    Outcome KernelXError (Option String) := do
  let region ← eng.queryRegionByName regionName regionPrefix
  return region.map RegionState.regionId

/-- `region_exists`. -/
def regionExists (eng : KernelEngine) (regionName : String) (regionPrefix : Option String) :
    Outcome KernelXError Bool := do
  let region ← eng.queryRegionByName regionName regionPrefix
  return region.isSome

/-- `latest_parent_hash_for_entity`: the last event of the entity in sorted order. -/
def latestParentHashForEntity (eng : KernelEngine) (entityId : String) : List String :=
  ((eng.queryEvents.reverse.find? (fun e => e.entityId = entityId)).map
    VectorEvent.eventHash).toList

/-- `next_event_sequence_for_entity`; `usize` is 64 bits wide. -/
def nextEventSequenceForEntity (eng : KernelEngine) (entityId regionId : String) :
    Outcome KernelXError UInt64 :=
  let count := eng.store.loadEventsForReplay.countP
    (fun e => e.entityId = entityId ∧ e.regionId = regionId)
  if count + 1 < 2 ^ 64 then .ok (UInt64.ofNat (count + 1))
  else Outcome.fail (.invalidState "event sequence overflow")

/-- `next_logical_clock`. -/
def nextLogicalClock (eng : KernelEngine) : UInt64 :=
  match eng.queryEvents.getLast? with
  | some e => if e.logicalClock.toNat + 1 < 2 ^ 64 then e.logicalClock + 1 else e.logicalClock
  | none => 0

/-- `ensure_parent_closure`. -/
def ensureParentClosure (eng : KernelEngine) (e : VectorEvent) : Outcome KernelXError Unit :=
  e.parentHashes.forM (fun parentHash =>
    Outcome.require (eng.store.getEventByHash parentHash ≠ none)
      (.invalidState ("orphan event " ++ e.eventHash ++ " references missing parent " ++
        parentHash)))

end KernelEngine

/-- `vector_v1_to_event_state`. -/
def vectorV1ToEventState (s : VectorStateV1) : Outcome KernelXError VectorState := do
  let components ← s.components.mapM (fun component =>
    Outcome.okOr (.invalidState "component value exceeds u64 canonical event limit")
      (u64TryFrom component))
  return {
    components := components
    ownerPublicKey := s.ownerPubkey
    typeTag := s.vectorType.debugName
    metadata := s.typeMetadata }

section

variable (env : Platform)

/-! ## Events of transitions -/

/-- The state before a transition as its event carries it: that of the vector, or a zero
vector for a creation. -/
def eventStateBefore (before : Option VectorStateV1) (after : VectorStateV1) :
    Outcome KernelXError VectorState :=
  match before with
  | some s => vectorV1ToEventState s
  | none => .ok (VectorState.zero after.components.length after.ownerPubkey
      after.vectorType.debugName)

/-- `build_transition_event`. -/
def buildTransitionEvent (eng : KernelEngine) (before : Option VectorStateV1)
    (after : VectorStateV1) (operation : OperationType) (logicalClock timestamp : UInt64)
    (parentHashes : List String) : Outcome KernelXError VectorEvent := do
  let vectorBefore ← eventStateBefore before after
  let vectorAfter ← vectorV1ToEventState after
  let sequence ← eng.nextEventSequenceForEntity after.vectorId after.spaceId
  let event : VectorEvent := {
    eventId := canonicalEventId after.vectorId after.spaceId operation logicalClock sequence
    parentHashes := parentHashes
    regionId := after.spaceId
    entityId := after.vectorId
    operation := operation
    vectorBefore := vectorBefore
    vectorAfter := vectorAfter
    authRatio := F64.ofDiv after.certification.authRatio.toNat 1000
    certified := after.certification.certified
    actorPublicKey := after.ownerPubkey
    logicalClock := logicalClock
    timestamp := timestamp
    payloadHash := ""
    eventHash := ""
    signature := "" }
  return event.seal env

/-- What `append_canonical_event` makes of an engine. -/
def KernelEngine.withEvent (eng : KernelEngine) (e : VectorEvent) :
    Outcome KernelXError KernelEngine := do
  validateEvent env e
  eng.ensureParentClosure e
  let store ← eng.store.appendEvent e
  return { eng with store := store }

/-- `append_canonical_event`. -/
def appendCanonicalEvent (e : VectorEvent) : EngineProc Unit :=
  Proc.update (fun eng => eng.withEvent env e)

/-- Build a transition's event on the engine as it stands, and append it. -/
def appendTransition (before : Option VectorStateV1) (after : VectorStateV1)
    (operation : OperationType) (timestamp : UInt64)
    (parentHashes : KernelEngine → List String) : EngineProc Unit := do
  let event ← Proc.query (fun eng => buildTransitionEvent env eng before after operation
    after.version timestamp (parentHashes eng))
  appendCanonicalEvent env event

/-- The parents of a transition of an existing vector. -/
def parentOf (vectorId : String) (eng : KernelEngine) : List String :=
  eng.latestParentHashForEntity vectorId

/-! ## Writes -/

/-- The engine with a state stored. -/
def KernelEngine.withState (eng : KernelEngine) (s : VectorStateV1) : KernelEngine :=
  { eng with store := eng.store.putState s }

/-- `store.put_state`. -/
def putState (s : VectorStateV1) : EngineProc Unit := Proc.write (fun eng => eng.withState s)

/-- The engine after a record was offered to the policy. -/
def KernelEngine.withRecord (eng : KernelEngine) (r : VectorRecordV1) : KernelEngine :=
  if acceptRecord r eng.consensus = true then { eng with store := eng.store.putRecord r }
  else eng

/-- Store a record if the policy accepts it. -/
def putAcceptedRecord (r : VectorRecordV1) : EngineProc Unit :=
  Proc.write (fun eng => eng.withRecord r)

/-- Fetch a vector or fail. -/
def getVector (vectorId : String) : EngineProc VectorStateV1 :=
  Proc.query (fun eng => Outcome.okOr .vectorNotFound (eng.store.getState vectorId))

/-! ## Operations on one existing vector

`certify`, `drain`, `project` and `reconstruct` share one course: fetch the vector, compute
its next state, store state and record, and append the event. -/

/-- The shared course, from the next state and the record of a particular operation. -/
def updateVector (vectorId : String) (operation : OperationType)
    (next : VectorStateV1 → Outcome KernelXError VectorStateV1)
    (record : VectorStateV1 → VectorStateV1 → Outcome KernelXError VectorRecordV1) :
    EngineProc VectorStateV1 := do
  let before ← getVector vectorId
  let after ← Proc.lift (next before)
  Proc.lift (validateState after)
  putState after
  let r ← Proc.lift (record before after)
  putAcceptedRecord r
  appendTransition env (some before) after operation after.updatedAtMs (parentOf after.vectorId)
  return after

/-- The next state of `certify`. -/
def certifyNext (now : ℕ → UInt64) (s : VectorStateV1) : Outcome KernelXError VectorStateV1 := do
  let certification ← certifyState env s true true (now 0)
  let version ← u64Succ env.overflowChecks s.version
  return { s with certification := certification, updatedAtMs := now 1, version := version }

/-- The record of `certify`. -/
def certifyRecord (vectorId : String) (now : ℕ → UInt64) (before after : VectorStateV1) :
    Outcome KernelXError VectorRecordV1 :=
  .ok (VectorRecordV1.new env
    (makeRecordId env "certify" vectorId ("version=" ++ decimal after.version.toNat ++
      ";auth=" ++ decimal after.certification.authRatio.toNat))
    vectorId (some before) after .certify (.object []) (now 2))

/-- `KernelEngine::certify`. -/
def certify (now : ℕ → UInt64) (vectorId : String) : EngineProc VectorStateV1 :=
  updateVector env vectorId .certify (certifyNext env now) (certifyRecord env vectorId now)

/-- The next state of `drain`. -/
def drainNext (now : ℕ → UInt64) (basisPoints : UInt16) (s : VectorStateV1) :
    Outcome KernelXError VectorStateV1 := do
  let (_, remaining) ← applyDrain s.components basisPoints s.certification.authRatio
    s.certification.threshold
  let drained := { s with components := remaining }
  let certification ← certifyState env drained true true (now 0)
  let version ← u64Succ env.overflowChecks s.version
  return { drained with certification := certification, updatedAtMs := now 1, version := version }

/-- The record of `drain`. -/
def drainRecord (vectorId : String) (basisPoints : UInt16) (now : ℕ → UInt64)
    (before after : VectorStateV1) : Outcome KernelXError VectorRecordV1 := do
  let remaining ← Value.ofU128s after.components
  let recordParams : Value := .object [
    ("basis_points", Value.ofU64 (UInt64.ofNat basisPoints.toNat)), ("remaining", remaining)]
  return VectorRecordV1.new env (makeRecordId env "drain" vectorId (env.jsonOfValue recordParams))
    vectorId (some before) after .drain recordParams (now 2)

/-- `KernelEngine::drain`. -/
def drain (now : ℕ → UInt64) (vectorId : String) (basisPoints : UInt16) :
    EngineProc VectorStateV1 :=
  updateVector env vectorId .drain (drainNext env now basisPoints)
    (drainRecord env vectorId basisPoints now)

/-- The next state of `project`. -/
def projectNext (now : ℕ → UInt64) (projectedComponents : List U128) (escrowId : String)
    (s : VectorStateV1) : Outcome KernelXError VectorStateV1 := do
  let after ← projectVector env s projectedComponents escrowId (now 0)
  let certification ← certifyState env after true true (now 1)
  return { after with certification := certification }

/-- The record of `project`. -/
def projectRecord (vectorId : String) (projectedComponents : List U128) (now : ℕ → UInt64)
    (before after : VectorStateV1) : Outcome KernelXError VectorRecordV1 := do
  let projected ← Value.ofU128s projectedComponents
  let recordParams : Value := .object [("projected_components", projected)]
  return VectorRecordV1.new env
    (makeRecordId env "project" vectorId (env.jsonOfValue recordParams))
    vectorId (some before) after .project recordParams (now 2)

/-- `KernelEngine::project`. -/
def project (now : ℕ → UInt64) (vectorId : String) (projectedComponents : List U128)
    (escrowId : String) : EngineProc VectorStateV1 :=
  updateVector env vectorId .project (projectNext env now projectedComponents escrowId)
    (projectRecord env vectorId projectedComponents now)

/-- The next state of `reconstruct`. -/
def reconstructNext (now : ℕ → UInt64) (outcome : SettlementOutcome) (s : VectorStateV1) :
    Outcome KernelXError VectorStateV1 := do
  let after ← reconstructVector env s outcome (now 0)
  let certification ← certifyState env after true true (now 1)
  return { after with certification := certification }

/-- The record of `reconstruct`. -/
def reconstructRecord (vectorId : String) (outcome : SettlementOutcome) (now : ℕ → UInt64)
    (before after : VectorStateV1) : Outcome KernelXError VectorRecordV1 := do
  let gains ← Value.ofU128s outcome.gains
  let losses ← Value.ofU128s outcome.losses
  let recordParams : Value := .object [
    ("gains", gains), ("losses", losses), ("outcome_tag", .string outcome.outcomeTag)]
  return VectorRecordV1.new env
    (makeRecordId env "reconstruct" vectorId (env.jsonOfValue recordParams))
    vectorId (some before) after .reconstruct recordParams (now 2)

/-- `KernelEngine::reconstruct`. -/
def reconstruct (now : ℕ → UInt64) (vectorId : String) (outcome : SettlementOutcome) :
    EngineProc VectorStateV1 :=
  updateVector env vectorId .reconstruct (reconstructNext env now outcome)
    (reconstructRecord env vectorId outcome now)

/-! ## Creation and transfer -/

/-- The arguments of `origin_create`. -/
structure OriginRequest where
  vectorId : String
  ownerPubkey : String
  spaceId : String
  components : List U128
  seed : String
  nonce : UInt64
  difficulty : UInt32
  deriving DecidableEq

/-- The state `origin_create` stores. -/
def originState (now : ℕ → UInt64) (request : OriginRequest) :
    Outcome KernelXError VectorStateV1 := do
  let s ← createOriginVector env request.vectorId request.ownerPubkey request.spaceId
    request.components request.seed request.nonce request.difficulty (now 0)
  validateState s
  let certification ← certifyState env s true true (now 1)
  let certified := { s with certification := certification }
  validateState certified
  return certified

/-- The record of `origin_create`. -/
def originRecord (difficulty : UInt32) (now : ℕ → UInt64) (s : VectorStateV1) :
    VectorRecordV1 :=
  VectorRecordV1.new env
    (makeRecordId env "origin" s.vectorId ("difficulty=" ++ decimal difficulty.toNat ++
      ";version=" ++ decimal s.version.toNat))
    s.vectorId none s .originCreate
    (.object [("difficulty", Value.ofU64 (UInt64.ofNat difficulty.toNat))]) (now 2)

/-- `KernelEngine::origin_create`. -/
def originCreate (now : ℕ → UInt64) (request : OriginRequest) : EngineProc VectorStateV1 := do
  let s ← Proc.lift (originState env now request)
  putState s
  putAcceptedRecord (originRecord env request.difficulty now s)
  appendTransition env none s .originCreate s.createdAtMs (fun _ => [])
  return s

/-- The states `transfer` stores: the sender's and the receiver's. -/
def transferNext (now : ℕ → UInt64) (amount : List U128) (sender receiver : VectorStateV1) :
    Outcome KernelXError (VectorStateV1 × VectorStateV1) := do
  let (afterFrom, afterTo) ← transferComponents sender receiver amount
  let senderCert ← certifyState env afterFrom true true (now 0)
  let receiverCert ← certifyState env afterTo true true (now 1)
  let certifiedFrom := { afterFrom with certification := senderCert }
  let certifiedTo := { afterTo with certification := receiverCert }
  validateState certifiedFrom
  validateState certifiedTo
  return (certifiedFrom, certifiedTo)

/-- The records of `transfer`, with the certifications of the stored states. -/
def transferRecords (now : ℕ → UInt64) (amount : List U128)
    (beforeFrom beforeTo afterFrom afterTo : VectorStateV1) :
    Outcome KernelXError (VectorRecordV1 × VectorRecordV1) := do
  let (sender, receiver) ← transferRecord env beforeFrom beforeTo afterFrom afterTo amount
    (fun i => now (2 + i))
  return ({ sender with certification := afterFrom.certification },
    { receiver with certification := afterTo.certification })

/-- `KernelEngine::transfer`. -/
def transfer (now : ℕ → UInt64) (fromId toId : String) (amount : List U128) :
    EngineProc (VectorStateV1 × VectorStateV1) := do
  let sender ← getVector fromId
  let receiver ← getVector toId
  let (afterFrom, afterTo) ← Proc.lift (transferNext env now amount sender receiver)
  putState afterFrom
  putState afterTo
  let (senderRecord, receiverRecord) ←
    Proc.lift (transferRecords env now amount sender receiver afterFrom afterTo)
  putAcceptedRecord senderRecord
  putAcceptedRecord receiverRecord
  appendTransition env (some sender) afterFrom .transfer (now 6) (parentOf afterFrom.vectorId)
  appendTransition env (some receiver) afterTo .transfer (now 7) (parentOf afterTo.vectorId)
  return (afterFrom, afterTo)

/-! ## Regions -/

/-- The genesis event `create_region` appends, after every check that comes before it. -/
def regionEvent (now : ℕ → UInt64) (request : RegionCreateRequest) (actorPublicKey : String)
    (eng : KernelEngine) : Outcome KernelXError VectorEvent := do
  validateRegionCreateRequest request
  verifyRegionCreateRequestSignature env actorPublicKey request
  let existing ← eng.queryRegionByName request.regionName request.regionPrefix
  Outcome.require (existing = none)
    (.invalidState "region already exists for this lookup key")
  Outcome.require (isBlank actorPublicKey = false)
    (.invalidState "actor_public_key cannot be empty")
  let event ← buildRegionGenesisEvent env request actorPublicKey eng.nextLogicalClock (now 0) 1
  Outcome.require (isRegionCreateEvent event = true)
    (.invalidState "failed to build canonical region create event")
  validateEvent env event
  return event

/-- `KernelEngine::create_region`. -/
def createRegion (now : ℕ → UInt64) (request : RegionCreateRequest) (actorPublicKey : String) :
    EngineProc RegionState := do
  let event ← Proc.query (regionEvent env now request actorPublicKey)
  appendCanonicalEvent env event
  Proc.lift (regionStateFromEvent event)

/-! ## Calls -/

/-- A call of a public mutating operation, with its arguments. -/
inductive Call where
  | originCreate (request : OriginRequest)
  | certify (vectorId : String)
  | transfer (fromId toId : String) (amount : List U128)
  | drain (vectorId : String) (basisPoints : UInt16)
  | project (vectorId : String) (projectedComponents : List U128) (escrowId : String)
  | reconstruct (vectorId : String) (outcome : SettlementOutcome)
  | createRegion (request : RegionCreateRequest) (actorPublicKey : String)
  deriving DecidableEq

/-- What a call returns. -/
inductive Reply where
  | vector (s : VectorStateV1)
  | vectors (afterFrom afterTo : VectorStateV1)
  | region (r : RegionState)

/-- The operation behind a call. -/
def Call.proc (now : ℕ → UInt64) : Call → EngineProc Reply
  | .originCreate request => Reply.vector <$> VKernelX.originCreate env now request
  | .certify vectorId => Reply.vector <$> VKernelX.certify env now vectorId
  | .transfer fromId toId amount =>
      (fun states => Reply.vectors states.1 states.2) <$>
        VKernelX.transfer env now fromId toId amount
  | .drain vectorId basisPoints => Reply.vector <$> VKernelX.drain env now vectorId basisPoints
  | .project vectorId projectedComponents escrowId =>
      Reply.vector <$> VKernelX.project env now vectorId projectedComponents escrowId
  | .reconstruct vectorId outcome =>
      Reply.vector <$> VKernelX.reconstruct env now vectorId outcome
  | .createRegion request actorPublicKey =>
      Reply.region <$> VKernelX.createRegion env now request actorPublicKey

/-- Make a call: its outcome and the engine it leaves. -/
def KernelEngine.call (eng : KernelEngine) (now : ℕ → UInt64) (c : Call) :
    Outcome KernelXError Reply × KernelEngine := (c.proc env now).exec eng

/-- `replay_canonical_history`. -/
def KernelEngine.replayCanonicalHistory (eng : KernelEngine) :
    Outcome KernelXError ReplayResult :=
  (replayEvents env eng.store.loadEventsForReplay).mapErr KernelXError.invalidState

/-- `current_state_root`. -/
def KernelEngine.currentStateRoot (eng : KernelEngine) : StateRoot :=
  let states := eng.store.listStates.insertionSort (fun a b => a.vectorId ≤ b.vectorId)
  let logicalClock := states.foldl (fun clock s => max clock s.updatedAtMs) 0
  computeStateRoot env states logicalClock

end

end VKernelX
