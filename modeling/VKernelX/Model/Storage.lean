/-
  Model/Storage.lean --- the in-memory store of `storage.rs`, and the event checks of
  `validation.rs`.
-/
import VKernelX.Model.Record
import VKernelX.Model.Region

set_option autoImplicit false

namespace VKernelX

/-! ## The store -/

/-- `snapshot.rs`, `Snapshot`. -/
structure Snapshot where
  snapshotId : String
  stateRoot : StateRoot
  eventRoot : String
  replayHash : String
  eventCount : UInt64
  logicalClock : UInt64
  dagHeads : List String
  stateBytes : List UInt8
  createdAt : UInt64
  deriving DecidableEq, Repr

/-- `storage.rs`, `MemoryStore`.  Events are keyed by their hash. -/
structure MemoryStore where
  states : BTreeMap String VectorStateV1
  records : BTreeMap String VectorRecordV1
  events : BTreeMap String VectorEvent
  snapshots : BTreeMap String Snapshot

/-- An ordering key for events: two clocks and two texts. -/
abbrev EventKey : Type := ℕ ×ₗ ℕ ×ₗ String ×ₗ String

/-- `canonical_event_sort_key`. -/
def canonicalEventSortKey (e : VectorEvent) : EventKey :=
  toLex (e.logicalClock.toNat, toLex (e.timestamp.toNat, toLex (e.eventHash, e.eventId)))

/-- Sort events by that key. -/
def sortEvents (events : List VectorEvent) : List VectorEvent :=
  events.insertionSort (fun a b => canonicalEventSortKey a ≤ canonicalEventSortKey b)

theorem sortEvents_perm (events : List VectorEvent) : (sortEvents events).Perm events :=
  List.perm_insertionSort _ events

namespace MemoryStore

/-- `MemoryStore::default`. -/
def empty : MemoryStore := { states := ∅, records := ∅, events := ∅, snapshots := ∅ }

/-- `put_state`. -/
def putState (store : MemoryStore) (s : VectorStateV1) : MemoryStore :=
  { store with states := store.states.insert s.vectorId s }

/-- `get_state`. -/
def getState (store : MemoryStore) (vectorId : String) : Option VectorStateV1 :=
  store.states[vectorId]?

/-- `list_states`. -/
def listStates (store : MemoryStore) : List VectorStateV1 := BTreeMap.values store.states

/-- `put_record`. -/
def putRecord (store : MemoryStore) (r : VectorRecordV1) : MemoryStore :=
  { store with records := store.records.insert r.recordId r }

/-- `list_records`. -/
def listRecords (store : MemoryStore) : List VectorRecordV1 := BTreeMap.values store.records

/-- `get_event`: the first event with the id, in the order of the hashes. -/
def getEvent (store : MemoryStore) (eventId : String) : Option VectorEvent :=
  (BTreeMap.values store.events).find? (fun e => e.eventId = eventId)

/-- `get_event_by_hash`. -/
def getEventByHash (store : MemoryStore) (eventHash : String) : Option VectorEvent :=
  store.events[eventHash]?

/-- `list_events`. -/
def listEvents (store : MemoryStore) : List VectorEvent := BTreeMap.values store.events

/-- The checks of `append_event`. -/
def appendChecks (store : MemoryStore) (e : VectorEvent) : Outcome KernelXError Unit := do
  Outcome.require (e.eventId ≠ "")
    (.invalidState "attempted to append event with empty event_id")
  Outcome.require (e.eventHash ≠ "")
    (.invalidState "attempted to append event with empty event_hash")
  Outcome.require (store.events[e.eventHash]? = none)
    (.invalidState ("duplicate canonical event_hash detected: " ++ e.eventHash))
  Outcome.require (∀ existing ∈ store.listEvents, existing.eventId ≠ e.eventId)
    (.invalidState ("duplicate event_id detected: " ++ e.eventId))

/-- `append_event`. -/
def appendEvent (store : MemoryStore) (e : VectorEvent) : Outcome KernelXError MemoryStore := do
  store.appendChecks e
  return { store with events := store.events.insert e.eventHash e }

/-- `put_snapshot`. -/
def putSnapshot (store : MemoryStore) (snapshot : Snapshot) : MemoryStore :=
  { store with snapshots := store.snapshots.insert snapshot.snapshotId snapshot }

/-- `list_snapshots`. -/
def listSnapshots (store : MemoryStore) : List Snapshot := BTreeMap.values store.snapshots

/-- The comparison of `load_latest_snapshot`; `max_by` keeps the later of two equal ones. -/
def latestOf (a b : Snapshot) : Snapshot := if b.snapshotId < a.snapshotId then a else b

/-- `load_latest_snapshot`. -/
def loadLatestSnapshot (store : MemoryStore) : Option Snapshot :=
  match store.listSnapshots with
  | [] => none
  | snapshot :: rest => some (rest.foldl latestOf snapshot)

/-- `load_events_for_replay`. -/
def loadEventsForReplay (store : MemoryStore) : List VectorEvent := sortEvents store.listEvents

theorem loadEventsForReplay_perm (store : MemoryStore) :
    store.loadEventsForReplay.Perm store.listEvents := sortEvents_perm _

@[simp] theorem states_putState (store : MemoryStore) (s : VectorStateV1) :
    (store.putState s).states = store.states.insert s.vectorId s := rfl
@[simp] theorem records_putState (store : MemoryStore) (s : VectorStateV1) :
    (store.putState s).records = store.records := rfl
@[simp] theorem events_putState (store : MemoryStore) (s : VectorStateV1) :
    (store.putState s).events = store.events := rfl
@[simp] theorem states_putRecord (store : MemoryStore) (r : VectorRecordV1) :
    (store.putRecord r).states = store.states := rfl
@[simp] theorem records_putRecord (store : MemoryStore) (r : VectorRecordV1) :
    (store.putRecord r).records = store.records.insert r.recordId r := rfl
@[simp] theorem events_putRecord (store : MemoryStore) (r : VectorRecordV1) :
    (store.putRecord r).events = store.events := rfl

/-- What `append_event` asks of an event. -/
structure Appendable (store : MemoryStore) (e : VectorEvent) : Prop where
  eventId_ne : e.eventId ≠ ""
  eventHash_ne : e.eventHash ≠ ""
  hash_fresh : store.events[e.eventHash]? = none
  id_fresh : ∀ existing ∈ store.listEvents, existing.eventId ≠ e.eventId

theorem appendChecks_eq_ok_iff {store : MemoryStore} {e : VectorEvent} {u : Unit} :
    store.appendChecks e = .ok u ↔ store.Appendable e := by
  simp only [appendChecks, Outcome.bind_eq_ok_iff, Outcome.require_eq_ok_iff]
  constructor
  · rintro ⟨_, hid, _, hhash, _, hfresh, hids⟩
    exact ⟨hid, hhash, hfresh, hids⟩
  · rintro ⟨hid, hhash, hfresh, hids⟩
    exact ⟨(), hid, (), hhash, (), hfresh, hids⟩

end MemoryStore

/-! ## Event validation -/

/-- `validate_event`. -/
def validateEvent (env : Platform) (e : VectorEvent) : Outcome KernelXError Unit := do
  Outcome.require (isBlank e.eventId = false) (.invalidState "event_id is required")
  Outcome.require (isBlank e.regionId = false) (.invalidState "region_id is required")
  Outcome.require (isBlank e.entityId = false) (.invalidState "entity_id is required")
  Outcome.require (isBlank e.actorPublicKey = false)
    (.invalidState "actor_public_key is required")
  Outcome.require
    (e.authRatio.isFinite = true ∧ e.authRatio.ltZero = false ∧ e.authRatio.gtOne = false)
    (.invalidState "auth_ratio must be in [0, 1]")
  Outcome.require (e.vectorBefore.components.length = e.vectorAfter.components.length)
    .dimensionMismatch
  Outcome.require (e.payloadHash = canonicalPayloadHash env e)
    (.invalidState "payload_hash mismatch")
  Outcome.require (e.eventHash = canonicalEventHash env e)
    (.invalidState "event_hash mismatch")
  if isRegionCreateEvent e then
    Outcome.require (isBlank e.signature = false)
      (.invalidState "region create event requires a signature")
    Outcome.require (e.parentHashes = [])
      (.invalidState "region create event must be a root event")
    Outcome.require (e.operation = .other regionCreateOperationName)
      (.invalidState "region create event has invalid operation tag")
  else if e.signature ≠ "" then
    let verifyingKey ← (verifyingKeyFromHex env e.actorPublicKey).mapErr .invalidState
    let signatureOk ← (verifyEventSignature env verifyingKey
      (canonicalEventPayloadBytes e) e.signature).mapErr .invalidState
    Outcome.require (signatureOk = true)
      (.invalidState "event signature verification failed")
  else return ()

end VKernelX
