/-
  Encoding/EventIds.lean --- which events share an id.

  An event id is five texts joined by `::`.  Clock, sequence number and operation name have no
  colon and are read back from the right; but every `Other` operation has one name, and entity
  and region ids may hold the separator.
-/
import VKernelX.Encoding.Events
import VKernelX.Foundation.Separators
import VKernelX.Model.Storage

set_option autoImplicit false

namespace VKernelX

/-- What an event id is made of. -/
structure EventTuple where
  entityId : String
  regionId : String
  operation : OperationType
  logicalClock : UInt64
  sequence : UInt64
  deriving DecidableEq

namespace EventTuple

/-- The event id of a tuple. -/
def id (p : EventTuple) : String :=
  canonicalEventId p.entityId p.regionId p.operation p.logicalClock p.sequence

/-- Equal operations, or two `Other` ones. -/
def SameWord (a b : OperationType) : Prop :=
  a = b ∨ ∃ name name', a = .other name ∧ b = .other name'

/-- Different tuples that agree in clock and sequence number, whose operations are equal or
both `Other`, and whose entity and region ids are equal or two readings of one join. -/
structure Confused (p q : EventTuple) : Prop where
  differ : p ≠ q
  names : (p.entityId = q.entityId ∧ p.regionId = q.regionId) ∨
    Overlap p.entityId p.regionId q.entityId q.regionId ∨
    Overlap q.entityId q.regionId p.entityId p.regionId
  operation : SameWord p.operation q.operation
  logicalClock : p.logicalClock = q.logicalClock
  sequence : p.sequence = q.sequence

end EventTuple

theorem sameWord_iff {a b : OperationType} :
    EventTuple.SameWord a b ↔ a.canonicalName = b.canonicalName := by
  constructor
  · rintro (rfl | ⟨name, name', rfl, rfl⟩) <;> rfl
  · exact OperationType.eq_of_canonicalName

theorem colon_notMem_canonicalName (operation : OperationType) :
    ':' ∉ operation.canonicalName.toList := by
  cases operation <;> simp only [OperationType.canonicalName] <;> decide

theorem colon_notMem_decimal (n : ℕ) : ':' ∉ (decimal n).toList := by
  intro h
  exact absurd (isDigit_of_mem_decimal h) (by decide)

/-- Equal ids: all but entity and region id are read back from the right. -/
theorem canonicalEventId_eq_iff {p q : EventTuple} :
    p.id = q.id ↔
      ((p.entityId = q.entityId ∧ p.regionId = q.regionId) ∨
        Overlap p.entityId p.regionId q.entityId q.regionId ∨
        Overlap q.entityId q.regionId p.entityId p.regionId) ∧
      EventTuple.SameWord p.operation q.operation ∧ p.logicalClock = q.logicalClock ∧
      p.sequence = q.sequence := by
  rw [← join_eq_iff, sameWord_iff, EventTuple.id, EventTuple.id, canonicalEventId,
    canonicalEventId]
  constructor
  · intro h
    obtain ⟨h, hsequence⟩ := join_inj (colon_notMem_decimal _) (colon_notMem_decimal _) h
    obtain ⟨h, hclock⟩ := join_inj (colon_notMem_decimal _) (colon_notMem_decimal _) h
    obtain ⟨hnames, hoperation⟩ :=
      join_inj (colon_notMem_canonicalName _) (colon_notMem_canonicalName _) h
    exact ⟨hnames, hoperation, UInt64.toNat_inj.mp (decimal_injective hclock),
      UInt64.toNat_inj.mp (decimal_injective hsequence)⟩
  · rintro ⟨hnames, hoperation, hclock, hsequence⟩
    rw [hnames, hoperation, hclock, hsequence]

/-- An event id identifies its tuple up to the tuples that are confused with it. -/
theorem id_identifies_iff {p q : EventTuple} : (p.id = q.id → p = q) ↔ ¬ p.Confused q := by
  constructor
  · intro h hconfused
    exact hconfused.differ (h (canonicalEventId_eq_iff.mpr ⟨hconfused.names, hconfused.operation,
      hconfused.logicalClock, hconfused.sequence⟩))
  · intro hconfused h
    by_contra hdiffer
    obtain ⟨hnames, hoperation, hclock, hsequence⟩ := canonicalEventId_eq_iff.mp h
    exact hconfused ⟨hdiffer, hnames, hoperation, hclock, hsequence⟩

/-- The tuple of an event with a given sequence number. -/
def VectorEvent.tuple (e : VectorEvent) (sequence : UInt64) : EventTuple where
  entityId := e.entityId
  regionId := e.regionId
  operation := e.operation
  logicalClock := e.logicalClock
  sequence := sequence

/-- A store whose events were given their ids by `canonicalEventId`, with these sequence
numbers. -/
def MemoryStore.Numbered (store : MemoryStore) (sequence : VectorEvent → UInt64) : Prop :=
  ∀ x ∈ store.listEvents, x.eventId = (x.tuple (sequence x)).id

/-- An event with a new tuple and a new hash is appended exactly if no stored tuple is confused
with its own. -/
theorem appendEvent_isOk_iff {store : MemoryStore} {sequence : VectorEvent → UInt64}
    (hstore : store.Numbered sequence) {e : VectorEvent} {n : UInt64}
    (hid : e.eventId = (e.tuple n).id) (hne : e.eventHash ≠ "")
    (hfresh : store.events[e.eventHash]? = none)
    (hnew : ∀ x ∈ store.listEvents, x.tuple (sequence x) ≠ e.tuple n) :
    (∃ store', store.appendEvent e = .ok store') ↔
      ∀ x ∈ store.listEvents, ¬ (x.tuple (sequence x)).Confused (e.tuple n) := by
  have happend : (∃ store', store.appendEvent e = .ok store') ↔ store.Appendable e := by
    simp only [MemoryStore.appendEvent, Outcome.bind_eq_ok_iff]
    constructor
    · rintro ⟨_, u, hchecks, _⟩
      exact MemoryStore.appendChecks_eq_ok_iff.mp hchecks
    · intro h
      exact ⟨_, (), MemoryStore.appendChecks_eq_ok_iff.mpr h, rfl⟩
  rw [happend]
  constructor
  · intro h x hx hconfused
    have hsame := canonicalEventId_eq_iff.mpr ⟨hconfused.names, hconfused.operation,
      hconfused.logicalClock, hconfused.sequence⟩
    exact h.id_fresh x hx (by rw [hstore x hx, hid, hsame])
  · intro h
    refine ⟨?_, hne, hfresh, fun x hx heq => ?_⟩
    · exact ne_empty_of_isBlank_eq_false (by rw [hid]; exact isBlank_canonicalEventId ..)
    · rw [hstore x hx, hid] at heq
      exact hnew x hx (id_identifies_iff.mpr (h x hx) heq)

/-- Which tuples share an event id, and so which new events the store refuses. -/
theorem eventIds_identify_iff (p q : EventTuple) :
    ((p.id = q.id → p = q) ↔ ¬ p.Confused q) ∧
      ∀ (store : MemoryStore) (sequence : VectorEvent → UInt64), store.Numbered sequence →
        ∀ (e : VectorEvent) (n : UInt64), e.eventId = (e.tuple n).id → e.eventHash ≠ "" →
          store.events[e.eventHash]? = none →
          (∀ x ∈ store.listEvents, x.tuple (sequence x) ≠ e.tuple n) →
          ((∃ store', store.appendEvent e = .ok store') ↔
            ∀ x ∈ store.listEvents, ¬ (x.tuple (sequence x)).Confused (e.tuple n)) :=
  ⟨id_identifies_iff,
    fun _ _ hstore _ _ hid hne hfresh hnew => appendEvent_isOk_iff hstore hid hne hfresh hnew⟩

/-- The creation of an entity in a region. -/
def creationTuple (entityId regionId : String) : EventTuple :=
  { entityId := entityId, regionId := regionId, operation := .originCreate, logicalClock := 1,
    sequence := 1 }

/-- Its event. -/
def creationEvent (entityId regionId eventHash : String) : VectorEvent :=
  { (default : VectorEvent) with
    eventId := (creationTuple entityId regionId).id
    regionId := regionId
    entityId := entityId
    logicalClock := 1
    eventHash := eventHash }

/-- A store that holds the creation of entity `a` of region `b::c`. -/
def creationStore : MemoryStore :=
  { MemoryStore.empty with
    events := (∅ : BTreeMap String VectorEvent).insert "h" (creationEvent "a" "b::c" "h") }

/-- It refuses the creation of entity `a::b` of region `c`. -/
theorem eventIds_identify_iff_refused :
    ¬ ∃ store', creationStore.appendEvent (creationEvent "a::b" "c" "k") = .ok store' := by
  have hlist : creationStore.listEvents = [creationEvent "a" "b::c" "h"] := by decide +kernel
  rw [(eventIds_identify_iff (creationTuple "a" "b::c") (creationTuple "a::b" "c")).2
    creationStore (fun _ => 1) ?_ (creationEvent "a::b" "c" "k") 1 rfl (by decide)
    (by decide +kernel) ?_, hlist]
  · intro h
    refine h _ (List.mem_singleton_self _) ⟨by decide +kernel, Or.inr (Or.inl (Or.inr ⟨"b", ?_⟩)),
      Or.inl rfl, rfl, rfl⟩
    decide +kernel
  · rw [MemoryStore.Numbered, hlist]
    exact List.forall_mem_singleton.mpr rfl
  · rw [hlist]
    exact List.forall_mem_singleton.mpr (by decide +kernel)

/-- Event ids identify events. -/
def EventIdsIdentify : Prop := ∀ p q : EventTuple, p.id = q.id → p = q

/-- Entity `a` of region `b::c` and entity `a::b` of region `c`. -/
theorem eventIdsIdentify_fails : ¬ EventIdsIdentify := by
  intro h
  have hsame := h (creationTuple "a" "b::c") (creationTuple "a::b" "c") (by decide +kernel)
  exact absurd hsame (by decide)

end VKernelX
