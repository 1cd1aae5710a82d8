/-
  Replay/Ordering.lean --- the order in which replay applies one entity's events.

  `order_entity_events` drains the entity's graph with the ready list sorted by a key that
  separates any two events.  So what it returns is the causal list of the graph under that
  key, and there is only one.
-/
import VKernelX.Dag.Tables
import VKernelX.Model.Replay

set_option autoImplicit false

namespace VKernelX

/-- A parent that is itself in the list. -/
def ownParent (events : List VectorEvent) (_ : VectorEvent) (parent : String) : Bool :=
  decide (parent ∈ events.map VectorEvent.eventHash)

/-- The parents of a hash within the list. -/
abbrev ownParents (events : List VectorEvent) : String → List String :=
  parentsIn events (ownParent events)

/-- The event with the smaller key goes first. -/
def ReplayPrefers (events : List VectorEvent) (a b : String) : Prop :=
  replaySortKey (eventAt events a) ≤ replaySortKey (eventAt events b)

/-- The hashes of the events without a parent in the list. -/
def rootHashes (events : List VectorEvent) : List String :=
  (events.map VectorEvent.eventHash).filter (fun hash => ownParents events hash = [])

/-- Two events of the list with equal keys are the same one, as the key ends in the hash. -/
theorem ReplayPrefers.antisymm {events : List VectorEvent}
    (hnodup : (events.map VectorEvent.eventHash).Nodup) :
    ∀ v ∈ events.map VectorEvent.eventHash, ∀ w ∈ events.map VectorEvent.eventHash,
      ReplayPrefers events v w → ReplayPrefers events w v → v = w := by
  intro v hv w hw hvw hwv
  obtain ⟨e, he, rfl⟩ := List.mem_map.mp hv
  obtain ⟨e', he', rfl⟩ := List.mem_map.mp hw
  have hkey := le_antisymm hvw hwv
  rw [eventAt_eventHash hnodup he, eventAt_eventHash hnodup he'] at hkey
  simp only [replaySortKey, EmbeddingLike.apply_eq_iff_eq, Prod.mk.injEq] at hkey
  exact hkey.2.2.2.2

/-! ## The map by hash -/

theorem entityEventsByHash_spec {events : List VectorEvent}
    (hnodup : (events.map VectorEvent.eventHash).Nodup) :
    ∃ byHash, entityEventsByHash events = .ok byHash ∧
      ∀ hash : String, byHash[hash]? = events.find? (fun e => e.eventHash = hash) := by
  suffices key : ∀ (l : List VectorEvent) (m : BTreeMap String VectorEvent),
      (l.map VectorEvent.eventHash).Nodup → (∀ e ∈ l, m[e.eventHash]? = none) →
      ∃ byHash, l.foldlM (fun byHash e => do
          Outcome.require (byHash[e.eventHash]? = none)
            ("duplicate event_hash detected: " ++ e.eventHash)
          return byHash.insert e.eventHash e) m = .ok byHash ∧
        ∀ hash : String, byHash[hash]? =
          (l.find? (fun e => e.eventHash = hash)).or m[hash]? by
    obtain ⟨byHash, hrun, hlookup⟩ := key events ∅ hnodup (by simp)
    exact ⟨byHash, hrun, fun hash => by simpa using hlookup hash⟩
  intro l
  induction l with
  | nil => exact fun m _ _ => ⟨m, rfl, fun hash => by simp⟩
  | cons e l ih =>
    intro m hnodup hnone
    obtain ⟨hnotin, hrest⟩ := List.nodup_cons.mp hnodup
    obtain ⟨byHash, hrun, hlookup⟩ := ih (m.insert e.eventHash e) hrest (by
      intro e' he'
      rw [BTreeMap.lookup_insert_of_ne _ _ (fun heq =>
        hnotin (List.mem_map.mpr ⟨e', he', heq.symm⟩))]
      exact hnone e' (List.mem_cons_of_mem e he'))
    refine ⟨byHash, ?_, ?_⟩
    · rw [List.foldlM_cons, Outcome.require_of (hnone e List.mem_cons_self)]
      exact hrun
    · intro hash
      rw [hlookup, BTreeMap.lookup_insert, List.find?_cons]
      by_cases hhash : e.eventHash = hash
      · have hnoneRest : l.find? (fun e => e.eventHash = hash) = none := by
          rw [List.find?_eq_none]
          intro e' he' heq
          exact hnotin (List.mem_map.mpr ⟨e', he', by simpa [hhash] using heq⟩)
        simp [hhash, hnoneRest]
      · simp [hhash]

/-! ## The order -/

/-- On distinct hashes and duplicate-free parent lists the tables are made, and the loop drains
the graph in its causal order. -/
theorem orderEntityEvents_trace {events : List VectorEvent}
    (hhashes : (events.map VectorEvent.eventHash).Nodup)
    (hparents : ∀ e ∈ events, e.parentHashes.Nodup) :
    ∃ byHash tables ready trace, entityEventsByHash events = .ok byHash ∧
      buildTables (fun _ parent => .ok (byHash[parent]?).isSome) events = .ok tables ∧
      tables.roots.length = (rootHashes events).length ∧
      sortByKey (ε := String) (fun hash : String => (byHash[hash]?).map replaySortKey)
        tables.roots = .ok ready ∧
      trace.Bounded (events.map VectorEvent.eventHash) ∧
      CausalList (ReplayPrefers events) (events.map VectorEvent.eventHash)
        (ownParents events) trace.emitted ∧
      drainTrace tables.children
        (fun node => Outcome.okOr ("missing node in entity replay map: " ++ node) byHash[node]?)
        (sortByKey (fun hash : String => (byHash[hash]?).map replaySortKey))
        (Arrangement.priority (fun hash : String => (byHash[hash]?).map replaySortKey)) ready
        tables.indegree ⟨ready, []⟩ = .ok trace ∧
      drainLoop tables.children
        (fun node => Outcome.okOr ("missing node in entity replay map: " ++ node) byHash[node]?)
        (sortByKey (fun hash : String => (byHash[hash]?).map replaySortKey))
        (Arrangement.priority (fun hash : String => (byHash[hash]?).map replaySortKey)) ready
        tables.indegree [] = .ok (trace.emitted.map (eventAt events)) := by
  obtain ⟨byHash, hbyHash, hlookup⟩ := entityEventsByHash_spec hhashes
  have hat : ∀ v ∈ events.map VectorEvent.eventHash,
      byHash[v]? = some (eventAt events v) := by
    intro v hv
    obtain ⟨e, he, rfl⟩ := List.mem_map.mp hv
    rw [hlookup, find?_eventHash hhashes he, eventAt_eventHash hhashes he]
  have hadmits : ∀ e ∈ events, ∀ p ∈ e.parentHashes,
      (Except.ok (byHash[p]?).isSome : Outcome String Bool) = .ok (ownParent events e p) := by
    intro e _ p _
    rw [ownParent, hlookup]
    by_cases hp : p ∈ events.map VectorEvent.eventHash
    · obtain ⟨q, hq, rfl⟩ := List.mem_map.mp hp
      rw [find?_eventHash hhashes hq]
      simp [hp]
    · have hnone : events.find? (fun e => e.eventHash = p) = none := by
        rw [List.find?_eq_none]
        intro q hq heq
        exact hp (List.mem_map.mpr ⟨q, hq, by simpa using heq⟩)
      rw [hnone]
      simp [hp]
  obtain ⟨tables, htables, hrep⟩ := buildTables_represents hhashes hparents hadmits
    (fun e _ p _ hp => of_decide_eq_true hp)
  have hroots : tables.roots.Perm (rootHashes events) := by
    refine (List.perm_ext_iff_of_nodup tables.nodup_roots (hhashes.filter _)).mpr ?_
    intro v
    simp only [hrep.mem_roots, List.mem_filter, decide_eq_true_eq]
  have hkey : ∀ v ∈ events.map VectorEvent.eventHash,
      (byHash[v]?).map replaySortKey = some (replaySortKey (eventAt events v)) := by
    intro v hv
    rw [hat v hv]
    rfl
  obtain ⟨ready, trace, hready, hbounded, hall, htrace, hdrain⟩ := hrep.traceByKey hkey
    (fun v hv => Outcome.okOr_eq_ok_iff
      (e := "missing node in entity replay map: " ++ v).mpr (hat v hv))
  exact ⟨byHash, tables, ready, trace, hbyHash, htables, hroots.length_eq, hready, hbounded, hall,
    htrace, hdrain⟩

/-- What `order_entity_events` does on distinct hashes and duplicate-free parent lists: it
counts the roots, drains the graph in its causal order, and compares the lengths. -/
theorem orderEntityEvents_spec {events : List VectorEvent} (hne : events ≠ [])
    (hhashes : (events.map VectorEvent.eventHash).Nodup)
    (hparents : ∀ e ∈ events, e.parentHashes.Nodup) :
    ∃ all, CausalList (ReplayPrefers events) (events.map VectorEvent.eventHash)
        (ownParents events) all ∧
      orderEntityEvents events = (do
        Outcome.require ((rootHashes events).length = 1)
          ("entity history must have exactly one root event, found " ++
            decimal (rootHashes events).length ++ " roots")
        Outcome.require (all.length = events.length)
          "entity replay ordering failed due to unresolved ancestry or cycle"
        return all.map (eventAt events)) := by
  obtain ⟨byHash, tables, ready, trace, hbyHash, htables, hroots, hready, _, hall, _, hdrain⟩ :=
    orderEntityEvents_trace hhashes hparents
  refine ⟨trace.emitted, hall, ?_⟩
  rw [orderEntityEvents, if_neg hne, hbyHash]
  simp only [Outcome.ok_bind, htables, hready, hdrain, hroots, List.length_map]

/-- An entity's events come in the causal order under the replay key. -/
theorem orderEntityEvents_eq_ok {events : List VectorEvent} {all : List String}
    (hne : events ≠ []) (hhashes : (events.map VectorEvent.eventHash).Nodup)
    (hparents : ∀ e ∈ events, e.parentHashes.Nodup)
    (hroot : (rootHashes events).length = 1) (hlength : all.length = events.length)
    (hall : CausalList (ReplayPrefers events) (events.map VectorEvent.eventHash)
      (ownParents events) all) :
    orderEntityEvents events = .ok (all.map (eventAt events)) := by
  obtain ⟨all', hall', hrun⟩ := orderEntityEvents_spec hne hhashes hparents
  obtain rfl := hall.unique (ReplayPrefers.antisymm hhashes) (fun _ => Iff.rfl) hall'
  rw [hrun, Outcome.require_of hroot, Outcome.require_of hlength]
  rfl

/-! ## Independence of the list's order -/

theorem ownParents_perm {events events' : List VectorEvent} (hperm : events.Perm events')
    (hnodup : (events.map VectorEvent.eventHash).Nodup) :
    ownParents events = ownParents events' := by
  have hown : ownParent events = ownParent events' := by
    funext e p
    simp only [ownParent, (hperm.map VectorEvent.eventHash).mem_iff]
  rw [ownParents, ownParents, hown]
  exact parentsIn_perm hperm hnodup _

/-- Ordering an entity's events gives one result, however they are listed. -/
theorem orderEntityEvents_perm {events events' : List VectorEvent} (hperm : events.Perm events')
    (hhashes : (events.map VectorEvent.eventHash).Nodup)
    (hparents : ∀ e ∈ events, e.parentHashes.Nodup) :
    orderEntityEvents events = orderEntityEvents events' := by
  by_cases hne : events = []
  · subst hne
    rw [List.nil_perm.mp hperm]
  have hmap := hperm.map VectorEvent.eventHash
  obtain ⟨all, hall, hrun⟩ := orderEntityEvents_spec hne hhashes hparents
  have hne' : events' ≠ [] := fun h => hne (List.perm_nil.mp (h ▸ hperm))
  obtain ⟨all', hall', hrun'⟩ := orderEntityEvents_spec hne' (hmap.nodup_iff.mp hhashes)
    (fun e he => hparents e (hperm.mem_iff.mpr he))
  have hat := eventAt_perm hperm hhashes
  have hown := ownParents_perm hperm hhashes
  have hroots : (rootHashes events).length = (rootHashes events').length := by
    rw [rootHashes, rootHashes, hown]
    exact (hmap.filter _).length_eq
  have hprefers : ReplayPrefers events' = ReplayPrefers events := by
    funext a b
    rw [ReplayPrefers, ReplayPrefers, hat]
  rw [hprefers, ← hown] at hall'
  obtain rfl := hall.unique (ReplayPrefers.antisymm hhashes) (fun _ => hmap.mem_iff) hall'
  rw [hrun, hrun', hroots, hperm.length_eq, hat]

end VKernelX
