/-
  Dag/TopologicalOrder.lean --- `topological_order` returns the least causal order.

  On a well-formed graph the tables are those of the whole parent relation, so the loop
  emits the causal list under the sort key.  The graph has no cycle, hence the list is
  complete; the key ends in hash and id, hence there is only one such list.
-/
import VKernelX.Replay.OrderIndependence

set_option autoImplicit false

namespace VKernelX

/-! ## The tables -/

/-- The map by hash holds the event listed under a hash. -/
theorem lookup_eventMap {events : List VectorEvent}
    (hnodup : (events.map VectorEvent.eventHash).Nodup) {e : VectorEvent} (he : e ∈ events) :
    (eventMap events)[e.eventHash]? = some e := by
  have hmany : eventMap events =
      BTreeMap.insertMany ∅ (events.map (fun e => (e.eventHash, e))) := by
    rw [eventMap, BTreeMap.insertMany, List.foldl_map]
  rw [hmany]
  refine BTreeMap.lookup_insertMany_of_nodup ?_ (List.mem_map.mpr ⟨e, he, rfl⟩)
  rw [List.map_map]
  exact hnodup

/-- Admitting every parent leaves the parent lists as they are. -/
theorem parentsIn_allParents {events : List VectorEvent}
    (hnodup : (events.map VectorEvent.eventHash).Nodup) {e : VectorEvent} (he : e ∈ events) :
    parentsIn events allParents e.eventHash = e.parentHashes := by
  rw [parentsIn_of_mem hnodup _ he]
  exact List.filter_eq_self.mpr (fun _ _ => rfl)

/-- The tables of a well-formed graph represent its parent relation. -/
theorem ancestryTables_represents {events : List VectorEvent} (h : WellFormedDag events) :
    (ancestryTables events).Represents (events.map VectorEvent.eventHash)
      (parentsIn events allParents) := by
  have hedges : ancestryTables events =
      (edgeList (events.map VectorEvent.eventHash) (parentsIn events allParents)).foldl
        (fun tables edge => tables.addEdge edge.1 edge.2)
        ((events.map VectorEvent.eventHash).foldl GraphTables.addNode GraphTables.empty) := by
    have hlist : edgeList (events.map VectorEvent.eventHash) (parentsIn events allParents) =
        events.flatMap (fun e => e.parentHashes.map (fun p => (p, e.eventHash))) := by
      rw [edgeList, List.flatMap_map]
      refine List.flatMap_congr ?_
      intro e he
      rw [parentsIn_allParents h.hash_nodup he]
    rw [hlist, ancestryTables, List.foldl_flatMap]
    simp only [List.foldl_map]
  rw [hedges]
  refine GraphTables.represents_build h.hash_nodup ?_
  intro hash hmem p hp
  obtain ⟨e, he, rfl⟩ := List.mem_map.mp hmem
  rw [parentsIn_allParents h.hash_nodup he] at hp
  obtain ⟨parent, hparent, rfl, _⟩ := h.parents_admissible e he p hp
  exact List.mem_map.mpr ⟨parent, hparent, rfl⟩

/-! ## The order -/

/-- The event with the smaller key goes first. -/
def DagPrefers (events : List VectorEvent) (a b : String) : Prop :=
  dagSortKey (eventAt events a) ≤ dagSortKey (eventAt events b)

/-- Two events of the list with equal keys are the same one, as the key holds the hash. -/
theorem DagPrefers.antisymm {events : List VectorEvent}
    (hnodup : (events.map VectorEvent.eventHash).Nodup) :
    ∀ v ∈ events.map VectorEvent.eventHash, ∀ w ∈ events.map VectorEvent.eventHash,
      DagPrefers events v w → DagPrefers events w v → v = w := by
  intro v hv w hw hvw hwv
  obtain ⟨e, he, rfl⟩ := List.mem_map.mp hv
  obtain ⟨e', he', rfl⟩ := List.mem_map.mp hw
  have hkey := le_antisymm hvw hwv
  rw [eventAt_eventHash hnodup he, eventAt_eventHash hnodup he'] at hkey
  simp only [dagSortKey, EmbeddingLike.apply_eq_iff_eq, Prod.mk.injEq] at hkey
  exact hkey.2.2.1

/-- On a well-formed graph the loop runs to the end and emits the whole causal list. -/
theorem topologicalOrder_trace {events : List VectorEvent} (h : WellFormedDag events) :
    ∃ ready trace,
      sortByKey (ε := String) (fun hash : String => ((eventMap events)[hash]?).map dagSortKey)
        (ancestryTables events).roots = .ok ready ∧
      trace.Bounded (events.map VectorEvent.eventHash) ∧
      CausalList (DagPrefers events) (events.map VectorEvent.eventHash)
        (parentsIn events allParents) trace.emitted ∧
      trace.emitted.Perm (events.map VectorEvent.eventHash) ∧
      drainTrace (ancestryTables events).children
        (fun node => Outcome.okOr ("missing node in event map: " ++ node) (eventMap events)[node]?)
        (sortByKey (fun hash : String => ((eventMap events)[hash]?).map dagSortKey))
        (Arrangement.priority (fun hash : String => ((eventMap events)[hash]?).map dagSortKey))
        ready (ancestryTables events).indegree ⟨ready, []⟩ = .ok trace ∧
      drainLoop (ancestryTables events).children
        (fun node => Outcome.okOr ("missing node in event map: " ++ node) (eventMap events)[node]?)
        (sortByKey (fun hash : String => ((eventMap events)[hash]?).map dagSortKey))
        (Arrangement.priority (fun hash : String => ((eventMap events)[hash]?).map dagSortKey))
        ready (ancestryTables events).indegree [] =
          .ok (trace.emitted.map (eventAt events)) := by
  have hrep := ancestryTables_represents h
  have hat : ∀ v ∈ events.map VectorEvent.eventHash,
      (eventMap events)[v]? = some (eventAt events v) := by
    intro v hv
    obtain ⟨e, he, rfl⟩ := List.mem_map.mp hv
    rw [lookup_eventMap h.hash_nodup he, eventAt_eventHash h.hash_nodup he]
  have hkey : ∀ v ∈ events.map VectorEvent.eventHash,
      ((eventMap events)[v]?).map dagSortKey = some (dagSortKey (eventAt events v)) := by
    intro v hv
    rw [hat v hv]
    rfl
  obtain ⟨ready, trace, hready, hbounded, hall, htrace, hdrain⟩ := hrep.traceByKey hkey
    (fun v hv => Outcome.okOr_eq_ok_iff (e := "missing node in event map: " ++ v).mpr (hat v hv))
  have hacyclic := (acyclic_parentsIn_iff h.hash_nodup).mpr h.acyclic
  have hcomplete := (acyclic_iff_complete hrep.closed hall).mp hacyclic
  have hperm : trace.emitted.Perm (events.map VectorEvent.eventHash) :=
    (List.perm_ext_iff_of_nodup hall.nodup h.hash_nodup).mpr
      (fun v => ⟨hall.subset v, hcomplete v⟩)
  exact ⟨ready, trace, hready, hbounded, hall, hperm, htrace, hdrain⟩

/-- What it returns there is that list, as events. -/
theorem topologicalOrder_of_wellFormed {events : List VectorEvent} (h : WellFormedDag events) :
    ∃ all, CausalList (DagPrefers events) (events.map VectorEvent.eventHash)
        (parentsIn events allParents) all ∧
      all.Perm (events.map VectorEvent.eventHash) ∧
      topologicalOrder events = .ok (all.map (eventAt events)) := by
  obtain ⟨ready, trace, hready, _, hall, hperm, _, hdrain⟩ := topologicalOrder_trace h
  refine ⟨trace.emitted, hall, hperm, ?_⟩
  obtain ⟨_, hvalid⟩ := (validateDag_isOk_iff_wellFormed events).mpr h
  rw [topologicalOrder, hvalid]
  simp only [Outcome.ok_bind, hready, hdrain]
  rw [Outcome.require_of (by rw [List.length_map, hperm.length_eq, List.length_map])]
  rfl

/-- Without validation there is no order. -/
theorem topologicalOrder_of_error {events : List VectorEvent} {f : Failure String}
    (h : validateDag events = .error f) : topologicalOrder events = .error f := by
  rw [topologicalOrder, h]
  rfl

/-- The least causal order of some events: each of them once, parents first, and at each
position the available event with the least key. -/
structure LeastCausalOrder (events ordered : List VectorEvent) : Prop where
  perm : ordered.Perm events
  parents_first : ∀ before e after, ordered = before ++ e :: after →
    ∀ p ∈ e.parentHashes, p ∈ before.map VectorEvent.eventHash
  least : ∀ before e after, ordered = before ++ e :: after →
    ∀ e' ∈ events, e' ∉ before →
      (∀ p ∈ e'.parentHashes, p ∈ before.map VectorEvent.eventHash) →
      dagSortKey e ≤ dagSortKey e'

/-- A complete causal list of hashes is a least causal order of events. -/
theorem CausalList.leastCausalOrder {events : List VectorEvent}
    (hnodup : (events.map VectorEvent.eventHash).Nodup) {all : List String}
    (hall : CausalList (DagPrefers events) (events.map VectorEvent.eventHash)
      (parentsIn events allParents) all)
    (hperm : all.Perm (events.map VectorEvent.eventHash)) :
    LeastCausalOrder events (all.map (eventAt events)) := by
  have hmem : ∀ e ∈ all.map (eventAt events), e ∈ events := by
    intro e hmem
    obtain ⟨hash, hhash, rfl⟩ := List.mem_map.mp hmem
    obtain ⟨e, he, rfl⟩ := List.mem_map.mp (hperm.mem_iff.mp hhash)
    rwa [eventAt_eventHash hnodup he]
  have hhashes : (all.map (eventAt events)).map VectorEvent.eventHash = all := by
    rw [List.map_map]
    refine (List.map_congr_left ?_).trans (List.map_id all)
    intro hash hhash
    obtain ⟨e, he, rfl⟩ := List.mem_map.mp (hperm.mem_iff.mp hhash)
    rw [Function.comp_apply, eventAt_eventHash hnodup he]
    rfl
  -- Where the order of the events splits, the list of hashes splits.
  have hsplit : ∀ before e after, all.map (eventAt events) = before ++ e :: after →
      all = before.map VectorEvent.eventHash ++ e.eventHash :: after.map VectorEvent.eventHash ∧
        (∀ e' ∈ before, e' ∈ events) ∧ e ∈ events := by
    intro before e after h
    refine ⟨?_, fun e' he' => hmem e' (by rw [h]; simp [he']), hmem e (by rw [h]; simp)⟩
    rw [← List.map_cons, ← List.map_append, ← h, hhashes]
  refine ⟨?_, ?_, ?_⟩
  · refine (hperm.map (eventAt events)).trans ?_
    rw [map_eventAt hnodup]
  · intro before e after h p hp
    obtain ⟨hlist, _, he⟩ := hsplit before e after h
    refine hall.parentsFirst _ _ _ hlist p ?_
    rwa [parentsIn_allParents hnodup he]
  · intro before e after h e' he' hnot hparents
    obtain ⟨hlist, hbefore, he⟩ := hsplit before e after h
    by_cases heq : e'.eventHash = e.eventHash
    · rw [List.inj_on_of_nodup_map hnodup he' he heq]
    · have hprefers := hall.preferred _ _ _ hlist e'.eventHash
        (List.mem_map.mpr ⟨e', he', rfl⟩) ?_ heq ?_
      · rwa [DagPrefers, eventAt_eventHash hnodup he, eventAt_eventHash hnodup he'] at hprefers
      · intro hmem'
        obtain ⟨e'', he'', hhash⟩ := List.mem_map.mp hmem'
        rw [List.inj_on_of_nodup_map hnodup (hbefore e'' he'') he' hhash] at he''
        exact hnot he''
      · rwa [parentsIn_allParents hnodup he']

/-- The order does not depend on how the events are listed. -/
theorem topologicalOrder_perm {events events' : List VectorEvent} (hperm : events.Perm events')
    (h : WellFormedDag events) : topologicalOrder events' = topologicalOrder events := by
  obtain ⟨all, hall, _, hrun⟩ := topologicalOrder_of_wellFormed h
  obtain ⟨all', hall', _, hrun'⟩ := topologicalOrder_of_wellFormed (h.perm hperm)
  have hat := eventAt_perm hperm h.hash_nodup
  have hprefers : DagPrefers events' = DagPrefers events := by
    funext a b
    rw [DagPrefers, DagPrefers, hat]
  rw [hprefers, ← parentsIn_perm hperm h.hash_nodup] at hall'
  obtain rfl := hall.unique (DagPrefers.antisymm h.hash_nodup)
    (fun _ => (hperm.map VectorEvent.eventHash).mem_iff) hall'
  rw [hrun, hrun', hat]

/-- `topological_order` fails only where `validate_dag` does, and with its error.  Otherwise it
returns the least causal order, the same one for every listing of the events. -/
theorem topologicalOrder_least (events : List VectorEvent) :
    ((topologicalOrder events).IsOk ↔ (validateDag events).IsOk) ∧
      (∀ f, topologicalOrder events = .error f ↔ validateDag events = .error f) ∧
      ∀ ordered, topologicalOrder events = .ok ordered →
        LeastCausalOrder events ordered ∧
          ∀ events', events'.Perm events → topologicalOrder events' = .ok ordered := by
  cases hvalid : validateDag events with
  | error f =>
    rw [topologicalOrder_of_error hvalid]
    refine ⟨by simp, fun g => by simp, fun ordered h => ?_⟩
    cases h
  | ok u =>
    have hwf := (validateDag_isOk_iff_wellFormed events).mp ⟨u, hvalid⟩
    obtain ⟨all, hall, hperm, hrun⟩ := topologicalOrder_of_wellFormed hwf
    rw [hrun]
    refine ⟨⟨fun _ => ⟨_, rfl⟩, fun _ => ⟨_, rfl⟩⟩, fun f => ⟨nofun, nofun⟩, ?_⟩
    intro ordered h
    obtain rfl := Except.ok.inj h
    refine ⟨hall.leastCausalOrder hwf.hash_nodup hperm, fun events' hevents => ?_⟩
    rw [topologicalOrder_perm hevents.symm hwf, hrun]

end VKernelX
