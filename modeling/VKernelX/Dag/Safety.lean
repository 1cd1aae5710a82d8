/-
  Dag/Safety.lean --- the graph loops return on any input.

  The places that could panic index a list by a position from the event index, look up a sort
  key, or count a degree down.  The index only holds positions of the list, and a loop is only
  reached with tables that represent a graph, where it sees each hash once.
-/
import VKernelX.Dag.TopologicalOrder

set_option autoImplicit false

namespace VKernelX

open Outcome

/-! ## Validation -/

theorem noPanic_linkParents {check : String → Outcome String Bool}
    (hcheck : ∀ p, (check p).NoPanic) (eventHash : String) (parents seen : List String)
    (tables : GraphTables String) :
    (linkParents check eventHash parents seen tables).NoPanic := by
  induction parents generalizing seen tables with
  | nil => exact noPanic_ok tables
  | cons p parents ih =>
    exact noPanic_bind (noPanic_require _ _) (fun _ _ =>
      noPanic_bind (hcheck p) (fun _ _ => ih _ _))

/-- The index holds positions of the list, so the parent under one is there. -/
theorem noPanic_admitParent {events : List VectorEvent} {index : BTreeMap String ℕ}
    (hindex : eventIndex events = .ok index) (e : VectorEvent) (p : String) :
    (admitParent events index e p).NoPanic := by
  refine noPanic_bind (noPanic_okOr _ _) (fun i hi => ?_)
  rw [okOr_eq_ok_iff] at hi
  have hparent : ∃ parent, indexedEvent events index p = some parent := by
    have hmem : ¬ ∀ e ∈ events, e.eventHash ≠ p := by
      intro hne
      rw [(lookup_eventIndex_eq_none_iff hindex).mpr hne] at hi
      cases hi
    push Not at hmem
    obtain ⟨parent, hparent, hhash⟩ := hmem
    exact ⟨parent, (indexedEvent_eq_some_iff hindex).mpr ⟨hparent, hhash⟩⟩
  obtain ⟨parent, hparent⟩ := hparent
  rw [indexedEvent, hi] at hparent
  obtain hparent : events[i]? = some parent := hparent
  rw [hparent]
  exact noPanic_bind (noPanic_ok parent) (fun _ _ =>
    noPanic_bind (noPanic_require _ _) (fun _ _ => noPanic_ok true))

theorem noPanic_buildTables {events : List VectorEvent} {index : BTreeMap String ℕ}
    (hindex : eventIndex events = .ok index) :
    (buildTables (admitParent events index) events).NoPanic :=
  noPanic_foldlM (fun e _ tables =>
    noPanic_linkParents (noPanic_admitParent hindex e) e.eventHash e.parentHashes [] tables) _

theorem noPanic_validateDag (events : List VectorEvent) : (validateDag events).NoPanic := by
  by_cases hadmissible : AdmissibleDag events
  · obtain ⟨visited, hrun, _⟩ := hadmissible.validateDag_eq
    rw [hrun]
    exact noPanic_require _ _
  · rw [validateDag]
    refine noPanic_bind (noPanic_ofResult _) (fun index hindex => ?_)
    rw [ofResult_eq_ok_iff] at hindex
    exact noPanic_bind (noPanic_buildTables hindex) (fun tables htables =>
      absurd (admissibleDag_of_tables hindex htables) hadmissible)

/-! ## Ordering -/

theorem noPanic_topologicalOrder (events : List VectorEvent) :
    (topologicalOrder events).NoPanic := by
  cases hvalid : validateDag events with
  | error f =>
    have hreturns := noPanic_validateDag events
    rw [hvalid] at hreturns
    rw [topologicalOrder_of_error hvalid]
    intro hpanic
    obtain rfl := Except.error.inj hpanic
    exact hreturns rfl
  | ok u =>
    obtain ⟨_, _, _, hrun⟩ :=
      topologicalOrder_of_wellFormed ((validateDag_isOk_iff_wellFormed events).mp ⟨u, hvalid⟩)
    rw [hrun]
    exact noPanic_ok _

/-- The map by hash is made only when no hash repeats. -/
theorem nodup_of_entityEventsByHash {events : List VectorEvent}
    {byHash : BTreeMap String VectorEvent} (h : entityEventsByHash events = .ok byHash) :
    (events.map VectorEvent.eventHash).Nodup := by
  suffices key : ∀ (l : List VectorEvent) (m : BTreeMap String VectorEvent),
      l.foldlM (fun byHash e => do
          require (byHash[e.eventHash]? = none) ("duplicate event_hash detected: " ++ e.eventHash)
          return byHash.insert e.eventHash e) m = .ok byHash →
        (l.map VectorEvent.eventHash).Nodup ∧ ∀ e ∈ l, m[e.eventHash]? = none from
    (key events ∅ h).1
  intro l
  induction l with
  | nil => simp
  | cons e l ih =>
    intro m hrun
    simp only [List.foldlM_cons, bind_eq_ok_iff, require_eq_ok_iff] at hrun
    obtain ⟨_, ⟨_, hfresh, hinsert⟩, hrest⟩ := hrun
    obtain rfl := Except.ok.inj hinsert
    obtain ⟨hnodup, hnone⟩ := ih _ hrest
    have hne : ∀ e' ∈ l, e.eventHash ≠ e'.eventHash := by
      intro e' he' heq
      have hnone' := hnone e' he'
      rw [heq, BTreeMap.lookup_insert, if_pos rfl] at hnone'
      cases hnone'
    refine ⟨List.nodup_cons.mpr ⟨?_, hnodup⟩, List.forall_mem_cons.mpr ⟨hfresh, ?_⟩⟩
    · rintro hmem
      obtain ⟨e', he', heq⟩ := List.mem_map.mp hmem
      exact hne e' he' heq.symm
    · intro e' he'
      have hnone' := hnone e' he'
      rwa [BTreeMap.lookup_insert, if_neg (hne e' he')] at hnone'

/-! ## The loops -/

/-- `validate_dag` up to the end of its loop, with a trace of the queue. -/
def validateDagTrace (events : List VectorEvent) : Outcome String (DrainTrace String) := do
  let index ← ofResult (eventIndex events)
  let graph ← buildTables (admitParent events index) events
  drainTrace graph.children (fun _ => .ok ())
    (sortByKey (fun hash => (indexedEvent events index hash).map dagSortKey))
    Arrangement.queue graph.roots graph.indegree ⟨graph.roots, []⟩

/-- `topological_order` up to the end of its loop, with a trace of the ready list. -/
def topologicalOrderTrace (events : List VectorEvent) : Outcome String (DrainTrace String) := do
  validateDag events
  let byHash := eventMap events
  let tables := ancestryTables events
  let key := fun hash : String => (byHash[hash]?).map dagSortKey
  let ready ← sortByKey key tables.roots
  drainTrace tables.children
    (fun node => okOr ("missing node in event map: " ++ node) byHash[node]?)
    (sortByKey key) (Arrangement.priority key) ready tables.indegree ⟨ready, []⟩

/-- `order_entity_events` up to the end of its loop, with a trace of the ready list. -/
def orderEntityEventsTrace (events : List VectorEvent) : Outcome String (DrainTrace String) :=
  if events = [] then .ok ⟨[], []⟩
  else do
    let byHash ← entityEventsByHash events
    let tables ← buildTables (fun _ parent => .ok (byHash[parent]?).isSome) events
    let rootCount := tables.roots.length
    require (rootCount = 1)
      ("entity history must have exactly one root event, found " ++ decimal rootCount ++ " roots")
    let key := fun hash : String => (byHash[hash]?).map replaySortKey
    let ready ← sortByKey key tables.roots
    drainTrace tables.children
      (fun node => okOr ("missing node in entity replay map: " ++ node) byHash[node]?)
      (sortByKey key) (Arrangement.priority key) ready tables.indegree ⟨ready, []⟩

/-- A graph loop that is safe on a list of events.  No count goes below zero and no lookup
fails, as either would be a panic; a hash enters the ready list at most once; there are at most
as many rounds as events, and the function succeeds when there are exactly that many. -/
structure GraphLoopSafe {β : Type} (events : List VectorEvent) (run : Outcome String β)
    (trace : Outcome String (DrainTrace String)) : Prop where
  run_noPanic : run.NoPanic
  trace_noPanic : trace.NoPanic
  error_eq : ∀ f, trace = .error f → run = .error f
  entered_nodup : ∀ t, trace = .ok t → t.entered.Nodup
  rounds_le : ∀ t, trace = .ok t → t.emitted.length ≤ events.length
  isOk_iff : ∀ t, trace = .ok t → (run.IsOk ↔ t.emitted.length = events.length)

/-- A function that fails before its loop. -/
theorem GraphLoopSafe.of_error {β γ : Type} {events : List VectorEvent} {run : Outcome String β}
    {trace : Outcome String (DrainTrace String)} {f : Failure String} {step : Outcome String γ}
    (hrun : run = .error f) (htrace : trace = .error f) (hstep : step = .error f)
    (hreturns : step.NoPanic) : GraphLoopSafe events run trace := by
  subst hrun htrace hstep
  refine ⟨?_, ?_, fun g h => ?_, nofun, nofun, nofun⟩
  · intro hpanic
    exact hreturns (congrArg _ (Except.error.inj hpanic))
  · intro hpanic
    exact hreturns (congrArg _ (Except.error.inj hpanic))
  · exact congrArg _ (Except.error.inj h)

/-- A function that gets to the end of its loop and compares the lengths. -/
theorem GraphLoopSafe.of_trace {β : Type} {events : List VectorEvent} {run : Outcome String β}
    {trace : Outcome String (DrainTrace String)} {t : DrainTrace String} (message : String)
    (out : β) (htrace : trace = .ok t) (hbounded : t.Bounded (events.map VectorEvent.eventHash))
    (hrun : run = require (t.emitted.length = events.length) message >>= fun _ => .ok out) :
    GraphLoopSafe events run trace := by
  subst hrun htrace
  have hrounds := hbounded.rounds_le
  rw [List.length_map] at hrounds
  refine ⟨noPanic_bind (noPanic_require _ _) (fun _ _ => noPanic_ok out), noPanic_ok t, nofun,
    ?_, ?_, ?_⟩
  · rintro _ ⟨⟩
    exact hbounded.entered_nodup
  · rintro _ ⟨⟩
    exact hrounds
  · rintro _ ⟨⟩
    constructor
    · rintro ⟨_, hrun⟩
      obtain ⟨_, hall, _⟩ := bind_eq_ok_iff.mp hrun
      exact require_eq_ok_iff.mp hall
    · intro hall
      rw [require_of hall]
      exact ⟨out, rfl⟩

theorem validateDag_safe (events : List VectorEvent) :
    GraphLoopSafe events (validateDag events) (validateDagTrace events) := by
  by_cases hadmissible : AdmissibleDag events
  · obtain ⟨index, graph, trace, hindex, hgraph, _, hbounded, _, htrace, hdrain⟩ :=
      hadmissible.trace
    refine GraphLoopSafe.of_trace "cycle detected in event DAG" () (t := trace) ?_ hbounded ?_
    · rw [validateDagTrace, hindex]
      simp only [ofResult, ok_bind, hgraph, htrace]
    · rw [validateDag, hindex]
      simp only [ofResult, ok_bind, hgraph, hdrain, List.length_map]
      by_cases hall : trace.emitted.length = events.length
      · rw [require_of hall]
        rfl
      · rw [require_of_not hall]
        rfl
  · -- Without an index and tables, neither gets as far as the loop.
    cases hindex : eventIndex events with
    | error err =>
      refine GraphLoopSafe.of_error (f := .err err) ?_ ?_ rfl (noPanic_fail (α := Unit) err)
      · rw [validateDag, hindex]
        rfl
      · rw [validateDagTrace, hindex]
        rfl
    | ok index =>
      cases htables : buildTables (admitParent events index) events with
      | error f =>
        refine GraphLoopSafe.of_error ?_ ?_ htables (noPanic_buildTables hindex)
        · rw [validateDag, hindex]
          simp only [ofResult, ok_bind, htables]
          rfl
        · rw [validateDagTrace, hindex]
          simp only [ofResult, ok_bind, htables]
          rfl
      | ok tables => exact absurd (admissibleDag_of_tables hindex htables) hadmissible

theorem topologicalOrder_safe (events : List VectorEvent) :
    GraphLoopSafe events (topologicalOrder events) (topologicalOrderTrace events) := by
  cases hvalid : validateDag events with
  | error f =>
    refine GraphLoopSafe.of_error (topologicalOrder_of_error hvalid) ?_ hvalid
      (noPanic_validateDag events)
    rw [topologicalOrderTrace, hvalid]
    rfl
  | ok u =>
    obtain ⟨ready, trace, hready, hbounded, _, _, htrace, hdrain⟩ :=
      topologicalOrder_trace ((validateDag_isOk_iff_wellFormed events).mp ⟨u, hvalid⟩)
    refine GraphLoopSafe.of_trace
      "topological ordering failed due to unresolved cycle or missing ancestry"
      (trace.emitted.map (eventAt events)) (t := trace) ?_ hbounded ?_
    · rw [topologicalOrderTrace, hvalid]
      simp only [ok_bind, hready, htrace]
    · rw [topologicalOrder, hvalid]
      simp only [ok_bind, hready, hdrain, List.length_map]
      rfl

theorem orderEntityEvents_safe (events : List VectorEvent) :
    GraphLoopSafe events (orderEntityEvents events) (orderEntityEventsTrace events) := by
  by_cases hne : events = []
  · subst hne
    exact GraphLoopSafe.of_trace "" [] (t := ⟨[], []⟩) rfl ⟨List.nodup_nil, Nat.le_refl 0⟩ rfl
  rw [orderEntityEvents, orderEntityEventsTrace, if_neg hne, if_neg hne]
  have hmap : (entityEventsByHash events).NoPanic := noPanic_foldlM (fun e _ byHash =>
    noPanic_bind (noPanic_require _ _) (fun _ _ => noPanic_ok _)) _
  cases hbyHash : entityEventsByHash events with
  | error f =>
    exact GraphLoopSafe.of_error rfl rfl hbyHash hmap
  | ok byHash =>
    have hbuild : (buildTables (fun _ parent => .ok (byHash[parent]?).isSome) events).NoPanic :=
      noPanic_foldlM (fun e _ tables => noPanic_linkParents (fun _ => noPanic_ok _) e.eventHash
        e.parentHashes [] tables) _
    simp only [ok_bind]
    cases htables : buildTables (fun _ parent => .ok (byHash[parent]?).isSome) events with
    | error f =>
      exact GraphLoopSafe.of_error rfl rfl htables hbuild
    | ok tables =>
      obtain ⟨byHash', tables', ready, trace, hbyHash', htables', _, hready, hbounded, _, htrace,
        hdrain⟩ := orderEntityEvents_trace (nodup_of_entityEventsByHash hbyHash)
          (fun e he => (buildTables_ok htables e he).1)
      obtain rfl := Except.ok.inj (hbyHash.symm.trans hbyHash')
      obtain rfl := Except.ok.inj (htables.symm.trans htables')
      simp only [ok_bind]
      by_cases hroot : tables.roots.length = 1
      · simp only [require_of hroot, ok_bind, hready, htrace, hdrain, List.length_map]
        exact GraphLoopSafe.of_trace _ _ rfl hbounded rfl
      · simp only [require_of_not hroot]
        exact GraphLoopSafe.of_error rfl rfl rfl (noPanic_fail (α := Unit) _)

/-- The graph loops are safe on every list of events, well-formed or not. -/
theorem graphLoops_safe (events : List VectorEvent) :
    GraphLoopSafe events (validateDag events) (validateDagTrace events) ∧
      GraphLoopSafe events (topologicalOrder events) (topologicalOrderTrace events) ∧
      GraphLoopSafe events (orderEntityEvents events) (orderEntityEventsTrace events) :=
  ⟨validateDag_safe events, topologicalOrder_safe events, orderEntityEvents_safe events⟩

end VKernelX
