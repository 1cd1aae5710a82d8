/-
  Dag/WellFormed.lean --- `validate_dag` accepts exactly the well-formed event graphs.
-/
import VKernelX.Dag.Tables

set_option autoImplicit false

namespace VKernelX

open Relation

/-- `p` is the hash of a parent of the event with hash `hash`. -/
def ParentOf (events : List VectorEvent) (p hash : String) : Prop :=
  ∃ e ∈ events, e.eventHash = hash ∧ p ∈ e.parentHashes

/-- A well-formed event graph. -/
structure WellFormedDag (events : List VectorEvent) : Prop where
  hash_ne : ∀ e ∈ events, e.eventHash ≠ ""
  hash_nodup : (events.map VectorEvent.eventHash).Nodup
  parents_nodup : ∀ e ∈ events, e.parentHashes.Nodup
  parents_admissible : ∀ e ∈ events, ∀ p ∈ e.parentHashes,
    ∃ parent ∈ events, parent.eventHash = p ∧ parent.regionId = e.regionId
  acyclic : ∀ hash, ¬ TransGen (ParentOf events) hash hash

/-- Every parent is admitted. -/
def allParents (_ : VectorEvent) (_ : String) : Bool := true

/-- On distinct hashes the parent relation is that of the graph the tables hold. -/
theorem parentEdge_parentsIn_iff {events : List VectorEvent}
    (hnodup : (events.map VectorEvent.eventHash).Nodup) {p hash : String} :
    ParentEdge (events.map VectorEvent.eventHash) (parentsIn events allParents) p hash ↔
      ParentOf events p hash := by
  constructor
  · rintro ⟨hmem, hp⟩
    obtain ⟨e, he, rfl⟩ := List.mem_map.mp hmem
    rw [parentsIn_of_mem hnodup _ he] at hp
    exact ⟨e, he, rfl, (List.mem_filter.mp hp).1⟩
  · rintro ⟨e, he, rfl, hp⟩
    refine ⟨List.mem_map.mpr ⟨e, he, rfl⟩, ?_⟩
    rw [parentsIn_of_mem hnodup _ he]
    exact List.mem_filter.mpr ⟨hp, rfl⟩

theorem acyclic_parentsIn_iff {events : List VectorEvent}
    (hnodup : (events.map VectorEvent.eventHash).Nodup) :
    Acyclic (events.map VectorEvent.eventHash) (parentsIn events allParents) ↔
      ∀ hash, ¬ TransGen (ParentOf events) hash hash := by
  have hrel : ParentEdge (events.map VectorEvent.eventHash) (parentsIn events allParents) =
      ParentOf events := by
    funext p hash
    exact propext (parentEdge_parentsIn_iff hnodup)
  rw [Acyclic, hrel]

/-- The checks on a parent pass exactly when it is stored under the same region. -/
theorem admitParent_eq_ok_iff {events : List VectorEvent} {index : BTreeMap String ℕ}
    (h : eventIndex events = .ok index) {e : VectorEvent} {p : String} {b : Bool} :
    admitParent events index e p = .ok b ↔
      b = true ∧ ∃ parent ∈ events, parent.eventHash = p ∧ parent.regionId = e.regionId := by
  have hlookup : ∀ parent, indexedEvent events index p = some parent ↔
      parent ∈ events ∧ parent.eventHash = p := fun parent => indexedEvent_eq_some_iff h
  simp only [indexedEvent, Option.bind_eq_some_iff] at hlookup
  simp only [admitParent, Outcome.bind_eq_ok_iff, Outcome.okOr_eq_ok_iff,
    Outcome.unwrap_eq_ok_iff, validateRegionAdmissibility, Outcome.require_eq_ok_iff]
  constructor
  · rintro ⟨i, hi, parent, hparent, _, hregion, hb⟩
    obtain ⟨hmem, hhash⟩ := (hlookup parent).mp ⟨i, hi, hparent⟩
    exact ⟨(Except.ok.inj hb).symm, parent, hmem, hhash, hregion⟩
  · rintro ⟨rfl, parent, hmem, hhash, hregion⟩
    obtain ⟨i, hi, hparent⟩ := (hlookup parent).mpr ⟨hmem, hhash⟩
    exact ⟨i, hi, parent, hparent, (), hregion, rfl⟩

/-- What `validate_dag` checks before its loop. -/
structure AdmissibleDag (events : List VectorEvent) : Prop where
  hash_ne : ∀ e ∈ events, e.eventHash ≠ ""
  hash_nodup : (events.map VectorEvent.eventHash).Nodup
  parents_nodup : ∀ e ∈ events, e.parentHashes.Nodup
  parents_admissible : ∀ e ∈ events, ∀ p ∈ e.parentHashes,
    ∃ parent ∈ events, parent.eventHash = p ∧ parent.regionId = e.regionId

/-- The index and the tables are made only for an admissible graph. -/
theorem admissibleDag_of_tables {events : List VectorEvent} {index : BTreeMap String ℕ}
    (hindex : eventIndex events = .ok index) {tables : GraphTables String}
    (htables : buildTables (admitParent events index) events = .ok tables) :
    AdmissibleDag events := by
  obtain ⟨hne, hhashes⟩ := eventIndex_eq_ok_iff.mp ⟨index, hindex⟩
  have hchecked := buildTables_ok htables
  refine ⟨hne, hhashes, fun e he => (hchecked e he).1, fun e he p hp => ?_⟩
  obtain ⟨b, hb⟩ := (hchecked e he).2 p hp
  exact ((admitParent_eq_ok_iff hindex).mp hb).2

/-- The index and the tables of an admissible graph are made, and the loop runs to the end. -/
theorem AdmissibleDag.trace {events : List VectorEvent} (h : AdmissibleDag events) :
    ∃ index graph trace, eventIndex events = .ok index ∧
      buildTables (admitParent events index) events = .ok graph ∧
      graph.Represents (events.map VectorEvent.eventHash) (parentsIn events allParents) ∧
      trace.Bounded (events.map VectorEvent.eventHash) ∧
      CausalList (fun _ _ => True) (events.map VectorEvent.eventHash)
        (parentsIn events allParents) trace.emitted ∧
      drainTrace graph.children (fun _ => .ok ())
        (sortByKey (fun hash => (indexedEvent events index hash).map dagSortKey))
        (Arrangement.queue (ε := String)) graph.roots graph.indegree ⟨graph.roots, []⟩ =
          .ok trace ∧
      drainLoop graph.children (fun _ => .ok ())
        (sortByKey (fun hash => (indexedEvent events index hash).map dagSortKey))
        (Arrangement.queue (ε := String)) graph.roots graph.indegree [] =
          .ok (trace.emitted.map (fun _ => ())) := by
  obtain ⟨index, hindex⟩ := eventIndex_eq_ok_iff.mpr ⟨h.hash_ne, h.hash_nodup⟩
  have hclosed : ∀ e ∈ events, ∀ p ∈ e.parentHashes, allParents e p = true →
      p ∈ events.map VectorEvent.eventHash := by
    intro e he p hp _
    obtain ⟨parent, hparent, rfl, _⟩ := h.parents_admissible e he p hp
    exact List.mem_map.mpr ⟨parent, hparent, rfl⟩
  have hadmits : ∀ e ∈ events, ∀ p ∈ e.parentHashes,
      admitParent events index e p = .ok (allParents e p) := fun e he p hp =>
    (admitParent_eq_ok_iff hindex).mpr ⟨rfl, h.parents_admissible e he p hp⟩
  obtain ⟨tables, htables, hrep⟩ :=
    buildTables_represents h.hash_nodup h.parents_nodup hadmits hclosed
  have hkey : ∀ hash ∈ events.map VectorEvent.eventHash,
      (indexedEvent events index hash).map dagSortKey =
        some (((indexedEvent events index hash).map dagSortKey).getD default) := by
    intro hash hmem
    obtain ⟨e, he, rfl⟩ := List.mem_map.mp hmem
    rw [(indexedEvent_eq_some_iff hindex).mpr ⟨he, rfl⟩]
    rfl
  have hsort : ∀ l : List String, (∀ v ∈ l, v ∈ events.map VectorEvent.eventHash) →
      ∃ l', sortByKey (ε := String)
        (fun hash => (indexedEvent events index hash).map dagSortKey) l = .ok l' ∧
        l'.Perm l := by
    intro l hl
    obtain ⟨l', hl', hperm, _⟩ := sortByKey_spec (ε := String) (fun v hv => hkey v (hl v hv))
    exact ⟨l', hl', hperm⟩
  have hemit : ∀ v ∈ events.map VectorEvent.eventHash,
      (.ok () : Outcome String Unit) = .ok ((fun _ : String => ()) v) := fun _ _ => rfl
  obtain ⟨trace, hbounded, hall, htrace, hdrain⟩ := hrep.trace hemit hsort
    (Arrangement.queue_orders _) (List.Perm.refl _)
    (List.pairwise_of_forall (fun _ _ => trivial))
  exact ⟨index, tables, trace, hindex, htables, hrep, hbounded, hall, htrace, hdrain⟩

/-- Once the index and the tables are made, the loop runs to the end, and what is left to
decide is whether the graph has a cycle. -/
theorem AdmissibleDag.validateDag_eq {events : List VectorEvent} (h : AdmissibleDag events) :
    ∃ visited, validateDag events =
        Outcome.require (visited = events.length) "cycle detected in event DAG" ∧
      (visited = events.length ↔ ∀ hash, ¬ TransGen (ParentOf events) hash hash) := by
  obtain ⟨index, tables, trace, hindex, htables, hrep, _, hall, _, hdrain⟩ := h.trace
  refine ⟨trace.emitted.length, ?_, ?_⟩
  · rw [validateDag, hindex, Outcome.ofResult]
    simp only [Outcome.ok_bind, htables, hdrain, List.length_map]
  · rw [← acyclic_parentsIn_iff h.hash_nodup, acyclic_iff_complete hrep.closed hall,
      ← hall.length_eq_iff h.hash_nodup, List.length_map]

/-- `validate_dag` returns `Ok` exactly on the well-formed event graphs. -/
theorem validateDag_isOk_iff_wellFormed (events : List VectorEvent) :
    (validateDag events).IsOk ↔ WellFormedDag events := by
  constructor
  · intro hok
    obtain ⟨_, h⟩ := id hok
    simp only [validateDag, Outcome.bind_eq_ok_iff, Outcome.ofResult_eq_ok_iff] at h
    obtain ⟨index, hindex, tables, htables, _⟩ := h
    have hadmissible := admissibleDag_of_tables hindex htables
    obtain ⟨visited, hrun, hacyclic⟩ := hadmissible.validateDag_eq
    rw [hrun, Outcome.isOk_require_iff] at hok
    exact ⟨hadmissible.hash_ne, hadmissible.hash_nodup, hadmissible.parents_nodup,
      hadmissible.parents_admissible, hacyclic.mp hok⟩
  · intro h
    obtain ⟨visited, hrun, hacyclic⟩ := AdmissibleDag.validateDag_eq
      ⟨h.hash_ne, h.hash_nodup, h.parents_nodup, h.parents_admissible⟩
    rw [hrun, Outcome.isOk_require_iff]
    exact hacyclic.mpr h.acyclic

end VKernelX
