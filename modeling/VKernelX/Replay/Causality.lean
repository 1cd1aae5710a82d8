/-
  Replay/Causality.lean --- a successful replay applies every event once, parents first.
-/
import VKernelX.Replay.Progress

set_option autoImplicit false

namespace VKernelX

/-! ## The highest clock -/

theorem highestClock_snoc (applied : List VectorEvent) (e : VectorEvent) :
    highestClock (applied ++ [e]) =
      if highestClock applied ≤ e.logicalClock then e.logicalClock else highestClock applied := by
  rw [highestClock, List.foldl_append]
  rfl

theorem le_highestClock {applied : List VectorEvent} :
    ∀ e ∈ applied, e.logicalClock ≤ highestClock applied := by
  induction applied using List.reverseRecOn with
  | nil => simp
  | append_singleton applied last ih =>
    intro e he
    rw [highestClock_snoc]
    rcases List.mem_append.mp he with he | he
    · have := ih e he
      split
      · exact UInt64.le_trans this ‹_›
      · exact this
    · obtain rfl := List.mem_singleton.mp he
      split
      · exact UInt64.le_refl _
      · exact (UInt64.le_total _ _).resolve_left ‹_›

/-- The highest clock is the clock of an event, or zero when there is none. -/
theorem highestClock_attained (applied : List VectorEvent) :
    (applied = [] ∧ highestClock applied = 0) ∨
      ∃ e ∈ applied, e.logicalClock = highestClock applied := by
  induction applied using List.reverseRecOn with
  | nil => exact Or.inl ⟨rfl, rfl⟩
  | append_singleton applied last ih =>
    right
    rw [highestClock_snoc]
    split
    · exact ⟨last, by simp, rfl⟩
    · rename_i hlt
      rcases ih with ⟨_, hzero⟩ | ⟨e, he, hclock⟩
      · exact absurd (hzero ▸ UInt64.zero_le) hlt
      · exact ⟨e, List.mem_append_left _ he, hclock⟩

/-! ## What a replay did -/

/-- The events behind the hashes a replay lists as applied. -/
def ReplayResult.appliedFrom (result : ReplayResult) (events : List VectorEvent) :
    List VectorEvent := result.appliedEventHashes.map (eventAt events)

/-- Every event was applied once, after its parents of the same entity, and the final state
and the state root are those of the applied events. -/
structure AppliesEachOnce (events : List VectorEvent) (result : ReplayResult) : Prop where
  hashes : result.appliedEventHashes.Perm (events.map VectorEvent.eventHash)
  causal : ∀ e ∈ events, ∀ p ∈ events, p.entityId = e.entityId →
    p.eventHash ∈ e.parentHashes → ∀ before after,
      result.appliedEventHashes = before ++ e.eventHash :: after → p.eventHash ∈ before
  entities : ∀ entityId : String,
    result.finalState[entityId]? ≠ none ↔ ∃ e ∈ events, e.entityId = entityId
  finalState : ∀ entityId : String, result.finalState[entityId]? =
    (eventsOf entityId (result.appliedFrom events)).getLast?.map VectorEvent.vectorAfter
  eventCount : result.stateRoot.eventCount = UInt64.ofNat events.length
  clock_le : ∀ e ∈ events, e.logicalClock ≤ result.stateRoot.logicalClock
  clock_attained : (events = [] ∧ result.stateRoot.logicalClock = 0) ∨
    ∃ e ∈ events, e.logicalClock = result.stateRoot.logicalClock

theorem appliedFrom_replayOutcome {env : Platform} {events : List VectorEvent}
    (hwf : WellFormedDag events) (hperm : (appliedEvents events).Perm events)
    (core : CoreState) :
    (replayOutcome env (appliedEvents events) core).appliedFrom events = appliedEvents events := by
  show ((appliedEvents events).map VectorEvent.eventHash).map (eventAt events) = _
  rw [List.map_map]
  refine (List.map_congr_left ?_).trans (List.map_id _)
  intro e he
  exact eventAt_eventHash hwf.hash_nodup (hperm.mem_iff.mp he)

/-- In the applied sequence an event's own parents come before it. -/
theorem appliedEvents_causal {events : List VectorEvent} (hwf : WellFormedDag events)
    (hordered : ∀ entityId, orderEntityEvents (eventsOf entityId events) =
      .ok (entityOrder events entityId)) {before after : List VectorEvent} {e p : VectorEvent}
    (hsplit : appliedEvents events = before ++ e :: after) (hp : p ∈ events)
    (hentity : p.entityId = e.entityId) (hparent : p.eventHash ∈ e.parentHashes) :
    p ∈ before := by
  have hown := eventsOf_appliedEvents hwf hordered e.entityId
  have hsplitOwn : entityOrder events e.entityId =
      eventsOf e.entityId before ++ e :: eventsOf e.entityId after := by
    rw [← hown, hsplit]
    simp [eventsOf]
  have hne : eventsOf e.entityId events ≠ [] :=
    List.ne_nil_of_mem (List.mem_filter.mpr ⟨hp, decide_eq_true hentity⟩)
  have hnodup : ((eventsOf e.entityId events).map VectorEvent.eventHash).Nodup :=
    hwf.hash_nodup.sublist (List.filter_sublist.map _)
  have hmem := (entityOrder_spec hwf hne (hordered e.entityId)).1.ownParents_mem hnodup hsplitOwn
    (List.mem_filter.mpr ⟨hp, decide_eq_true hentity⟩) hparent
  exact (List.mem_filter.mp hmem).1

theorem appliesEachOnce_of_ok {env : Platform} {events : List VectorEvent}
    {result : ReplayResult} (h : replayEvents env events = .ok result) :
    AppliesEachOnce events result := by
  obtain ⟨hwf, hordered, _, core, _, rfl⟩ := replayEvents_eq_ok_iff_accepted.mp h
  have hperm := appliedEvents_perm hwf hordered
  have hfinal : ∀ entityId : String,
      (replayOutcome env (appliedEvents events) core).finalState[entityId]? =
        (eventsOf entityId (appliedEvents events)).getLast?.map VectorEvent.vectorAfter :=
    lookup_stateAfter (appliedEvents events)
  refine {
    hashes := hperm.map VectorEvent.eventHash
    causal := ?_
    entities := ?_
    finalState := ?_
    eventCount := ?_
    clock_le := fun e he => le_highestClock e (hperm.mem_iff.mpr he)
    clock_attained := ?_ }
  · intro e he p hp hentity hparent before after hsplit
    obtain ⟨front, rest, hfront, rfl, hrest⟩ := List.map_eq_append_iff.mp hsplit
    obtain ⟨e', back, rfl, hhash, _⟩ := List.map_eq_cons_iff.mp hrest
    have he' : e' ∈ events := hperm.mem_iff.mp (by rw [hfront]; simp)
    obtain rfl := List.inj_on_of_nodup_map hwf.hash_nodup he' he hhash
    exact List.mem_map_of_mem (appliedEvents_causal hwf hordered hfront hp hentity hparent)
  · intro entityId
    rw [hfinal, Ne, Option.map_eq_none_iff, List.getLast?_eq_none_iff, eventsOf,
      List.filter_eq_nil_iff]
    simp only [decide_eq_true_eq, not_forall, not_not, hperm.mem_iff, exists_prop]
  · intro entityId
    rw [hfinal, appliedFrom_replayOutcome hwf hperm]
  · show UInt64.ofNat ((appliedEvents events).map VectorEvent.eventHash).length = _
    rw [List.length_map, hperm.length_eq]
  · rcases highestClock_attained (appliedEvents events) with ⟨hnil, hzero⟩ | ⟨e, he, hclock⟩
    · rw [hnil] at hperm
      exact Or.inl ⟨List.nil_perm.mp hperm, hzero⟩
    · exact Or.inr ⟨e, hperm.mem_iff.mp he, hclock⟩

/-! ## The unreachable error -/

/-- The text of the last error of `order_entity_events`. -/
def unresolvedText : String := "entity replay ordering failed due to unresolved ancestry or cycle"

/-- The root count's error is another one. -/
theorem rootCountText_ne (count : ℕ) :
    "entity history must have exactly one root event, found " ++ decimal count ++ " roots" ≠
      unresolvedText := by
  intro h
  have := congrArg (fun s => s.toList.take 8) h
  simp [unresolvedText, String.toList_append] at this

theorem orderEntityEvents_resolves {events group : List VectorEvent} (hwf : WellFormedDag events)
    (hsub : group.Sublist events) :
    orderEntityEvents group ≠ .error (.err unresolvedText) := by
  by_cases hne : group = []
  · rw [hne]
    intro h
    cases h
  obtain ⟨ordered, _, hrun⟩ := hwf.orderEntityEvents hsub hne
  rw [hrun, Outcome.require]
  split
  · intro h
    cases h
  · intro h
    have htext := Except.error.inj h
    exact rootCountText_ne _ (Failure.err.inj htext)

/-- Replay applies every event exactly once and in causal order; and on a validated graph no
entity's order is left unresolved. -/
theorem replayEvents_appliesEachOnce (env : Platform) (events : List VectorEvent) :
    (∀ result, replayEvents env events = .ok result → AppliesEachOnce events result) ∧
      ((validateDag events).IsOk → ∀ group ∈ BTreeMap.values (groupByEntity events),
        orderEntityEvents group ≠ .error (.err unresolvedText)) := by
  refine ⟨fun result h => appliesEachOnce_of_ok h, fun hvalid group hgroup => ?_⟩
  rw [values_groupByEntity] at hgroup
  obtain ⟨entityId, _, rfl⟩ := List.mem_map.mp hgroup
  exact orderEntityEvents_resolves ((validateDag_isOk_iff_wellFormed events).mp hvalid)
    List.filter_sublist

end VKernelX
