/-
  Replay/CausalOrders.lean --- replaying in another causal order.

  `replay_events` goes through the entities one by one.  Where every event follows on the one
  applied before it for its entity, any order with parents first holds each entity's events in
  that entity's order, so applying the events in it ends the same.  The topological order is
  one of them.
-/
import VKernelX.Dag.TopologicalOrder
import VKernelX.Foundation.Cuts
import VKernelX.Region.Registry
import VKernelX.Replay.Incremental

set_option autoImplicit false

namespace VKernelX

/-- Every applied event but its entity's first has the one applied before it as a parent. -/
def LinkedHistories (applied : List VectorEvent) : Prop :=
  ∀ entityId, (eventsOf entityId applied).IsChain (fun p e => p.eventHash ∈ e.parentHashes)

/-- Entities without events have nothing to check. -/
theorem linkedHistories_iff {applied : List VectorEvent} :
    LinkedHistories applied ↔ ∀ entityId ∈ applied.map VectorEvent.entityId,
      (eventsOf entityId applied).IsChain (fun p e => p.eventHash ∈ e.parentHashes) := by
  refine ⟨fun h entityId _ => h entityId, fun h entityId => ?_⟩
  by_cases hmem : entityId ∈ applied.map VectorEvent.entityId
  · exact h entityId hmem
  · have hnil : eventsOf entityId applied = [] := by
      refine List.filter_eq_nil_iff.mpr (fun e he heq => hmem ?_)
      exact List.mem_map.mpr ⟨e, he, of_decide_eq_true heq⟩
    rw [hnil]
    exact .nil

instance (applied : List VectorEvent) : Decidable (LinkedHistories applied) :=
  decidable_of_iff _ linkedHistories_iff.symm

/-- All events, each after its parents of the same entity. -/
structure CausalOrder (events ordered : List VectorEvent) : Prop where
  perm : ordered.Perm events
  parentsFirst : ∀ before e after, ordered = before ++ e :: after →
    ∀ p ∈ events, p.entityId = e.entityId → p.eventHash ∈ e.parentHashes → p ∈ before

/-- The topological order is a causal order. -/
theorem LeastCausalOrder.causalOrder {events ordered : List VectorEvent}
    (h : LeastCausalOrder events ordered)
    (hnodup : (events.map VectorEvent.eventHash).Nodup) : CausalOrder events ordered where
  perm := h.perm
  parentsFirst := by
    intro before e after hsplit p hp _ hparent
    obtain ⟨q, hq, hhash⟩ := List.mem_map.mp (h.parents_first before e after hsplit _ hparent)
    have hqmem : q ∈ events := h.perm.mem_iff.mp (by rw [hsplit]; simp [hq])
    exact List.inj_on_of_nodup_map hnodup hqmem hp hhash ▸ hq

/-- The loop of replay over an order of the events ends as replay does. -/
structure EndsAs (result : ReplayResult) (progress : ReplayProgress) : Prop where
  state : progress.state = result.finalState
  core : progress.core = result.coreState
  logicalClock : progress.logicalClock = result.stateRoot.logicalClock
  hashes : progress.appliedEventHashes.Perm result.appliedEventHashes

/-- A causal order holds an entity's events as replay applies them. -/
theorem CausalOrder.eventsOf_eq {events ordered applied : List VectorEvent}
    (h : CausalOrder events ordered) (hperm : applied.Perm events)
    (hnodup : (events.map VectorEvent.eventHash).Nodup) (hlinked : LinkedHistories applied)
    (entityId : String) : eventsOf entityId ordered = eventsOf entityId applied := by
  have hevents : events.Nodup := .of_map VectorEvent.eventHash hnodup
  refine eq_of_perm_of_isChain ((h.perm.trans hperm.symm).filter _)
    ((hperm.nodup_iff.mpr hevents).filter _) (hlinked entityId) ?_
  intro before e after hsplit p hp hparent
  obtain ⟨front, back, hordered, rfl, hback⟩ := List.filter_eq_append_iff.mp hsplit
  obtain ⟨gap, rest, rfl, hgap, he, _⟩ := List.filter_eq_cons_iff.mp hback
  obtain ⟨hmem, hid⟩ := List.mem_filter.mp hp
  have hbefore := h.parentsFirst (front ++ gap) e rest (by rw [hordered, List.append_assoc]) p
    (h.perm.mem_iff.mp hmem) ((of_decide_eq_true hid).trans (of_decide_eq_true he).symm) hparent
  refine List.mem_filter.mpr ⟨(List.mem_append.mp hbefore).resolve_right ?_, hid⟩
  exact fun hin => hgap p hin hid

/-- Applying the events of a replayed history in any causal order, the topological one for
example, takes each entity through the same states and ends with replay's result, if every
event follows on the one applied before it for its entity. -/
theorem replay_causalOrder {env : Platform} {events : List VectorEvent} {result : ReplayResult}
    (h : replayEvents env events = .ok result)
    (hlinked : LinkedHistories (result.appliedFrom events)) :
    (∃ ordered, topologicalOrder events = .ok ordered ∧ CausalOrder events ordered) ∧
      ∀ ordered, CausalOrder events ordered →
        (∀ entityId, eventsOf entityId ordered =
          eventsOf entityId (result.appliedFrom events)) ∧
        ∃ progress, ordered.foldlM (applyNext env) (ReplayProgress.start env) = .ok progress ∧
          EndsAs result progress := by
  obtain ⟨hwf, hordered, haccepted, core, hcore, rfl⟩ := replayEvents_eq_ok_iff_accepted.mp h
  have hperm := appliedEvents_perm hwf hordered
  rw [appliedFrom_replayOutcome hwf hperm] at hlinked ⊢
  constructor
  · obtain ⟨_, _, hleast⟩ := topologicalOrder_least events
    obtain ⟨all, _, _, hrun⟩ := topologicalOrder_of_wellFormed hwf
    exact ⟨_, hrun, (hleast _ hrun).1.causalOrder hwf.hash_nodup⟩
  · intro ordered hcausal
    have hown := hcausal.eventsOf_eq hperm hwf.hash_nodup hlinked
    have hsame : ordered.Perm (appliedEvents events) := hcausal.perm.trans hperm.symm
    refine ⟨hown, progressAfter ordered core, foldlM_applyNext_eq_ok_iff.mpr
      ⟨fun entityId => ?_, core, coreStateFromEvents_perm hsame.symm hcore, rfl⟩, ?_⟩
    · rw [hown, eventsOf_appliedEvents hwf hordered]
      exact haccepted entityId
    · refine ⟨?_, rfl, highestClock_perm hsame, hsame.map VectorEvent.eventHash⟩
      apply Std.ExtTreeMap.ext_getElem?
      intro entityId
      show (stateAfter ordered)[entityId]? = (stateAfter (appliedEvents events))[entityId]?
      rw [lookup_stateAfter, lookup_stateAfter, hown]

/-- Two entities, of which one has a second event. -/
theorem replay_causalOrder_certified :
    ∃ ordered progress, topologicalOrder [sampleFollowUp, sampleCreation "b", sampleCreation "a"] =
        .ok ordered ∧
      ordered.foldlM (applyNext samplePlatform) (ReplayProgress.start samplePlatform) =
        .ok progress ∧
      progress.state["a"]? = some sampleFollowUp.vectorAfter := by
  let result : ReplayResult := replayOutcome samplePlatform
    [sampleCreation "a", sampleFollowUp, sampleCreation "b"] (CoreState.new samplePlatform)
  have hlinked : LinkedHistories
      (result.appliedFrom [sampleFollowUp, sampleCreation "b", sampleCreation "a"]) := by
    decide +kernel
  obtain ⟨⟨ordered, hordered, hcausal⟩, hruns⟩ := @replay_causalOrder samplePlatform
    [sampleFollowUp, sampleCreation "b", sampleCreation "a"] result (by decide +kernel) hlinked
  obtain ⟨_, progress, hprogress, hends⟩ := hruns ordered hcausal
  refine ⟨ordered, progress, hordered, hprogress, ?_⟩
  rw [hends.state]
  decide +kernel

end VKernelX
