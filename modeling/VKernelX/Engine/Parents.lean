/-
  Engine/Parents.lean --- the parent and the sequence number the engine picks for an event.

  Both are found by a scan of the whole sorted log, but they depend on the entity's own events
  only: the parent is an event of the entity that none of its events sorts after, and the
  sequence number counts the entity's events.
-/
import VKernelX.Engine.Integrity

set_option autoImplicit false

namespace VKernelX

/-! ## The sorted log -/

theorem sortEvents_pairwise (events : List VectorEvent) :
    (sortEvents events).Pairwise
      (fun a b => canonicalEventSortKey a ≤ canonicalEventSortKey b) := by
  have : Std.Total (fun a b : VectorEvent => canonicalEventSortKey a ≤ canonicalEventSortKey b) :=
    ⟨fun a b => le_total _ _⟩
  have : IsTrans VectorEvent (fun a b => canonicalEventSortKey a ≤ canonicalEventSortKey b) :=
    ⟨fun _ _ _ hab hbc => le_trans hab hbc⟩
  exact List.pairwise_insertionSort _ events

/-- Equal keys mean equal hashes. -/
theorem eventHash_eq_of_key_le {e e' : VectorEvent}
    (h : canonicalEventSortKey e ≤ canonicalEventSortKey e')
    (h' : canonicalEventSortKey e' ≤ canonicalEventSortKey e) : e.eventHash = e'.eventHash := by
  have hkey := le_antisymm h h'
  simp only [canonicalEventSortKey, EmbeddingLike.apply_eq_iff_eq, Prod.mk.injEq] at hkey
  exact hkey.2.2.1

/-! ## The latest event of an entity -/

/-- An event of the entity that none of the entity's stored events sorts after. -/
structure IsLatest (eng : KernelEngine) (entityId : String) (e : VectorEvent) : Prop where
  mem : e ∈ eng.store.listEvents
  entity : e.entityId = entityId
  le : ∀ e' ∈ eng.store.listEvents, e'.entityId = entityId →
    canonicalEventSortKey e' ≤ canonicalEventSortKey e

theorem IsLatest.eventHash_eq {eng : KernelEngine} {entityId : String} {e e' : VectorEvent}
    (h : IsLatest eng entityId e) (h' : IsLatest eng entityId e') : e.eventHash = e'.eventHash :=
  eventHash_eq_of_key_le (h'.le e h.mem h.entity) (h.le e' h'.mem h'.entity)

/-- `latest_parent_hash_for_entity` returns nothing for an entity without events, and the
hash of a latest event otherwise. -/
theorem latestParent_spec (eng : KernelEngine) (entityId : String) :
    (eng.latestParentHashForEntity entityId = [] ∧
        ∀ e ∈ eng.store.listEvents, e.entityId ≠ entityId) ∨
      ∃ e, IsLatest eng entityId e ∧ eng.latestParentHashForEntity entityId = [e.eventHash] := by
  have hmem : ∀ e, e ∈ eng.queryEvents.reverse ↔ e ∈ eng.store.listEvents := fun e => by
    rw [List.mem_reverse, (queryEvents_perm eng).mem_iff]
  rw [KernelEngine.latestParentHashForEntity]
  cases hfind : eng.queryEvents.reverse.find? (fun e => e.entityId = entityId) with
  | none =>
    left
    refine ⟨rfl, fun e he hentity => ?_⟩
    have := List.find?_eq_none.mp hfind e ((hmem e).mpr he)
    exact this (decide_eq_true hentity)
  | some e =>
    right
    obtain ⟨hentity, before, after, hsplit, hbefore⟩ := List.find?_eq_some_iff_append.mp hfind
    refine ⟨e, ⟨(hmem e).mp (List.mem_of_find?_eq_some hfind), of_decide_eq_true hentity, ?_⟩, rfl⟩
    intro e' he' hentity'
    have hpairwise : (before ++ e :: after).Pairwise
        (fun a b => canonicalEventSortKey b ≤ canonicalEventSortKey a) := by
      rw [← hsplit]
      exact List.pairwise_reverse.mpr (sortEvents_pairwise _)
    rw [← hmem, hsplit] at he'
    rcases List.mem_append.mp he' with hin | hin
    · have := hbefore e' hin
      simp [hentity'] at this
    · rcases List.mem_cons.mp hin with rfl | hin
      · exact le_rfl
      · exact List.rel_of_pairwise_cons (List.pairwise_append.mp hpairwise).2.1 hin

theorem latestParent_of_isLatest {eng : KernelEngine} {entityId : String} {e : VectorEvent}
    (h : IsLatest eng entityId e) : eng.latestParentHashForEntity entityId = [e.eventHash] := by
  rcases latestParent_spec eng entityId with ⟨_, hnone⟩ | ⟨e', he', hlatest⟩
  · exact absurd h.entity (hnone e h.mem)
  · rw [hlatest, he'.eventHash_eq h]

theorem latestParent_eq_nil {eng : KernelEngine} {entityId : String}
    (h : ∀ e ∈ eng.store.listEvents, e.entityId ≠ entityId) :
    eng.latestParentHashForEntity entityId = [] := by
  rcases latestParent_spec eng entityId with ⟨hnil, _⟩ | ⟨e, he, _⟩
  · exact hnil
  · exact absurd he.entity (h e he.mem)

/-! ## Events of other entities -/

section Other

variable {eng : KernelEngine} {e : VectorEvent} {entityId : String}
  (hfresh : eng.store.events[e.eventHash]? = none) (hne : e.entityId ≠ entityId)

include hfresh hne

/-- An event of another entity does not change the parent. -/
theorem latestParent_addEvent_of_ne :
    (eng.addEvent e).latestParentHashForEntity entityId =
      eng.latestParentHashForEntity entityId := by
  have hmem : ∀ e', e'.entityId = entityId →
      (e' ∈ (eng.addEvent e).store.listEvents ↔ e' ∈ eng.store.listEvents) := by
    intro e' hentity
    rw [(listEvents_addEvent_perm hfresh).mem_iff, List.mem_cons]
    refine ⟨fun h => h.resolve_left ?_, Or.inr⟩
    rintro rfl
    exact hne hentity
  rcases latestParent_spec eng entityId with ⟨hnil, hnone⟩ | ⟨latest, hlatest, hparent⟩
  · rw [hnil]
    exact latestParent_eq_nil (fun e' he' hentity =>
      hnone e' ((hmem e' hentity).mp he') hentity)
  · rw [hparent]
    refine latestParent_of_isLatest ⟨(hmem latest hlatest.entity).mpr hlatest.mem,
      hlatest.entity, fun e' he' hentity => ?_⟩
    exact hlatest.le e' ((hmem e' hentity).mp he') hentity

/-- Nor does it change the sequence number. -/
theorem nextEventSequence_addEvent_of_ne (regionId : String) :
    (eng.addEvent e).nextEventSequenceForEntity entityId regionId =
      eng.nextEventSequenceForEntity entityId regionId := by
  have hcount : (eng.addEvent e).store.loadEventsForReplay.countP
        (fun e => e.entityId = entityId ∧ e.regionId = regionId) =
      eng.store.loadEventsForReplay.countP
        (fun e => e.entityId = entityId ∧ e.regionId = regionId) := by
    rw [(MemoryStore.loadEventsForReplay_perm _).countP_eq,
      (listEvents_addEvent_perm hfresh).countP_eq,
      (MemoryStore.loadEventsForReplay_perm _).countP_eq, List.countP_cons_of_neg]
    simp [hne]
  rw [KernelEngine.nextEventSequenceForEntity, KernelEngine.nextEventSequenceForEntity, hcount]

/-- So a transition of the entity gets the same event. -/
theorem buildTransitionEvent_addEvent_of_ne (env : Platform) {after : VectorStateV1}
    (hid : after.vectorId = entityId) (before : Option VectorStateV1) (operation : OperationType)
    (clock timestamp : UInt64) (parentHashes : List String) :
    buildTransitionEvent env (eng.addEvent e) before after operation clock timestamp
        parentHashes =
      buildTransitionEvent env eng before after operation clock timestamp parentHashes := by
  simp only [buildTransitionEvent, hid, nextEventSequence_addEvent_of_ne hfresh hne]

end Other

end VKernelX
