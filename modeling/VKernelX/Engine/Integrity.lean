/-
  Engine/Integrity.lean --- integrity of the stored event graph.

  Hashes and region rules hold of an event because it was validated.  The graph is free of
  cycles because of the way it grows: an event's parents are stored before it and its own
  hash is new, so a rank that exceeds the parents' ranks can be chosen for it.
-/
import VKernelX.Dag.Conflicts
import VKernelX.Engine.Writes

set_option autoImplicit false

namespace VKernelX

open Relation

/-! ## Stored events -/

theorem queryEvents_perm (eng : KernelEngine) : eng.queryEvents.Perm eng.store.listEvents :=
  (sortEvents_perm _).trans (MemoryStore.loadEventsForReplay_perm _)

theorem WellKeyed.mem_listEvents_iff {store : MemoryStore} (h : WellKeyed store)
    {e : VectorEvent} : e ∈ store.listEvents ↔ store.events[e.eventHash]? = some e := by
  rw [MemoryStore.listEvents, BTreeMap.mem_values]
  constructor
  · rintro ⟨hash, he⟩
    rwa [h.events hash e he]
  · intro he
    exact ⟨_, he⟩

theorem WellKeyed.nodup_eventHash {store : MemoryStore} (h : WellKeyed store) :
    (store.listEvents.map VectorEvent.eventHash).Nodup := BTreeMap.nodup_map_values h.events

/-- An admitted event joins the stored ones and nothing else changes. -/
theorem listEvents_addEvent_perm {eng : KernelEngine} {e : VectorEvent}
    (hfresh : eng.store.events[e.eventHash]? = none) :
    (eng.addEvent e).store.listEvents.Perm (e :: eng.store.listEvents) :=
  BTreeMap.values_insert_perm_of_none e hfresh

/-- The chosen parent, if there is one, is a stored event of the entity. -/
theorem mem_latestParent {eng : KernelEngine} {entityId p : String}
    (hp : p ∈ eng.latestParentHashForEntity entityId) :
    ∃ q ∈ eng.store.listEvents, q.eventHash = p ∧ q.entityId = entityId := by
  rw [KernelEngine.latestParentHashForEntity, Option.mem_toList, Option.map_eq_some_iff] at hp
  obtain ⟨q, hq, rfl⟩ := hp
  refine ⟨q, ?_, rfl, by simpa using List.find?_some hq⟩
  have hmem := List.mem_of_find?_eq_some hq
  rwa [List.mem_reverse, (queryEvents_perm eng).mem_iff] at hmem

theorem length_latestParent_le (eng : KernelEngine) (entityId : String) :
    (eng.latestParentHashForEntity entityId).length ≤ 1 := by
  rw [KernelEngine.latestParentHashForEntity]
  exact Option.length_toList_le

/-! ## Validation -/

/-- What validation says about an event on its own. -/
structure EventChecks (env : Platform) (e : VectorEvent) : Prop where
  payloadHash_eq : e.payloadHash = canonicalPayloadHash env e
  eventHash_eq : e.eventHash = canonicalEventHash env e
  region_root : isRegionCreateEvent e = true → e.parentHashes = [] ∧ isBlank e.signature = false

theorem eventChecks_of_validateEvent {env : Platform} {e : VectorEvent} {u : Unit}
    (h : validateEvent env e = .ok u) : EventChecks env e := by
  simp only [validateEvent, Outcome.bind_eq_ok_iff, Outcome.require_eq_ok_iff] at h
  obtain ⟨_, _, _, _, _, _, _, _, _, _, _, _, _, hpayload, _, hhash, hrest⟩ := h
  refine ⟨hpayload, hhash, ?_⟩
  intro hregion
  rw [if_pos hregion] at hrest
  simp only [Outcome.bind_eq_ok_iff, Outcome.require_eq_ok_iff] at hrest
  obtain ⟨_, hsignature, _, hroot, _⟩ := hrest
  exact ⟨hroot, hsignature⟩

/-! ## The invariant -/

/-- The stored events, one by one and by their parents. -/
structure EventGraph (env : Platform) (store : MemoryStore) : Prop where
  keyed : WellKeyed store
  checks : ∀ e ∈ store.listEvents, EventChecks env e
  one_parent : ∀ e ∈ store.listEvents, e.parentHashes.length ≤ 1
  parent_stored : ∀ e ∈ store.listEvents, ∀ p ∈ e.parentHashes,
    ∃ q ∈ store.listEvents, q.eventHash = p ∧ q.entityId = e.entityId
  ranked : ∃ rank : String → ℕ, ∀ e ∈ store.listEvents, ∀ p ∈ e.parentHashes,
    rank p < rank e.eventHash

theorem EventGraph.congr {env : Platform} {store store' : MemoryStore}
    (h : EventGraph env store) (hkeyed : WellKeyed store')
    (hevents : store.events = store'.events) : EventGraph env store' := by
  have hlist : store.listEvents = store'.listEvents := by
    rw [MemoryStore.listEvents, MemoryStore.listEvents, hevents]
  exact ⟨hkeyed, hlist ▸ h.checks, hlist ▸ h.one_parent, hlist ▸ h.parent_stored,
    hlist ▸ h.ranked⟩

theorem EventGraph.addEvent {env : Platform} {eng : KernelEngine} {e : VectorEvent}
    (h : EventGraph env eng.store) (hparents : ParentsChosen eng e)
    (hadm : Admissible env eng.store e) : EventGraph env (eng.addEvent e).store := by
  have hfresh := hadm.appendable.hash_fresh
  have hmem : ∀ x, x ∈ (eng.addEvent e).store.listEvents ↔ x = e ∨ x ∈ eng.store.listEvents := by
    intro x
    rw [(listEvents_addEvent_perm hfresh).mem_iff, List.mem_cons]
  have hstored : ∀ x ∈ eng.store.listEvents, x.eventHash ≠ e.eventHash := by
    intro x hx heq
    rw [h.keyed.mem_listEvents_iff, heq, hfresh] at hx
    cases hx
  -- The new event's parents are stored events of its entity.
  have hown : ∀ p ∈ e.parentHashes,
      ∃ q ∈ eng.store.listEvents, q.eventHash = p ∧ q.entityId = e.entityId := by
    intro p hp
    rcases hparents with hnil | hlatest
    · rw [hnil] at hp
      cases hp
    · rw [hlatest] at hp
      exact mem_latestParent hp
  refine ⟨(EngineWrite.event e hparents hadm).wellKeyed h.keyed, ?_, ?_, ?_, ?_⟩
  · intro x hx
    rcases (hmem x).mp hx with rfl | hx
    · obtain ⟨u, hu⟩ := hadm.valid
      exact eventChecks_of_validateEvent hu
    · exact h.checks x hx
  · intro x hx
    rcases (hmem x).mp hx with rfl | hx
    · rcases hparents with hnil | hlatest
      · simp [hnil]
      · rw [hlatest]
        exact length_latestParent_le eng _
    · exact h.one_parent x hx
  · intro x hx p hp
    rcases (hmem x).mp hx with rfl | hx
    · obtain ⟨q, hq, hhash, hentity⟩ := hown p hp
      exact ⟨q, (hmem q).mpr (Or.inr hq), hhash, hentity⟩
    · obtain ⟨q, hq, hhash, hentity⟩ := h.parent_stored x hx p hp
      exact ⟨q, (hmem q).mpr (Or.inr hq), hhash, hentity⟩
  · obtain ⟨rank, hrank⟩ := h.ranked
    -- The new hash outranks the new event's parents and is nobody else's parent.
    refine ⟨fun hash => if hash = e.eventHash then (e.parentHashes.map rank).sum + 1
      else rank hash, ?_⟩
    have hne : ∀ x ∈ (eng.addEvent e).store.listEvents, ∀ p ∈ x.parentHashes,
        p ≠ e.eventHash := by
      intro x hx p hp heq
      have hq : ∃ q ∈ eng.store.listEvents, q.eventHash = p := by
        rcases (hmem x).mp hx with rfl | hx
        · obtain ⟨q, hq, hhash, _⟩ := hown p hp
          exact ⟨q, hq, hhash⟩
        · obtain ⟨q, hq, hhash, _⟩ := h.parent_stored x hx p hp
          exact ⟨q, hq, hhash⟩
      obtain ⟨q, hq, hhash⟩ := hq
      exact hstored q hq (hhash.trans heq)
    intro x hx p hp
    simp only [if_neg (hne x hx p hp)]
    rcases (hmem x).mp hx with rfl | hx
    · rw [if_pos rfl]
      have := List.single_le_sum (l := x.parentHashes.map rank) (by simp) (rank p)
        (List.mem_map.mpr ⟨p, hp, rfl⟩)
      omega
    · rw [if_neg (hstored x hx)]
      exact hrank x hx p hp

theorem EngineWrite.eventGraph {env : Platform} {eng eng' : KernelEngine}
    (hwrite : EngineWrite env eng eng') (h : EventGraph env eng.store) :
    EventGraph env eng'.store := by
  have hkeyed := hwrite.wellKeyed h.keyed
  cases hwrite with
  | state s _ => exact h.congr hkeyed rfl
  | record r => exact h.congr hkeyed (by simp)
  | event e hparents hadm => exact h.addEvent hparents hadm

theorem ReachableEngine.eventGraph {env : Platform} {policy : ConsensusPolicy}
    {eng : KernelEngine} (h : ReachableEngine env policy eng) : EventGraph env eng.store := by
  have hempty : (KernelEngine.initial policy).store.listEvents = [] := rfl
  refine h.invariant ⟨wellKeyed_initial policy, ?_, ?_, ?_, fun _ => 0, ?_⟩
    (fun _ _ hwrite hI => hwrite.eventGraph hI) <;> simp [hempty]

/-- A ranked graph has no cycle. -/
theorem EventGraph.acyclic {env : Platform} {store : MemoryStore} (h : EventGraph env store)
    (hash : String) : ¬ TransGen (ParentOf store.listEvents) hash hash := by
  obtain ⟨rank, hrank⟩ := h.ranked
  refine acyclic_of_rank rank ?_ hash
  rintro a b ⟨e, he, rfl, hp⟩
  exact hrank e he a hp

/-! ## Conflicts -/

theorem EventGraph.detectConflicts_queryEvents {env : Platform} {eng : KernelEngine}
    (h : EventGraph env eng.store) : detectConflicts eng.queryEvents = [] := by
  have hperm := queryEvents_perm eng
  refine (detectConflicts_eq_nil_iff _).mpr ⟨?_, ?_, ?_, ?_, ?_⟩
  · intro e he
    rw [(h.checks e (hperm.mem_iff.mp he)).eventHash_eq]
    exact env.blake3Hex_ne_empty _
  · exact (hperm.map _).nodup_iff.mpr h.keyed.nodup_eventHash
  · intro e he
    have hlen := h.one_parent e (hperm.mem_iff.mp he)
    match hp : e.parentHashes with
    | [] => exact List.nodup_nil
    | [p] => exact List.nodup_singleton p
    | p :: q :: ps =>
      rw [hp] at hlen
      simp at hlen
  · intro e he hself
    exact h.acyclic e.eventHash (.single ⟨e, hperm.mem_iff.mp he, rfl, hself⟩)
  · intro e he p hp
    obtain ⟨q, hq, hhash, _⟩ := h.parent_stored e (hperm.mem_iff.mp he) p hp
    exact ⟨q, hperm.mem_iff.mpr hq, hhash⟩

/-! ## Integrity -/

/-- Integrity of a store's event graph. -/
structure EventIntegrity (env : Platform) (store : MemoryStore) : Prop where
  payload_hash : ∀ e ∈ store.listEvents, e.payloadHash = canonicalPayloadHash env e
  event_hash : ∀ e ∈ store.listEvents, e.eventHash = canonicalEventHash env e
  one_parent : ∀ e ∈ store.listEvents, e.parentHashes.length ≤ 1
  parent_stored : ∀ e ∈ store.listEvents, ∀ p ∈ e.parentHashes,
    ∃ q ∈ store.listEvents, q.eventHash = p ∧ q.entityId = e.entityId
  region_root : ∀ e ∈ store.listEvents, isRegionCreateEvent e = true →
    e.parentHashes = [] ∧ isBlank e.signature = false
  acyclic : ∀ hash, ¬ TransGen (ParentOf store.listEvents) hash hash

/-- In every reachable engine the stored event graph is intact, and no conflict is found
in it. -/
theorem reachable_eventIntegrity {env : Platform} {policy : ConsensusPolicy}
    {eng : KernelEngine} (h : ReachableEngine env policy eng) :
    EventIntegrity env eng.store ∧ detectConflicts eng.queryEvents = [] := by
  have hgraph := h.eventGraph
  refine ⟨?_, hgraph.detectConflicts_queryEvents⟩
  exact {
    payload_hash := fun e he => (hgraph.checks e he).payloadHash_eq
    event_hash := fun e he => (hgraph.checks e he).eventHash_eq
    one_parent := hgraph.one_parent
    parent_stored := hgraph.parent_stored
    region_root := fun e he => (hgraph.checks e he).region_root
    acyclic := hgraph.acyclic }

theorem reachable_eventIntegrity_sample :
    EventIntegrity samplePlatform (engineAfter samplePlatform oneVector).store ∧
      detectConflicts (engineAfter samplePlatform oneVector).queryEvents = [] :=
  reachable_eventIntegrity (engineAfter_reachable samplePlatform oneVector)

end VKernelX
