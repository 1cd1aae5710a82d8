/-
  Replay/OrderIndependence.lean --- replay does not depend on the order in which the
  events are listed.

  The three list-driven stages are taken one by one: validation looks at the set of events
  only, the grouping of a permuted list has permuted groups, and a permuted group has the
  same causal order.
-/
import VKernelX.Dag.WellFormed
import VKernelX.Replay.Ordering

set_option autoImplicit false

namespace VKernelX

/-! ## Validation -/

theorem WellFormedDag.perm {events events' : List VectorEvent} (h : WellFormedDag events)
    (hperm : events.Perm events') : WellFormedDag events' := by
  have hparent : ParentOf events' = ParentOf events := by
    funext p hash
    simp only [ParentOf, hperm.mem_iff]
  refine {
    hash_ne := fun e he => h.hash_ne e (hperm.mem_iff.mpr he)
    hash_nodup := (hperm.map _).nodup_iff.mp h.hash_nodup
    parents_nodup := fun e he => h.parents_nodup e (hperm.mem_iff.mpr he)
    parents_admissible := ?_
    acyclic := ?_ }
  · intro e he p hp
    obtain ⟨parent, hmem, hhash, hregion⟩ :=
      h.parents_admissible e (hperm.mem_iff.mpr he) p hp
    exact ⟨parent, hperm.mem_iff.mp hmem, hhash, hregion⟩
  · rw [hparent]
    exact h.acyclic

/-! ## Grouping -/

/-- One entity's events, in list order. -/
def eventsOf (entityId : String) (events : List VectorEvent) : List VectorEvent :=
  events.filter (fun e => e.entityId = entityId)

/-- A group holds the entity's events; an entity without events has no group. -/
theorem lookup_groupByEntity (events : List VectorEvent) (entityId : String) :
    (groupByEntity events)[entityId]? =
      if eventsOf entityId events = [] then none else some (eventsOf entityId events) := by
  suffices key : ∀ (l : List VectorEvent) (m : BTreeMap String (List VectorEvent)),
      (l.foldl (fun byEntity e =>
        byEntity.insert e.entityId ((byEntity[e.entityId]?).getD [] ++ [e])) m)[entityId]? =
        if eventsOf entityId l = [] then m[entityId]?
        else some ((m[entityId]?).getD [] ++ eventsOf entityId l) by
    have := key events ∅
    simpa [groupByEntity] using this
  intro l
  induction l with
  | nil => exact fun m => by simp [eventsOf]
  | cons e l ih =>
    intro m
    rw [List.foldl_cons, ih, BTreeMap.lookup_insert]
    by_cases he : e.entityId = entityId
    · subst he
      have hcons : eventsOf e.entityId (e :: l) = e :: eventsOf e.entityId l := by
        simp [eventsOf]
      rw [hcons]
      by_cases hl : eventsOf e.entityId l = [] <;> simp [hl]
    · have hcons : eventsOf entityId (e :: l) = eventsOf entityId l := by
        simp [eventsOf, he]
      rw [hcons, if_neg he]

/-- The groups of a permuted list: the same entities, with permuted events. -/
theorem values_groupByEntity_perm {events events' : List VectorEvent}
    (hperm : events.Perm events') :
    ∃ f : String → List VectorEvent → List VectorEvent,
      BTreeMap.values (groupByEntity events') =
        (groupByEntity events).toList.map (fun entry => f entry.1 entry.2) ∧
      ∀ entry ∈ (groupByEntity events).toList, entry.2.Perm (f entry.1 entry.2) := by
  have hfilter : ∀ entityId, (eventsOf entityId events).Perm (eventsOf entityId events') :=
    fun entityId => hperm.filter _
  refine ⟨fun entityId _ => eventsOf entityId events', ?_, ?_⟩
  · have hmap : groupByEntity events' =
        (groupByEntity events).map (fun entityId _ => eventsOf entityId events') := by
      apply Std.ExtTreeMap.ext_getElem?
      intro entityId
      have hiff : eventsOf entityId events = [] ↔ eventsOf entityId events' = [] := by
        rw [← List.length_eq_zero_iff, ← List.length_eq_zero_iff, (hfilter entityId).length_eq]
      rw [Std.ExtTreeMap.getElem?_map, lookup_groupByEntity, lookup_groupByEntity]
      by_cases hnil : eventsOf entityId events = []
      · simp [hnil, hiff.mp hnil]
      · simp [hnil, hiff.not.mp hnil]
    rw [hmap, BTreeMap.values, Std.ExtTreeMap.toList_map, List.map_map]
    rfl
  · rintro ⟨entityId, group⟩ hentry
    rw [BTreeMap.mem_toList, lookup_groupByEntity] at hentry
    split at hentry
    · cases hentry
    · rw [← Option.some.inj hentry]
      exact hfilter entityId

theorem mem_of_mem_group {events : List VectorEvent} {entry : String × List VectorEvent}
    (h : entry ∈ (groupByEntity events).toList) : entry.2 = eventsOf entry.1 events := by
  rw [BTreeMap.mem_toList, lookup_groupByEntity] at h
  split at h
  · cases h
  · exact (Option.some.inj h).symm

/-! ## Replay -/

theorem foldlM_congr_mem {σ α ε : Type} {f g : σ → α → Outcome ε σ} {l : List α}
    (h : ∀ a ∈ l, ∀ s, f s a = g s a) (s : σ) : l.foldlM f s = l.foldlM g s := by
  induction l generalizing s with
  | nil => rfl
  | cons a l ih =>
    rw [List.foldlM_cons, List.foldlM_cons, h a List.mem_cons_self]
    congr 1
    funext s'
    exact ih (fun b hb => h b (List.mem_cons_of_mem a hb)) s'

/-- On a well-formed graph replay takes the same course on every listing of the events. -/
theorem replayEvents_eq_of_wellFormed (env : Platform) {events events' : List VectorEvent}
    (hperm : events.Perm events') (hwf : WellFormedDag events) :
    replayEvents env events = replayEvents env events' := by
  obtain ⟨_, hvalid⟩ := (validateDag_isOk_iff_wellFormed events).mpr hwf
  obtain ⟨_, hvalid'⟩ := (validateDag_isOk_iff_wellFormed events').mpr (hwf.perm hperm)
  obtain ⟨f, hvalues, hgroups⟩ := values_groupByEntity_perm hperm
  have hentity : ∀ entry ∈ (groupByEntity events).toList, ∀ progress,
      replayEntity env progress entry.2 = replayEntity env progress (f entry.1 entry.2) := by
    intro entry hentry progress
    have hsub : entry.2.Sublist events := by
      rw [mem_of_mem_group hentry]
      exact List.filter_sublist
    rw [replayEntity, replayEntity, orderEntityEvents_perm (hgroups entry hentry)
      (hwf.hash_nodup.sublist (hsub.map _))
      (fun e he => hwf.parents_nodup e (hsub.subset he))]
  rw [replayEvents, replayEvents, hvalid, hvalid', hvalues, BTreeMap.values, List.foldlM_map,
    List.foldlM_map, foldlM_congr_mem hentity]

/-- Replay succeeds on a list exactly when it succeeds on any permutation of it, and then
with the same result. -/
theorem replayEvents_perm (env : Platform) {events events' : List VectorEvent}
    (hperm : events.Perm events') :
    ((replayEvents env events).IsOk ↔ (replayEvents env events').IsOk) ∧
      ∀ result, replayEvents env events = .ok result →
        replayEvents env events' = .ok result := by
  have hok : ∀ l, (replayEvents env l).IsOk → WellFormedDag l := by
    rintro l ⟨result, hresult⟩
    obtain ⟨u, hu, _⟩ := Outcome.bind_eq_ok_iff.mp hresult
    exact (validateDag_isOk_iff_wellFormed l).mp ⟨u, hu⟩
  refine ⟨⟨?_, ?_⟩, ?_⟩
  · intro h
    rwa [← replayEvents_eq_of_wellFormed env hperm (hok _ h)]
  · intro h
    rwa [← replayEvents_eq_of_wellFormed env hperm.symm (hok _ h)]
  · intro result hresult
    rw [← replayEvents_eq_of_wellFormed env hperm (hok _ ⟨result, hresult⟩), hresult]

/-- The creation of an entity, with nothing else in it. -/
def sampleCreation (entityId : String) : VectorEvent :=
  VectorEvent.seal samplePlatform
    { (default : VectorEvent) with entityId := entityId, operation := .originCreate }

theorem replayEvents_perm_swap :
    ((replayEvents samplePlatform [sampleCreation "a", sampleCreation "b"]).IsOk ↔
        (replayEvents samplePlatform [sampleCreation "b", sampleCreation "a"]).IsOk) ∧
      ∀ result, replayEvents samplePlatform [sampleCreation "a", sampleCreation "b"] = .ok result →
        replayEvents samplePlatform [sampleCreation "b", sampleCreation "a"] = .ok result :=
  replayEvents_perm samplePlatform (List.Perm.swap _ _ _)

end VKernelX
