/-
  Replay/Cuts.lean --- replaying a part of a history.

  A consistent cut keeps with an event its parents and what its entity had applied before it.
  Each entity's order is cut off somewhere and the registry takes fewer regions, so the kept
  events are replayed, in the order in which the whole replay applies them.
-/
import VKernelX.Foundation.Cuts
import VKernelX.Region.Registry
import VKernelX.Replay.Incremental

set_option autoImplicit false

namespace VKernelX

/-- With a kept event its parents are kept, and everything applied for its entity before it. -/
structure ConsistentCut (applied : List VectorEvent) (keep : VectorEvent → Bool) : Prop where
  parents : ∀ e ∈ applied, keep e = true →
    ∀ p ∈ applied, p.eventHash ∈ e.parentHashes → keep p = true
  earlier : ∀ entityId, TakesEarlier keep (eventsOf entityId applied)

theorem eventsOf_filter (keep : VectorEvent → Bool) (events : List VectorEvent)
    (entityId : String) :
    eventsOf entityId (events.filter keep) = (eventsOf entityId events).filter keep := by
  rw [eventsOf, eventsOf, List.filter_filter, List.filter_filter]
  exact List.filter_congr (fun e _ => Bool.and_comm _ _)

/-! ## The graph -/

/-- Keeping parents keeps a graph well formed. -/
theorem WellFormedDag.filter {events : List VectorEvent} (h : WellFormedDag events)
    {keep : VectorEvent → Bool} (hparents : ∀ e ∈ events, keep e = true →
      ∀ p ∈ events, p.eventHash ∈ e.parentHashes → keep p = true) :
    WellFormedDag (events.filter keep) where
  hash_ne := fun e he => h.hash_ne e (List.mem_filter.mp he).1
  hash_nodup := h.hash_nodup.sublist (List.filter_sublist.map VectorEvent.eventHash)
  parents_nodup := fun e he => h.parents_nodup e (List.mem_filter.mp he).1
  parents_admissible := by
    intro e he p hp
    obtain ⟨hmem, hkeep⟩ := List.mem_filter.mp he
    obtain ⟨parent, hparent, rfl, hregion⟩ := h.parents_admissible e hmem p hp
    exact ⟨parent, List.mem_filter.mpr ⟨hparent, hparents e hmem hkeep parent hparent hp⟩, rfl,
      hregion⟩
  acyclic := by
    intro hash hcycle
    refine h.acyclic hash (hcycle.lift id ?_)
    rintro p child ⟨e, he, rfl, hp⟩
    exact ⟨e, (List.mem_filter.mp he).1, rfl, hp⟩

/-! ## The order of one entity -/

/-- The order of an entity's kept events is the initial part of its order they make up. -/
theorem orderEntityEvents_filter {group ordered : List VectorEvent} {keep : VectorEvent → Bool}
    (hne : group ≠ []) (hnodup : (group.map VectorEvent.eventHash).Nodup)
    (hparents : ∀ e ∈ group, e.parentHashes.Nodup) (horder : EntityOrder group ordered)
    (hrun : orderEntityEvents group = .ok ordered) (hkeep : TakesEarlier keep ordered) :
    orderEntityEvents (group.filter keep) = .ok (ordered.filter keep) := by
  have hperm : (ordered.filter keep).Perm (group.filter keep) := horder.perm.filter keep
  by_cases hnil : group.filter keep = []
  · rw [hnil] at hperm ⊢
    rw [List.perm_nil.mp hperm]
    rfl
  have hsub : (group.filter keep).Sublist group := List.filter_sublist
  have hnodup' : ((group.filter keep).map VectorEvent.eventHash).Nodup :=
    hnodup.sublist (hsub.map _)
  obtain ⟨rest, hrest⟩ := hkeep.filter_prefix
  obtain ⟨all, hall, hspec⟩ := orderEntityEvents_spec hne hnodup hparents
  rw [hspec] at hrun
  simp only [Outcome.bind_eq_ok_iff, Outcome.require_eq_ok_iff] at hrun
  obtain ⟨_, hroots, _, _, hordered⟩ := hrun
  have hhashes : ordered.map VectorEvent.eventHash = all := by
    rw [← Except.ok.inj hordered, List.map_map]
    refine (List.map_congr_left ?_).trans (List.map_id all)
    intro v hv
    obtain ⟨e, he, rfl⟩ := List.mem_map.mp (hall.subset v hv)
    simp only [Function.comp, eventAt_eventHash hnodup he, id]
  -- The parents of a kept event are applied before it, so they are kept.
  have hown : ∀ e ∈ ordered.filter keep,
      ownParents (group.filter keep) e.eventHash = ownParents group e.eventHash := by
    intro e he
    obtain ⟨hmem, hkept⟩ := List.mem_filter.mp he
    have hgroup : e ∈ group := horder.perm.mem_iff.mp hmem
    rw [ownParents, ownParents, parentsIn_of_mem hnodup _ hgroup,
      parentsIn_of_mem hnodup' _ (List.mem_filter.mpr ⟨hgroup, hkept⟩)]
    refine List.filter_congr (fun p hp => ?_)
    rw [ownParent, ownParent, decide_eq_decide]
    refine ⟨fun hin => (hsub.map _).subset hin, fun hin => ?_⟩
    obtain ⟨parent, hparent, rfl⟩ := List.mem_map.mp hin
    obtain ⟨before, after, hsplit⟩ := List.append_of_mem hmem
    have hbefore := horder.ownParents_mem hnodup hsplit hparent hp
    exact List.mem_map_of_mem (List.mem_filter.mpr
      ⟨hparent, hkeep before e after hsplit hkept parent hbefore⟩)
  have hmemHash : ∀ v, v ∈ (group.filter keep).map VectorEvent.eventHash ↔
      v ∈ (ordered.filter keep).map VectorEvent.eventHash := fun v =>
    (hperm.map VectorEvent.eventHash).symm.mem_iff
  have hat : ∀ v ∈ (ordered.filter keep).map VectorEvent.eventHash,
      eventAt (group.filter keep) v = eventAt group v := by
    intro v hv
    obtain ⟨e, he, rfl⟩ := List.mem_map.mp hv
    have he' : e ∈ group.filter keep := hperm.mem_iff.mp he
    rw [eventAt_eventHash hnodup' he', eventAt_eventHash hnodup (hsub.subset he')]
  have hcausal : CausalList (ReplayPrefers (group.filter keep))
      ((group.filter keep).map VectorEvent.eventHash) (ownParents (group.filter keep))
      ((ordered.filter keep).map VectorEvent.eventHash) := by
    rw [← hhashes, ← hrest, List.map_append] at hall
    refine hall.cut hmemHash ?_ ?_
    · intro v hv
      obtain ⟨e, he, rfl⟩ := List.mem_map.mp hv
      exact hown e he
    · intro v hv w hw hprefers
      rwa [ReplayPrefers, hat v hv, hat w hw]
  have hroots' : (rootHashes (group.filter keep)).length = 1 := by
    have hle : (rootHashes (group.filter keep)).Sublist (rootHashes group) := by
      have heq : rootHashes (group.filter keep) =
          ((group.filter keep).map VectorEvent.eventHash).filter
            (fun hash => ownParents group hash = []) := by
        refine List.filter_congr (fun v hv => ?_)
        obtain ⟨e, he, rfl⟩ := List.mem_map.mp ((hmemHash v).mp hv)
        rw [hown e he]
      rw [heq]
      exact (hsub.map _).filter _
    obtain ⟨first, tail, hfirst⟩ := List.exists_cons_of_ne_nil
      (fun hempty => hnil (List.nil_perm.mp (hempty ▸ hperm)))
    have hmem : first ∈ ordered.filter keep := by rw [hfirst]; exact List.mem_cons_self
    have hroot := (horder.root_first hnodup hroots
      (show ordered = first :: (tail ++ rest) by rw [← hrest, hfirst]; rfl)).1
    have hone : first.eventHash ∈ rootHashes (group.filter keep) :=
      List.mem_filter.mpr ⟨(hmemHash _).mpr (List.mem_map_of_mem hmem),
        decide_eq_true ((hown first hmem).trans hroot)⟩
    have hpos := List.length_pos_of_mem hone
    have := hle.length_le
    omega
  rw [orderEntityEvents_eq_ok hnil hnodup' (fun e he => hparents e (hsub.subset he)) hroots'
    (by rw [List.length_map]; exact hperm.length_eq) hcausal, List.map_map]
  refine congrArg Except.ok ((List.map_congr_left ?_).trans (List.map_id _))
  intro e he
  exact eventAt_eventHash hnodup' (hperm.mem_iff.mp he)

/-! ## The orders of all entities -/

theorem pairwise_entityIds (events : List VectorEvent) : (entityIds events).Pairwise (· < ·) := by
  rw [entityIds, List.pairwise_map]
  exact Std.ExtTreeMap.ordered_keys_toList.imp (fun h => compare_lt_iff_lt.mp h)

/-- The entities are the only sorted list of the ids with events. -/
theorem entityIds_eq {events : List VectorEvent} {ids : List String}
    (hsorted : ids.Pairwise (· < ·)) (hmem : ∀ id, id ∈ ids ↔ eventsOf id events ≠ []) :
    entityIds events = ids := by
  refine List.Perm.eq_of_pairwise (fun a b _ _ hab hba => absurd (hab.trans hba) (lt_irrefl a))
    (pairwise_entityIds events) hsorted ?_
  refine (List.perm_ext_iff_of_nodup (nodup_entityIds events)
    (hsorted.imp (fun hlt => hlt.ne))).mpr (fun id => ?_)
  rw [mem_entityIds, hmem]

/-- The entities in the order replay takes them, those without a kept event left out. -/
theorem entityIds_filter (keep : VectorEvent → Bool) (events : List VectorEvent) :
    entityIds (events.filter keep) =
      (entityIds events).filter (fun id => (eventsOf id events).filter keep ≠ []) := by
  refine entityIds_eq ((pairwise_entityIds events).filter _) (fun id => ?_)
  rw [eventsOf_filter, List.mem_filter, mem_entityIds, decide_eq_true_eq]
  exact ⟨fun h => h.2, fun h => ⟨fun hnil => h (by rw [hnil, List.filter_nil]), h⟩⟩

section

variable {events : List VectorEvent} {keep : VectorEvent → Bool} (hwf : WellFormedDag events)
  (hordered : ∀ entityId, orderEntityEvents (eventsOf entityId events) =
    .ok (entityOrder events entityId)) (hcut : ConsistentCut (appliedEvents events) keep)

include hwf hordered hcut

theorem ConsistentCut.orderEntityEvents_eq (entityId : String) :
    orderEntityEvents (eventsOf entityId (events.filter keep)) =
      .ok ((entityOrder events entityId).filter keep) := by
  have hearlier := hcut.earlier entityId
  rw [eventsOf_appliedEvents hwf hordered] at hearlier
  have hsub : (eventsOf entityId events).Sublist events := List.filter_sublist
  rw [eventsOf_filter]
  by_cases hne : eventsOf entityId events = []
  · have hperm := entityOrder_perm hwf (hordered entityId)
    rw [hne] at hperm ⊢
    rw [List.perm_nil.mp hperm]
    rfl
  · exact orderEntityEvents_filter hne (hwf.hash_nodup.sublist (hsub.map _))
      (fun e he => hwf.parents_nodup e (hsub.subset he))
      (entityOrder_spec hwf hne (hordered entityId)).1 (hordered entityId) hearlier

theorem ConsistentCut.entityOrder_eq (entityId : String) :
    entityOrder (events.filter keep) entityId = (entityOrder events entityId).filter keep :=
  entityOrder_of_ok (hcut.orderEntityEvents_eq hwf hordered entityId)

/-- The kept events are applied in the order of the whole replay. -/
theorem ConsistentCut.appliedEvents_eq :
    appliedEvents (events.filter keep) = (appliedEvents events).filter keep := by
  have hempty : ∀ id, (eventsOf id events).filter keep = [] →
      (entityOrder events id).filter keep = [] := by
    intro id hnil
    have hperm := (entityOrder_perm hwf (hordered id)).filter keep
    rw [hnil] at hperm
    exact List.perm_nil.mp hperm
  rw [appliedEvents, appliedEvents, entityIds_filter, List.filter_flatMap]
  induction entityIds events with
  | nil => rfl
  | cons id ids ih =>
    rw [List.flatMap_cons, ← ih]
    by_cases hnil : (eventsOf id events).filter keep = []
    · rw [List.filter_cons_of_neg (by simpa using hnil), hempty id hnil, List.nil_append]
    · rw [List.filter_cons_of_pos (by simpa using hnil), List.flatMap_cons,
        hcut.entityOrder_eq hwf hordered]

end

/-! ## The registry -/

/-- A registry with nothing in it that another does not hold. -/
structure CoreState.Within (core core' : CoreState) : Prop where
  regions : ∀ (id : String) (region : RegionState),
    core.regions[id]? = some region → core'.regions[id]? = some region
  total : core.totalAuthRatioBps.toNat ≤ core'.totalAuthRatioBps.toNat
  version : core.version.toNat ≤ core'.version.toNat

/-- What the larger registry takes the smaller one takes as well. -/
theorem CoreState.Within.insertRegion {env : Platform} {core core' next' : CoreState}
    {region : RegionState} (h : core.Within core')
    (hinsert : core'.insertRegion env region = .ok next') :
    ∃ next, core.insertRegion env region = .ok next ∧ next.Within next' := by
  obtain ⟨⟨hfresh, htotal, hversion⟩, rfl⟩ := insertRegion_eq_ok_iff.mp hinsert
  have hle := h.total
  have hle' := h.version
  have hnone : core.regions[region.regionId]? = none := by
    cases hlookup : core.regions[region.regionId]? with
    | none => rfl
    | some region' => rw [h.regions _ _ hlookup] at hfresh; cases hfresh
  refine ⟨_, insertRegion_eq_ok_iff.mpr ⟨⟨hnone, by omega, by omega⟩, rfl⟩, ?_, ?_, ?_⟩
  · intro id region' hlookup
    simp only [CoreState.withRegion, BTreeMap.lookup_insert] at hlookup ⊢
    split at hlookup
    · rename_i hid
      rwa [if_pos hid]
    · rename_i hid
      rw [if_neg hid]
      exact h.regions id region' hlookup
  · simp only [CoreState.withRegion, UInt64.toNat_add]
    rw [Nat.mod_eq_of_lt htotal, Nat.mod_eq_of_lt (by omega)]
    omega
  · simp only [CoreState.withRegion]
    rw [toNat_succ hversion, toNat_succ (by omega)]
    omega

/-- A part of a history registers a part of its regions. -/
theorem coreStateFromEvents_filter {env : Platform} {events : List VectorEvent}
    (keep : VectorEvent → Bool) {core : CoreState}
    (h : coreStateFromEvents env events = .ok core) :
    ∃ kept, coreStateFromEvents env (events.filter keep) = .ok kept ∧ kept.Within core := by
  induction events using List.reverseRecOn generalizing core with
  | nil =>
    obtain rfl := Except.ok.inj h
    exact ⟨_, rfl, fun _ _ hlookup => hlookup, Nat.le_refl _, Nat.le_refl _⟩
  | append_singleton events e ih =>
    rw [coreStateFromEvents, List.foldlM_append, Outcome.bind_eq_ok_iff] at h
    obtain ⟨mid, hmid, hlast⟩ := h
    simp only [List.foldlM_cons, List.foldlM_nil, bind_pure] at hlast
    obtain ⟨keptMid, hkeptMid, hwithin⟩ := ih hmid
    have hrun : ∀ {next}, registerEvent env keptMid e = .ok next →
        coreStateFromEvents env (events.filter keep ++ [e]) = .ok next := by
      intro next hnext
      rw [coreStateFromEvents, List.foldlM_append, Outcome.bind_eq_ok_iff]
      exact ⟨keptMid, hkeptMid, by simpa using hnext⟩
    rw [List.filter_append]
    by_cases hkeep : keep e = true
    · rw [List.filter_cons_of_pos hkeep, List.filter_nil]
      rcases registerEvent_eq_ok_iff.mp hlast with ⟨hplain, rfl⟩ | ⟨hregion, region, hread, hinsert⟩
      · exact ⟨keptMid, hrun (registerEvent_eq_ok_iff.mpr (Or.inl ⟨hplain, rfl⟩)), hwithin⟩
      · obtain ⟨next, hnext, hwithin'⟩ := hwithin.insertRegion hinsert
        exact ⟨next, hrun (registerEvent_eq_ok_iff.mpr
          (Or.inr ⟨hregion, region, hread, hnext⟩)), hwithin'⟩
    · rw [List.filter_cons_of_neg hkeep, List.filter_nil, List.append_nil]
      refine ⟨keptMid, hkeptMid, ?_⟩
      rcases registerEvent_eq_ok_iff.mp hlast with ⟨_, rfl⟩ | ⟨_, region, _, hinsert⟩
      · exact hwithin
      · obtain ⟨⟨hfresh, htotal, hversion⟩, rfl⟩ := insertRegion_eq_ok_iff.mp hinsert
        have hle := hwithin.total
        have hle' := hwithin.version
        refine ⟨fun id region' hlookup => ?_, ?_, ?_⟩
        · have hold := hwithin.regions id region' hlookup
          have hne : region.regionId ≠ id := fun heq => by rw [heq, hold] at hfresh; cases hfresh
          simp only [CoreState.withRegion, BTreeMap.lookup_insert_of_ne _ _ hne, hold]
        · simp only [CoreState.withRegion, UInt64.toNat_add]
          rw [Nat.mod_eq_of_lt htotal]
          omega
        · simp only [CoreState.withRegion]
          rw [toNat_succ hversion]
          omega

/-! ## Replay -/

theorem AcceptedInTurn.of_append {ordered rest : List VectorEvent}
    (h : AcceptedInTurn (ordered ++ rest)) : AcceptedInTurn ordered := by
  intro before e after hsplit
  exact h before e (after ++ rest) (by rw [hsplit]; simp)

/-- A consistent cut of a replayed history is replayed: the kept events are applied in the same
order, every entity ends where its last kept event left it, and the registry holds regions of
the whole history's. -/
theorem replayEvents_consistentCut {env : Platform} {events : List VectorEvent}
    {result : ReplayResult} {keep : VectorEvent → Bool}
    (h : replayEvents env events = .ok result)
    (hcut : ConsistentCut (result.appliedFrom events) keep) :
    ∃ result', replayEvents env (events.filter keep) = .ok result' ∧
      result'.appliedFrom (events.filter keep) = (result.appliedFrom events).filter keep ∧
      (∀ entityId : String, result'.finalState[entityId]? =
        (eventsOf entityId ((result.appliedFrom events).filter keep)).getLast?.map
          VectorEvent.vectorAfter) ∧
      ∀ (id : String) (region : RegionState), result'.coreState.regions[id]? = some region →
        result.coreState.regions[id]? = some region := by
  obtain ⟨hwf, hordered, haccepted, core, hcore, rfl⟩ := replayEvents_eq_ok_iff_accepted.mp h
  have hperm := appliedEvents_perm hwf hordered
  rw [appliedFrom_replayOutcome hwf hperm] at hcut ⊢
  have hwf' : WellFormedDag (events.filter keep) := by
    refine hwf.filter (fun e he hkeep p hp hparent => ?_)
    exact hcut.parents e (hperm.mem_iff.mpr he) hkeep p (hperm.mem_iff.mpr hp) hparent
  have happlied := hcut.appliedEvents_eq hwf hordered
  have horder := fun entityId => hcut.entityOrder_eq hwf hordered entityId
  have hordered' : ∀ entityId, orderEntityEvents (eventsOf entityId (events.filter keep)) =
      .ok (entityOrder (events.filter keep) entityId) := by
    intro entityId
    rw [horder, hcut.orderEntityEvents_eq hwf hordered]
  have haccepted' : ∀ entityId, AcceptedInTurn (entityOrder (events.filter keep) entityId) := by
    intro entityId
    have hearlier := hcut.earlier entityId
    rw [eventsOf_appliedEvents hwf hordered] at hearlier
    obtain ⟨rest, hrest⟩ := hearlier.filter_prefix
    rw [horder]
    exact (hrest.symm ▸ haccepted entityId).of_append
  obtain ⟨kept, hkept, hwithin⟩ := coreStateFromEvents_filter keep hcore
  rw [← happlied] at hkept ⊢
  refine ⟨_, replayEvents_eq_ok_iff_accepted.mpr ⟨hwf', hordered', haccepted', kept, hkept, rfl⟩,
    appliedFrom_replayOutcome hwf' (appliedEvents_perm hwf' hordered') kept,
    lookup_stateAfter _, hwithin.regions⟩

/-- The creation of "a" and its certification, without the certification. -/
theorem replayEvents_consistentCut_creation :
    ∃ result', replayEvents samplePlatform ([sampleFollowUp, sampleCreation "a"].filter
        (fun e => e.operation ≠ .certify)) = .ok result' ∧
      result'.finalState["a"]? = some (sampleCreation "a").vectorAfter := by
  let result : ReplayResult := replayOutcome samplePlatform [sampleCreation "a", sampleFollowUp]
    (CoreState.new samplePlatform)
  have happlied : result.appliedFrom [sampleFollowUp, sampleCreation "a"] =
      [sampleCreation "a", sampleFollowUp] := by decide +kernel
  have hearlier : ∀ entityId, TakesEarlier (fun e => e.operation ≠ .certify)
      (eventsOf entityId [sampleCreation "a", sampleFollowUp]) := by
    intro entityId
    by_cases hid : "a" = entityId
    · subst hid
      decide +kernel
    · have hnil : eventsOf entityId [sampleCreation "a", sampleFollowUp] = [] :=
        List.filter_eq_nil_iff.mpr (by
          intro e he heq
          have hname : e.entityId = "a" := by
            simp only [List.mem_cons, List.not_mem_nil, or_false] at he
            rcases he with rfl | rfl <;> rfl
          exact hid (hname.symm.trans (of_decide_eq_true heq)))
      rw [hnil]
      decide
  obtain ⟨result', hok, _, hfinal, _⟩ := @replayEvents_consistentCut samplePlatform
    [sampleFollowUp, sampleCreation "a"] result (fun e => e.operation ≠ .certify)
    (by decide +kernel) ⟨by rw [happlied]; decide +kernel, by rw [happlied]; exact hearlier⟩
  refine ⟨result', hok, (hfinal "a").trans ?_⟩
  rw [happlied]
  decide +kernel

end VKernelX
