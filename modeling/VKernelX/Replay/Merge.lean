/-
  Replay/Merge.lean --- replaying two histories of different entities as one.

  Every entity's order is the one it has in its own history, and a region's id is the id of
  its entity, so the registries have no region in common.  What can stop the merged replay is
  only that the totals of the two registries do not fit together.
-/
import VKernelX.Region.Names
import VKernelX.Region.Registry
import VKernelX.Replay.Incremental

set_option autoImplicit false

namespace VKernelX

/-- Two histories without a common entity or a common hash. -/
structure Apart (events events' : List VectorEvent) : Prop where
  entities : ∀ e ∈ events, ∀ e' ∈ events', e.entityId ≠ e'.entityId
  hashes : ∀ e ∈ events, ∀ e' ∈ events', e.eventHash ≠ e'.eventHash

theorem Apart.symm {events events' : List VectorEvent} (h : Apart events events') :
    Apart events' events where
  entities := fun e he e' he' heq => h.entities e' he' e he heq.symm
  hashes := fun e he e' he' heq => h.hashes e' he' e he heq.symm

/-! ## The graph -/

/-- A path that ends in one of the histories has never left it. -/
theorem Apart.path {events events' : List VectorEvent} (h : Apart events events')
    (hwf : WellFormedDag events) {hash hash' : String}
    (hpath : Relation.TransGen (ParentOf (events ++ events')) hash hash')
    (hend : hash' ∈ events.map VectorEvent.eventHash) :
    Relation.TransGen (ParentOf events) hash hash' := by
  have hedge : ∀ a b, ParentOf (events ++ events') a b → b ∈ events.map VectorEvent.eventHash →
      ParentOf events a b ∧ a ∈ events.map VectorEvent.eventHash := by
    rintro a b ⟨e, he, rfl, ha⟩ hb
    obtain ⟨e', he', hhash⟩ := List.mem_map.mp hb
    have hmem : e ∈ events := (List.mem_append.mp he).resolve_right
      (fun hright => h.hashes e' he' e hright hhash)
    obtain ⟨parent, hparent, rfl, _⟩ := hwf.parents_admissible e hmem a ha
    exact ⟨⟨e, hmem, rfl, ha⟩, List.mem_map_of_mem hparent⟩
  induction hpath with
  | single hstep => exact .single (hedge _ _ hstep hend).1
  | tail _ hstep ih =>
    obtain ⟨hstep', hmid⟩ := hedge _ _ hstep hend
    exact .tail (ih hmid) hstep'

theorem Apart.wellFormedDag {events events' : List VectorEvent} (h : Apart events events')
    (hwf : WellFormedDag events) (hwf' : WellFormedDag events') :
    WellFormedDag (events ++ events') where
  hash_ne := fun e he => (List.mem_append.mp he).elim (hwf.hash_ne e) (hwf'.hash_ne e)
  hash_nodup := by
    rw [List.map_append]
    refine List.nodup_append.mpr ⟨hwf.hash_nodup, hwf'.hash_nodup, ?_⟩
    intro a ha b hb
    obtain ⟨e, he, rfl⟩ := List.mem_map.mp ha
    obtain ⟨e', he', rfl⟩ := List.mem_map.mp hb
    exact h.hashes e he e' he'
  parents_nodup := fun e he =>
    (List.mem_append.mp he).elim (hwf.parents_nodup e) (hwf'.parents_nodup e)
  parents_admissible := by
    intro e he p hp
    rcases List.mem_append.mp he with he | he
    · obtain ⟨parent, hparent, hfacts⟩ := hwf.parents_admissible e he p hp
      exact ⟨parent, List.mem_append_left _ hparent, hfacts⟩
    · obtain ⟨parent, hparent, hfacts⟩ := hwf'.parents_admissible e he p hp
      exact ⟨parent, List.mem_append_right _ hparent, hfacts⟩
  acyclic := by
    intro hash hcycle
    obtain ⟨_, _, e, he, rfl, _⟩ := Relation.TransGen.tail'_iff.mp hcycle
    rcases List.mem_append.mp he with he | he
    · exact hwf.acyclic _ (h.path hwf hcycle (List.mem_map_of_mem he))
    · have hswap : ParentOf (events' ++ events) = ParentOf (events ++ events') := by
        funext p hash
        simp only [ParentOf, List.mem_append, or_comm]
      exact hwf'.acyclic _ (h.symm.path hwf' (hswap ▸ hcycle) (List.mem_map_of_mem he))

/-! ## The orders -/

/-- An entity has all its events in one of the histories. -/
theorem Apart.eventsOf_eq_nil {events events' : List VectorEvent} (h : Apart events events')
    (entityId : String) : eventsOf entityId events = [] ∨ eventsOf entityId events' = [] := by
  by_contra hnot
  rw [not_or] at hnot
  obtain ⟨e, he⟩ := List.exists_mem_of_ne_nil _ hnot.1
  obtain ⟨e', he'⟩ := List.exists_mem_of_ne_nil _ hnot.2
  obtain ⟨hmem, hid⟩ := List.mem_filter.mp he
  obtain ⟨hmem', hid'⟩ := List.mem_filter.mp he'
  exact h.entities e hmem e' hmem' ((of_decide_eq_true hid).trans (of_decide_eq_true hid').symm)

theorem entityOrder_of_nil {events : List VectorEvent} {entityId : String}
    (h : eventsOf entityId events = []) : entityOrder events entityId = [] := by
  rw [entityOrder, h]
  rfl

section

variable {events events' : List VectorEvent} (h : Apart events events')
  (hordered : ∀ entityId, orderEntityEvents (eventsOf entityId events) =
    .ok (entityOrder events entityId))
  (hordered' : ∀ entityId, orderEntityEvents (eventsOf entityId events') =
    .ok (entityOrder events' entityId))

include h hordered hordered'

theorem Apart.orderEntityEvents_eq (entityId : String) :
    orderEntityEvents (eventsOf entityId (events ++ events')) =
      .ok (entityOrder events entityId ++ entityOrder events' entityId) := by
  have happend : eventsOf entityId (events ++ events') =
      eventsOf entityId events ++ eventsOf entityId events' := List.filter_append ..
  rw [happend]
  rcases h.eventsOf_eq_nil entityId with hnil | hnil
  · rw [entityOrder_of_nil hnil, hnil, List.nil_append, List.nil_append, hordered']
  · rw [entityOrder_of_nil hnil, hnil, List.append_nil, List.append_nil, hordered]

theorem Apart.entityOrder_eq (entityId : String) :
    entityOrder (events ++ events') entityId =
      entityOrder events entityId ++ entityOrder events' entityId :=
  entityOrder_of_ok (h.orderEntityEvents_eq hordered hordered' entityId)

end

/-! ## The registries -/

/-- Every region of a registry stands under the entity of one of the events. -/
theorem entity_of_coreStateFromEvents {env : Platform} {events : List VectorEvent}
    {core : CoreState} (h : coreStateFromEvents env events = .ok core) {id : String}
    (hid : core.regions[id]? ≠ none) : ∃ e ∈ events, e.entityId = id := by
  induction events using List.reverseRecOn generalizing core with
  | nil =>
    obtain rfl := Except.ok.inj h
    simp [CoreState.new] at hid
  | append_singleton events e ih =>
    rw [coreStateFromEvents, List.foldlM_append, Outcome.bind_eq_ok_iff] at h
    obtain ⟨mid, hmid, hlast⟩ := h
    simp only [List.foldlM_cons, List.foldlM_nil, bind_pure] at hlast
    have hold : mid.regions[id]? ≠ none → ∃ e' ∈ events ++ [e], e'.entityId = id := by
      intro hne
      obtain ⟨e', he', heq⟩ := ih hmid hne
      exact ⟨e', List.mem_append_left _ he', heq⟩
    rcases registerEvent_eq_ok_iff.mp hlast with ⟨_, rfl⟩ | ⟨hregion, region, hread, hinsert⟩
    · exact hold hid
    · obtain ⟨_, rfl⟩ := insertRegion_eq_ok_iff.mp hinsert
      simp only [CoreState.withRegion, BTreeMap.lookup_insert] at hid
      split at hid
      · rename_i heq
        exact ⟨e, by simp, (CreatesRegion.regionId ⟨hregion, hread⟩).symm.trans heq⟩
      · exact hold hid

/-- A registry with the regions of two others. -/
structure CoreState.Joined (core core' joined : CoreState) : Prop where
  regions : ∀ id : String, joined.regions[id]? = core.regions[id]?.or core'.regions[id]?
  total : joined.totalAuthRatioBps.toNat =
    core.totalAuthRatioBps.toNat + core'.totalAuthRatioBps.toNat
  version : joined.version.toNat = core.version.toNat + core'.version.toNat

/-- The totals of two registries fit into one. -/
structure CoreState.Fits (core core' : CoreState) : Prop where
  total : core.totalAuthRatioBps.toNat + core'.totalAuthRatioBps.toNat < 2 ^ 64
  version : core.version.toNat + core'.version.toNat < 2 ^ 64

theorem CoreState.Joined.fits {core core' joined : CoreState} (h : core.Joined core' joined) :
    core.Fits core' where
  total := h.total ▸ joined.totalAuthRatioBps.toNat_lt
  version := h.version ▸ joined.version.toNat_lt

/-- One more region, registered on its own and on top of another registry. -/
theorem CoreState.Joined.insertRegion {env : Platform} {core mid core' joined : CoreState}
    {region : RegionState} (h : core.Joined mid joined)
    (hinsert : mid.insertRegion env region = .ok core')
    (hfresh : core.regions[region.regionId]? = none) :
    (core.Fits core' → ∃ next, joined.insertRegion env region = .ok next) ∧
      ∀ next, joined.insertRegion env region = .ok next → core.Joined core' next := by
  obtain ⟨⟨hfreshMid, htotal, hversion⟩, rfl⟩ := insertRegion_eq_ok_iff.mp hinsert
  have hnone : joined.regions[region.regionId]? = none := by
    rw [h.regions, hfresh, hfreshMid]
    rfl
  have htotal' : (mid.totalAuthRatioBps + region.authRatioBps).toNat =
      mid.totalAuthRatioBps.toNat + region.authRatioBps.toNat := by
    rw [UInt64.toNat_add, Nat.mod_eq_of_lt htotal]
  have hversion' := toNat_succ hversion
  have hsum := h.total
  have hcount := h.version
  constructor
  · intro hfits
    have hfit := hfits.total
    have hfit' := hfits.version
    simp only [CoreState.withRegion, htotal', hversion'] at hfit hfit'
    exact ⟨_, insertRegion_eq_ok_iff.mpr ⟨⟨hnone, by omega, by omega⟩, rfl⟩⟩
  · intro next hnext
    obtain ⟨⟨_, htotalNext, hversionNext⟩, rfl⟩ := insertRegion_eq_ok_iff.mp hnext
    refine ⟨fun id => ?_, ?_, ?_⟩
    · simp only [CoreState.withRegion, BTreeMap.lookup_insert, h.regions]
      split
      · rename_i hid
        rw [← hid, hfresh]
        rfl
      · rfl
    · simp only [CoreState.withRegion, htotal']
      rw [UInt64.toNat_add, Nat.mod_eq_of_lt htotalNext]
      omega
    · simp only [CoreState.withRegion, hversion']
      rw [toNat_succ hversionNext]
      omega

/-- Registering a second history on top of a registry with none of its regions. -/
theorem CoreState.register_joined {env : Platform} {core core' : CoreState}
    {events' : List VectorEvent} (h' : coreStateFromEvents env events' = .ok core')
    (hfresh : ∀ e ∈ events', core.regions[e.entityId]? = none) :
    (core.Fits core' → ∃ joined, events'.foldlM (registerEvent env) core = .ok joined) ∧
      ∀ joined, events'.foldlM (registerEvent env) core = .ok joined →
        core.Joined core' joined := by
  induction events' using List.reverseRecOn generalizing core' with
  | nil =>
    obtain rfl := Except.ok.inj h'
    refine ⟨fun _ => ⟨core, rfl⟩, fun joined hjoined => ?_⟩
    obtain rfl := Except.ok.inj hjoined
    exact ⟨fun id => by simp [CoreState.new], by simp [CoreState.new], by simp [CoreState.new]⟩
  | append_singleton events' e ih =>
    rw [coreStateFromEvents, List.foldlM_append, Outcome.bind_eq_ok_iff] at h'
    obtain ⟨mid, hmid, hlast⟩ := h'
    simp only [List.foldlM_cons, List.foldlM_nil, bind_pure] at hlast
    obtain ⟨hruns, hjoins⟩ := ih hmid (fun e' he' => hfresh e' (List.mem_append_left _ he'))
    simp only [List.foldlM_append, Outcome.bind_eq_ok_iff, List.foldlM_cons, List.foldlM_nil,
      bind_pure]
    rcases registerEvent_eq_ok_iff.mp hlast with ⟨hplain, rfl⟩ | ⟨hregion, region, hread, hinsert⟩
    · have hskip : ∀ joined, registerEvent env joined e = .ok joined :=
        fun joined => registerEvent_eq_ok_iff.mpr (Or.inl ⟨hplain, rfl⟩)
      constructor
      · intro hfits
        obtain ⟨joined, hjoined⟩ := hruns hfits
        exact ⟨joined, joined, hjoined, hskip joined⟩
      · rintro joined ⟨joined', hjoined', hstep⟩
        rw [hskip joined'] at hstep
        obtain rfl := Except.ok.inj hstep
        exact hjoins _ hjoined'
    · have hnone : core.regions[region.regionId]? = none := by
        rw [CreatesRegion.regionId ⟨hregion, hread⟩]
        exact hfresh e (by simp)
      have hstep : ∀ joined next, joined.insertRegion env region = .ok next ↔
          registerEvent env joined e = .ok next := by
        intro joined next
        rw [registerEvent_eq_ok_iff]
        refine ⟨fun hnext => Or.inr ⟨hregion, region, hread, hnext⟩, ?_⟩
        rintro (⟨hplain, _⟩ | ⟨_, region', hread', hnext⟩)
        · rw [hregion] at hplain
          cases hplain
        · rw [hread] at hread'
          rwa [Except.ok.inj hread']
      constructor
      · intro hfits
        obtain ⟨⟨_, htotal, hversion⟩, rfl⟩ := insertRegion_eq_ok_iff.mp hinsert
        have hfit := hfits.total
        have hfit' := hfits.version
        simp only [CoreState.withRegion, UInt64.toNat_add, Nat.mod_eq_of_lt htotal,
          toNat_succ hversion] at hfit hfit'
        obtain ⟨joined, hjoined⟩ := hruns ⟨by omega, by omega⟩
        obtain ⟨next, hnext⟩ := ((hjoins joined hjoined).insertRegion hinsert hnone).1 hfits
        exact ⟨next, joined, hjoined, (hstep joined next).mp hnext⟩
      · rintro next ⟨joined, hjoined, hnext⟩
        exact ((hjoins joined hjoined).insertRegion hinsert hnone).2 next
          ((hstep joined next).mpr hnext)

/-! ## Replay -/

/-- The result of a merged replay, from the results of the two. -/
structure MergedFrom (result result' merged : ReplayResult) : Prop where
  finalState : ∀ entityId : String, merged.finalState[entityId]? =
    result.finalState[entityId]?.or result'.finalState[entityId]?
  coreState : result.coreState.Joined result'.coreState merged.coreState
  applied : merged.appliedEventHashes.Perm
    (result.appliedEventHashes ++ result'.appliedEventHashes)
  logicalClock : merged.stateRoot.logicalClock =
    max result.stateRoot.logicalClock result'.stateRoot.logicalClock

theorem highestClock_append (applied applied' : List VectorEvent) :
    highestClock (applied ++ applied') = max (highestClock applied) (highestClock applied') := by
  induction applied' using List.reverseRecOn with
  | nil =>
    rw [List.append_nil]
    exact UInt64.toNat_inj.mp (by rw [toNat_max]; simp [highestClock])
  | append_singleton applied' e ih =>
    have hsnoc : ∀ l : List VectorEvent,
        highestClock (l ++ [e]) = max (highestClock l) e.logicalClock :=
      fun l => highestClock_snoc l e
    rw [← List.append_assoc, hsnoc, hsnoc, ih]
    refine UInt64.toNat_inj.mp ?_
    simp only [toNat_max]
    omega

section

variable {env : Platform} {events events' : List VectorEvent} {result result' : ReplayResult}
  (h : replayEvents env events = .ok result) (h' : replayEvents env events' = .ok result')
  (hapart : Apart events events')

include h h' hapart

/-- One replay after the other: what can fail is the registry alone. -/
theorem replayEvents_append :
    (result.coreState.Fits result'.coreState →
      (replayEvents env (events ++ events')).IsOk) ∧
    ∀ merged, replayEvents env (events ++ events') = .ok merged →
      MergedFrom result result' merged := by
  obtain ⟨hwf, hordered, haccepted, core, hcore, rfl⟩ := replayEvents_eq_ok_iff_accepted.mp h
  obtain ⟨hwf', hordered', haccepted', core', hcore', rfl⟩ :=
    replayEvents_eq_ok_iff_accepted.mp h'
  have hperm := appliedEvents_perm hwf hordered
  have hperm' := appliedEvents_perm hwf' hordered'
  have hdag := hapart.wellFormedDag hwf hwf'
  have horder := hapart.entityOrder_eq hordered hordered'
  have horders : ∀ entityId, orderEntityEvents (eventsOf entityId (events ++ events')) =
      .ok (entityOrder (events ++ events') entityId) := by
    intro entityId
    rw [hapart.orderEntityEvents_eq hordered hordered', horder]
  have happlied : (appliedEvents (events ++ events')).Perm
      (appliedEvents events ++ appliedEvents events') :=
    (appliedEvents_perm hdag horders).trans (hperm.append hperm').symm
  have hturns : ∀ entityId, AcceptedInTurn (entityOrder (events ++ events') entityId) := by
    intro entityId
    rw [horder]
    rcases hapart.eventsOf_eq_nil entityId with hnil | hnil
    · rw [entityOrder_of_nil hnil, List.nil_append]
      exact haccepted' entityId
    · rw [entityOrder_of_nil hnil, List.append_nil]
      exact haccepted entityId
  have hfresh : ∀ e ∈ appliedEvents events', core.regions[e.entityId]? = none := by
    intro e he
    by_contra hsome
    obtain ⟨e', hmem, hid⟩ := entity_of_coreStateFromEvents hcore hsome
    exact hapart.entities e' (hperm.mem_iff.mp hmem) e (hperm'.mem_iff.mp he) hid
  obtain ⟨hruns, hjoins⟩ := CoreState.register_joined hcore' hfresh
  have hsplit : ∀ joined, coreStateFromEvents env (appliedEvents (events ++ events')) =
        .ok joined ↔ (appliedEvents events').foldlM (registerEvent env) core = .ok joined := by
    intro joined
    have happend : coreStateFromEvents env (appliedEvents events ++ appliedEvents events') =
        (appliedEvents events').foldlM (registerEvent env) core := by
      rw [coreStateFromEvents] at hcore
      rw [coreStateFromEvents, List.foldlM_append, hcore]
      rfl
    rw [← happend]
    exact ⟨coreStateFromEvents_perm happlied, coreStateFromEvents_perm happlied.symm⟩
  refine ⟨fun hfits => ?_, fun merged hmerged => ?_⟩
  · obtain ⟨joined, hjoined⟩ := hruns hfits
    exact ⟨_, replayEvents_eq_ok_iff_accepted.mpr
      ⟨hdag, horders, hturns, joined, (hsplit joined).mpr hjoined, rfl⟩⟩
  · obtain ⟨_, _, _, joined, hjoined, rfl⟩ := replayEvents_eq_ok_iff_accepted.mp hmerged
    refine {
      finalState := fun entityId => ?_
      coreState := hjoins joined ((hsplit joined).mp hjoined)
      applied := ?_
      logicalClock := (highestClock_perm happlied).trans (highestClock_append _ _) }
    · have hlast := lookup_stateAfter (appliedEvents (events ++ events')) entityId
      have hleft := lookup_stateAfter (appliedEvents events) entityId
      have hright := lookup_stateAfter (appliedEvents events') entityId
      rw [eventsOf_appliedEvents hdag horders, horder] at hlast
      rw [eventsOf_appliedEvents hwf hordered] at hleft
      rw [eventsOf_appliedEvents hwf' hordered'] at hright
      refine hlast.trans ?_
      show _ = Option.or (stateAfter (appliedEvents events))[entityId]?
        (stateAfter (appliedEvents events'))[entityId]?
      rw [hleft, hright]
      rcases hapart.eventsOf_eq_nil entityId with hnil | hnil
      · rw [entityOrder_of_nil hnil, List.nil_append]
        rfl
      · rw [entityOrder_of_nil hnil, List.append_nil]
        exact Option.or_none.symm
    · show ((appliedEvents (events ++ events')).map VectorEvent.eventHash).Perm
        ((appliedEvents events).map VectorEvent.eventHash ++
          (appliedEvents events').map VectorEvent.eventHash)
      rw [← List.map_append]
      exact happlied.map VectorEvent.eventHash

/-- Two replayed histories of different entities, interleaved in any way, are replayed together
exactly when the totals of their registries fit into one, and the result is made up of the two
results. -/
theorem replayEvents_merge {interleaved : List VectorEvent}
    (hmix : interleaved.Perm (events ++ events')) :
    ((replayEvents env interleaved).IsOk ↔ result.coreState.Fits result'.coreState) ∧
      ∀ merged, replayEvents env interleaved = .ok merged →
        MergedFrom result result' merged := by
  obtain ⟨hruns, hmerges⟩ := replayEvents_append h h' hapart
  obtain ⟨hiff, _⟩ := replayEvents_perm env hmix
  have hresult := (replayEvents_perm env hmix).2
  refine ⟨⟨fun hok => ?_, fun hfits => hiff.mpr (hruns hfits)⟩,
    fun merged hmerged => hmerges merged (hresult merged hmerged)⟩
  obtain ⟨merged, hmerged⟩ := hok
  exact (hmerges merged (hresult merged hmerged)).coreState.fits

end

/-- Two creations and a region, the second history in the middle. -/
theorem replayEvents_merge_regions :
    (replayEvents samplePlatform
        [sampleCreation "a", sampleRegion "s" [], sampleRegion "r" []]).IsOk ∧
      ∀ merged, replayEvents samplePlatform
          [sampleCreation "a", sampleRegion "s" [], sampleRegion "r" []] = .ok merged →
        merged.coreState.version.toNat = 2 := by
  have hleft : (replayEvents samplePlatform [sampleCreation "a", sampleRegion "r" []]).map
      (fun result => (result.coreState.version, result.coreState.totalAuthRatioBps)) =
        .ok (1, defaultRegionAuthRatioBps) := by decide +kernel
  have hright : (replayEvents samplePlatform [sampleRegion "s" []]).map
      (fun result => (result.coreState.version, result.coreState.totalAuthRatioBps)) =
        .ok (1, defaultRegionAuthRatioBps) := by decide +kernel
  obtain ⟨result, hresult, hfacts⟩ := Outcome.map_eq_ok_iff.mp hleft
  obtain ⟨result', hresult', hfacts'⟩ := Outcome.map_eq_ok_iff.mp hright
  obtain ⟨hversion, htotal⟩ := Prod.mk.inj hfacts
  obtain ⟨hversion', htotal'⟩ := Prod.mk.inj hfacts'
  obtain ⟨hiff, hmerges⟩ := replayEvents_merge hresult hresult'
    ⟨by decide +kernel, by decide +kernel⟩
    (show [sampleCreation "a", sampleRegion "s" [], sampleRegion "r" []].Perm
        ([sampleCreation "a", sampleRegion "r" []] ++ [sampleRegion "s" []]) from
      (List.Perm.swap _ _ _).cons _)
  refine ⟨hiff.mpr ⟨?_, ?_⟩, fun merged hmerged => ?_⟩
  · rw [htotal, htotal']
    decide
  · rw [hversion, hversion']
    decide
  · rw [(hmerges merged hmerged).coreState.version, hversion, hversion']
    rfl

end VKernelX
