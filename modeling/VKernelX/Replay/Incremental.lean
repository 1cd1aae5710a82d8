/-
  Replay/Incremental.lean --- replaying one event more.

  An event whose only parent is its entity's last applied event comes right after it.  The
  orders of the other entities stay as they are, and so does everything else replay returns.
-/
import VKernelX.Replay.Causality
import VKernelX.Replay.Panics

set_option autoImplicit false

namespace VKernelX

/-! ## The order of the entity -/

/-- A parent hash that no event carries makes no difference to the graph. -/
theorem ownParents_append_of_mem {events : List VectorEvent} {e e' : VectorEvent}
    (hnodup : ((events ++ [e]).map VectorEvent.eventHash).Nodup) (he' : e' ∈ events)
    (hunreferenced : e.eventHash ∉ e'.parentHashes) :
    ownParents (events ++ [e]) e'.eventHash = ownParents events e'.eventHash := by
  have hnodup' : (events.map VectorEvent.eventHash).Nodup := by
    rw [List.map_append] at hnodup
    exact (List.nodup_append.mp hnodup).1
  rw [ownParents, ownParents, parentsIn_of_mem hnodup _ (List.mem_append_left _ he'),
    parentsIn_of_mem hnodup' _ he']
  refine List.filter_congr (fun p hp => ?_)
  have hne : p ≠ e.eventHash := fun heq => hunreferenced (heq ▸ hp)
  simp [ownParent, hne]

/-- The new event is ordered last, right after its parent. -/
theorem orderEntityEvents_snoc {events ordered : List VectorEvent} {e p : VectorEvent}
    (horder : orderEntityEvents events = .ok ordered) (hlast : ordered.getLast? = some p)
    (hnodup : ((events ++ [e]).map VectorEvent.eventHash).Nodup)
    (hparents : ∀ e' ∈ events, e'.parentHashes.Nodup)
    (hunreferenced : ∀ e' ∈ events, e.eventHash ∉ e'.parentHashes)
    (hparent : e.parentHashes = [p.eventHash]) :
    orderEntityEvents (events ++ [e]) = .ok (ordered ++ [e]) := by
  have hne : events ≠ [] := by
    rintro rfl
    rw [← Except.ok.inj horder] at hlast
    cases hlast
  have hnodup' : (events.map VectorEvent.eventHash).Nodup := by
    rw [List.map_append] at hnodup
    exact (List.nodup_append.mp hnodup).1
  obtain ⟨all, hall, hrun⟩ := orderEntityEvents_spec hne hnodup' hparents
  rw [hrun] at horder
  simp only [Outcome.bind_eq_ok_iff, Outcome.require_eq_ok_iff] at horder
  obtain ⟨_, hroots, _, hlength, hordered⟩ := horder
  obtain rfl := Except.ok.inj hordered
  -- The last hash is the parent's, as every hash of the list is that of its event.
  obtain ⟨last, hlastHash, rfl⟩ := Option.map_eq_some_iff.mp
    (List.getLast?_map .. ▸ hlast : all.getLast?.map (eventAt events) = some p)
  obtain ⟨p, hp, rfl⟩ := List.mem_map.mp (hall.subset _ (List.mem_of_getLast? hlastHash))
  rw [eventAt_eventHash hnodup' hp] at hparent
  have hat : ∀ v ∈ events.map VectorEvent.eventHash,
      eventAt (events ++ [e]) v = eventAt events v := by
    intro v hv
    obtain ⟨e', he', rfl⟩ := List.mem_map.mp hv
    rw [eventAt_eventHash hnodup (List.mem_append_left _ he'), eventAt_eventHash hnodup' he']
  have hsame : ∀ v ∈ events.map VectorEvent.eventHash,
      ownParents (events ++ [e]) v = ownParents events v := by
    intro v hv
    obtain ⟨e', he', rfl⟩ := List.mem_map.mp hv
    exact ownParents_append_of_mem hnodup he' (hunreferenced e' he')
  have hnew : e.eventHash ∉ events.map VectorEvent.eventHash := by
    rw [List.map_append] at hnodup
    exact fun hin => (List.nodup_append.mp hnodup).2.2 _ hin _ (by simp) rfl
  have hown : ownParents (events ++ [e]) e.eventHash = [p.eventHash] := by
    rw [ownParents, parentsIn_of_mem hnodup _ (by simp), hparent]
    refine List.filter_eq_self.mpr (fun q hq => decide_eq_true ?_)
    obtain rfl := List.mem_singleton.mp hq
    exact List.mem_map_of_mem (List.mem_append_left _ hp)
  have hclosed : ∀ v ∈ events.map VectorEvent.eventHash, ∀ q ∈ ownParents events v,
      q ∈ events.map VectorEvent.eventHash := by
    intro v hv q hq
    obtain ⟨e', he', rfl⟩ := List.mem_map.mp hv
    rw [ownParents, parentsIn_of_mem hnodup' _ he'] at hq
    exact of_decide_eq_true (List.mem_filter.mp hq).2
  have hall' : CausalList (ReplayPrefers (events ++ [e]))
      ((events ++ [e]).map VectorEvent.eventHash) (ownParents (events ++ [e]))
      (all ++ [e.eventHash]) := by
    rw [List.map_append]
    refine hall.extend hclosed hsame ?_ hlastHash hnew hown
    intro v hv w hw hprefers
    rwa [ReplayPrefers, hat v hv, hat w hw]
  have hroots' : (rootHashes (events ++ [e])).length = 1 := by
    rw [rootHashes, List.map_append, List.filter_append, List.length_append, ← hroots, rootHashes]
    have hold : (events.map VectorEvent.eventHash).filter
          (fun hash => ownParents (events ++ [e]) hash = []) =
        (events.map VectorEvent.eventHash).filter (fun hash => ownParents events hash = []) :=
      List.filter_congr (fun v hv => by rw [hsame v hv])
    rw [hold]
    simp [hown]
  have hparents' : ∀ e' ∈ events ++ [e], e'.parentHashes.Nodup := by
    intro e' he'
    rcases List.mem_append.mp he' with he' | he'
    · exact hparents e' he'
    · rw [List.mem_singleton.mp he', hparent]
      exact List.nodup_singleton _
  rw [orderEntityEvents_eq_ok (by simp) hnodup hparents' hroots' (by simp [hlength]) hall',
    List.map_append, List.map_congr_left (fun v hv => hat v (hall.subset v hv))]
  simp [eventAt_eventHash hnodup]

/-! ## The graph -/

/-- An event that follows a stored one under the same region and carries a fresh hash. -/
structure FollowUp (events : List VectorEvent) (p e : VectorEvent) : Prop where
  parent_mem : p ∈ events
  hash_ne : e.eventHash ≠ ""
  hash_fresh : e.eventHash ∉ events.map VectorEvent.eventHash
  regionId_eq : e.regionId = p.regionId
  parentHashes_eq : e.parentHashes = [p.eventHash]

section

variable {events : List VectorEvent} {p e : VectorEvent}

theorem FollowUp.nodup (h : FollowUp events p e) (hwf : WellFormedDag events) :
    ((events ++ [e]).map VectorEvent.eventHash).Nodup := by
  rw [List.map_append]
  refine List.nodup_append.mpr ⟨hwf.hash_nodup, List.nodup_singleton _, ?_⟩
  rintro hash hin _ hnew rfl
  exact h.hash_fresh (List.mem_singleton.mp hnew ▸ hin)

/-- Every parent is stored, so none is the new event. -/
theorem FollowUp.unreferenced (h : FollowUp events p e) (hwf : WellFormedDag events)
    {e' : VectorEvent} (he' : e' ∈ events) : e.eventHash ∉ e'.parentHashes := by
  intro hin
  obtain ⟨parent, hparent, hhash, _⟩ := hwf.parents_admissible e' he' _ hin
  exact h.hash_fresh (List.mem_map.mpr ⟨parent, hparent, hhash⟩)

theorem FollowUp.wellFormedDag (h : FollowUp events p e) (hwf : WellFormedDag events) :
    WellFormedDag (events ++ [e]) := by
  refine {
    hash_ne := ?_
    hash_nodup := h.nodup hwf
    parents_nodup := ?_
    parents_admissible := ?_
    acyclic := ?_ }
  · intro e' he'
    rcases List.mem_append.mp he' with he' | he'
    · exact hwf.hash_ne e' he'
    · exact List.mem_singleton.mp he' ▸ h.hash_ne
  · intro e' he'
    rcases List.mem_append.mp he' with he' | he'
    · exact hwf.parents_nodup e' he'
    · rw [List.mem_singleton.mp he', h.parentHashes_eq]
      exact List.nodup_singleton _
  · intro e' he' q hq
    rcases List.mem_append.mp he' with he' | he'
    · obtain ⟨parent, hparent, hhash, hregion⟩ := hwf.parents_admissible e' he' q hq
      exact ⟨parent, List.mem_append_left _ hparent, hhash, hregion⟩
    · obtain rfl := List.mem_singleton.mp he'
      rw [h.parentHashes_eq, List.mem_singleton] at hq
      exact ⟨p, List.mem_append_left _ h.parent_mem, hq.symm, h.regionId_eq.symm⟩
  · -- A cycle cannot pass through the new event, which is nobody's parent.
    have hedge : ∀ hash hash', ParentOf (events ++ [e]) hash hash' → hash ≠ e.eventHash ∧
        (hash' ≠ e.eventHash → ParentOf events hash hash') := by
      rintro hash hash' ⟨e', he', rfl, hq⟩
      rcases List.mem_append.mp he' with he' | he'
      · exact ⟨fun heq => h.unreferenced hwf he' (heq ▸ hq), fun _ => ⟨e', he', rfl, hq⟩⟩
      · obtain rfl := List.mem_singleton.mp he'
        refine ⟨fun heq => ?_, fun hne => absurd rfl hne⟩
        rw [h.parentHashes_eq, List.mem_singleton, heq] at hq
        exact h.hash_fresh (hq ▸ List.mem_map_of_mem h.parent_mem)
    have hpath : ∀ hash hash', Relation.TransGen (ParentOf (events ++ [e])) hash hash' →
        hash' ≠ e.eventHash → Relation.TransGen (ParentOf events) hash hash' := by
      intro hash hash' hpath
      induction hpath with
      | single hstep => exact fun hne => .single ((hedge _ _ hstep).2 hne)
      | tail _ hstep ih =>
        exact fun hne => .tail (ih (hedge _ _ hstep).1) ((hedge _ _ hstep).2 hne)
    intro hash hcycle
    have hne : hash ≠ e.eventHash := by
      obtain ⟨next, hstep, _⟩ := Relation.TransGen.head'_iff.mp hcycle
      exact (hedge _ _ hstep).1
    exact hwf.acyclic hash (hpath hash hash hcycle hne)

/-! ## The orders of all entities -/

theorem eventsOf_snoc_self (events : List VectorEvent) (e : VectorEvent) :
    eventsOf e.entityId (events ++ [e]) = eventsOf e.entityId events ++ [e] := by
  simp [eventsOf]

theorem eventsOf_snoc_of_ne (events : List VectorEvent) {e : VectorEvent} {entityId : String}
    (hne : e.entityId ≠ entityId) :
    eventsOf entityId (events ++ [e]) = eventsOf entityId events := by
  simp [eventsOf, hne]

/-- No entity is new. -/
theorem entityIds_snoc (hp : eventsOf e.entityId events ≠ []) :
    entityIds (events ++ [e]) = entityIds events := by
  have hmap : groupByEntity (events ++ [e]) =
      (groupByEntity events).map (fun entityId _ => eventsOf entityId (events ++ [e])) := by
    apply Std.ExtTreeMap.ext_getElem?
    intro entityId
    rw [Std.ExtTreeMap.getElem?_map, lookup_groupByEntity, lookup_groupByEntity]
    by_cases hentity : e.entityId = entityId
    · subst hentity
      rw [if_neg hp, if_neg (by rw [eventsOf_snoc_self]; simp)]
      rfl
    · rw [eventsOf_snoc_of_ne events hentity]
      split <;> rfl
  rw [entityIds, hmap, Std.ExtTreeMap.toList_map, List.map_map]
  rfl

section

variable (h : FollowUp events p e) (hwf : WellFormedDag events)
  (hordered : ∀ entityId, orderEntityEvents (eventsOf entityId events) =
    .ok (entityOrder events entityId))
  (hlast : (entityOrder events e.entityId).getLast? = some p)

include h hwf hordered hlast

/-- The entity's own order gets one event longer, and the others stay. -/
theorem FollowUp.orderEntityEvents_eq (entityId : String) :
    orderEntityEvents (eventsOf entityId (events ++ [e])) =
      .ok (if e.entityId = entityId then entityOrder events entityId ++ [e]
        else entityOrder events entityId) := by
  split
  · rename_i heq
    subst heq
    have hsub : (eventsOf e.entityId events ++ [e]).Sublist (events ++ [e]) :=
      List.Sublist.append List.filter_sublist (List.Sublist.refl _)
    rw [eventsOf_snoc_self]
    exact orderEntityEvents_snoc (hordered _) hlast ((h.nodup hwf).sublist (hsub.map _))
      (fun e' he' => hwf.parents_nodup e' (List.mem_filter.mp he').1)
      (fun e' he' => h.unreferenced hwf (List.mem_filter.mp he').1) h.parentHashes_eq
  · rename_i hne
    rw [eventsOf_snoc_of_ne events hne, hordered]

theorem FollowUp.entityOrder_eq (entityId : String) :
    entityOrder (events ++ [e]) entityId =
      if e.entityId = entityId then entityOrder events entityId ++ [e]
        else entityOrder events entityId :=
  entityOrder_of_ok (h.orderEntityEvents_eq hwf hordered hlast entityId)

/-- The new event is applied right after its parent. -/
theorem FollowUp.appliedEvents_eq :
    ∃ before after, appliedEvents events = before ++ p :: after ∧
      appliedEvents (events ++ [e]) = before ++ p :: e :: after := by
  have hne : eventsOf e.entityId events ≠ [] := by
    intro hnil
    have hperm := entityOrder_perm hwf (hordered e.entityId)
    rw [hnil] at hperm
    rw [List.perm_nil.mp hperm] at hlast
    cases hlast
  obtain ⟨ids, ids', hids⟩ := List.append_of_mem (mem_entityIds.mpr hne)
  have hnodup := nodup_entityIds events
  rw [hids] at hnodup
  obtain ⟨_, hnodup', hdisjoint⟩ := List.nodup_append.mp hnodup
  have hfront : ∀ id ∈ ids, e.entityId ≠ id :=
    fun id hid heq => hdisjoint id hid e.entityId (by simp) heq.symm
  have hback : ∀ id ∈ ids', e.entityId ≠ id :=
    fun id hid heq => (List.nodup_cons.mp hnodup').1 (heq ▸ hid)
  have hsame : ∀ l : List String, (∀ id ∈ l, e.entityId ≠ id) →
      l.flatMap (entityOrder (events ++ [e])) =
        l.flatMap (entityOrder events) := by
    intro l hl
    refine List.flatMap_congr (fun id hid => ?_)
    rw [h.entityOrder_eq hwf hordered hlast, if_neg (hl id hid)]
  obtain ⟨front, hsplit⟩ := List.getLast?_eq_some_iff.mp hlast
  refine ⟨ids.flatMap (entityOrder events) ++ front,
    ids'.flatMap (entityOrder events), ?_, ?_⟩
  · rw [appliedEvents, hids, List.flatMap_append, List.flatMap_cons, hsplit]
    simp
  · rw [appliedEvents, entityIds_snoc hne, hids, List.flatMap_append, List.flatMap_cons,
      hsame ids hfront, hsame ids' hback, h.entityOrder_eq hwf hordered hlast, if_pos rfl, hsplit]
    simp

end

end

/-! ## What is applied -/

theorem coreStateFromEvents_insert {env : Platform} {before after : List VectorEvent}
    {e : VectorEvent} (hregion : isRegionCreateEvent e = false) :
    coreStateFromEvents env (before ++ e :: after) = coreStateFromEvents env (before ++ after) := by
  rw [coreStateFromEvents, coreStateFromEvents, List.foldlM_append, List.foldlM_append]
  congr 1
  funext core
  rw [List.foldlM_cons, registerEvent, if_neg (by rw [hregion]; decide)]
  rfl

/-- The highest clock does not depend on the order of the events. -/
theorem highestClock_perm {applied applied' : List VectorEvent} (h : applied.Perm applied') :
    highestClock applied = highestClock applied' := by
  have : RightCommutative (fun (clock : UInt64) (e : VectorEvent) => max clock e.logicalClock) := by
    refine ⟨fun clock e e' => UInt64.toNat_inj.mp ?_⟩
    simp only [toNat_max]
    omega
  exact h.foldl_eq 0

/-! ## Replay -/

/-- The result of a replay with one event more, right after `p`. -/
structure ExtendedBy (p e : VectorEvent) (result result' : ReplayResult) : Prop where
  finalState : result'.finalState = result.finalState.insert e.entityId e.vectorAfter
  coreState : result'.coreState = result.coreState
  applied : ∃ before after,
    result.appliedEventHashes = before ++ p.eventHash :: after ∧
      result'.appliedEventHashes = before ++ p.eventHash :: e.eventHash :: after
  eventCount : result'.stateRoot.eventCount = result.stateRoot.eventCount + 1
  logicalClock : result'.stateRoot.logicalClock = max result.stateRoot.logicalClock e.logicalClock

section

variable {env : Platform} {events : List VectorEvent} {result : ReplayResult}
  (hreplay : replayEvents env events = .ok result) {p e : VectorEvent}
  (hlast : (eventsOf e.entityId (result.appliedFrom events)).getLast? = some p)

include hreplay hlast

/-- The last applied event of an entity is the last one of its order. -/
theorem getLast?_entityOrder_of_ok : (entityOrder events e.entityId).getLast? = some p := by
  obtain ⟨hwf, hordered, _, core, _, rfl⟩ := replayEvents_eq_ok_iff_accepted.mp hreplay
  rwa [appliedFrom_replayOutcome hwf (appliedEvents_perm hwf hordered),
    eventsOf_appliedEvents hwf hordered] at hlast

/-- An event that continues from the entity's last state is replayed on top. -/
theorem replayEvents_snoc_of_continues (h : FollowUp events p e)
    (hregion : isRegionCreateEvent e = false) (hop : e.operation ≠ .originCreate)
    (hbefore : result.finalState[e.entityId]? = some e.vectorBefore) :
    ∃ result', replayEvents env (events ++ [e]) = .ok result' ∧
      ExtendedBy p e result result' := by
  have hend := getLast?_entityOrder_of_ok hreplay hlast
  obtain ⟨hwf, hordered, haccepted, core, hcore, rfl⟩ :=
    replayEvents_eq_ok_iff_accepted.mp hreplay
  have horder := h.entityOrder_eq hwf hordered hend
  obtain ⟨before, after, hsplit, hsplit'⟩ := h.appliedEvents_eq hwf hordered hend
  have hordered' : ∀ entityId, orderEntityEvents (eventsOf entityId (events ++ [e])) =
      .ok (entityOrder (events ++ [e]) entityId) := by
    intro entityId
    rw [h.orderEntityEvents_eq hwf hordered hend, horder]
  have hlookup : ∀ entityId, (replayOutcome env (appliedEvents events)
      core).finalState[entityId]? =
        (entityOrder events entityId).getLast?.map VectorEvent.vectorAfter := by
    intro entityId
    rw [← eventsOf_appliedEvents hwf hordered]
    exact lookup_stateAfter _ _
  have haccepted' : ∀ entityId, AcceptedInTurn (entityOrder (events ++ [e]) entityId) := by
    intro entityId
    rw [horder]
    split
    · rename_i heq
      subst heq
      refine acceptedInTurn_snoc.mpr ⟨haccepted _, .transition hregion hop ?_⟩
      rw [← hlookup, hbefore]
    · exact haccepted entityId
  have hcore' : coreStateFromEvents env (appliedEvents (events ++ [e])) = .ok core := by
    have hinsert := @coreStateFromEvents_insert env (before ++ [p]) after e hregion
    rw [List.append_assoc, List.append_assoc] at hinsert
    rw [hsplit', ← hcore, hsplit]
    exact hinsert
  refine ⟨_, replayEvents_eq_ok_iff_accepted.mpr
    ⟨h.wellFormedDag hwf, hordered', haccepted', core, hcore', rfl⟩, ?_⟩
  have hperm : (appliedEvents (events ++ [e])).Perm (appliedEvents events ++ [e]) := by
    rw [hsplit, hsplit', List.append_assoc]
    exact (List.Perm.cons p (@List.perm_append_comm _ [e] _)).append_left before
  refine {
    finalState := ?_
    coreState := rfl
    applied := ⟨before.map VectorEvent.eventHash, after.map VectorEvent.eventHash, ?_, ?_⟩
    eventCount := ?_
    logicalClock := ?_ }
  · apply Std.ExtTreeMap.ext_getElem?
    intro entityId
    have hfinal := lookup_stateAfter (appliedEvents (events ++ [e])) entityId
    rw [eventsOf_appliedEvents (h.wellFormedDag hwf) hordered', horder] at hfinal
    rw [BTreeMap.lookup_insert, hlookup]
    refine hfinal.trans ?_
    split
    · rw [List.getLast?_concat]
      rfl
    · rfl
  · rw [← List.map_cons, ← List.map_append, ← hsplit]
    rfl
  · rw [← List.map_cons, ← List.map_cons, ← List.map_append, ← hsplit']
    rfl
  · show UInt64.ofNat ((appliedEvents (events ++ [e])).map VectorEvent.eventHash).length =
      UInt64.ofNat ((appliedEvents events).map VectorEvent.eventHash).length + 1
    rw [List.length_map, List.length_map, hperm.length_eq, List.length_append,
      List.length_singleton, UInt64.ofNat_add]
    rfl
  · show highestClock (appliedEvents (events ++ [e])) = max (highestClock (appliedEvents events)) _
    rw [highestClock_perm hperm, highestClock, List.foldl_append]
    rfl

/-- An event that starts from another state stops the replay. -/
theorem replayEvents_snoc_of_not_continues (h : FollowUp events p e)
    (hregion : isRegionCreateEvent e = false) (hop : e.operation ≠ .originCreate)
    (hbefore : result.finalState[e.entityId]? ≠ some e.vectorBefore) :
    (replayEvents env (events ++ [e])).IsErr := by
  refine (noPanic_replayEvents env (events ++ [e])).isErr ?_
  rintro ⟨result', hok⟩
  have hend := getLast?_entityOrder_of_ok hreplay hlast
  obtain ⟨hwf, hordered, _, core, _, rfl⟩ := replayEvents_eq_ok_iff_accepted.mp hreplay
  obtain ⟨_, _, haccepted', _⟩ := replayEvents_eq_ok_iff_accepted.mp hok
  have hturn := haccepted' e.entityId
  rw [h.entityOrder_eq hwf hordered hend, if_pos rfl] at hturn
  cases (acceptedInTurn_snoc.mp hturn).2 with
  | region hregion' => exact absurd hregion' (by rw [hregion]; decide)
  | origin _ horigin _ => exact hop horigin
  | transition _ _ hcurrent =>
    refine hbefore (.trans ?_ hcurrent)
    rw [← eventsOf_appliedEvents hwf hordered]
    exact lookup_stateAfter _ _

end

/-- Replay is incremental: an event that follows its entity's last applied one, added anywhere
in the list, extends the result if it starts from the entity's final state, and stops the
replay if it does not. -/
theorem replayEvents_incremental {env : Platform} {events before after : List VectorEvent}
    {result : ReplayResult} {p e : VectorEvent} (hreplay : replayEvents env events = .ok result)
    (hlast : (eventsOf e.entityId (result.appliedFrom events)).getLast? = some p)
    (hregion : isRegionCreateEvent e = false) (hop : e.operation ≠ .originCreate)
    (hfresh : e.eventHash ∉ events.map VectorEvent.eventHash) (hne : e.eventHash ≠ "")
    (hregionId : e.regionId = p.regionId) (hparent : e.parentHashes = [p.eventHash])
    (hsplit : events = before ++ after) :
    (result.finalState[e.entityId]? = some e.vectorBefore →
      ∃ result', replayEvents env (before ++ e :: after) = .ok result' ∧
        ExtendedBy p e result result') ∧
    (result.finalState[e.entityId]? ≠ some e.vectorBefore →
      (replayEvents env (before ++ e :: after)).IsErr) := by
  have hmem : p ∈ events := by
    have hend := getLast?_entityOrder_of_ok hreplay hlast
    obtain ⟨hwf, hordered, _⟩ := replayEvents_eq_ok_iff_accepted.mp hreplay
    have hin := (entityOrder_perm hwf (hordered e.entityId)).mem_iff.mp (List.mem_of_getLast? hend)
    exact (List.mem_filter.mp hin).1
  have hfollow : FollowUp events p e := ⟨hmem, hne, hfresh, hregionId, hparent⟩
  have hperm : (events ++ [e]).Perm (before ++ e :: after) := by
    rw [hsplit, List.append_assoc]
    exact (@List.perm_append_comm _ _ [e]).append_left before
  have hsame := replayEvents_eq_of_wellFormed env hperm
    (hfollow.wellFormedDag (replayEvents_eq_ok_iff_accepted.mp hreplay).1)
  rw [← hsame]
  exact ⟨replayEvents_snoc_of_continues hreplay hlast hfollow hregion hop,
    replayEvents_snoc_of_not_continues hreplay hlast hfollow hregion hop⟩

/-- A certification right after the creation of "a". -/
def sampleFollowUp : VectorEvent :=
  VectorEvent.seal samplePlatform
    { (default : VectorEvent) with
      entityId := "a"
      operation := .certify
      parentHashes := [(sampleCreation "a").eventHash] }

/-- The result of replaying the creation. -/
def sampleReplay : ReplayResult :=
  replayOutcome samplePlatform [sampleCreation "a"] (CoreState.new samplePlatform)

theorem replayEvents_incremental_certified :
    (sampleReplay.finalState[sampleFollowUp.entityId]? = some sampleFollowUp.vectorBefore →
      ∃ result', replayEvents samplePlatform ([] ++ sampleFollowUp :: [sampleCreation "a"]) =
          .ok result' ∧
        ExtendedBy (sampleCreation "a") sampleFollowUp sampleReplay result') ∧
    (sampleReplay.finalState[sampleFollowUp.entityId]? ≠ some sampleFollowUp.vectorBefore →
      (replayEvents samplePlatform ([] ++ sampleFollowUp :: [sampleCreation "a"])).IsErr) :=
  @replayEvents_incremental samplePlatform [sampleCreation "a"] [] [sampleCreation "a"]
    sampleReplay (sampleCreation "a") sampleFollowUp (by decide +kernel) (by decide +kernel)
    (by decide) (by decide) (by decide +kernel) (by decide +kernel) rfl rfl rfl

end VKernelX
