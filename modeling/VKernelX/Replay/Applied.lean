/-
  Replay/Applied.lean --- the sequence of events that a successful replay applies.

  On a well-formed graph the order of one entity's events is settled by a single check, the
  number of roots.  Replay then runs one loop over the concatenated orders, so a result about
  replay is a result about that loop and about the orders.
-/
import VKernelX.Replay.OrderIndependence

set_option autoImplicit false

namespace VKernelX

/-! ## The order of one entity -/

/-- An order of one entity's events: all of them, with parents first. -/
structure EntityOrder (events ordered : List VectorEvent) : Prop where
  perm : ordered.Perm events
  parentsFirst : ParentsFirst (ownParents events) (ordered.map VectorEvent.eventHash)

/-- The graph of an entity inherits that it has no cycle. -/
theorem WellFormedDag.acyclic_group {events group : List VectorEvent} (hwf : WellFormedDag events)
    (hsub : group.Sublist events) :
    Acyclic (group.map VectorEvent.eventHash) (ownParents group) := by
  have hnodup : (group.map VectorEvent.eventHash).Nodup :=
    hwf.hash_nodup.sublist (hsub.map VectorEvent.eventHash)
  intro hash hcycle
  refine hwf.acyclic hash (hcycle.lift id ?_)
  rintro p child ⟨hchild, hp⟩
  obtain ⟨e, he, rfl⟩ := List.mem_map.mp hchild
  rw [ownParents, parentsIn_of_mem hnodup _ he] at hp
  exact ⟨e, hsub.subset he, rfl, (List.mem_filter.mp hp).1⟩

/-- On a well-formed graph ordering an entity's events can only fail at the root count. -/
theorem WellFormedDag.orderEntityEvents {events group : List VectorEvent}
    (hwf : WellFormedDag events) (hsub : group.Sublist events) (hne : group ≠ []) :
    ∃ ordered, EntityOrder group ordered ∧
      VKernelX.orderEntityEvents group = (do
        Outcome.require ((rootHashes group).length = 1)
          ("entity history must have exactly one root event, found " ++
            decimal (rootHashes group).length ++ " roots")
        return ordered) := by
  have hnodup : (group.map VectorEvent.eventHash).Nodup :=
    hwf.hash_nodup.sublist (hsub.map VectorEvent.eventHash)
  obtain ⟨all, hall, hrun⟩ := orderEntityEvents_spec hne hnodup
    (fun e he => hwf.parents_nodup e (hsub.subset he))
  have hclosed : ∀ v ∈ group.map VectorEvent.eventHash, ∀ p ∈ ownParents group v,
      p ∈ group.map VectorEvent.eventHash := by
    intro v hv p hp
    obtain ⟨e, he, rfl⟩ := List.mem_map.mp hv
    rw [ownParents, parentsIn_of_mem hnodup _ he] at hp
    exact of_decide_eq_true (List.mem_filter.mp hp).2
  have hcomplete := (acyclic_iff_complete hclosed hall).mp (hwf.acyclic_group hsub)
  have hperm : all.Perm (group.map VectorEvent.eventHash) :=
    (List.perm_ext_iff_of_nodup hall.nodup hnodup).mpr
      (fun v => ⟨hall.subset v, hcomplete v⟩)
  have hhashes : (all.map (eventAt group)).map VectorEvent.eventHash = all := by
    rw [List.map_map]
    refine (List.map_congr_left ?_).trans (List.map_id all)
    intro v hv
    obtain ⟨e, he, rfl⟩ := List.mem_map.mp (hall.subset v hv)
    simp only [Function.comp, eventAt_eventHash hnodup he, id]
  refine ⟨all.map (eventAt group), ⟨?_, ?_⟩, ?_⟩
  · simpa only [map_eventAt hnodup] using hperm.map (eventAt group)
  · rw [hhashes]
    exact hall.parentsFirst
  · have hlength : all.length = group.length := by
      simpa only [List.length_map] using hperm.length_eq
    rw [hrun, Outcome.require_of hlength]
    rfl

theorem EntityOrder.ownParents_mem {events ordered : List VectorEvent}
    (h : EntityOrder events ordered) (hnodup : (events.map VectorEvent.eventHash).Nodup)
    {before after : List VectorEvent} {e p : VectorEvent} (hsplit : ordered = before ++ e :: after)
    (hp : p ∈ events) (hparent : p.eventHash ∈ e.parentHashes) : p ∈ before := by
  have he : e ∈ events := h.perm.mem_iff.mp (by rw [hsplit]; simp)
  have hown : p.eventHash ∈ ownParents events e.eventHash := by
    rw [ownParents, parentsIn_of_mem hnodup _ he]
    exact List.mem_filter.mpr ⟨hparent, decide_eq_true (List.mem_map_of_mem hp)⟩
  have hbefore : p.eventHash ∈ before.map VectorEvent.eventHash :=
    h.parentsFirst _ _ _ (by rw [hsplit, List.map_append, List.map_cons]) _ hown
  obtain ⟨q, hq, hhash⟩ := List.mem_map.mp hbefore
  have hqmem : q ∈ events := h.perm.mem_iff.mp (by rw [hsplit]; simp [hq])
  obtain rfl := List.inj_on_of_nodup_map hnodup hqmem hp hhash
  exact hq

/-- With one root, it comes first and everything after it has a parent in the list. -/
theorem EntityOrder.root_first {events ordered : List VectorEvent}
    (h : EntityOrder events ordered) (hnodup : (events.map VectorEvent.eventHash).Nodup)
    (hroot : (rootHashes events).length = 1) {first : VectorEvent} {rest : List VectorEvent}
    (hsplit : ordered = first :: rest) :
    ownParents events first.eventHash = [] ∧
      ∀ e ∈ rest, ownParents events e.eventHash ≠ [] := by
  have hfirst : ownParents events first.eventHash = [] := by
    refine List.eq_nil_iff_forall_not_mem.mpr (fun p hp => ?_)
    have := h.parentsFirst [] first.eventHash (rest.map VectorEvent.eventHash)
      (by rw [hsplit, List.map_cons, List.nil_append]) p hp
    exact List.not_mem_nil this
  have hmem : ∀ e ∈ ordered, ownParents events e.eventHash = [] →
      e.eventHash ∈ rootHashes events := by
    intro e he hnone
    exact List.mem_filter.mpr
      ⟨List.mem_map_of_mem (h.perm.mem_iff.mp he), decide_eq_true hnone⟩
  refine ⟨hfirst, fun e he hnone => ?_⟩
  obtain ⟨root, hroot⟩ := List.length_eq_one_iff.mp hroot
  have hone := hmem first (by rw [hsplit]; exact List.mem_cons_self) hfirst
  have htwo := hmem e (by rw [hsplit]; exact List.mem_cons_of_mem _ he) hnone
  rw [hroot, List.mem_singleton] at hone htwo
  have hordered : (ordered.map VectorEvent.eventHash).Nodup :=
    (h.perm.map VectorEvent.eventHash).nodup_iff.mpr hnodup
  rw [hsplit, List.map_cons, List.nodup_cons] at hordered
  exact hordered.1 (by rw [hone, ← htwo]; exact List.mem_map_of_mem he)

/-! ## The loop over all entities -/

/-- The entities of a list of events, in the order replay takes them. -/
def entityIds (events : List VectorEvent) : List String :=
  (groupByEntity events).toList.map Prod.fst

/-- An entity's events in the order replay applies them. -/
def entityOrder (events : List VectorEvent) (entityId : String) : List VectorEvent :=
  match orderEntityEvents (eventsOf entityId events) with
  | .ok ordered => ordered
  | .error _ => []

/-- All events in the order replay applies them. -/
def appliedEvents (events : List VectorEvent) : List VectorEvent :=
  (entityIds events).flatMap (entityOrder events)

theorem entityOrder_of_ok {events ordered : List VectorEvent} {entityId : String}
    (h : orderEntityEvents (eventsOf entityId events) = .ok ordered) :
    entityOrder events entityId = ordered := by
  rw [entityOrder, h]

theorem nodup_entityIds (events : List VectorEvent) : (entityIds events).Nodup := by
  rw [entityIds, List.nodup_iff_pairwise_ne, List.pairwise_map]
  refine Std.ExtTreeMap.distinct_keys_toList.imp ?_
  intro a b h heq
  exact h (Std.LawfulEqOrd.compare_eq_iff_eq.mpr heq)

theorem mem_entityIds {events : List VectorEvent} {entityId : String} :
    entityId ∈ entityIds events ↔ eventsOf entityId events ≠ [] := by
  have hmem : entityId ∈ entityIds events ↔
      ∃ group, (groupByEntity events)[entityId]? = some group := by
    simp only [entityIds, List.mem_map, Prod.exists, BTreeMap.mem_toList]
    constructor
    · rintro ⟨_, group, h, rfl⟩
      exact ⟨group, h⟩
    · rintro ⟨group, h⟩
      exact ⟨entityId, group, h, rfl⟩
  rw [hmem, lookup_groupByEntity]
  by_cases hnil : eventsOf entityId events = [] <;> simp [hnil]

/-- The groups are the events of the entities. -/
theorem values_groupByEntity (events : List VectorEvent) :
    BTreeMap.values (groupByEntity events) =
      (entityIds events).map (fun entityId => eventsOf entityId events) := by
  rw [BTreeMap.values, entityIds, List.map_map]
  exact List.map_congr_left (fun entry hentry => mem_of_mem_group hentry)

/-- Replaying entities one after the other is ordering the events of each and applying all
the orders. -/
theorem foldlM_replayEntity_eq_ok_iff {env : Platform} {events : List VectorEvent}
    {ids : List String} {progress progress' : ReplayProgress} :
    (ids.map (fun entityId => eventsOf entityId events)).foldlM (replayEntity env) progress =
        .ok progress' ↔
      (∀ entityId ∈ ids, orderEntityEvents (eventsOf entityId events) =
        .ok (entityOrder events entityId)) ∧
      (ids.flatMap (entityOrder events)).foldlM (applyNext env) progress = .ok progress' := by
  induction ids generalizing progress with
  | nil =>
    simp only [List.not_mem_nil, false_implies, implies_true, true_and]
    rfl
  | cons entityId ids ih =>
    simp only [List.map_cons, List.foldlM_cons, Outcome.bind_eq_ok_iff, replayEntity, ih,
      List.forall_mem_cons, List.flatMap_cons, List.foldlM_append]
    constructor
    · rintro ⟨mid, ⟨ordered, hordered, hrun⟩, horders, hrest⟩
      have heq := entityOrder_of_ok hordered
      exact ⟨⟨by rw [heq, hordered], horders⟩, mid, by rw [heq, hrun], hrest⟩
    · rintro ⟨⟨hordered, horders⟩, mid, hrun, hrest⟩
      exact ⟨mid, ⟨_, hordered, hrun⟩, horders, hrest⟩

/-- What a replay needs to succeed, and what it then returns. -/
theorem replayEvents_eq_ok_iff {env : Platform} {events : List VectorEvent}
    {result : ReplayResult} :
    replayEvents env events = .ok result ↔
      WellFormedDag events ∧
      (∀ entityId, orderEntityEvents (eventsOf entityId events) =
        .ok (entityOrder events entityId)) ∧
      ∃ progress, (appliedEvents events).foldlM (applyNext env) (ReplayProgress.start env) =
          .ok progress ∧
        result = progress.result env := by
  have hall : (∀ entityId ∈ entityIds events, orderEntityEvents (eventsOf entityId events) =
        .ok (entityOrder events entityId)) ↔
      ∀ entityId, orderEntityEvents (eventsOf entityId events) =
        .ok (entityOrder events entityId) := by
    refine ⟨fun h entityId => ?_, fun h entityId _ => h entityId⟩
    by_cases hmem : entityId ∈ entityIds events
    · exact h entityId hmem
    · have hnil : eventsOf entityId events = [] := by
        by_contra hne
        exact hmem (mem_entityIds.mpr hne)
      have hrun : orderEntityEvents (eventsOf entityId events) = .ok [] := by
        rw [hnil]
        rfl
      rw [entityOrder_of_ok hrun, hrun]
  rw [← validateDag_isOk_iff_wellFormed, ← hall]
  simp only [replayEvents, Outcome.bind_eq_ok_iff, values_groupByEntity,
    foldlM_replayEntity_eq_ok_iff]
  constructor
  · rintro ⟨_, hvalid, progress, ⟨horders, hrun⟩, hresult⟩
    exact ⟨⟨_, hvalid⟩, horders, progress, hrun, (Except.ok.inj hresult).symm⟩
  · rintro ⟨⟨_, hvalid⟩, horders, progress, hrun, rfl⟩
    exact ⟨_, hvalid, progress, ⟨horders, hrun⟩, rfl⟩

/-! ## The applied events -/

/-- When every entity has an order, that order is causal, and one root starts it. -/
theorem entityOrder_spec {events : List VectorEvent} (hwf : WellFormedDag events)
    {entityId : String} (hne : eventsOf entityId events ≠ [])
    (hordered : orderEntityEvents (eventsOf entityId events) =
      .ok (entityOrder events entityId)) :
    EntityOrder (eventsOf entityId events) (entityOrder events entityId) ∧
      (rootHashes (eventsOf entityId events)).length = 1 := by
  have hsub : (eventsOf entityId events).Sublist events := List.filter_sublist
  obtain ⟨ordered, horder, hrun⟩ := hwf.orderEntityEvents hsub hne
  rw [hordered] at hrun
  obtain ⟨_, hroot, hreturn⟩ := Outcome.bind_eq_ok_iff.mp hrun.symm
  rw [Except.ok.inj hreturn] at horder
  exact ⟨horder, Outcome.require_eq_ok_iff.mp hroot⟩

theorem entityOrder_perm {events : List VectorEvent} (hwf : WellFormedDag events)
    {entityId : String} (hordered : orderEntityEvents (eventsOf entityId events) =
      .ok (entityOrder events entityId)) :
    (entityOrder events entityId).Perm (eventsOf entityId events) := by
  by_cases hne : eventsOf entityId events = []
  · rw [hne] at hordered ⊢
    rw [← Except.ok.inj hordered]
  · exact (entityOrder_spec hwf hne hordered).1.perm

theorem eventsOf_flatMap {ids : List String} (hnodup : ids.Nodup)
    {order : String → List VectorEvent}
    (horder : ∀ entityId ∈ ids, ∀ e ∈ order entityId, e.entityId = entityId)
    (entityId : String) :
    eventsOf entityId (ids.flatMap order) = if entityId ∈ ids then order entityId else [] := by
  induction ids with
  | nil => rfl
  | cons id ids ih =>
    obtain ⟨hnotin, hrest⟩ := List.nodup_cons.mp hnodup
    obtain ⟨hid, hids⟩ := List.forall_mem_cons.mp horder
    have hcons : eventsOf entityId ((id :: ids).flatMap order) =
        eventsOf entityId (order id) ++ eventsOf entityId (ids.flatMap order) := by
      rw [List.flatMap_cons, eventsOf, List.filter_append]
      rfl
    rw [hcons, ih hrest hids]
    by_cases heq : entityId = id
    · subst heq
      have hown : eventsOf entityId (order entityId) = order entityId :=
        List.filter_eq_self.mpr (fun e he => decide_eq_true (hid e he))
      rw [hown, if_neg hnotin, if_pos List.mem_cons_self, List.append_nil]
    · have hother : eventsOf entityId (order id) = [] := by
        refine List.filter_eq_nil_iff.mpr (fun e he hdecide => ?_)
        exact heq ((of_decide_eq_true hdecide).symm.trans (hid e he))
      rw [hother, List.nil_append]
      simp only [List.mem_cons, heq, false_or]

/-- Lists that agree on every entity, up to order, agree up to order. -/
theorem perm_of_eventsOf_perm {events events' : List VectorEvent}
    (h : ∀ entityId, (eventsOf entityId events).Perm (eventsOf entityId events')) :
    events.Perm events' := by
  classical
  have hcount : ∀ (l : List VectorEvent) (e : VectorEvent),
      l.count e = (eventsOf e.entityId l).count e := by
    intro l e
    rw [eventsOf, List.count_filter]
    exact decide_eq_true rfl
  refine List.perm_iff_count.mpr (fun e => ?_)
  rw [hcount events, hcount events', (h e.entityId).count_eq]

section Applied

variable {events : List VectorEvent} (hwf : WellFormedDag events)
  (hordered : ∀ entityId, orderEntityEvents (eventsOf entityId events) =
    .ok (entityOrder events entityId))

include hwf hordered

/-- Among the applied events an entity's come in that entity's order. -/
theorem eventsOf_appliedEvents (entityId : String) :
    eventsOf entityId (appliedEvents events) = entityOrder events entityId := by
  have hown : ∀ id ∈ entityIds events, ∀ e ∈ entityOrder events id, e.entityId = id := by
    intro id _ e he
    have := (entityOrder_perm hwf (hordered id)).mem_iff.mp he
    exact of_decide_eq_true (List.mem_filter.mp this).2
  rw [appliedEvents, eventsOf_flatMap (nodup_entityIds events) hown]
  split
  · rfl
  · rename_i hnotin
    have hnil : eventsOf entityId events = [] := by
      by_contra hne
      exact hnotin (mem_entityIds.mpr hne)
    have hperm := entityOrder_perm hwf (hordered entityId)
    rw [hnil] at hperm
    exact (List.perm_nil.mp hperm).symm

/-- Every event is applied, and none twice. -/
theorem appliedEvents_perm : (appliedEvents events).Perm events := by
  refine perm_of_eventsOf_perm (fun entityId => ?_)
  rw [eventsOf_appliedEvents hwf hordered]
  exact entityOrder_perm hwf (hordered entityId)

end Applied

end VKernelX
