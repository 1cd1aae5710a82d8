/-
  Engine/History.lean --- the events of a run in the order in which they were appended.

  The store keeps events by hash and forgets when they came.  Here the order is observed from
  outside, as what each call adds.  What a successful call adds to the history of one entity
  is at most one event: its creation, its next transition, or a region's genesis.
-/
import VKernelX.Engine.Commutation
import VKernelX.Replay.OrderIndependence
import VKernelX.Region.Names

set_option autoImplicit false

namespace VKernelX

/-! ## What a call adds -/

/-- The events that were not stored before. -/
def newEvents (eng eng' : KernelEngine) : List VectorEvent :=
  eng'.store.listEvents.filter (fun e => eng.store.events[e.eventHash]? = none)

section

variable (env : Platform)

/-- The events that the calls of a run append, call by call. -/
def eventLog (eng : KernelEngine) : List TimedCall → List VectorEvent
  | [] => []
  | c :: calls => newEvents eng (engineStep env eng c) ++ eventLog (engineStep env eng c) calls

/-- The history of an entity: its events in the order in which a run appended them.  A call
appends at most one event to it. -/
def history (policy : ConsensusPolicy) (calls : List TimedCall) (entityId : String) :
    List VectorEvent :=
  eventsOf entityId (eventLog env (KernelEngine.initial policy) calls)

variable {env}

theorem eventLog_snoc (eng : KernelEngine) (calls : List TimedCall) (c : TimedCall) :
    eventLog env eng (calls ++ [c]) = eventLog env eng calls ++
      newEvents (runFrom (engineStep env) eng calls)
        (engineStep env (runFrom (engineStep env) eng calls) c) := by
  induction calls generalizing eng with
  | nil => simp [eventLog]
  | cons c' calls ih =>
    rw [List.cons_append, eventLog, eventLog, ih, List.append_assoc]
    rfl

theorem eventsOf_append (entityId : String) (events events' : List VectorEvent) :
    eventsOf entityId (events ++ events') = eventsOf entityId events ++ eventsOf entityId events' :=
  List.filter_append _ _

theorem history_snoc (policy : ConsensusPolicy) (calls : List TimedCall) (c : TimedCall)
    (entityId : String) :
    history env policy (calls ++ [c]) entityId = history env policy calls entityId ++
      eventsOf entityId (newEvents (engineRun env policy calls)
        (engineStep env (engineRun env policy calls) c)) := by
  rw [history, eventLog_snoc, eventsOf_append]
  rfl

/-- A call that adds fresh events of distinct hashes adds exactly those. -/
theorem newEvents_perm {eng eng' : KernelEngine} {es : List VectorEvent}
    (hperm : eng'.store.listEvents.Perm (es ++ eng.store.listEvents))
    (hfresh : ∀ e ∈ es, eng.store.events[e.eventHash]? = none) (hkeyed : WellKeyed eng.store) :
    (newEvents eng eng').Perm es := by
  have hnew : es.filter (fun e => eng.store.events[e.eventHash]? = none) = es :=
    List.filter_eq_self.mpr (fun e he => decide_eq_true (hfresh e he))
  have hold : eng.store.listEvents.filter (fun e => eng.store.events[e.eventHash]? = none) =
      [] := by
    refine List.filter_eq_nil_iff.mpr (fun e he hnone => ?_)
    rw [hkeyed.mem_listEvents_iff.mp he] at hnone
    simp at hnone
  have hfilter := hperm.filter (fun e => eng.store.events[e.eventHash]? = none)
  rw [List.filter_append, hnew, hold, List.append_nil] at hfilter
  exact hfilter

/-- The stored events after transitions: the old ones and the new ones, which are fresh. -/
theorem Appends.listEvents {eng : KernelEngine} {ts : List Transition} {es : List VectorEvent}
    (h : Appends env eng ts es) :
    (eng.addEvents es).store.listEvents.Perm (es ++ eng.store.listEvents) ∧
      ∀ e ∈ es, eng.store.events[e.eventHash]? = none := by
  induction h with
  | nil => exact ⟨.refl _, nofun⟩
  | @cons eng t ts e es hevent hrest ih =>
    obtain ⟨hperm, hfresh⟩ := ih
    have hnone := (transitionEvent_eq_ok_iff.mp hevent).2.appendable.hash_fresh
    refine ⟨?_, List.forall_mem_cons.mpr ⟨hnone, fun e' he' => ?_⟩⟩
    · refine hperm.trans (((listEvents_addEvent_perm hnone).append_left es).trans ?_)
      exact List.perm_middle
    · have hlookup := hfresh e' he'
      rw [KernelEngine.events_addEvent, BTreeMap.lookup_insert] at hlookup
      split at hlookup
      · cases hlookup
      · exact hlookup

/-- Transitions of different vectors get the events they would get one by one. -/
theorem Appends.each {eng : KernelEngine} (hkeyed : WellKeyed eng.store) {ts : List Transition}
    {es : List VectorEvent} (h : Appends env eng ts es)
    (hne : ts.Pairwise (fun t t' => t.after.vectorId ≠ t'.after.vectorId)) :
    List.Forall₂ (fun t e => t.event env eng = .ok e) ts es := by
  induction ts generalizing es with
  | nil =>
    cases h
    exact .nil
  | cons t ts ih =>
    obtain ⟨hfirst, hothers⟩ := List.pairwise_cons.mp hne
    cases h with
    | cons hevent hrest =>
      exact .cons hevent (ih (Appends.swap_one hkeyed hfirst hevent hrest).1 hothers)

/-- What a successful call on vectors adds to an entity's events. -/
theorem eventsOf_newEvents {eng : KernelEngine} (hkeyed : WellKeyed eng.store) {w : Work}
    {es : List VectorEvent} (happends : Appends env eng w.transitions es) (entityId : String) :
    (eventsOf entityId (newEvents eng (w.finish eng es))).Perm (eventsOf entityId es) := by
  obtain ⟨hperm, hfresh⟩ := happends.listEvents
  refine (newEvents_perm ?_ hfresh hkeyed).filter _
  rwa [MemoryStore.listEvents, w.events_finish]

/-! ## The readings of the clock -/

/-- How often a call that goes through reads the clock. -/
def Call.clockReadings : Call → ℕ
  | .transfer _ _ _ => 8
  | .createRegion _ _ => 1
  | _ => 3

/-- The readings a call gets, in the order in which it makes them. -/
def TimedCall.readings (c : TimedCall) : List UInt64 :=
  (List.range c.call.clockReadings).map c.now

/-- The readings of a run. -/
def clockReadings (calls : List TimedCall) : List UInt64 := calls.flatMap TimedCall.readings

theorem TimedCall.mem_readings {c : TimedCall} {i : ℕ} (h : i < c.call.clockReadings) :
    c.now i ∈ c.readings :=
  List.mem_map_of_mem (List.mem_range.mpr h)

/-- An update stamps the new state with one of its readings. -/
theorem update_next_updatedAt {c : TimedCall} {u : Update}
    (hupdate : c.call.update? env c.now = some u) {s after : VectorStateV1}
    (h : u.next s = .ok after) (hsound : SoundState s) : after.updatedAtMs ∈ c.readings := by
  rcases c with ⟨call, now⟩
  have hreading : ∀ i, i < 3 → call.clockReadings = 3 → now i ∈ TimedCall.readings ⟨call, now⟩ :=
    fun i hi hcall => TimedCall.mem_readings (c := ⟨call, now⟩) (hcall ▸ hi)
  cases call with
  | certify vectorId =>
    obtain rfl := Option.some.inj hupdate
    rw [(certifyNext_ok h).2.2.2]
    exact hreading 1 (by decide) rfl
  | drain vectorId basisPoints =>
    obtain rfl := Option.some.inj hupdate
    rw [(drainNext_ok h).2.2.2]
    exact hreading 1 (by decide) rfl
  | project vectorId projected escrowId =>
    obtain rfl := Option.some.inj hupdate
    rw [(projectNext_ok h).2.2]
    exact hreading 0 (by decide) rfl
  | reconstruct vectorId outcome =>
    obtain rfl := Option.some.inj hupdate
    obtain ⟨projection, hprojection⟩ := reconstructNext_projection h
    rw [(reconstructNext_ok hprojection (hsound.shape projection hprojection) h).2.2]
    exact hreading 0 (by decide) rfl
  | originCreate _ => cases hupdate
  | transfer _ _ _ => cases hupdate
  | createRegion _ _ => cases hupdate

/-! ## One call and one entity -/

variable (env)

/-- The entities a call that goes through appends an event to. -/
def Call.entities : Call → List String
  | .createRegion request actorPublicKey => [canonicalRegionId env request actorPublicKey 1]
  | c => c.named

/-- A stored vector gets a new state, and an event that says so. -/
structure Moves (eng : KernelEngine) (entityId : String) (eng' : KernelEngine)
    (operation : OperationType) (timestamp : UInt64) (before after : VectorStateV1)
    (e : VectorEvent) : Prop where
  before_eq : eng.store.states[entityId]? = some before
  after_eq : eng'.store.states[entityId]? = some after
  identity : SameIdentity before after
  event_eq : Transition.event env ⟨some before, after, operation, timestamp⟩ eng = .ok e

/-- What a successful call does to the state and the history of one entity: the list is what
it adds to the history. -/
inductive EntityStep (eng : KernelEngine) (c : TimedCall) (entityId : String)
    (eng' : KernelEngine) : List VectorEvent → Prop where
  /-- the call is about other entities -/
  | idle (hother : entityId ∉ c.call.entities env)
      (hstate : eng'.store.states[entityId]? = eng.store.states[entityId]?) :
      EntityStep eng c entityId eng' []
  /-- the vector is created -/
  | created {request : OriginRequest} {s : VectorStateV1} {e : VectorEvent}
      (hcall : c.call = .originCreate request) (hid : request.vectorId = entityId)
      (hplan : originState env c.now request = .ok s)
      (hstate : eng'.store.states[entityId]? = some s)
      (hevent : Transition.event env ⟨none, s, .originCreate, s.createdAtMs⟩ eng = .ok e) :
      EntityStep eng c entityId eng' [e]
  /-- the vector is updated -/
  | updated {u : Update} {before after : VectorStateV1} {e : VectorEvent}
      (hupdate : c.call.update? env c.now = some u) (hid : u.vectorId = entityId)
      (hnext : u.next before = .ok after)
      (hmoves : Moves env eng entityId eng' u.operation after.updatedAtMs before after e) :
      EntityStep eng c entityId eng' [e]
  /-- the vector is one side of a transfer -/
  | transferred {fromId toId : String} {amount : List U128} {before after : VectorStateV1}
      {timestamp : UInt64} {e : VectorEvent} (hcall : c.call = .transfer fromId toId amount)
      (hside : entityId = fromId ∧ timestamp = c.now 6 ∨ entityId = toId ∧ timestamp = c.now 7)
      (hversion : after.version = before.version)
      (hmoves : Moves env eng entityId eng' .transfer timestamp before after e) :
      EntityStep eng c entityId eng' [e]
  /-- the region is founded -/
  | founded {request : RegionCreateRequest} {actorPublicKey : String} {e : VectorEvent}
      {region : RegionState} (hcall : c.call = .createRegion request actorPublicKey)
      (hid : canonicalRegionId env request actorPublicKey 1 = entityId)
      (hstate : eng'.store.states[entityId]? = eng.store.states[entityId]?)
      (hevent : regionEvent env c.now request actorPublicKey eng = .ok e)
      (hread : regionStateFromEvent e = .ok region) :
      EntityStep eng c entityId eng' [e]

variable {env}

theorem Transition.event_entityId {t : Transition} {eng : KernelEngine} {e : VectorEvent}
    (h : t.event env eng = .ok e) : e.entityId = t.after.vectorId :=
  (buildTransitionEvent_fields (transitionEvent_eq_ok_iff.mp h).1).1.entityId_eq

theorem eventsOf_singleton_self {e : VectorEvent} {entityId : String} (h : e.entityId = entityId) :
    eventsOf entityId [e] = [e] := by
  simp [eventsOf, h]

theorem eventsOf_singleton_of_ne {e : VectorEvent} {entityId : String}
    (h : e.entityId ≠ entityId) : eventsOf entityId [e] = [] := by
  simp [eventsOf, h]

theorem Transition.event_parents {t : Transition} {eng : KernelEngine} {e : VectorEvent}
    (h : t.event env eng = .ok e) : e.parentHashes = t.parents eng :=
  (buildTransitionEvent_fields (transitionEvent_eq_ok_iff.mp h).1).1.parentHashes_eq

theorem Transition.event_timestamp {t : Transition} {eng : KernelEngine} {e : VectorEvent}
    (h : t.event env eng = .ok e) : e.timestamp = t.timestamp :=
  (buildTransitionEvent_fields (transitionEvent_eq_ok_iff.mp h).1).1.timestamp_eq

theorem Moves.vectorId {eng eng' : KernelEngine} {entityId : String} {operation : OperationType}
    {timestamp : UInt64} {before after : VectorStateV1} {e : VectorEvent}
    (h : Moves env eng entityId eng' operation timestamp before after e)
    (hkeyed : WellKeyed eng.store) : after.vectorId = entityId :=
  h.identity.vectorId.trans (hkeyed.states _ _ h.before_eq).1

/-- The event of a stored vector has the parent the engine picks for it. -/
theorem Moves.parents {eng eng' : KernelEngine} {entityId : String} {operation : OperationType}
    {timestamp : UInt64} {before after : VectorStateV1} {e : VectorEvent}
    (h : Moves env eng entityId eng' operation timestamp before after e)
    (hkeyed : WellKeyed eng.store) :
    e.parentHashes = eng.latestParentHashForEntity entityId := by
  rw [Transition.event_parents h.event_eq, ← h.vectorId hkeyed]
  rfl

/-- Work with one state and one event leaves every other entity alone. -/
theorem lookup_finish_of_ne {w : Work} {s : VectorStateV1} (hw : w.states = [s])
    (eng : KernelEngine) (es : List VectorEvent) {id : String} (hne : s.vectorId ≠ id) :
    (w.finish eng es).store.states[id]? = eng.store.states[id]? := by
  rw [w.states_finish, hw]
  exact BTreeMap.lookup_insert_of_ne _ _ hne

theorem lookup_finish_self {w : Work} {s : VectorStateV1} (hw : w.states = [s])
    (eng : KernelEngine) (es : List VectorEvent) :
    (w.finish eng es).store.states[s.vectorId]? = some s := by
  rw [w.states_finish, hw]
  exact (BTreeMap.lookup_insert _ _ _ _).trans (if_pos rfl)

/-- A successful transfer, for one entity. -/
theorem EntityStep.of_transfer {eng : KernelEngine} (hkeyed : WellKeyed eng.store)
    {now : ℕ → UInt64} {fromId toId : String} {amount : List U128} (hne : fromId ≠ toId)
    {plan : TransferPlan} {w : Work} {es : List VectorEvent}
    (hplan : transferPlan env eng now fromId toId amount = .ok plan)
    (hstates : w.states = [plan.afterFrom, plan.afterTo])
    (htransitions : w.transitions = [⟨some plan.sender, plan.afterFrom, .transfer, now 6⟩,
      ⟨some plan.receiver, plan.afterTo, .transfer, now 7⟩])
    (happends : Appends env eng w.transitions es) (entityId : String) :
    EntityStep env eng ⟨.transfer fromId toId amount, now⟩ entityId (w.finish eng es)
      (eventsOf entityId (newEvents eng (w.finish eng es))) := by
  obtain ⟨hsender, hreceiver, hnext⟩ := transferPlan_eq_ok_iff.mp hplan
  obtain ⟨hidentityFrom, hidentityTo⟩ := transferNext_identity hnext
  have htransfers := transferNext_ok hnext
  have hfrom : plan.afterFrom.vectorId = fromId :=
    hidentityFrom.vectorId.trans (hkeyed.states _ _ hsender).1
  have hto : plan.afterTo.vectorId = toId :=
    hidentityTo.vectorId.trans (hkeyed.states _ _ hreceiver).1
  have hsub := eventsOf_newEvents hkeyed happends entityId
  -- Both events are those the transitions get on the engine the call starts from.
  rw [htransitions] at happends
  have heach := happends.each hkeyed (by simpa [hfrom, hto] using hne)
  obtain ⟨e, es', heventFrom, hrest, rfl⟩ := List.forall₂_cons_left_iff.mp heach
  obtain ⟨e', es'', heventTo, hrest', rfl⟩ := List.forall₂_cons_left_iff.mp hrest
  obtain rfl := List.forall₂_nil_left_iff.mp hrest'
  have hentity : e.entityId = fromId := (Transition.event_entityId heventFrom).trans hfrom
  have hentity' : e'.entityId = toId := (Transition.event_entityId heventTo).trans hto
  have hfinal : ∀ id : String, (w.finish eng [e, e']).store.states[id]? =
      if toId = id then some plan.afterTo
      else if fromId = id then some plan.afterFrom else eng.store.states[id]? := by
    intro id
    rw [w.states_finish, hstates]
    simp only [List.map_cons, List.map_nil, BTreeMap.insertMany_cons, BTreeMap.insertMany_nil,
      BTreeMap.lookup_insert, hfrom, hto]
  have hpair : eventsOf entityId [e, e'] = eventsOf entityId [e] ++ eventsOf entityId [e'] :=
    eventsOf_append entityId [e] [e']
  rw [hpair] at hsub
  by_cases hidFrom : fromId = entityId
  · rw [eventsOf_singleton_self (hentity.trans hidFrom), eventsOf_singleton_of_ne
      (fun h => hne (hidFrom.trans (hentity'.symm.trans h).symm)), List.append_nil,
      List.perm_singleton] at hsub
    rw [hsub]
    refine .transferred rfl (Or.inl ⟨hidFrom.symm, rfl⟩) htransfers.version_from
      ⟨hidFrom ▸ hsender, ?_, hidentityFrom, heventFrom⟩
    rw [hfinal, if_neg (fun h => hne (hidFrom.trans h.symm)), if_pos hidFrom]
  · rw [eventsOf_singleton_of_ne (fun h => hidFrom (hentity.symm.trans h)), List.nil_append] at hsub
    by_cases hidTo : toId = entityId
    · rw [eventsOf_singleton_self (hentity'.trans hidTo), List.perm_singleton] at hsub
      rw [hsub]
      refine .transferred rfl (Or.inr ⟨hidTo.symm, rfl⟩) htransfers.version_to
        ⟨hidTo ▸ hreceiver, ?_, hidentityTo, heventTo⟩
      rw [hfinal, if_pos hidTo]
    · rw [eventsOf_singleton_of_ne (fun h => hidTo (hentity'.symm.trans h)),
        List.perm_nil] at hsub
      rw [hsub]
      refine .idle ?_ ?_
      · simp [Call.entities, Call.named, Ne.symm hidFrom, Ne.symm hidTo]
      · rw [hfinal, if_neg hidTo, if_neg hidFrom]

/-- A region that is founded adds its event. -/
theorem newEvents_addEvent {eng : KernelEngine} (hkeyed : WellKeyed eng.store) {e : VectorEvent}
    (hfresh : eng.store.events[e.eventHash]? = none) : newEvents eng (eng.addEvent e) = [e] :=
  List.perm_singleton.mp (newEvents_perm (listEvents_addEvent_perm hfresh)
    (by simpa using hfresh) hkeyed)

/-- Whatever was stored stays stored, next to the new events. -/
theorem listEvents_perm_newEvents {eng eng' : KernelEngine} (h : EngineWrites env eng eng')
    (hkeyed : WellKeyed eng.store) (hkeyed' : WellKeyed eng'.store) :
    eng'.store.listEvents.Perm (eng.store.listEvents ++ newEvents eng eng') := by
  have hold : (eng'.store.listEvents.filter
      (fun e => ¬ eng.store.events[e.eventHash]? = none)).Perm eng.store.listEvents := by
    refine (List.perm_ext_iff_of_nodup (hkeyed'.nodup_eventHash.of_map.filter _)
      hkeyed.nodup_eventHash.of_map).mpr (fun e => ?_)
    rw [List.mem_filter, decide_eq_true_iff, hkeyed'.mem_listEvents_iff,
      hkeyed.mem_listEvents_iff]
    constructor
    · rintro ⟨he, hstored⟩
      obtain ⟨e', he'⟩ := Option.ne_none_iff_exists'.mp hstored
      rw [he', ← h.events_kept _ _ he', he]
    · intro he
      exact ⟨h.events_kept _ _ he, by rw [he]; exact Option.some_ne_none e⟩
  have hsplit := List.filter_append_perm (fun e => decide (eng.store.events[e.eventHash]? = none))
    eng'.store.listEvents
  refine hsplit.symm.trans (List.perm_append_comm.trans (List.Perm.append_right _ ?_))
  simpa using hold

/-- A successful call, for one entity. -/
theorem entityStep_of_ok {policy : ConsensusPolicy} {eng : KernelEngine}
    (h : ReachableEngine env policy eng) {c : TimedCall} (hok : (eng.call env c.now c.call).1.IsOk)
    (hdistinct : ∀ fromId toId amount, c.call = .transfer fromId toId amount → fromId ≠ toId)
    (entityId : String) :
    EntityStep env eng c entityId (engineStep env eng c)
      (eventsOf entityId (newEvents eng (engineStep env eng c))) := by
  obtain ⟨call, now⟩ := c
  by_cases hregion : ∃ request actor, call = .createRegion request actor
  · obtain ⟨request, actor, rfl⟩ := hregion
    obtain ⟨e, region, hevent, hadmits, hread, hcall⟩ := region_of_ok hok
    have hid := (buildRegionGenesisEvent_fields (regionEvent_built hevent)).entityId_eq
    rw [engineStep, hcall, newEvents_addEvent h.wellKeyed hadmits.appendable.hash_fresh]
    by_cases hentity : e.entityId = entityId
    · rw [eventsOf_singleton_self hentity]
      exact .founded rfl (hid.symm.trans hentity) rfl hevent hread
    · rw [eventsOf_singleton_of_ne hentity]
      refine .idle ?_ rfl
      rw [Call.entities, List.mem_singleton]
      exact fun heq => hentity (hid.trans heq.symm)
  · obtain ⟨w, es, hworks, happends, hcall⟩ :=
      works_of_ok (fun request actor heq => hregion ⟨request, actor, heq⟩) hok
    rw [engineStep, hcall]
    have hsub := eventsOf_newEvents h.wellKeyed happends entityId
    cases hworks with
    | @update _ u before after r hupdate hplan hrecord =>
      obtain ⟨hbefore, hnext, hcanonical⟩ := Update.plan_eq_ok_iff.mp hplan
      have hidentity := update_next_identity hupdate hnext (h.soundStates _ _ hbefore) hcanonical
      have hid : after.vectorId = u.vectorId :=
        hidentity.vectorId.trans (h.wellKeyed.states _ _ hbefore).1
      cases happends with
      | @cons _ _ _ e _ hevent hrest =>
        cases hrest
        have hentity : e.entityId = u.vectorId := (Transition.event_entityId hevent).trans hid
        by_cases heq : u.vectorId = entityId
        · rw [eventsOf_singleton_self (hentity.trans heq), List.perm_singleton] at hsub
          rw [hsub]
          refine .updated hupdate heq hnext ⟨heq ▸ hbefore, ?_, hidentity, hevent⟩
          rw [← heq, ← hid]
          exact lookup_finish_self rfl eng [e]
        · rw [eventsOf_singleton_of_ne (hentity ▸ heq), List.perm_nil] at hsub
          rw [hsub]
          refine .idle ?_ (lookup_finish_of_ne rfl eng [e] (hid ▸ heq))
          have hnamed : call.entities env = call.named := by
            cases call <;> first | rfl | cases hupdate
          rw [hnamed, named_of_update hupdate, List.mem_singleton]
          exact Ne.symm heq
    | @origin request s hplan =>
      have hid := (originState_ok hplan).vectorId
      cases happends with
      | @cons _ _ _ e _ hevent hrest =>
        cases hrest
        have hentity : e.entityId = request.vectorId :=
          (Transition.event_entityId hevent).trans hid
        by_cases heq : request.vectorId = entityId
        · rw [eventsOf_singleton_self (hentity.trans heq), List.perm_singleton] at hsub
          rw [hsub]
          refine .created rfl heq hplan ?_ hevent
          rw [← heq, ← hid]
          exact lookup_finish_self rfl eng [e]
        · rw [eventsOf_singleton_of_ne (hentity ▸ heq), List.perm_nil] at hsub
          rw [hsub]
          refine .idle ?_ (lookup_finish_of_ne rfl eng [e] (hid ▸ heq))
          rw [Call.entities, Call.named, List.mem_singleton]
          · exact Ne.symm heq
          · intro _ _ heq'
            cases heq'
    | transfer hplan hrecords =>
      exact .of_transfer h.wellKeyed (hdistinct _ _ _ rfl) hplan rfl rfl happends entityId

end

end VKernelX
