/-
  Replay/Unfounded.lean --- histories that do not begin with a creation.

  Replay starts every entity from nothing, so the first event it applies to an entity has to be
  a creation.  One event without parents that is none makes the whole replay fail, whatever else
  is stored.
-/
import VKernelX.Replay.Recorded

set_option autoImplicit false

namespace VKernelX

/-- Some event has no parents, and neither creates its vector nor founds a region. -/
def Unfounded (events : List VectorEvent) : Prop :=
  ∃ e ∈ events, e.parentHashes = [] ∧ e.operation ≠ .originCreate ∧ isRegionCreateEvent e = false

section

variable {env : Platform} {events : List VectorEvent}

theorem Unfounded.mono {events' : List VectorEvent} (h : Unfounded events)
    (hkept : ∀ e ∈ events, e ∈ events') : Unfounded events' := by
  obtain ⟨e, he, hroot⟩ := h
  exact ⟨e, hkept e he, hroot⟩

/-- Such events are not replayed. -/
theorem Unfounded.not_replayed (h : Unfounded events) : ¬ (replayEvents env events).IsOk := by
  rintro ⟨result, hresult⟩
  obtain ⟨e, he, hroot, horigin, hplain⟩ := h
  obtain ⟨hwf, hordered, haccepted, _⟩ := replayEvents_eq_ok_iff_accepted.mp hresult
  have hown : e ∈ eventsOf e.entityId events := List.mem_filter.mpr ⟨he, by simp⟩
  have hsub : (eventsOf e.entityId events).Sublist events := List.filter_sublist
  have hnodup := hwf.hash_nodup.sublist (hsub.map VectorEvent.eventHash)
  obtain ⟨horder, hone⟩ :=
    entityOrder_spec hwf (List.ne_nil_of_mem hown) (hordered e.entityId)
  obtain ⟨before, after, hsplit⟩ := List.append_of_mem (horder.perm.mem_iff.mpr hown)
  -- It is not the first event that is applied, and the first one is the only root.
  cases haccepted e.entityId before e after hsplit with
  | region hregion => exact absurd (hplain.symm.trans hregion) nofun
  | origin _ hop _ => exact horigin hop
  | transition _ _ hbefore =>
    cases before with
    | nil => cases hbefore
    | cons first rest =>
      refine (horder.root_first hnodup hone hsplit).2 e (by simp) ?_
      rw [ownParents, parentsIn_of_mem hnodup _ hown, hroot]
      rfl

/-- A list of one event is a well-formed graph exactly if the event has a hash and no parents. -/
theorem wellFormedDag_singleton_iff {e : VectorEvent} :
    WellFormedDag [e] ↔ e.eventHash ≠ "" ∧ e.parentHashes = [] := by
  constructor
  · intro h
    refine ⟨h.hash_ne e List.mem_cons_self, List.eq_nil_iff_forall_not_mem.mpr (fun p hp => ?_)⟩
    -- A parent would have to be the event itself.
    obtain ⟨parent, hparent, rfl, _⟩ := h.parents_admissible e List.mem_cons_self p hp
    obtain rfl := List.mem_singleton.mp hparent
    exact h.acyclic parent.eventHash (.single ⟨parent, List.mem_cons_self, rfl, hp⟩)
  · rintro ⟨hne, hroot⟩
    have hnone : ∀ e' ∈ [e], ∀ p, p ∉ e'.parentHashes := by
      intro e' he' p hp
      rw [List.mem_singleton.mp he', hroot] at hp
      cases hp
    refine ⟨by simpa using hne, by simp, by simp [hroot], ?_, ?_⟩
    · exact fun e' he' p hp => absurd hp (hnone e' he' p)
    · refine acyclic_of_rank (fun _ => 0) ?_
      rintro p hash ⟨e', he', _, hp⟩
      exact absurd hp (hnone e' he' p)

/-- A creation alone is replayed. -/
theorem replayEvents_creation {e : VectorEvent} (hhash : e.eventHash ≠ "")
    (hroot : e.parentHashes = []) (horigin : e.operation = .originCreate)
    (hplain : isRegionCreateEvent e = false) : (replayEvents env [e]).IsOk := by
  have hcore : coreStateFromEvents env [e] = .ok (CoreState.new env) :=
    foldlM_registerEvent_of_plain (List.forall_mem_singleton.mpr hplain)
  have hone : ∀ entityId, eventsOf entityId [e] = [] ∨ eventsOf entityId [e] = [e] := by
    intro entityId
    by_cases hid : e.entityId = entityId
    · exact Or.inr (eventsOf_singleton_self hid)
    · exact Or.inl (eventsOf_singleton_of_ne hid)
  refine ⟨_, (replayEvents_of_histories (wellFormedDag_singleton_iff.mpr ⟨hhash, hroot⟩)
    (fun entityId => List.Perm.refl (eventsOf entityId [e])) (fun entityId => ?_)
    (fun entityId => ?_) hcore).2.2⟩
  · rcases hone entityId with hnil | hself
    · rw [hnil]
      exact replayOrdered_nil
    · rw [hself]
      exact replayOrdered_singleton hroot
  · rcases hone entityId with hnil | hself
    · rw [hnil]
      exact acceptedInTurn_nil
    · rw [hself]
      exact acceptedInTurn_snoc.mpr ⟨acceptedInTurn_nil, .origin hplain horigin rfl⟩

/-! ## Stores without a founded history

Until a creation goes through on an empty history, the history stays without one that replay
could begin with. -/

/-- No event is stored, or one without parents that is no creation. -/
def KernelEngine.NotFounded (eng : KernelEngine) : Prop :=
  eng.store.listEvents = [] ∨ Unfounded eng.store.listEvents

variable {eng eng' : KernelEngine}

theorem listEvents_congr (hevents : eng'.store.events = eng.store.events) :
    eng'.store.listEvents = eng.store.listEvents := by
  rw [MemoryStore.listEvents, hevents, MemoryStore.listEvents]

theorem addEvent_mem_listEvents (eng : KernelEngine) (e : VectorEvent) :
    e ∈ (eng.addEvent e).store.listEvents := by
  rw [MemoryStore.listEvents, BTreeMap.mem_values]
  exact ⟨e.eventHash, eng.lookup_addEvent e⟩

/-- Where no event is stored, there is none to be a parent. -/
theorem latestParent_of_nil (hnil : eng.store.listEvents = []) (entityId : String) :
    eng.latestParentHashForEntity entityId = [] := by
  refine List.eq_nil_iff_forall_not_mem.mpr (fun p hp => ?_)
  obtain ⟨q, hq, _⟩ := mem_latestParent hp
  rw [hnil] at hq
  cases hq

theorem EngineWrites.listEvents_kept (h : EngineWrites env eng eng')
    (hkeyed : WellKeyed eng.store) :
    ∀ e ∈ eng.store.listEvents, e ∈ eng'.store.listEvents := by
  intro e he
  rw [MemoryStore.listEvents, BTreeMap.mem_values]
  exact ⟨e.eventHash, h.events_kept _ _ (hkeyed.mem_listEvents_iff.mp he)⟩

/-- The first event of all, unless it is a creation, leaves the history without one. -/
theorem unfounded_of_first (mid : KernelEngine) {before : Option VectorStateV1}
    {after : VectorStateV1} {operation : OperationType} {timestamp : UInt64} {e : VectorEvent}
    (hnil : eng.store.listEvents = [])
    (hevent : transitionEvent env eng before after operation timestamp
      (eng.latestParentHashForEntity after.vectorId) = .ok e)
    (horigin : operation ≠ .originCreate)
    (hother : operation ≠ .other regionCreateOperationName) :
    Unfounded (mid.addEvent e).store.listEvents := by
  obtain ⟨hfields, _⟩ := buildTransitionEvent_fields (transitionEvent_eq_ok_iff.mp hevent).1
  refine ⟨e, addEvent_mem_listEvents mid e, ?_, hfields.operation_eq ▸ horigin,
    transitionEvent_not_region hevent (fun h => absurd h horigin) hother⟩
  rw [hfields.parentHashes_eq, latestParent_of_nil hnil]

/-- A creation that went through on an empty history, and is all of it. -/
structure FoundedBy (eng : KernelEngine) (c : Call) (r : Outcome KernelXError Reply)
    (eng' : KernelEngine) (e : VectorEvent) : Prop where
  nothing_before : eng.store.listEvents = []
  creation : ∃ request, c = .originCreate request
  isOk : r.IsOk
  all : eng'.store.listEvents = [e]
  hash_ne : e.eventHash ≠ ""
  root : e.parentHashes = []
  operation_eq : e.operation = .originCreate
  plain : isRegionCreateEvent e = false

/-- A creation that goes through on an empty history founds it. -/
theorem OriginEnds.founds {now : ℕ → UInt64} {request : OriginRequest}
    {r : Outcome KernelXError VectorStateV1} (h : OriginEnds env eng now request r eng')
    (hok : (r.map Reply.vector).IsOk) (hnil : eng.store.listEvents = []) :
    ∃ e, FoundedBy eng (.originCreate request) (r.map Reply.vector) eng' e := by
  cases h with
  | rejected _ => exact absurd hok (Outcome.not_isOk_error _)
  | unappended _ _ _ => exact absurd hok (Outcome.not_isOk_error _)
  | done s e hplan hevent =>
    obtain ⟨hbuild, hadm⟩ := transitionEvent_eq_ok_iff.mp hevent
    obtain ⟨hfields, _⟩ := buildTransitionEvent_fields hbuild
    have hsame : ((eng.withState s).withRecord
        (originRecord env request.difficulty now s)).store.events = eng.store.events := by
      simp
    refine ⟨e, hnil, ⟨request, rfl⟩, hok, ?_, hadm.appendable.eventHash_ne,
      hfields.parentHashes_eq, hfields.operation_eq,
      transitionEvent_not_region hevent (fun _ => (originState_ok hplan).typeMetadata) nofun⟩
    refine List.perm_singleton.mp ((listEvents_addEvent_perm
      (hadm.congr hsame.symm).appendable.hash_fresh).trans ?_)
    rw [listEvents_congr hsame, hnil]

/-- A call on vectors founds the history or leaves it without a foundation. -/
theorem CallEnds.founds {now : ℕ → UInt64} {c : Call} {r : Outcome KernelXError Reply}
    (h : CallEnds env eng now c r eng') (hkeyed : WellKeyed eng.store)
    (hvector : ∀ request actorPublicKey, c ≠ .createRegion request actorPublicKey)
    (hnot : eng.NotFounded) : eng'.NotFounded ∨ ∃ e, FoundedBy eng c r eng' e := by
  rcases hnot with hnil | hunfounded
  · have hsame : ∀ {mid : KernelEngine}, mid.store.events = eng.store.events →
        mid.NotFounded := fun hevents => Or.inl ((listEvents_congr hevents).trans hnil)
    cases h with
    | update hupdate h =>
      left
      cases h with
      | rejected _ => exact Or.inl hnil
      | unrecorded _ _ _ _ => exact hsame (by simp)
      | unappended _ _ _ _ _ _ => exact hsame (by simp)
      | done before after r e _ _ hevent =>
        obtain ⟨horigin, hother⟩ := operation_of_update hupdate
        exact Or.inr (unfounded_of_first _ hnil hevent horigin (hother _))
    | origin h =>
      cases h with
      | rejected _ => exact Or.inl (Or.inl hnil)
      | unappended _ _ _ => exact Or.inl (hsame (by simp))
      | done s e hplan hevent =>
        have hends := OriginEnds.done s e hplan hevent
        exact Or.inr (hends.founds (Outcome.isOk_ok _) hnil)
    | transfer h =>
      left
      cases h with
      | rejected _ => exact Or.inl hnil
      | unrecorded _ _ _ => exact hsame (by simp)
      | unappended _ _ _ _ _ _ => exact hsame (by simp)
      | halfway plan sr rr es _ _ hsender _ =>
        exact Or.inr (unfounded_of_first _ hnil hsender nofun nofun)
      | done plan sr rr es er _ _ hsender hreceiver =>
        refine Or.inr ((unfounded_of_first (((plan.store eng).withRecord sr).withRecord rr)
          hnil hsender nofun nofun).mono ?_)
        have hadm : Admissible env
            ((((plan.store eng).withRecord sr).withRecord rr).addEvent es).store er :=
          (transitionEvent_eq_ok_iff.mp hreceiver).2.congr (by simp)
        exact fun e he => (listEvents_addEvent_perm hadm.appendable.hash_fresh).mem_iff.mpr
          (List.mem_cons_of_mem _ he)
    | region _ => exact absurd rfl (hvector _ _)
  · exact Or.inl (Or.inr (hunfounded.mono (h.writes.listEvents_kept hkeyed)))

/-- A founded history is replayed. -/
theorem FoundedBy.replays {c : Call} {r : Outcome KernelXError Reply} {e : VectorEvent}
    (h : FoundedBy eng c r eng' e) : (eng'.replayCanonicalHistory env).IsOk := by
  have hload : eng'.store.loadEventsForReplay = [e] := by
    refine List.perm_singleton.mp ((MemoryStore.loadEventsForReplay_perm _).trans ?_)
    rw [h.all]
  simp only [KernelEngine.replayCanonicalHistory, hload, Outcome.IsOk, Outcome.mapErr_eq_ok_iff]
  exact replayEvents_creation h.hash_ne h.root h.operation_eq h.plain

theorem Unfounded.replay_fails (h : Unfounded eng.store.listEvents) :
    ¬ (eng.replayCanonicalHistory env).IsOk := by
  simp only [KernelEngine.replayCanonicalHistory, Outcome.IsOk, Outcome.mapErr_eq_ok_iff]
  exact (h.mono (fun e he =>
    (MemoryStore.loadEventsForReplay_perm _).mem_iff.mpr he)).not_replayed

end

end VKernelX
