/-
  Replay/Progress.lean --- the loop that applies the ordered events.

  Applying an event looks at nothing but the last state of its entity and the registry.  So
  the loop succeeds when each entity's events are accepted in turn and the registry takes
  every region, and what it leaves behind can be read off the list of applied events.
-/
import VKernelX.Replay.Applied

set_option autoImplicit false

namespace VKernelX

/-! ## One event -/

/-- What replay asks of the state of an event's entity. -/
inductive Accepts (current : Option VectorState) (e : VectorEvent) : Prop where
  | region (hregion : isRegionCreateEvent e = true)
  | origin (hregion : isRegionCreateEvent e = false) (hop : e.operation = .originCreate)
      (hnone : current = none)
  | transition (hregion : isRegionCreateEvent e = false) (hop : e.operation ≠ .originCreate)
      (hbefore : current = some e.vectorBefore)

theorem applyEvent_eq_ok_iff {env : Platform} {state state' : BTreeMap String VectorState}
    {core core' : CoreState} {e : VectorEvent} :
    applyEvent env state core e = .ok (state', core') ↔
      Accepts state[e.entityId]? e ∧ registerEvent env core e = .ok core' ∧
        state' = state.insert e.entityId e.vectorAfter := by
  rw [applyEvent, registerEvent]
  by_cases hregion : isRegionCreateEvent e = true
  · simp only [hregion, if_true, Outcome.bind_eq_ok_iff, Outcome.mapErr_eq_ok_iff]
    constructor
    · rintro ⟨mid, hmid, heq⟩
      obtain ⟨rfl, rfl⟩ := Prod.mk.inj (Except.ok.inj heq)
      exact ⟨.region hregion, hmid, rfl⟩
    · rintro ⟨_, hmid, rfl⟩
      exact ⟨core', hmid, rfl⟩
  · rw [if_neg hregion, if_neg hregion]
    have hregion' : isRegionCreateEvent e = false := Bool.not_eq_true _ ▸ hregion
    split
    · rename_i hop
      simp only [Outcome.bind_eq_ok_iff, Outcome.require_eq_ok_iff]
      constructor
      · rintro ⟨_, hnone, heq⟩
        obtain ⟨rfl, rfl⟩ := Prod.mk.inj (Except.ok.inj heq)
        exact ⟨.origin hregion' hop hnone, rfl, rfl⟩
      · rintro ⟨haccepts, hcore, rfl⟩
        obtain rfl := Except.ok.inj hcore
        cases haccepts with
        | region h => exact absurd h hregion
        | origin _ _ hnone => exact ⟨(), hnone, rfl⟩
        | transition _ hne _ => exact absurd hop hne
    · rename_i hop
      simp only [Outcome.bind_eq_ok_iff, Outcome.okOr_eq_ok_iff, Outcome.require_eq_ok_iff]
      constructor
      · rintro ⟨current, hcurrent, _, rfl, heq⟩
        obtain ⟨rfl, rfl⟩ := Prod.mk.inj (Except.ok.inj heq)
        exact ⟨.transition hregion' hop hcurrent, rfl, rfl⟩
      · rintro ⟨haccepts, hcore, rfl⟩
        obtain rfl := Except.ok.inj hcore
        cases haccepts with
        | region h => exact absurd h hregion
        | origin _ horigin _ => exact absurd horigin hop
        | transition _ _ hbefore => exact ⟨_, hbefore, (), rfl, rfl⟩

/-! ## An entity's events in turn -/

/-- Each event is accepted on the state the one before it left. -/
def AcceptedInTurn (ordered : List VectorEvent) : Prop :=
  ∀ before e after, ordered = before ++ e :: after →
    Accepts (before.getLast?.map VectorEvent.vectorAfter) e

theorem acceptedInTurn_nil : AcceptedInTurn [] := by
  intro before e after h
  simp at h

theorem acceptedInTurn_snoc {ordered : List VectorEvent} {e : VectorEvent} :
    AcceptedInTurn (ordered ++ [e]) ↔
      AcceptedInTurn ordered ∧ Accepts (ordered.getLast?.map VectorEvent.vectorAfter) e :=
  forall_split_snoc

/-! ## The loop -/

/-- The state a list of applied events leads to. -/
def stateAfter (applied : List VectorEvent) : BTreeMap String VectorState :=
  applied.foldl (fun state e => state.insert e.entityId e.vectorAfter) ∅

/-- The highest clock of a list of events. -/
def highestClock (applied : List VectorEvent) : UInt64 :=
  applied.foldl (fun clock e => max clock e.logicalClock) 0

/-- The variables of the loop once a list of events is applied. -/
def progressAfter (applied : List VectorEvent) (core : CoreState) : ReplayProgress where
  state := stateAfter applied
  core := core
  appliedEventHashes := applied.map VectorEvent.eventHash
  logicalClock := highestClock applied

/-- An entity's state is what its last applied event left. -/
theorem lookup_stateAfter (applied : List VectorEvent) (entityId : String) :
    (stateAfter applied)[entityId]? =
      (eventsOf entityId applied).getLast?.map VectorEvent.vectorAfter := by
  induction applied using List.reverseRecOn with
  | nil => simp [stateAfter, eventsOf]
  | append_singleton applied e ih =>
    have hfold : stateAfter (applied ++ [e]) =
        (stateAfter applied).insert e.entityId e.vectorAfter := by
      simp [stateAfter]
    rw [hfold, BTreeMap.lookup_insert, ih]
    by_cases he : e.entityId = entityId <;> simp [eventsOf, he]

/-- Applying events from the start: each entity's have to be accepted in turn, and the
registry has to take the regions. -/
theorem foldlM_applyNext_eq_ok_iff {env : Platform} {applied : List VectorEvent}
    {progress : ReplayProgress} :
    applied.foldlM (applyNext env) (ReplayProgress.start env) = .ok progress ↔
      (∀ entityId, AcceptedInTurn (eventsOf entityId applied)) ∧
      ∃ core, coreStateFromEvents env applied = .ok core ∧
        progress = progressAfter applied core := by
  induction applied using List.reverseRecOn generalizing progress with
  | nil =>
    constructor
    · intro h
      exact ⟨fun _ => acceptedInTurn_nil, _, rfl, (Except.ok.inj h).symm⟩
    · rintro ⟨_, core, hcore, rfl⟩
      obtain rfl := Except.ok.inj hcore
      rfl
  | append_singleton applied e ih =>
    have hcore : ∀ core', coreStateFromEvents env (applied ++ [e]) = .ok core' ↔
        ∃ core, coreStateFromEvents env applied = .ok core ∧
          registerEvent env core e = .ok core' := by
      intro core'
      rw [coreStateFromEvents, List.foldlM_append, Outcome.bind_eq_ok_iff]
      simp only [List.foldlM_cons, List.foldlM_nil, bind_pure]
      rfl
    have hturn : (∀ entityId, AcceptedInTurn (eventsOf entityId (applied ++ [e]))) ↔
        (∀ entityId, AcceptedInTurn (eventsOf entityId applied)) ∧
          Accepts (stateAfter applied)[e.entityId]? e := by
      have hown : eventsOf e.entityId (applied ++ [e]) = eventsOf e.entityId applied ++ [e] := by
        simp [eventsOf]
      have hother : ∀ entityId, e.entityId ≠ entityId →
          eventsOf entityId (applied ++ [e]) = eventsOf entityId applied := by
        intro entityId hne
        simp [eventsOf, hne]
      rw [lookup_stateAfter]
      constructor
      · intro h
        have hlast := acceptedInTurn_snoc.mp (hown ▸ h e.entityId)
        refine ⟨fun entityId => ?_, hlast.2⟩
        by_cases hne : e.entityId = entityId
        · exact hne ▸ hlast.1
        · exact hother entityId hne ▸ h entityId
      · rintro ⟨h, hlast⟩ entityId
        by_cases hne : e.entityId = entityId
        · rw [← hne, hown]
          exact acceptedInTurn_snoc.mpr ⟨h e.entityId, hlast⟩
        · rw [hother entityId hne]
          exact h entityId
    rw [List.foldlM_append, Outcome.bind_eq_ok_iff, hturn]
    simp only [List.foldlM_cons, List.foldlM_nil, bind_pure, ih, hcore]
    constructor
    · rintro ⟨_, ⟨haccepted, core, hrun, rfl⟩, hnext⟩
      obtain ⟨⟨state, core'⟩, happly, heq⟩ := Outcome.bind_eq_ok_iff.mp hnext
      obtain ⟨haccepts, hregister, rfl⟩ := applyEvent_eq_ok_iff.mp happly
      refine ⟨⟨haccepted, haccepts⟩, core', ⟨core, hrun, hregister⟩, ?_⟩
      rw [← Except.ok.inj heq]
      simp [progressAfter, stateAfter, highestClock]
    · rintro ⟨⟨haccepted, haccepts⟩, core', ⟨core, hrun, hregister⟩, rfl⟩
      refine ⟨_, ⟨haccepted, core, hrun, rfl⟩, ?_⟩
      refine Outcome.bind_eq_ok_iff.mpr
        ⟨(_, core'), applyEvent_eq_ok_iff.mpr ⟨haccepts, hregister, rfl⟩, ?_⟩
      simp [progressAfter, stateAfter, highestClock]
      rfl

/-! ## Replay -/

/-- The result of replay, from the applied events and the registry. -/
def replayOutcome (env : Platform) (applied : List VectorEvent) (core : CoreState) :
    ReplayResult := (progressAfter applied core).result env

/-- Replay succeeds when the graph is well formed, every entity has an order in which its
events are accepted in turn, and the registry takes the regions. -/
theorem replayEvents_eq_ok_iff_accepted {env : Platform} {events : List VectorEvent}
    {result : ReplayResult} :
    replayEvents env events = .ok result ↔
      WellFormedDag events ∧
      (∀ entityId, orderEntityEvents (eventsOf entityId events) =
        .ok (entityOrder events entityId)) ∧
      (∀ entityId, AcceptedInTurn (entityOrder events entityId)) ∧
      ∃ core, coreStateFromEvents env (appliedEvents events) = .ok core ∧
        result = replayOutcome env (appliedEvents events) core := by
  rw [replayEvents_eq_ok_iff]
  constructor
  · rintro ⟨hwf, hordered, progress, hrun, rfl⟩
    obtain ⟨haccepted, core, hcore, rfl⟩ := foldlM_applyNext_eq_ok_iff.mp hrun
    refine ⟨hwf, hordered, fun entityId => ?_, core, hcore, rfl⟩
    rw [← eventsOf_appliedEvents hwf hordered]
    exact haccepted entityId
  · rintro ⟨hwf, hordered, haccepted, core, hcore, rfl⟩
    refine ⟨hwf, hordered, _, foldlM_applyNext_eq_ok_iff.mpr ⟨fun entityId => ?_, core, hcore,
      rfl⟩, rfl⟩
    rw [eventsOf_appliedEvents hwf hordered]
    exact haccepted entityId

/-- The creation of a region, with the metadata that reading it back takes. -/
def sampleRegion (entityId : String) (parentHashes : List String) : VectorEvent :=
  VectorEvent.seal samplePlatform
    { (default : VectorEvent) with
      entityId := entityId
      parentHashes := parentHashes
      operation := regionCreateOperation
      logicalClock := 1
      vectorAfter := { (default : VectorState) with
        metadata := insertAll ∅ [("region_name", "r"), ("normalized_name", "r"),
          ("section", "1"), ("visibility", "public"), ("creator_public_key", "k"),
          ("trigger_event_hash", "t"), ("creation_proof_hash", "p")] } }

end VKernelX
