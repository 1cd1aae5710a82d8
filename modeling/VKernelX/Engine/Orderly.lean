/-
  Engine/Orderly.lean --- runs in which every call goes through, names are used once and the
  clock does not run backwards.

  Along such a run each call extends the history of every entity by one step, the stored
  events are the union of the histories, and time stamps do not decrease along any of them.
-/
import VKernelX.Engine.History

set_option autoImplicit false

namespace VKernelX

/-! ## Orderly runs -/

/-- The vectors that calls create. -/
def createdVectors (calls : List TimedCall) : List String :=
  calls.filterMap (fun c => match c.call with
    | .originCreate request => some request.vectorId
    | _ => none)

section

variable (env : Platform)

/-- The regions that calls create. -/
def createdRegions (calls : List TimedCall) : List String :=
  calls.filterMap (fun c => match c.call with
    | .createRegion request actorPublicKey =>
        some (canonicalRegionId env request actorPublicKey 1)
    | _ => none)

/-- A run from an empty store in which every call returns `Ok`, no vector is created twice or
under the id of a region, every transfer names two vectors, and the clock never goes back. -/
structure OrderlyRun (policy : ConsensusPolicy) (calls : List TimedCall) : Prop where
  ok : AllSteps (engineStep env) (KernelEngine.initial policy)
    (fun _ eng c => (eng.call env c.now c.call).1.IsOk) calls
  created_once : (createdVectors calls).Nodup
  apart : ∀ vectorId ∈ createdVectors calls, vectorId ∉ createdRegions env calls
  two_vectors : ∀ c ∈ calls, ∀ fromId toId amount, c.call = .transfer fromId toId amount →
    fromId ≠ toId
  clock : (clockReadings calls).Pairwise (· ≤ ·)

/-- What the last call of an orderly run meets. -/
structure OrderlyCall (policy : ConsensusPolicy) (calls : List TimedCall) (c : TimedCall) :
    Prop where
  ok : ((engineRun env policy calls).call env c.now c.call).1.IsOk
  new_vector : ∀ request, c.call = .originCreate request →
    request.vectorId ∉ createdVectors calls ∧ request.vectorId ∉ createdRegions env calls
  new_region : ∀ request actorPublicKey, c.call = .createRegion request actorPublicKey →
    canonicalRegionId env request actorPublicKey 1 ∉ createdVectors calls
  two_vectors : ∀ fromId toId amount, c.call = .transfer fromId toId amount → fromId ≠ toId
  later : ∀ t ∈ clockReadings calls, ∀ t' ∈ c.readings, t ≤ t'

variable {env} {policy : ConsensusPolicy}

theorem createdVectors_snoc (calls : List TimedCall) (c : TimedCall) :
    createdVectors (calls ++ [c]) = createdVectors calls ++ createdVectors [c] := by
  simp [createdVectors]

theorem createdRegions_snoc (calls : List TimedCall) (c : TimedCall) :
    createdRegions env (calls ++ [c]) = createdRegions env calls ++ createdRegions env [c] := by
  simp [createdRegions]

theorem createdVectors_origin {c : TimedCall} {request : OriginRequest}
    (h : c.call = .originCreate request) : createdVectors [c] = [request.vectorId] := by
  simp [createdVectors, h]

theorem createdRegions_region {c : TimedCall} {request : RegionCreateRequest} {actor : String}
    (h : c.call = .createRegion request actor) :
    createdRegions env [c] = [canonicalRegionId env request actor 1] := by
  simp [createdRegions, h]

theorem clockReadings_snoc (calls : List TimedCall) (c : TimedCall) :
    clockReadings (calls ++ [c]) = clockReadings calls ++ c.readings := by
  simp [clockReadings]

/-- The conditions on an orderly run, as they are checked on a given one. -/
theorem OrderlyRun.of_checks {calls : List TimedCall}
    (hok : AllSteps (engineStep env) (KernelEngine.initial policy)
      (fun _ eng c => (eng.call env c.now c.call).1.IsOk) calls)
    (honce : (createdVectors calls).Nodup)
    (hapart : ∀ vectorId ∈ createdVectors calls, vectorId ∉ createdRegions env calls)
    (htwo : ∀ c ∈ calls, c.call.named.Nodup) (hclock : (clockReadings calls).Pairwise (· ≤ ·)) :
    OrderlyRun env policy calls where
  ok := hok
  created_once := honce
  apart := hapart
  two_vectors := by
    intro c hc fromId toId amount hcall
    have hnamed := htwo c hc
    rw [hcall] at hnamed
    simpa [Call.named] using hnamed
  clock := hclock

/-- An orderly run is orderly up to its last call, and in that call. -/
theorem OrderlyRun.of_snoc {calls : List TimedCall} {c : TimedCall}
    (h : OrderlyRun env policy (calls ++ [c])) :
    OrderlyRun env policy calls ∧ OrderlyCall env policy calls c := by
  obtain ⟨hok, honce, hapart, htwo, hclock⟩ := h
  obtain ⟨hoks, hlast⟩ := allSteps_snoc.mp hok
  rw [createdVectors_snoc] at honce hapart
  rw [createdRegions_snoc] at hapart
  rw [clockReadings_snoc] at hclock
  obtain ⟨honces, _, hdisjoint⟩ := List.nodup_append.mp honce
  obtain ⟨hclocks, _, hlater⟩ := List.pairwise_append.mp hclock
  constructor
  · exact {
      ok := hoks
      created_once := honces
      apart := fun id hid hregion =>
        hapart id (List.mem_append_left _ hid) (List.mem_append_left _ hregion)
      two_vectors := fun c' hc' => htwo c' (List.mem_append_left _ hc')
      clock := hclocks }
  · refine ⟨hlast, ?_, ?_, htwo c (by simp), hlater⟩
    · intro request hcall
      rw [createdVectors_origin hcall] at hdisjoint hapart
      refine ⟨fun hmem => hdisjoint _ hmem _ (by simp) rfl, fun hmem => ?_⟩
      exact hapart request.vectorId (by simp) (List.mem_append_left _ hmem)
    · intro request actor hcall hmem
      rw [createdRegions_region hcall] at hapart
      exact hapart _ (List.mem_append_left _ hmem) (by simp)

/-- A property of the calls and the run they make, by induction on an orderly run. -/
theorem OrderlyRun.induction {I : List TimedCall → Prop} (hnil : I [])
    (hsnoc : ∀ calls c, OrderlyRun env policy calls → OrderlyCall env policy calls c →
      I calls → I (calls ++ [c])) {calls : List TimedCall} (h : OrderlyRun env policy calls) :
    I calls := by
  induction calls using List.reverseRecOn with
  | nil => exact hnil
  | append_singleton calls c ih =>
    obtain ⟨hcalls, hc⟩ := h.of_snoc
    exact hsnoc calls c hcalls hc (ih hcalls)

/-! ## Histories -/

theorem engineRun_reachable (env : Platform) (policy : ConsensusPolicy) (calls : List TimedCall) :
    ReachableEngine env policy (engineRun env policy calls) := ⟨calls, rfl⟩

theorem engineRun_snoc (calls : List TimedCall) (c : TimedCall) :
    engineRun env policy (calls ++ [c]) = engineStep env (engineRun env policy calls) c :=
  runFrom_snoc _ _ calls c

/-- One more call is a step of every entity. -/
theorem OrderlyCall.step {calls : List TimedCall} {c : TimedCall}
    (h : OrderlyCall env policy calls c) (entityId : String) :
    EntityStep env (engineRun env policy calls) c entityId (engineRun env policy (calls ++ [c]))
      (eventsOf entityId
        (newEvents (engineRun env policy calls) (engineRun env policy (calls ++ [c])))) := by
  rw [engineRun_snoc]
  exact entityStep_of_ok (engineRun_reachable env policy calls) h.ok h.two_vectors entityId

/-- One more call extends every history by a step of its entity. -/
theorem OrderlyCall.extends {calls : List TimedCall} {c : TimedCall}
    (h : OrderlyCall env policy calls c) (entityId : String) :
    ∃ new, history env policy (calls ++ [c]) entityId =
        history env policy calls entityId ++ new ∧
      EntityStep env (engineRun env policy calls) c entityId
        (engineRun env policy (calls ++ [c])) new := by
  refine ⟨_, ?_, h.step entityId⟩
  rw [history_snoc, engineRun_snoc]

/-- The stored events are those of the log. -/
theorem eventLog_perm (policy : ConsensusPolicy) (calls : List TimedCall) :
    (eventLog env (KernelEngine.initial policy) calls).Perm
      (engineRun env policy calls).store.listEvents := by
  induction calls using List.reverseRecOn with
  | nil => exact .refl _
  | append_singleton calls c ih =>
    have hreach := engineRun_reachable env policy calls
    have hreach' := engineRun_reachable env policy (calls ++ [c])
    have hwrites : EngineWrites env (engineRun env policy calls)
        (engineRun env policy (calls ++ [c])) := by
      rw [engineRun_snoc]
      exact (call_ends _ c.now c.call).writes
    have hperm := listEvents_perm_newEvents hwrites hreach.wellKeyed hreach'.wellKeyed
    rw [engineRun_snoc] at hperm ⊢
    rw [eventLog_snoc]
    exact (ih.append_right _).trans hperm.symm

theorem mem_history {calls : List TimedCall} {entityId : String} {e : VectorEvent} :
    e ∈ history env policy calls entityId ↔
      e ∈ (engineRun env policy calls).store.listEvents ∧ e.entityId = entityId := by
  rw [history, eventsOf, List.mem_filter, decide_eq_true_iff, (eventLog_perm policy calls).mem_iff]

theorem history_perm (calls : List TimedCall) (entityId : String) :
    (history env policy calls entityId).Perm
      (eventsOf entityId (engineRun env policy calls).store.listEvents) :=
  (eventLog_perm policy calls).filter _

theorem nodup_history (calls : List TimedCall) (entityId : String) :
    ((history env policy calls entityId).map VectorEvent.eventHash).Nodup :=
  ((history_perm calls entityId).map _).nodup_iff.mpr
    ((engineRun_reachable env policy calls).wellKeyed.nodup_eventHash.sublist
      (List.filter_sublist.map _))

/-! ## Time stamps -/

/-- A new event is stamped with a reading of its call. -/
theorem EntityStep.timestamp_mem {eng eng' : KernelEngine} {c : TimedCall} {entityId : String}
    {new : List VectorEvent} (h : EntityStep env eng c entityId eng' new)
    (hsound : SoundStates eng.store) : ∀ e ∈ new, e.timestamp ∈ c.readings := by
  have hreading : ∀ i, i < c.call.clockReadings → c.now i ∈ c.readings :=
    fun i hi => TimedCall.mem_readings hi
  cases h with
  | idle _ _ => exact nofun
  | created hcall hid hplan hstate hevent =>
    intro e he
    obtain rfl := List.mem_singleton.mp he
    rw [Transition.event_timestamp hevent, (originState_ok hplan).createdAtMs]
    exact hreading 0 (by simp [hcall, Call.clockReadings])
  | updated hupdate hid hnext hmoves =>
    intro e he
    obtain rfl := List.mem_singleton.mp he
    rw [Transition.event_timestamp hmoves.event_eq]
    exact update_next_updatedAt hupdate hnext (hsound _ _ hmoves.before_eq)
  | transferred hcall hside hversion hmoves =>
    intro e he
    obtain rfl := List.mem_singleton.mp he
    rw [Transition.event_timestamp hmoves.event_eq]
    rcases hside with ⟨_, rfl⟩ | ⟨_, rfl⟩
    · exact hreading 6 (by simp [hcall, Call.clockReadings])
    · exact hreading 7 (by simp [hcall, Call.clockReadings])
  | founded hcall hid hstate hevent hread =>
    intro e he
    obtain rfl := List.mem_singleton.mp he
    rw [(buildRegionGenesisEvent_fields (regionEvent_built hevent)).timestamp_eq]
    exact hreading 0 (by simp [hcall, Call.clockReadings])

/-- Time stamps are readings of the run, and they do not decrease along a history. -/
structure Stamped (calls : List TimedCall) (h : List VectorEvent) : Prop where
  read : ∀ e ∈ h, e.timestamp ∈ clockReadings calls
  sorted : h.Pairwise (fun e e' => e.timestamp ≤ e'.timestamp)

theorem OrderlyRun.stamped {calls : List TimedCall} (h : OrderlyRun env policy calls)
    (entityId : String) : Stamped calls (history env policy calls entityId) := by
  refine OrderlyRun.induction (I := fun calls => Stamped calls (history env policy calls entityId))
    ⟨nofun, .nil⟩ ?_ h
  intro calls c _ hc ih
  obtain ⟨new, hnew, hstep⟩ := hc.extends entityId
  have hmem := hstep.timestamp_mem (engineRun_reachable env policy calls).soundStates
  have hlength : new.length ≤ 1 := by cases hstep <;> simp
  rw [hnew]
  refine ⟨?_, ?_⟩
  · intro e he
    rw [clockReadings_snoc]
    rcases List.mem_append.mp he with he | he
    · exact List.mem_append_left _ (ih.read e he)
    · exact List.mem_append_right _ (hmem e he)
  · refine List.pairwise_append.mpr ⟨ih.sorted, ?_, ?_⟩
    · match new with
      | [] => exact .nil
      | [e] => exact List.pairwise_singleton _ e
      | _ :: _ :: _ => simp at hlength
    · intro e he e' he'
      exact hc.later _ (ih.read e he) _ (hmem e' he')

/-! ## Known entities -/

/-- Only created vectors are stored, and only created vectors and regions have events. -/
structure KnownEntity (env : Platform) (policy : ConsensusPolicy) (calls : List TimedCall)
    (entityId : String) : Prop where
  stored : (engineRun env policy calls).store.states[entityId]? ≠ none →
    entityId ∈ createdVectors calls
  recorded : history env policy calls entityId ≠ [] →
    entityId ∈ createdVectors calls ∨ entityId ∈ createdRegions env calls

theorem OrderlyRun.known {calls : List TimedCall} (h : OrderlyRun env policy calls)
    (entityId : String) : KnownEntity env policy calls entityId := by
  refine OrderlyRun.induction (I := fun calls => KnownEntity env policy calls entityId) ?_ ?_ h
  · refine ⟨fun hne => absurd ?_ hne, fun hne => absurd rfl hne⟩
    simp [engineRun, KernelEngine.initial, MemoryStore.empty]
  · intro calls c _ hc ih
    obtain ⟨new, hnew, hstep⟩ := hc.extends entityId
    -- An entity that was known stays known; the other cases make it so.
    have hkept : entityId ∈ createdVectors calls →
        KnownEntity env policy (calls ++ [c]) entityId := fun hmem => by
      have : entityId ∈ createdVectors (calls ++ [c]) := by
        rw [createdVectors_snoc]
        exact List.mem_append_left _ hmem
      exact ⟨fun _ => this, fun _ => Or.inl this⟩
    have hsame : (engineRun env policy (calls ++ [c])).store.states[entityId]? =
        (engineRun env policy calls).store.states[entityId]? →
        (engineRun env policy (calls ++ [c])).store.states[entityId]? ≠ none →
        entityId ∈ createdVectors (calls ++ [c]) := fun heq hne => by
      rw [createdVectors_snoc]
      exact List.mem_append_left _ (ih.stored (heq ▸ hne))
    cases hstep with
    | idle hother hstate =>
      refine ⟨hsame hstate, fun hne => ?_⟩
      rw [hnew, List.append_nil] at hne
      rw [createdVectors_snoc, createdRegions_snoc]
      exact (ih.recorded hne).imp (List.mem_append_left _) (List.mem_append_left _)
    | created hcall hid hplan hstate hevent =>
      have hmem : entityId ∈ createdVectors (calls ++ [c]) := by
        rw [createdVectors_snoc, createdVectors_origin hcall, hid]
        exact List.mem_append_right _ List.mem_cons_self
      exact ⟨fun _ => hmem, fun _ => Or.inl hmem⟩
    | updated hupdate hid hnext hmoves =>
      refine hkept (ih.stored ?_)
      rw [hmoves.before_eq]
      exact Option.some_ne_none _
    | transferred hcall hside hversion hmoves =>
      refine hkept (ih.stored ?_)
      rw [hmoves.before_eq]
      exact Option.some_ne_none _
    | founded hcall hid hstate hevent hread =>
      refine ⟨hsame hstate, fun _ => Or.inr ?_⟩
      rw [createdRegions_snoc, createdRegions_region hcall, hid]
      exact List.mem_append_right _ List.mem_cons_self

/-- A vector about to be created has no events yet. -/
theorem OrderlyCall.history_eq_nil {calls : List TimedCall} {c : TimedCall}
    (h : OrderlyRun env policy calls) (hc : OrderlyCall env policy calls c)
    {request : OriginRequest} (hcall : c.call = .originCreate request) :
    history env policy calls request.vectorId = [] := by
  by_contra hne
  obtain ⟨hvector, hregion⟩ := hc.new_vector request hcall
  exact ((h.known request.vectorId).recorded hne).elim hvector hregion

end

/-! ## A run -/

/-- Two transfers between two vectors, at different times. -/
def spacedTransfers : List TimedCall :=
  twoVectors ++ [callAt 2 (.transfer "a" "b" [1]), callAt 3 (.transfer "a" "b" [1])]

theorem spacedTransfers_orderly :
    OrderlyRun samplePlatform ConsensusPolicy.default spacedTransfers :=
  .of_checks (by decide +kernel) (by decide) (by decide) (by decide) (by decide)

end VKernelX
