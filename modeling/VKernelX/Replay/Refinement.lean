/-
  Replay/Refinement.lean --- replaying the stored events gives back the stored states.

  In an orderly run every call goes through, and the clock does not run backwards.  So replay
  finds the order in which events were appended unless a transfer's event ties with one that
  came earlier, since transfers leave the clock where it is.
-/
import VKernelX.Engine.Orderly
import VKernelX.Replay.Recorded

set_option autoImplicit false

namespace VKernelX

/-! ## One step -/

section

variable (env : Platform) (policy : ConsensusPolicy)

/-- A transfer's event, stamped with `timestamp`, is not taken before an event that came
earlier: of the vector's events after the parent that the engine picks, none has the clock
and the time stamp of the new event and a greater event id. -/
def ReplaysLast (before : List TimedCall) (eng : KernelEngine) (vectorId : String)
    (timestamp : UInt64) : Prop :=
  ∀ s sequence, eng.store.states[vectorId]? = some s →
    eng.nextEventSequenceForEntity vectorId s.spaceId = .ok sequence →
    ∀ earlier p later, history env policy before vectorId = earlier ++ p :: later →
      (∀ parent ∈ eng.latestParentHashForEntity vectorId,
        parent ∈ earlier.map VectorEvent.eventHash) →
      p.logicalClock = s.version → p.timestamp = timestamp →
      p.eventId ≤ canonicalEventId vectorId s.spaceId .transfer s.version sequence

/-- What a call has to meet for replay to find the order in which events were appended. -/
structure KeepsOrder (before : List TimedCall) (eng : KernelEngine) (c : TimedCall) :
    Prop where
  region_fresh : ∀ request actorPublicKey, c.call = .createRegion request actorPublicKey →
    history env policy before (canonicalRegionId env request actorPublicKey 1) = []
  region_room : ∀ request actorPublicKey, c.call = .createRegion request actorPublicKey →
    defaultRegionAuthRatioBps.toNat * ((createdRegions env before).length + 1) < 2 ^ 64
  version_room : ∀ u s, c.call.update? env c.now = some u →
    eng.store.states[u.vectorId]? = some s → s.version.toNat + 1 < 2 ^ 64
  sender_last : ∀ fromId toId amount, c.call = .transfer fromId toId amount →
    ReplaysLast env policy before eng fromId (c.now 6)
  receiver_last : ∀ fromId toId amount, c.call = .transfer fromId toId amount →
    ReplaysLast env policy before eng toId (c.now 7)

variable {env policy}

/-- Where the clock does not run backwards, time stamps can only tie. -/
theorem ReplaysLast.takenLast {calls : List TimedCall} (h : OrderlyRun env policy calls)
    {c : TimedCall} (hc : OrderlyCall env policy calls c) {vectorId : String}
    {timestamp : UInt64} (htimestamp : timestamp ∈ c.readings)
    (hlast : ReplaysLast env policy calls (engineRun env policy calls) vectorId timestamp) :
    TakenLast (engineRun env policy calls) (history env policy calls vectorId) vectorId
      timestamp := by
  intro s sequence hs hsequence earlier p later hsplit hparents hclock
  have hp : p ∈ history env policy calls vectorId := by rw [hsplit]; simp
  have htime : p.timestamp ≤ timestamp :=
    hc.later _ ((h.stamped vectorId).read p hp) _ htimestamp
  rcases UInt64.lt_or_eq_of_le htime with hlt | heq
  · exact Or.inl hlt
  · exact Or.inr ⟨heq, hlast s sequence hs hsequence earlier p later hsplit hparents hclock heq⟩

/-- A call of an orderly run that keeps the order keeps every history. -/
theorem KeepsOrder.keepsHistory {calls : List TimedCall} (h : OrderlyRun env policy calls)
    {c : TimedCall} (hc : OrderlyCall env policy calls c)
    (hkeeps : KeepsOrder env policy calls (engineRun env policy calls) c) (entityId : String) :
    KeepsHistory env (engineRun env policy calls) c entityId
      (history env policy calls entityId) where
  created := by
    rintro request hcall rfl
    exact OrderlyCall.history_eq_nil h hc hcall
  founded := by
    rintro request actor hcall rfl
    refine ⟨hkeeps.region_fresh request actor hcall, ?_⟩
    by_contra hne
    exact hc.new_region request actor hcall ((h.known _).stored hne)
  version_room := by
    rintro u s hupdate rfl hs
    exact hkeeps.version_room u s hupdate hs
  sender_last := fun toId amount hcall => (hkeeps.sender_last _ _ _ hcall).takenLast h hc
    (TimedCall.mem_readings (by simp [hcall, Call.clockReadings]))
  receiver_last := fun fromId amount hcall => (hkeeps.receiver_last _ _ _ hcall).takenLast h hc
    (TimedCall.mem_readings (by simp [hcall, Call.clockReadings]))

/-- Along a run whose calls all keep the order, every entity has its history. -/
theorem OrderlyRun.historyOf {calls : List TimedCall} (h : OrderlyRun env policy calls)
    (hkeeps : AllSteps (engineStep env) (KernelEngine.initial policy) (KeepsOrder env policy) calls)
    (entityId : String) :
    HistoryOf (engineRun env policy calls) entityId (history env policy calls entityId) := by
  revert hkeeps
  refine OrderlyRun.induction (I := fun calls =>
    AllSteps (engineStep env) (KernelEngine.initial policy) (KeepsOrder env policy) calls →
    HistoryOf (engineRun env policy calls) entityId (history env policy calls entityId)) ?_ ?_ h
  · intro _
    refine ⟨history_perm [] entityId, ?_⟩
    have hnone : (engineRun env policy []).store.states[entityId]? = none := by
      simp [engineRun, KernelEngine.initial, MemoryStore.empty]
    rw [hnone]
    exact .unknown
  · intro calls c hcalls hc ih hkeeps
    obtain ⟨hbefore, hlast⟩ := allSteps_snoc.mp hkeeps
    rw [engineRun_snoc, history_snoc]
    exact (ih hbefore).step (engineRun_reachable env policy calls) hc.ok hc.two_vectors
      (hlast.keepsHistory hcalls hc entityId)

/-! ## The region registry -/

variable (env policy)

/-- The registry of a run: it counts the regions that were created, each with the default
ratio, and knows no region without events. -/
structure RegistryOf (calls : List TimedCall) (core : CoreState) : Prop where
  built : coreStateFromEvents env (eventLog env (KernelEngine.initial policy) calls) = .ok core
  total : core.totalAuthRatioBps.toNat =
    defaultRegionAuthRatioBps.toNat * (createdRegions env calls).length
  version : core.version.toNat = (createdRegions env calls).length
  recorded : ∀ id : String, core.regions[id]? ≠ none → history env policy calls id ≠ []

variable {env policy}

/-- A region is read back under the id of its entity, with the default ratio. -/
theorem region_of_founding {now : ℕ → UInt64} {request : RegionCreateRequest}
    {actorPublicKey : String} {eng : KernelEngine} {e : VectorEvent} {region : RegionState}
    (hevent : regionEvent env now request actorPublicKey eng = .ok e)
    (hread : regionStateFromEvent e = .ok region) :
    region.regionId = canonicalRegionId env request actorPublicKey 1 ∧
      region.authRatioBps = defaultRegionAuthRatioBps := by
  have hbuilt := regionEvent_built hevent
  have hvisible : isBlank e.eventHash = false := by
    have h := hread
    simp only [regionStateFromEvent, Outcome.bind_eq_ok_iff, Outcome.require_eq_ok_iff] at h
    obtain ⟨_, _, _, hblank, _⟩ := h
    exact hblank
  obtain ⟨region', hread', hof⟩ := regionStateFromEvent_genesis hbuilt hvisible
  obtain rfl := Except.ok.inj (hread.symm.trans hread')
  exact ⟨hof.regionId_eq.trans (buildRegionGenesisEvent_fields hbuilt).entityId_eq,
    hof.authRatioBps_eq⟩

/-- Founding one more region. -/
theorem RegistryOf.found {calls : List TimedCall} {core : CoreState}
    (h : RegistryOf env policy calls core) {c : TimedCall} {request : RegionCreateRequest}
    {actorPublicKey : String} (hcall : c.call = .createRegion request actorPublicKey)
    (hok : ((engineRun env policy calls).call env c.now c.call).1.IsOk)
    (hfresh : history env policy calls (canonicalRegionId env request actorPublicKey 1) = [])
    (hroom : defaultRegionAuthRatioBps.toNat * ((createdRegions env calls).length + 1) < 2 ^ 64) :
    ∃ core', RegistryOf env policy (calls ++ [c]) core' := by
  have hkeyed := (engineRun_reachable env policy calls).wellKeyed
  rw [hcall] at hok
  obtain ⟨e, region, hevent, hadmits, hread, hrun⟩ := region_of_ok hok
  obtain ⟨hid, hratio⟩ := region_of_founding hevent hread
  have hregion : isRegionCreateEvent e = true := by
    rw [isRegionCreateEvent, buildRegionGenesisEvent_operation (regionEvent_built hevent)]
    rfl
  have hnew : newEvents (engineRun env policy calls)
      (engineStep env (engineRun env policy calls) c) = [e] := by
    rw [engineStep, hcall, hrun, newEvents_addEvent hkeyed hadmits.appendable.hash_fresh]
  have hcount : (createdRegions env (calls ++ [c])).length =
      (createdRegions env calls).length + 1 := by
    rw [createdRegions_snoc, createdRegions_region hcall, List.length_append,
      List.length_singleton]
  have hdefault : defaultRegionAuthRatioBps.toNat = 1000 := rfl
  have hregistrable : Registrable core region := by
    refine ⟨?_, ?_, ?_⟩
    · by_contra hne
      rw [hid] at hne
      exact h.recorded _ hne hfresh
    · rw [h.total, hratio]
      exact hroom
    · rw [h.version]
      rw [hdefault] at hroom
      omega
  refine ⟨core.withRegion env region, ?_, ?_, ?_, ?_⟩
  · have hbuilt := h.built
    rw [coreStateFromEvents] at hbuilt ⊢
    rw [eventLog_snoc, List.foldlM_append, hbuilt, Outcome.ok_bind]
    show List.foldlM (registerEvent env) core (newEvents (engineRun env policy calls)
      (engineStep env (engineRun env policy calls) c)) = _
    rw [hnew, List.foldlM_cons, registerEvent_eq_ok_iff.mpr (Or.inr ⟨hregion, region, hread,
      insertRegion_eq_ok_iff.mpr ⟨hregistrable, rfl⟩⟩)]
    rfl
  · rw [hcount]
    simp only [CoreState.withRegion, UInt64.toNat_add]
    rw [Nat.mod_eq_of_lt hregistrable.total, h.total, hratio]
    rfl
  · rw [hcount]
    simp only [CoreState.withRegion]
    rw [toNat_succ hregistrable.version, h.version]
  · intro id hlookup
    rw [history_snoc, hnew]
    simp only [CoreState.withRegion, BTreeMap.lookup_insert] at hlookup
    split at hlookup
    · rename_i heq
      have hentity : e.entityId = id := by
        rw [← heq, (CreatesRegion.regionId ⟨hregion, hread⟩)]
      rw [eventsOf_singleton_self hentity]
      simp
    · exact fun hnil => h.recorded id hlookup (List.append_eq_nil_iff.mp hnil).1

/-- The registry reads all regions of a run whose calls keep the order. -/
theorem OrderlyRun.registry {calls : List TimedCall} (h : OrderlyRun env policy calls)
    (hkeeps : AllSteps (engineStep env) (KernelEngine.initial policy) (KeepsOrder env policy)
      calls) : ∃ core, RegistryOf env policy calls core := by
  revert hkeeps
  refine OrderlyRun.induction (I := fun calls =>
    AllSteps (engineStep env) (KernelEngine.initial policy) (KeepsOrder env policy) calls →
    ∃ core, RegistryOf env policy calls core) ?_ ?_ h
  · intro _
    exact ⟨CoreState.new env, rfl, by simp [CoreState.new, createdRegions],
      by simp [CoreState.new, createdRegions], by simp [CoreState.new]⟩
  · intro calls c hcalls hc ih hkeeps
    obtain ⟨hbefore, hlast⟩ := allSteps_snoc.mp hkeeps
    obtain ⟨core, hcore⟩ := ih hbefore
    by_cases hregion : ∃ request actor, c.call = .createRegion request actor
    · obtain ⟨request, actor, hcall⟩ := hregion
      exact hcore.found hcall hc.ok (hlast.region_fresh request actor hcall)
        (hlast.region_room request actor hcall)
    · have hother : ∀ request actor, c.call ≠ .createRegion request actor :=
        fun request actor hcall => hregion ⟨request, actor, hcall⟩
      have hsame : createdRegions env (calls ++ [c]) = createdRegions env calls := by
        have hnone : createdRegions env [c] = [] := by
          cases hcall : c.call <;> simp [createdRegions, hcall]
          exact hother _ _ hcall
        rw [createdRegions_snoc, hnone, List.append_nil]
      refine ⟨core, ?_, hsame ▸ hcore.total, hsame ▸ hcore.version, ?_⟩
      · have hbuilt := hcore.built
        rw [coreStateFromEvents] at hbuilt ⊢
        rw [eventLog_snoc, List.foldlM_append, hbuilt, Outcome.ok_bind]
        refine foldlM_registerEvent_of_plain (fun e he => ?_)
        have hstep := hc.step e.entityId
        rw [engineRun_snoc] at hstep
        exact hstep.plain hother e (List.mem_filter.mpr ⟨he, decide_eq_true rfl⟩)
      · intro id hlookup hnil
        rw [history_snoc] at hnil
        exact hcore.recorded id hlookup (List.append_eq_nil_iff.mp hnil).1

/-! ## Replay -/

/-- After an orderly run whose calls all keep the order, replay gives back the stored states. -/
theorem replay_refines_store {calls : List TimedCall} (h : OrderlyRun env policy calls)
    (hkeeps : AllSteps (engineStep env) (KernelEngine.initial policy) (KeepsOrder env policy)
      calls) : ReplayRefines env (engineRun env policy calls) := by
  obtain ⟨core, hcore⟩ := h.registry hkeeps
  exact (replayRefines_of_histories (engineRun_reachable env policy calls) (h.historyOf hkeeps)
    (coreStateFromEvents_perm (eventLog_perm policy calls) hcore.built)).2

/-! ## Runs -/

/-- Creating a vector keeps the order. -/
theorem KeepsOrder.origin {before : List TimedCall} {eng : KernelEngine} {c : TimedCall}
    {request : OriginRequest} (hcall : c.call = .originCreate request) :
    KeepsOrder env policy before eng c where
  region_fresh _ _ hcall' := nomatch hcall.symm.trans hcall'
  region_room _ _ hcall' := nomatch hcall.symm.trans hcall'
  version_room u s hupdate _ := by
    rw [hcall] at hupdate
    cases hupdate
  sender_last _ _ _ hcall' := nomatch hcall.symm.trans hcall'
  receiver_last _ _ _ hcall' := nomatch hcall.symm.trans hcall'

/-- So does a transfer that shares its millisecond with no earlier event of its vectors. -/
theorem KeepsOrder.transfer {before : List TimedCall} {eng : KernelEngine} {c : TimedCall}
    {fromId toId : String} {amount : List U128} (hcall : c.call = .transfer fromId toId amount)
    (hsender : ∀ e ∈ history env policy before fromId, e.timestamp ≠ c.now 6)
    (hreceiver : ∀ e ∈ history env policy before toId, e.timestamp ≠ c.now 7) :
    KeepsOrder env policy before eng c := by
  have hlast : ∀ id timestamp, (∀ e ∈ history env policy before id, e.timestamp ≠ timestamp) →
      ReplaysLast env policy before eng id timestamp := by
    intro id timestamp hne s sequence _ _ earlier p later hsplit _ _ htime
    exact absurd htime (hne p (by rw [hsplit]; simp))
  refine ⟨fun _ _ hcall' => (nomatch hcall.symm.trans hcall'),
    fun _ _ hcall' => (nomatch hcall.symm.trans hcall'), ?_, ?_, ?_⟩
  · intro u s hupdate _
    rw [hcall] at hupdate
    cases hupdate
  · intro fromId' toId' amount' hcall'
    obtain ⟨rfl, _⟩ := Call.transfer.inj (hcall.symm.trans hcall')
    exact hlast _ _ hsender
  · intro fromId' toId' amount' hcall'
    obtain ⟨_, rfl, _⟩ := Call.transfer.inj (hcall.symm.trans hcall')
    exact hlast _ _ hreceiver

end

theorem spacedTransfers_keepsOrder :
    AllSteps (engineStep samplePlatform) (KernelEngine.initial ConsensusPolicy.default)
      (KeepsOrder samplePlatform ConsensusPolicy.default) spacedTransfers := by
  refine allSteps_snoc.mpr ⟨allSteps_snoc.mpr ⟨allSteps_snoc.mpr ⟨allSteps_snoc.mpr
    ⟨AllSteps.nil, .origin rfl⟩, .origin rfl⟩, .transfer rfl ?_ ?_⟩, .transfer rfl ?_ ?_⟩ <;>
  decide +kernel

theorem replay_refines_store_spaced :
    ReplayRefines samplePlatform
      (engineRun samplePlatform ConsensusPolicy.default spacedTransfers) :=
  replay_refines_store spacedTransfers_orderly spacedTransfers_keepsOrder

/-- Replay gives back the stored states of every orderly run. -/
def ReplayRefinesStore : Prop :=
  ∀ env : Platform, env.CollisionFree → ∀ (policy : ConsensusPolicy) (calls : List TimedCall),
    OrderlyRun env policy calls → ReplayRefines env (engineRun env policy calls)

/-- Nine operations on one vector and its creation, all in one millisecond. -/
def tenTiedEvents : List TimedCall :=
  [callAt 1 (.originCreate (sampleOrigin "a" [5])), callAt 1 (.originCreate (sampleOrigin "b" [5]))]
    ++ List.replicate 7 (callAt 1 (.certify "a")) ++
    [callAt 1 (.transfer "a" "b" [1]), callAt 1 (.transfer "a" "b" [1])]

/-- Both transfers name the last certification as their parent, and the ids of their events
end in 9 and in 10: as texts they come the other way round. -/
theorem replayRefinesStore_fails : ¬ ReplayRefinesStore := by
  intro h
  have hrun : AllSteps (engineStep (platformFor tenTiedEvents))
        (KernelEngine.initial ConsensusPolicy.default)
        (fun _ eng c => (eng.call (platformFor tenTiedEvents) c.now c.call).1.IsOk)
        tenTiedEvents ∧
      ((engineAfter samplePlatform tenTiedEvents).eventInputs.map shortDigest).Nodup ∧
      ¬ ((engineRun (platformFor tenTiedEvents) ConsensusPolicy.default
        tenTiedEvents).replayCanonicalHistory (platformFor tenTiedEvents)).IsOk := by
    decide +kernel
  obtain ⟨hok, hdigests, hfails⟩ := hrun
  have horderly : OrderlyRun (platformFor tenTiedEvents) ConsensusPolicy.default tenTiedEvents :=
    .of_checks hok (by decide) (by decide) (by decide) (by decide)
  obtain ⟨result, hresult, _⟩ :=
    h _ (platformFor_collisionFree tenTiedEvents hdigests) _ _ horderly
  exact hfails ⟨result, hresult⟩

end VKernelX
