/-
  Ffi/AtMostOnce.lean --- how often the requests under one id take effect.

  An id is recorded last, after the history has been replayed.  As long as every request that
  changes something gets that far, the next request under the id finds it taken.  What can keep
  a request from getting there is seen before it: its event is refused once the vector is
  written, or replay would take its event before one that is stored.
-/
import VKernelX.Ffi.Submit
import VKernelX.Replay.Recorded

set_option autoImplicit false

namespace VKernelX

open LockProc

/-! ## Sequences of requests -/

/-- A submit request with the clock readings it gets. -/
structure TimedRequest where
  request : SubmitEventRequest
  now : ℕ → UInt64

section

variable (env : Platform) (serde : Serde)

/-- Handle a request and go on, if it returns. -/
def submitStep (handle : Option KernelHandle) (i : TimedRequest) : Option KernelHandle :=
  handle.bind (executeSubmitRequest .passes env serde i.now i.request).after

/-- The handle that requests lead to from a fresh one. -/
abbrev submitRun (inputs : List TimedRequest) : Option KernelHandle :=
  runFrom (submitStep env serde) (some kernelInit) inputs

/-- A request returns, and has changed the engine's stored states or events. -/
def TakesEffect (handle : Option KernelHandle) (i : TimedRequest) : Prop :=
  ∃ m m', handle = some m ∧
    (executeSubmitRequest .passes env serde i.now i.request).after m = some m' ∧
    (m'.value.engine.store.states ≠ m.value.engine.store.states ∨
      m'.value.engine.store.events ≠ m.value.engine.store.events)

/-- Among the requests under one id at most one takes effect. -/
def AtMostOncePerId (inputs : List TimedRequest) : Prop :=
  ∀ before i mid j after, inputs = before ++ i :: (mid ++ j :: after) →
    i.request.requestId = j.request.requestId →
    TakesEffect env serde (submitRun env serde before) i →
      ¬ TakesEffect env serde (submitRun env serde (before ++ i :: mid)) j

/-! ## Requests whose events replay takes last -/

/-- Replay takes the events of a call after those that are stored: a creation is of an entity
without events, an update counts the version up, and a transfer is between two vectors and its
time stamps and event ids come after those of their events at the same version. -/
structure Call.InOrder (eng : KernelEngine) (now : ℕ → UInt64) (c : Call) : Prop where
  created : ∀ request, c = .originCreate request →
    ∀ e ∈ eng.store.listEvents, e.entityId ≠ request.vectorId
  version_room : ∀ u s, c.update? env now = some u → eng.store.getState u.vectorId = some s →
    s.version.toNat + 1 < 2 ^ 64
  distinct : ∀ fromId toId amount, c = .transfer fromId toId amount → fromId ≠ toId
  sender_last : ∀ fromId toId amount, c = .transfer fromId toId amount →
    TakenLast eng (entityOrder eng.store.loadEventsForReplay fromId) fromId (now 6)
  receiver_last : ∀ fromId toId amount, c = .transfer fromId toId amount →
    TakenLast eng (entityOrder eng.store.loadEventsForReplay toId) toId (now 7)

/-- If a request is valid, the call it asks for is not rejected after its first write, and if it
is carried out, replay takes its events last. -/
def EffectsRecorded (handle : Option KernelHandle) (i : TimedRequest) : Prop :=
  ∀ m, handle = some m → ∀ c, ValidRequest env serde m.value i.request c →
    ¬ c.RejectedLate env m.value.engine i.now ∧
      (c.CarriedOut env m.value.engine → c.InOrder env m.value.engine i.now)

variable {env serde}

/-! ## Engines that replay finds as they are -/

/-- An engine in which replay finds the history of every entity, and no region. -/
structure FoundByReplay (env : Platform) (eng : KernelEngine) : Prop where
  reachable : ReachableEngine env ConsensusPolicy.default eng
  short : eng.NamesShort
  history : ∀ entityId, HistoryOf eng entityId (entityOrder eng.store.loadEventsForReplay entityId)
  plain : ∀ e ∈ eng.store.listEvents, isRegionCreateEvent e = false

theorem foundByReplay_initial :
    FoundByReplay env (KernelEngine.initial ConsensusPolicy.default) where
  reachable := ⟨[], rfl⟩
  short := initial_namesShort _
  history entityId := by
    have hnone : (KernelEngine.initial ConsensusPolicy.default).store.states[entityId]? = none := by
      simp [KernelEngine.initial, MemoryStore.empty]
    have hnil : entityOrder
        (KernelEngine.initial ConsensusPolicy.default).store.loadEventsForReplay entityId = [] :=
      entityOrder_of_ok rfl
    rw [hnil]
    refine ⟨.refl _, ?_⟩
    rw [hnone]
    exact .unknown
  plain := nofun

/-- Nothing of this is lost where nothing is written. -/
theorem FoundByReplay.sameStore {eng eng' : KernelEngine} (h : FoundByReplay env eng)
    (hsame : SameStore eng eng')
    (hreach : ReachableEngine env ConsensusPolicy.default eng') : FoundByReplay env eng' := by
  have hlist : eng'.store.listEvents = eng.store.listEvents := by
    rw [MemoryStore.listEvents, hsame.events, MemoryStore.listEvents]
  have hload : eng'.store.loadEventsForReplay = eng.store.loadEventsForReplay := by
    rw [MemoryStore.loadEventsForReplay, hlist, MemoryStore.loadEventsForReplay]
  refine ⟨hreach, ⟨fun id s hs => h.short.states id s ?_, hlist ▸ h.short.events⟩,
    fun entityId => ?_, hlist ▸ h.plain⟩
  · rwa [MemoryStore.getState, hsame.states] at hs
  · obtain ⟨hperm, hrecorded⟩ := h.history entityId
    rw [hload]
    exact ⟨hlist ▸ hperm, hsame.states ▸ hrecorded⟩

/-- A call in order keeps the history of every entity. -/
theorem Call.InOrder.keepsHistory {eng : KernelEngine} (hfound : FoundByReplay env eng)
    {now : ℕ → UInt64} {c : Call} (h : c.InOrder env eng now) (hvectors : c.OnVectors)
    (entityId : String) :
    KeepsHistory env eng ⟨c, now⟩ entityId
      (entityOrder eng.store.loadEventsForReplay entityId) where
  created := by
    rintro request hcall rfl
    refine List.eq_nil_iff_forall_not_mem.mpr (fun e he => ?_)
    obtain ⟨hstored, hentity⟩ := (mem_of_perm_eventsOf (hfound.history _).perm).mp he
    exact h.created request hcall e hstored hentity
  founded := fun _ _ hcall => absurd hcall (hvectors.ne_createRegion _ _)
  version_room := by
    rintro u s hupdate rfl hs
    exact h.version_room u s hupdate hs
  sender_last := fun _ _ hcall => h.sender_last _ _ _ hcall
  receiver_last := fun _ _ hcall => h.receiver_last _ _ _ hcall

/-- A call on vectors that goes through in order leads to an engine that replay finds as it
is. -/
theorem FoundByReplay.call {eng : KernelEngine} (h : FoundByReplay env eng) {now : ℕ → UInt64}
    {c : Call} (hvectors : c.OnVectors) (hnames : c.NamesShort)
    (hok : (eng.call env now c).1.IsOk) (horder : c.InOrder env eng now) :
    FoundByReplay env (eng.call env now c).2 ∧ ReplayRefines env (eng.call env now c).2 := by
  have hreach' : ReachableEngine env ConsensusPolicy.default (eng.call env now c).2 :=
    Reachable.tail _ _ h.reachable ⟨c, now⟩
  have hgrown := listEvents_perm_newEvents (call_ends eng now c).writes h.reachable.wellKeyed
    hreach'.wellKeyed
  have hhistory := fun entityId => @HistoryOf.step env ConsensusPolicy.default eng _ entityId
    h.reachable (h.history entityId) ⟨c, now⟩ hok horder.distinct
    (horder.keepsHistory h hvectors entityId)
  have hplain : ∀ e ∈ (eng.call env now c).2.store.listEvents, isRegionCreateEvent e = false := by
    intro e he
    rcases List.mem_append.mp (hgrown.mem_iff.mp he) with hold | hnew
    · exact h.plain e hold
    · have hstep := @entityStep_of_ok env ConsensusPolicy.default eng h.reachable ⟨c, now⟩ hok
        horder.distinct e.entityId
      exact hstep.plain hvectors.ne_createRegion e (List.mem_filter.mpr ⟨hnew, by simp⟩)
  obtain ⟨hfound, hrefines⟩ := replayRefines_of_histories hreach' hhistory
    (foldlM_registerEvent_of_plain hplain)
  refine ⟨⟨hreach', h.short.call h.reachable hnames hvectors.ne_createRegion hok,
    fun entityId => ?_, hplain⟩, hrefines⟩
  rw [hfound]
  exact hhistory entityId

/-! ## One request -/

section

variable {m m' : KernelHandle} {answer : Except String SubmitReply}

theorem SubmitEnds.seen_mono {now : ℕ → UInt64} {request : SubmitEventRequest}
    (h : SubmitEnds env serde m now request (.ok (answer, m'))) {id : String}
    (hid : id ∈ m.value.seenRequestIds) : id ∈ m'.value.seenRequestIds := by
  cases h with
  | refused e hinvalid => exact hid
  | stopped label c e hvalid hcollect => exact hid
  | duplicate label c reply hvalid hcollect =>
    exact Std.ExtTreeSet.mem_insert.mpr (Or.inr hid)

/-- Under a recorded id nothing happens. -/
theorem SubmitEnds.no_effect {now : ℕ → UInt64} {request : SubmitEventRequest}
    (h : SubmitEnds env serde m now request (.ok (answer, m')))
    (hseen : request.requestId ∈ m.value.seenRequestIds) : m' = m := by
  cases h with
  | refused e hinvalid => rfl
  | stopped label c e hvalid hcollect => exact absurd hseen hvalid.fresh
  | duplicate label c reply hvalid hcollect => exact absurd hseen hvalid.fresh

/-- A request whose effects are recorded has changed nothing, or has its id recorded. -/
theorem SubmitEnds.recorded (hcollision : env.CollisionFree) {i : TimedRequest}
    (hfound : FoundByReplay env m.value.engine)
    (hnames : ∀ c, i.request.Asks serde c → c.NamesShort)
    (hcond : EffectsRecorded env serde (some m) i)
    (h : SubmitEnds env serde m i.now i.request (.ok (answer, m'))) :
    FoundByReplay env m'.value.engine ∧
      (SameStore m.value.engine m'.value.engine ∨
        i.request.requestId ∈ m'.value.seenRequestIds) := by
  cases h with
  | refused e hinvalid => exact ⟨hfound, Or.inl (.refl _)⟩
  | stopped label c e hvalid hcollect =>
    obtain ⟨hlate, horder⟩ := hcond m rfl c hvalid
    have hvectors := hvalid.asks.onVectors
    rcases hresult : operationResult (m.value.engine.call env i.now c).1 with f | reply
    · -- the call returned an error before its first write
      rw [hresult] at hcollect
      obtain rfl := Except.error.inj hcollect
      have herr : (m.value.engine.call env i.now c).1.IsErr :=
        isErr_operationResult_iff.mp (hresult ▸ Outcome.isErr_err e)
      have hsame := ((call_ends m.value.engine i.now c).atomic_iff hcollision hfound.reachable
        hfound.short (hnames c hvalid.asks)
        (fun _ _ heq => absurd heq (hvectors.ne_createRegion _ _))).mpr hlate herr
      exact ⟨hfound.sameStore hsame (Reachable.tail _ _ hfound.reachable ⟨c, i.now⟩),
        Or.inl hsame⟩
    · -- the call went through, and then so does the replay
      obtain ⟨hreply, hdone, _⟩ := operationResult_ok hfound.reachable hvectors hresult
      obtain ⟨_, replay, hreplay, _⟩ := hfound.call hvectors (hnames c hvalid.asks)
        ⟨reply, hreply⟩ (horder hdone)
      have hcollected := collect_of_replay hfound.reachable ⟨reply, hreply⟩ label reply
        ⟨replay, hreplay⟩
      rw [hresult, Outcome.ok_bind] at hcollect
      rw [hcollect] at hcollected
      exact absurd hcollected (Outcome.not_isOk_error _)
  | duplicate label c reply hvalid hcollect =>
    obtain ⟨_, horder⟩ := hcond m rfl c hvalid
    have hvectors := hvalid.asks.onVectors
    obtain ⟨engineReply, hresult, _⟩ := Outcome.bind_eq_ok_iff.mp hcollect
    obtain ⟨hreply, hdone, _⟩ := operationResult_ok hfound.reachable hvectors hresult
    exact ⟨(hfound.call hvectors (hnames c hvalid.asks) ⟨engineReply, hreply⟩ (horder hdone)).1,
      Or.inr Std.ExtTreeSet.mem_insert_self⟩

end

theorem submitStep_eq_some {handle : Option KernelHandle} {i : TimedRequest} {m' : KernelHandle}
    (h : submitStep env serde handle i = some m') :
    ∃ m answer, handle = some m ∧ SubmitEnds env serde m i.now i.request (.ok (answer, m')) ∧
      (executeSubmitRequest .passes env serde i.now i.request).after m = some m' := by
  obtain ⟨m, rfl, hafter⟩ := Option.bind_eq_some_iff.mp h
  obtain ⟨answer, hrun⟩ := after_eq_some_iff.mp hafter
  exact ⟨m, answer, rfl, hrun ▸ executeSubmitRequest_ends m i.now i.request, hafter⟩

/-! ## Runs -/

/-- What a run keeps: replay finds the engine as it is, and every request that took effect has
its id recorded. -/
structure EffectsSeen (env : Platform) (serde : Serde) (inputs : List TimedRequest)
    (m : KernelHandle) : Prop where
  found : FoundByReplay env m.value.engine
  seen : ∀ before i after, inputs = before ++ i :: after →
    TakesEffect env serde (submitRun env serde before) i →
      i.request.requestId ∈ m.value.seenRequestIds

theorem effectsSeen_of_recorded (hcollision : env.CollisionFree) {inputs : List TimedRequest}
    (hnames : ∀ i ∈ inputs, ∀ c, i.request.Asks serde c → c.NamesShort)
    (h : AllSteps (submitStep env serde) (some kernelInit)
      (fun _ handle i => EffectsRecorded env serde handle i) inputs) :
    ∀ m, submitRun env serde inputs = some m → EffectsSeen env serde inputs m := by
  have hall : AllSteps (submitStep env serde) (some kernelInit)
      (fun _ handle i => EffectsRecorded env serde handle i ∧
        ∀ c, i.request.Asks serde c → c.NamesShort) inputs :=
    fun before i after heq => ⟨h before i after heq, hnames i (by rw [heq]; simp)⟩
  refine AllSteps.invariant (I := fun inputs handle => ∀ m, handle = some m →
    EffectsSeen env serde inputs m) ?_ ?_ hall
  · rintro _ ⟨⟩
    exact ⟨foundByReplay_initial, fun before i after hsplit => by simp at hsplit⟩
  · intro inputs i hI ⟨hcond, hshort⟩ m' hm'
    obtain ⟨m, answer, hm, hends, hafter⟩ := submitStep_eq_some hm'
    rw [hm] at hcond
    obtain ⟨hfound, hrecorded⟩ := hends.recorded hcollision (hI m hm).found hshort hcond
    refine ⟨hfound, forall_split_snoc.mpr ⟨?_, ?_⟩⟩
    · -- what is recorded stays recorded
      exact fun before j after hsplit heffect =>
        hends.seen_mono ((hI m hm).seen before j after hsplit heffect)
    · rintro ⟨m₁, m₂, hm₁, hafter₁, hchanged⟩
      obtain rfl := Option.some.inj (hm.symm.trans hm₁)
      obtain rfl := Option.some.inj (hafter.symm.trans hafter₁)
      rcases hrecorded with hsame | hdone
      · exact absurd hchanged
          (not_or.mpr ⟨not_not.mpr hsame.states, not_not.mpr hsame.events⟩)
      · exact hdone

/-- In every run of requests whose effects are recorded, at most one request under each id takes
effect. -/
theorem atMostOncePerId_of_recorded (hcollision : env.CollisionFree)
    {inputs : List TimedRequest}
    (hnames : ∀ i ∈ inputs, ∀ c, i.request.Asks serde c → c.NamesShort)
    (h : AllSteps (submitStep env serde) (some kernelInit)
      (fun _ handle i => EffectsRecorded env serde handle i) inputs) :
    AtMostOncePerId env serde inputs := by
  intro before i mid j after hsplit hid heffect heffect'
  have heq : inputs = (before ++ i :: mid) ++ j :: after := by
    rw [hsplit, List.append_assoc, List.cons_append]
  obtain ⟨m, m', hm, hafter, hchanged⟩ := heffect'
  have hseen := (effectsSeen_of_recorded hcollision
    (fun k hk => hnames k (by rw [heq]; exact List.mem_append_left _ hk))
    (heq ▸ h).of_append m hm).seen before i mid rfl heffect
  rw [hid] at hseen
  obtain ⟨answer, hrun⟩ := after_eq_some_iff.mp hafter
  have hends := @executeSubmitRequest_ends env serde m j.now j.request
  rw [hrun] at hends
  obtain rfl := hends.no_effect hseen
  rcases hchanged with hstates | hevents
  · exact hstates rfl
  · exact hevents rfl

end

/-! ## Requests that are sent again -/

/-- The creation, sent again at another time. -/
def resentCreation : List TimedRequest :=
  [{ request := creationRequest, now := fun _ => 1 },
    { request := creationRequest, now := fun _ => 2 }]

/-- A creation of an entity without events is in order. -/
theorem Call.InOrder.originCreate {env : Platform} {eng : KernelEngine} {now : ℕ → UInt64}
    {request : OriginRequest}
    (hnone : ∀ e ∈ eng.store.listEvents, e.entityId ≠ request.vectorId) :
    (Call.originCreate request).InOrder env eng now where
  created := by
    rintro _ ⟨⟩
    exact hnone
  version_room := fun _ _ hupdate => nomatch hupdate
  distinct := fun _ _ _ hcall => nomatch hcall
  sender_last := fun _ _ _ hcall => nomatch hcall
  receiver_last := fun _ _ _ hcall => nomatch hcall

/-- Next to no events, the event of the creation is not refused. -/
theorem creation_not_refused : ¬ (sampleOrigin "a" [5]).draft.Refused [] := by
  rintro (hblank | ⟨i, hwide⟩ | hsequence | ⟨n, hn, _⟩)
  · exact absurd hblank (by decide)
  · have hfits : ∀ a ∈ (sampleOrigin "a" [5]).components, a.toNat ≤ u64Max := by
      simp [sampleOrigin, u64Max]
    have hle : (sampleOrigin "a" [5]).draft.amount i ≤ u64Max := amountAt_le hfits i
    exact absurd hwide (Nat.not_lt.mpr hle)
  · have hfirst : (sampleOrigin "a" [5]).draft.sequence [] = 1 := rfl
    rw [hfirst] at hsequence
    omega
  · cases hn

/-- The creation is recorded where no event is stored, and turned down where its id is. -/
theorem creation_recorded {env : Platform} {m : KernelHandle} {now : ℕ → UInt64}
    (h : m.value.engine.store.listEvents = [] ∨ "r" ∈ m.value.seenRequestIds) :
    EffectsRecorded env sampleSerde (some m) { request := creationRequest, now := now } := by
  intro m' hm c hvalid
  obtain rfl := Option.some.inj hm
  obtain rfl := hvalid.asks.unique creationRequest_asks
  rcases h with hnone | hseen
  · refine ⟨fun hlate => ?_, fun _ => .originCreate (fun e he => ?_)⟩
    · have hrefused : (sampleOrigin "a" [5]).draft.Refused m.value.engine.eventNames :=
        hlate.refused
      rw [KernelEngine.eventNames, hnone, List.map_nil] at hrefused
      exact creation_not_refused hrefused
    · rw [hnone] at he
      cases he
  · exact absurd hseen hvalid.fresh

theorem resentCreation_recorded {env : Platform} (hcollision : env.CollisionFree) :
    AllSteps (submitStep env sampleSerde) (some kernelInit)
      (fun _ handle i => EffectsRecorded env sampleSerde handle i) resentCreation := by
  let first : TimedRequest := { request := creationRequest, now := fun _ => 1 }
  have hfirst : EffectsRecorded env sampleSerde (some kernelInit) first :=
    creation_recorded (Or.inl rfl)
  refine allSteps_cons.mpr ⟨hfirst, allSteps_cons.mpr ⟨?_, .nil⟩⟩
  show EffectsRecorded env sampleSerde (submitStep env sampleSerde (some kernelInit) first) _
  cases hafter : submitStep env sampleSerde (some kernelInit) first with
  | none => exact nofun
  | some m =>
    obtain ⟨m₀, answer, hm₀, hends, _⟩ := submitStep_eq_some hafter
    obtain rfl := Option.some.inj hm₀
    have hrecorded := (@SubmitEnds.recorded env sampleSerde kernelInit m answer hcollision first
      foundByReplay_initial creationRequest_namesShort hfirst hends).2
    refine creation_recorded (hrecorded.imp_left (fun hsame => ?_))
    rw [MemoryStore.listEvents, hsame.events]
    rfl

theorem atMostOncePerId_resent :
    AtMostOncePerId (separatedPlatform []) sampleSerde resentCreation :=
  atMostOncePerId_of_recorded separatedPlatform_nil_collisionFree
    (List.forall_mem_cons.mpr ⟨creationRequest_namesShort,
      List.forall_mem_singleton.mpr creationRequest_namesShort⟩)
    (resentCreation_recorded separatedPlatform_nil_collisionFree)

/-- Among the requests of any sequence at most one under each id takes effect. -/
def RequestIdsTakeEffectOnce : Prop :=
  ∀ (env : Platform) (serde : Serde) (inputs : List TimedRequest),
    AtMostOncePerId env serde inputs

/-- A creation under a blank id, sent again after its error. -/
def resentBlank : TimedRequest where
  request := sampleSubmit "r" "origin_create" (originParams " " [5])
  now := fun _ => 1

def resentBlankLater : TimedRequest := { resentBlank with now := fun _ => 2 }

/-- Its event is turned down after the vector is stored, so its id is not recorded, and both
times the vector is stored anew. -/
theorem requestIdsTakeEffectOnce_fails : ¬ RequestIdsTakeEffectOnce := by
  intro h
  have honce := h samplePlatform sampleSerde [resentBlank, resentBlankLater] [] resentBlank []
    resentBlankLater [] rfl rfl
  have hruns : ((submitRun samplePlatform sampleSerde [resentBlank]).map
        (fun m => (m.value.engine.store.states[" "]?).map VectorStateV1.createdAtMs)) =
          some (some 1) ∧
      ((submitRun samplePlatform sampleSerde [resentBlank, resentBlankLater]).map
        (fun m => (m.value.engine.store.states[" "]?).map VectorStateV1.createdAtMs)) =
          some (some 2) := by
    decide +kernel
  obtain ⟨m, hm, hfirst⟩ := Option.map_eq_some_iff.mp hruns.1
  obtain ⟨m', hm', hsecond⟩ := Option.map_eq_some_iff.mp hruns.2
  have hstep : (executeSubmitRequest .passes samplePlatform sampleSerde resentBlank.now
      resentBlank.request).after kernelInit = some m := hm
  have hstep' : (executeSubmitRequest .passes samplePlatform sampleSerde resentBlankLater.now
      resentBlankLater.request).after m = some m' := by
    have hlast : submitStep samplePlatform sampleSerde
        (submitRun samplePlatform sampleSerde [resentBlank]) resentBlankLater = some m' := hm'
    rw [hm] at hlast
    exact hlast
  refine honce ⟨kernelInit, m, rfl, hstep, Or.inl (fun heq => ?_)⟩
    ⟨m, m', hm, hstep', Or.inl (fun heq => ?_)⟩
  · rw [heq] at hfirst
    exact absurd hfirst (by decide)
  · rw [heq, hfirst] at hsecond
    exact absurd hsecond (by decide)

end VKernelX
