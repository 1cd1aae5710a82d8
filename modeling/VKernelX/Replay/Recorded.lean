/-
  Replay/Recorded.lean --- histories that replay finds again.

  The engine writes states and events side by side.  Each event starts from the state the
  event before it ended in, so applied in the order in which they were appended the events
  lead to the stored states.  Replay finds that order if no event sorts before one it could be
  taken in place of, and one call after the other can be checked for that.
-/
import VKernelX.Engine.History
import VKernelX.Region.Registry
import VKernelX.Replay.InOrder

set_option autoImplicit false

namespace VKernelX

/-- The replay key in its parts. -/
theorem replaySortKey_le_iff {a b : VectorEvent} :
    replaySortKey a ≤ replaySortKey b ↔
      a.logicalClock < b.logicalClock ∨ a.logicalClock = b.logicalClock ∧
        (a.timestamp < b.timestamp ∨ a.timestamp = b.timestamp ∧
          (a.entityId < b.entityId ∨ a.entityId = b.entityId ∧
            (a.eventId < b.eventId ∨ a.eventId = b.eventId ∧ a.eventHash ≤ b.eventHash))) := by
  simp only [replaySortKey, Prod.Lex.toLex_le_toLex, UInt64.lt_iff_toNat_lt, UInt64.toNat_inj]

/-! ## What is recorded of an entity -/

/-- The history of a stored vector: it ends in the stored state, each event starts where the
one before it ended, and replay takes the events as they come. -/
structure VectorHistory (s : VectorStateV1) (h : List VectorEvent) : Prop where
  last : ∃ v, (h.getLast?).map VectorEvent.vectorAfter = some v ∧ vectorV1ToEventState s = .ok v
  regionId_eq : ∀ e ∈ h, e.regionId = s.spaceId
  clock_le : ∀ e ∈ h, e.logicalClock ≤ s.version
  plain : ∀ e ∈ h, isRegionCreateEvent e = false
  accepted : AcceptedInTurn h
  ordered : ReplayOrdered h

/-- An entity is unknown, a vector with its history, or a region with its founding event. -/
inductive Recorded : Option VectorStateV1 → List VectorEvent → Prop where
  | unknown : Recorded none []
  | vector {s : VectorStateV1} {h : List VectorEvent} (hvector : VectorHistory s h) :
      Recorded (some s) h
  | region {e : VectorEvent} (hregion : isRegionCreateEvent e = true)
      (hroot : e.parentHashes = []) : Recorded none [e]

theorem Recorded.ordered {state : Option VectorStateV1} {h : List VectorEvent}
    (hrecorded : Recorded state h) : ReplayOrdered h := by
  cases hrecorded with
  | unknown => exact replayOrdered_nil
  | vector hvector => exact hvector.ordered
  | region _ hroot => exact replayOrdered_singleton hroot

theorem Recorded.accepted {state : Option VectorStateV1} {h : List VectorEvent}
    (hrecorded : Recorded state h) : AcceptedInTurn h := by
  cases hrecorded with
  | unknown => exact acceptedInTurn_nil
  | vector hvector => exact hvector.accepted
  | @region e hregion _ =>
    exact acceptedInTurn_snoc.mpr ⟨acceptedInTurn_nil, .region hregion⟩

/-- All events of an entity name one region. -/
theorem Recorded.regionId {state : Option VectorStateV1} {h : List VectorEvent}
    (hrecorded : Recorded state h) : ∀ e ∈ h, ∀ e' ∈ h, e.regionId = e'.regionId := by
  cases hrecorded with
  | unknown => exact nofun
  | vector hvector =>
    intro e he e' he'
    rw [hvector.regionId_eq e he, hvector.regionId_eq e' he']
  | region _ _ =>
    intro e he e' he'
    rw [List.mem_singleton.mp he, List.mem_singleton.mp he']

/-! ## One step -/

/-- The stored events of an entity in the order in which they were appended, and what is
recorded of it. -/
structure HistoryOf (eng : KernelEngine) (entityId : String) (h : List VectorEvent) : Prop where
  perm : h.Perm (eventsOf entityId eng.store.listEvents)
  recorded : Recorded eng.store.states[entityId]? h

/-- A transfer's event, stamped with `timestamp`, is not taken before an event that came
earlier: of the vector's events after the parent that the engine picks, none has the clock of
the new event and a greater time stamp, or the same time stamp and a greater event id. -/
def TakenLast (eng : KernelEngine) (h : List VectorEvent) (vectorId : String)
    (timestamp : UInt64) : Prop :=
  ∀ s sequence, eng.store.getState vectorId = some s →
    eng.nextEventSequenceForEntity vectorId s.spaceId = .ok sequence →
    ∀ earlier p later, h = earlier ++ p :: later →
      (∀ parent ∈ eng.latestParentHashForEntity vectorId,
        parent ∈ earlier.map VectorEvent.eventHash) →
      p.logicalClock = s.version →
      p.timestamp < timestamp ∨ p.timestamp = timestamp ∧
        p.eventId ≤ canonicalEventId vectorId s.spaceId .transfer s.version sequence

/-- What a call has to meet for replay to take its event of an entity after the events that
came before. -/
structure KeepsHistory (env : Platform) (eng : KernelEngine) (c : TimedCall) (entityId : String)
    (h : List VectorEvent) : Prop where
  created : ∀ request, c.call = .originCreate request → request.vectorId = entityId → h = []
  founded : ∀ request actorPublicKey, c.call = .createRegion request actorPublicKey →
    canonicalRegionId env request actorPublicKey 1 = entityId →
      h = [] ∧ eng.store.getState entityId = none
  version_room : ∀ u s, c.call.update? env c.now = some u → u.vectorId = entityId →
    eng.store.getState entityId = some s → s.version.toNat + 1 < 2 ^ 64
  sender_last : ∀ toId amount, c.call = .transfer entityId toId amount →
    TakenLast eng h entityId (c.now 6)
  receiver_last : ∀ fromId amount, c.call = .transfer fromId entityId amount →
    TakenLast eng h entityId (c.now 7)

section

variable {env : Platform} {policy : ConsensusPolicy} {eng eng' : KernelEngine}
  {h : List VectorEvent} {entityId : String}

theorem mem_of_perm_eventsOf (hperm : h.Perm (eventsOf entityId eng.store.listEvents))
    {e : VectorEvent} : e ∈ h ↔ e ∈ eng.store.listEvents ∧ e.entityId = entityId := by
  rw [hperm.mem_iff, eventsOf, List.mem_filter, decide_eq_true_iff]

/-- What the event of a moved vector carries over. -/
theorem Moves.fields {eng eng' : KernelEngine} {entityId : String} {operation : OperationType}
    {timestamp : UInt64} {before after : VectorStateV1} {e : VectorEvent}
    (h : Moves env eng entityId eng' operation timestamp before after e)
    (hkeyed : WellKeyed eng.store) :
    TransitionFields eng after operation timestamp (eng.latestParentHashForEntity entityId) e ∧
      vectorV1ToEventState before = .ok e.vectorBefore ∧ Admissible env eng.store e := by
  obtain ⟨hbuild, hadm⟩ := transitionEvent_eq_ok_iff.mp h.event_eq
  obtain ⟨hfields, hbefore⟩ := buildTransitionEvent_fields hbuild
  refine ⟨?_, hbefore, hadm⟩
  rw [← h.vectorId hkeyed]
  exact hfields

/-- An event that is accepted and follows on extends a vector's history. -/
theorem VectorHistory.snoc {before after : VectorStateV1} {h : List VectorEvent}
    (hhistory : VectorHistory before h) {eng eng' : KernelEngine} {entityId : String}
    {operation : OperationType} {timestamp : UInt64} {e : VectorEvent}
    (hmoves : Moves env eng entityId eng' operation timestamp before after e)
    (hkeyed : WellKeyed eng.store) (horigin : operation ≠ .originCreate)
    (hother : operation ≠ .other regionCreateOperationName)
    (hversion : before.version ≤ after.version) (hfollows : FollowsOn h e) :
    VectorHistory after (h ++ [e]) := by
  obtain ⟨hfields, hbefore, _⟩ := hmoves.fields hkeyed
  have hplain : isRegionCreateEvent e = false :=
    transitionEvent_not_region hmoves.event_eq (fun h => absurd h horigin) hother
  have hspace : after.spaceId = before.spaceId := hmoves.identity.spaceId
  have hall : ∀ {P : VectorEvent → Prop}, (∀ e' ∈ h, P e') → P e → ∀ e' ∈ h ++ [e], P e' := by
    intro P hold hnew e' he'
    rcases List.mem_append.mp he' with he' | he'
    · exact hold e' he'
    · exact List.mem_singleton.mp he' ▸ hnew
  obtain ⟨v, hlast, hv⟩ := hhistory.last
  refine {
    last := ⟨e.vectorAfter, by simp, hfields.vectorAfter_eq⟩
    regionId_eq := hall (fun e' he' => (hhistory.regionId_eq e' he').trans hspace.symm)
      hfields.regionId_eq
    clock_le := hall (fun e' he' => UInt64.le_trans (hhistory.clock_le e' he') hversion)
      (UInt64.le_of_eq hfields.logicalClock_eq)
    plain := hall hhistory.plain hplain
    accepted := acceptedInTurn_snoc.mpr ⟨hhistory.accepted, ?_⟩
    ordered := replayOrdered_snoc.mpr ⟨hhistory.ordered, hfollows⟩ }
  refine .transition hplain (hfields.operation_eq ▸ horigin) ?_
  rw [hlast, Except.ok.inj (hv.symm.trans hbefore)]

/-- The event of a moved vector follows on the vector's history if replay prefers the events
that come after its parent. -/
theorem Moves.followsOn (hkeyed : WellKeyed eng.store)
    (hperm : h.Perm (eventsOf entityId eng.store.listEvents)) {operation : OperationType}
    {timestamp : UInt64} {before after : VectorStateV1} {e : VectorEvent}
    (hmoves : Moves env eng entityId eng' operation timestamp before after e)
    (hpreferred : ∀ earlier v later, h = earlier ++ v :: later →
      (∀ p ∈ eng.latestParentHashForEntity entityId, p ∈ earlier.map VectorEvent.eventHash) →
        replaySortKey v ≤ replaySortKey e) : FollowsOn h e := by
  have hparents := hmoves.parents hkeyed
  refine ⟨?_, ?_, ?_⟩
  · intro p hp
    rw [hparents] at hp
    obtain ⟨q, hq, rfl, hentity⟩ := mem_latestParent hp
    exact List.mem_map_of_mem ((mem_of_perm_eventsOf hperm).mpr ⟨hq, hentity⟩)
  · intro hne hnil
    obtain ⟨q, hq⟩ := List.exists_mem_of_ne_nil _ hne
    obtain ⟨hstored, hentity⟩ := (mem_of_perm_eventsOf hperm).mp hq
    rw [hparents] at hnil
    rcases latestParent_spec eng entityId with ⟨_, hnone⟩ | ⟨_, _, hsome⟩
    · exact hnone q hstored hentity
    · rw [hnil] at hsome
      cases hsome
  · rw [hparents]
    exact hpreferred

/-- An update advances the clock, so its event has the greatest key so far. -/
theorem VectorHistory.update (hreach : ReachableEngine env policy eng)
    (hperm : h.Perm (eventsOf entityId eng.store.listEvents)) {c : TimedCall} {u : Update}
    {before after : VectorStateV1} {e : VectorEvent} (hhistory : VectorHistory before h)
    (hupdate : c.call.update? env c.now = some u) (hnext : u.next before = .ok after)
    (hroom : before.version.toNat + 1 < 2 ^ 64)
    (hmoves : Moves env eng entityId eng' u.operation after.updatedAtMs before after e)
    (hcanonical : CanonicalState after) : VectorHistory after (h ++ [e]) := by
  obtain ⟨horigin, hother⟩ := operation_of_update hupdate
  have hadvances := (update_next_ok hupdate hnext (hreach.soundStates _ _ hmoves.before_eq)
    hcanonical).1
  have hversion : after.version = before.version + 1 :=
    Except.ok.inj (hadvances.version.symm.trans (u64Succ_of_lt _ hroom))
  have hlt : before.version < after.version := by
    rw [hversion, UInt64.lt_iff_toNat_lt, toNat_succ hroom]
    exact Nat.lt_succ_self _
  refine hhistory.snoc hmoves hreach.wellKeyed horigin (hother _) (UInt64.le_of_lt hlt)
    (hmoves.followsOn hreach.wellKeyed hperm ?_)
  intro earlier v later hsplit _
  have hv := hhistory.clock_le v (by rw [hsplit]; simp)
  refine replaySortKey_le_iff.mpr (Or.inl ?_)
  rw [(hmoves.fields hreach.wellKeyed).1.logicalClock_eq]
  exact UInt64.lt_of_le_of_lt hv hlt

/-- A transfer leaves the clock where it is, so the clock may tie; then time stamps and event
ids decide. -/
theorem VectorHistory.transfer (hkeyed : WellKeyed eng.store)
    (hperm : h.Perm (eventsOf entityId eng.store.listEvents)) {timestamp : UInt64}
    {before after : VectorStateV1} {e : VectorEvent} (hhistory : VectorHistory before h)
    (hversion : after.version = before.version) (hlast : TakenLast eng h entityId timestamp)
    (hmoves : Moves env eng entityId eng' .transfer timestamp before after e) :
    VectorHistory after (h ++ [e]) := by
  obtain ⟨hfields, _, hadm⟩ := hmoves.fields hkeyed
  refine hhistory.snoc hmoves hkeyed nofun nofun (UInt64.le_of_eq hversion.symm)
    (hmoves.followsOn hkeyed hperm ?_)
  intro earlier v later hsplit hparents
  have hv : v ∈ h := by rw [hsplit]; simp
  have hclock : v.logicalClock ≤ e.logicalClock := by
    rw [hfields.logicalClock_eq, hversion]
    exact hhistory.clock_le v hv
  obtain ⟨hstored, hentity⟩ := (mem_of_perm_eventsOf hperm).mp hv
  have hentityEq : v.entityId = e.entityId := by
    rw [hentity, hfields.entityId_eq, hmoves.vectorId hkeyed]
  rw [replaySortKey_le_iff]
  rcases UInt64.lt_or_eq_of_le hclock with hlt | hclockEq
  · exact Or.inl hlt
  · refine Or.inr ⟨hclockEq, ?_⟩
    obtain ⟨sequence, hsequence, heventId⟩ := hfields.sequence_eq
    rw [hmoves.vectorId hkeyed, hmoves.identity.spaceId] at hsequence
    have hclockBefore : v.logicalClock = before.version := by
      rw [hclockEq, hfields.logicalClock_eq, hversion]
    rw [hfields.timestamp_eq, heventId, hmoves.vectorId hkeyed, hmoves.identity.spaceId, hversion]
    rcases hlast before sequence hmoves.before_eq hsequence earlier v later hsplit hparents
      hclockBefore with htime | ⟨htime, hid⟩
    · exact Or.inl htime
    · refine Or.inr ⟨htime, Or.inr ⟨hentityEq, Or.inl (lt_of_le_of_ne hid ?_)⟩⟩
      -- The new event id is another one than any stored one.
      have hne : v.eventId ≠ e.eventId := hadm.appendable.id_fresh v hstored
      rwa [heventId, hmoves.vectorId hkeyed, hmoves.identity.spaceId, hversion] at hne

/-- The history of a vector that was just created. -/
theorem VectorHistory.created {eng : KernelEngine} {now : ℕ → UInt64} {request : OriginRequest}
    {s : VectorStateV1} {e : VectorEvent} (hplan : originState env now request = .ok s)
    (hevent : Transition.event env ⟨none, s, .originCreate, s.createdAtMs⟩ eng = .ok e) :
    VectorHistory s [e] := by
  obtain ⟨hbuild, _⟩ := transitionEvent_eq_ok_iff.mp hevent
  obtain ⟨hfields, _⟩ := buildTransitionEvent_fields hbuild
  have hplain : isRegionCreateEvent e = false :=
    transitionEvent_not_region hevent (fun _ => (originState_ok hplan).typeMetadata) nofun
  refine {
    last := ⟨e.vectorAfter, rfl, hfields.vectorAfter_eq⟩
    regionId_eq := by simpa using hfields.regionId_eq
    clock_le := by simpa using UInt64.le_of_eq hfields.logicalClock_eq
    plain := by simpa using hplain
    accepted := acceptedInTurn_snoc.mpr
      ⟨acceptedInTurn_nil, .origin hplain hfields.operation_eq rfl⟩
    ordered := replayOrdered_singleton hfields.parentHashes_eq }

/-- A call that goes through and keeps the history of an entity extends it. -/
theorem HistoryOf.step (hreach : ReachableEngine env policy eng)
    (hhistory : HistoryOf eng entityId h) {c : TimedCall} (hok : (eng.call env c.now c.call).1.IsOk)
    (hdistinct : ∀ fromId toId amount, c.call = .transfer fromId toId amount → fromId ≠ toId)
    (hkeeps : KeepsHistory env eng c entityId h) :
    HistoryOf (engineStep env eng c) entityId
      (h ++ eventsOf entityId (newEvents eng (engineStep env eng c))) := by
  have hreach' : ReachableEngine env policy (engineStep env eng c) := Reachable.tail _ _ hreach c
  have hgrown := listEvents_perm_newEvents (call_ends eng c.now c.call).writes hreach.wellKeyed
    hreach'.wellKeyed
  have hstep := entityStep_of_ok hreach hok hdistinct entityId
  obtain ⟨hperm, hrecorded⟩ := hhistory
  refine ⟨?_, ?_⟩
  · refine (hperm.append_right _).trans ?_
    rw [← eventsOf_append]
    exact (hgrown.filter _).symm
  · generalize eventsOf entityId (newEvents eng (engineStep env eng c)) = new at hstep
    cases hstep with
    | idle _ hstate =>
      rw [List.append_nil, hstate]
      exact hrecorded
    | created hcall hid hplan hstate hevent =>
      rw [hkeeps.created _ hcall hid, hstate]
      exact .vector (.created hplan hevent)
    | @updated u before after e hupdate hid hnext hmoves =>
      have hcanonical := (hreach'.soundStates _ _ hmoves.after_eq).canonical
      rw [hmoves.before_eq] at hrecorded
      rw [hmoves.after_eq]
      cases hrecorded with
      | vector hvector =>
        exact .vector (hvector.update hreach hperm hupdate hnext
          (hkeeps.version_room u before hupdate hid hmoves.before_eq) hmoves hcanonical)
    | transferred hcall hside hversion hmoves =>
      rw [hmoves.before_eq] at hrecorded
      rw [hmoves.after_eq]
      cases hrecorded with
      | vector hvector =>
        rcases hside with ⟨rfl, rfl⟩ | ⟨rfl, rfl⟩
        · exact .vector (hvector.transfer hreach.wellKeyed hperm hversion
            (hkeeps.sender_last _ _ hcall) hmoves)
        · exact .vector (hvector.transfer hreach.wellKeyed hperm hversion
            (hkeeps.receiver_last _ _ hcall) hmoves)
    | @founded request actor e region hcall hid hstate hevent hread =>
      have hbuilt := regionEvent_built hevent
      obtain ⟨hnil, hnone⟩ := hkeeps.founded request actor hcall hid
      rw [MemoryStore.getState] at hnone
      rw [hstate, hnone, hnil]
      refine .region ?_ (buildRegionGenesisEvent_parents hbuilt)
      rw [isRegionCreateEvent, buildRegionGenesisEvent_operation hbuilt]
      rfl

/-- Only a region creation adds an event that the registry reads. -/
theorem EntityStep.plain {c : TimedCall} {new : List VectorEvent}
    (hstep : EntityStep env eng c entityId eng' new)
    (hc : ∀ request actorPublicKey, c.call ≠ .createRegion request actorPublicKey) :
    ∀ e ∈ new, isRegionCreateEvent e = false := by
  cases hstep with
  | idle _ _ => exact nofun
  | created _ _ hplan _ hevent =>
    exact List.forall_mem_singleton.mpr (transitionEvent_not_region hevent
      (fun _ => (originState_ok hplan).typeMetadata) nofun)
  | updated hupdate _ _ hmoves =>
    obtain ⟨horigin, hother⟩ := operation_of_update hupdate
    exact List.forall_mem_singleton.mpr (transitionEvent_not_region hmoves.event_eq
      (fun h => absurd h horigin) (hother _))
  | transferred _ _ _ hmoves =>
    exact List.forall_mem_singleton.mpr (transitionEvent_not_region hmoves.event_eq nofun nofun)
  | founded hcall _ _ _ _ => exact absurd hcall (hc _ _)

/-- Events of vectors pass the registry by. -/
theorem foldlM_registerEvent_of_plain {core : CoreState} {events : List VectorEvent}
    (hplain : ∀ e ∈ events, isRegionCreateEvent e = false) :
    events.foldlM (registerEvent env) core = .ok core := by
  induction events with
  | nil => rfl
  | cons e events ih =>
    obtain ⟨he, hrest⟩ := List.forall_mem_cons.mp hplain
    rw [List.foldlM_cons, registerEvent_eq_ok_iff.mpr (Or.inl ⟨he, rfl⟩), Outcome.ok_bind]
    exact ih hrest

/-! ## Replay -/

theorem nodup_of_length_le_one {α : Type} {l : List α} (h : l.length ≤ 1) : l.Nodup := by
  match l with
  | [] => exact List.nodup_nil
  | [a] => exact List.nodup_singleton a
  | _ :: _ :: _ => simp at h

/-- Histories that are ordered and accepted are what replay applies. -/
theorem replayEvents_of_histories {events : List VectorEvent} (hwf : WellFormedDag events)
    {history : String → List VectorEvent}
    (hperm : ∀ entityId, (history entityId).Perm (eventsOf entityId events))
    (hordered : ∀ entityId, ReplayOrdered (history entityId))
    (haccepted : ∀ entityId, AcceptedInTurn (history entityId)) {core : CoreState}
    (hcore : coreStateFromEvents env events = .ok core) :
    (∀ entityId, orderEntityEvents (eventsOf entityId events) =
      .ok (entityOrder events entityId)) ∧
    (∀ entityId, entityOrder events entityId = history entityId) ∧
      replayEvents env events = .ok (replayOutcome env (appliedEvents events) core) := by
  have horder : ∀ entityId, orderEntityEvents (eventsOf entityId events) =
      .ok (history entityId) := by
    intro entityId
    have hsub : (eventsOf entityId events).Sublist events := List.filter_sublist
    have hnodup : ((history entityId).map VectorEvent.eventHash).Nodup :=
      ((hperm entityId).map _).nodup_iff.mpr (hwf.hash_nodup.sublist (hsub.map _))
    have hparents : ∀ e ∈ history entityId, e.parentHashes.Nodup :=
      fun e he => hwf.parents_nodup e (hsub.subset ((hperm entityId).mem_iff.mp he))
    rw [← (hordered entityId).orderEntityEvents hnodup hparents]
    exact (orderEntityEvents_perm (hperm entityId) hnodup hparents).symm
  have hfound : ∀ entityId, entityOrder events entityId = history entityId :=
    fun entityId => entityOrder_of_ok (horder entityId)
  have horders : ∀ entityId, orderEntityEvents (eventsOf entityId events) =
      .ok (entityOrder events entityId) := fun entityId => by rw [hfound, horder]
  exact ⟨horders, hfound, replayEvents_eq_ok_iff_accepted.mpr ⟨hwf, horders,
    fun entityId => hfound entityId ▸ haccepted entityId, core,
    coreStateFromEvents_perm (appliedEvents_perm hwf horders).symm hcore, rfl⟩⟩

/-- The stored events form a well-formed graph when every entity is recorded. -/
theorem wellFormedDag_of_histories (hreach : ReachableEngine env policy eng)
    {history : String → List VectorEvent}
    (hhistory : ∀ entityId, HistoryOf eng entityId (history entityId)) :
    WellFormedDag eng.store.listEvents := by
  have hgraph := hreach.eventGraph
  refine {
    hash_ne := ?_
    hash_nodup := hgraph.keyed.nodup_eventHash
    parents_nodup := fun e he => nodup_of_length_le_one (hgraph.one_parent e he)
    parents_admissible := ?_
    acyclic := hgraph.acyclic }
  · intro e he
    rw [(hgraph.checks e he).eventHash_eq]
    exact env.blake3Hex_ne_empty _
  · intro e he p hp
    obtain ⟨q, hq, hhash, hentity⟩ := hgraph.parent_stored e he p hp
    have hown := hhistory e.entityId
    exact ⟨q, hq, hhash, hown.recorded.regionId
      q ((mem_of_perm_eventsOf hown.perm).mpr ⟨hq, hentity⟩)
      e ((mem_of_perm_eventsOf hown.perm).mpr ⟨he, rfl⟩)⟩

variable (env)

/-- Replaying the stored events succeeds and ends, for every stored vector, in the state that
is stored. -/
def ReplayRefines (eng : KernelEngine) : Prop :=
  ∃ result, eng.replayCanonicalHistory env = .ok result ∧
    ∀ s ∈ eng.store.listStates, ∃ v, vectorV1ToEventState s = .ok v ∧
      result.finalState[s.vectorId]? = some v

variable {env}

/-- Where every entity has its history, replay applies these histories, and gives back the
stored states. -/
theorem replayRefines_of_histories (hreach : ReachableEngine env policy eng)
    {history : String → List VectorEvent}
    (hhistory : ∀ entityId, HistoryOf eng entityId (history entityId)) {core : CoreState}
    (hcore : coreStateFromEvents env eng.store.listEvents = .ok core) :
    (∀ entityId, entityOrder eng.store.loadEventsForReplay entityId = history entityId) ∧
      ReplayRefines env eng := by
  have hload := MemoryStore.loadEventsForReplay_perm eng.store
  have hwf := (wellFormedDag_of_histories hreach hhistory).perm hload.symm
  obtain ⟨horders, hfound, hreplay⟩ := replayEvents_of_histories hwf
    (fun entityId => (hhistory entityId).perm.trans (hload.filter _).symm)
    (fun entityId => (hhistory entityId).recorded.ordered)
    (fun entityId => (hhistory entityId).recorded.accepted)
    (coreStateFromEvents_perm hload.symm hcore)
  refine ⟨hfound, replayOutcome env (appliedEvents eng.store.loadEventsForReplay) core, ?_, ?_⟩
  · rw [KernelEngine.replayCanonicalHistory, hreplay]
    rfl
  · intro s hs
    obtain ⟨id, hlookup⟩ := BTreeMap.mem_values.mp hs
    obtain rfl := (hreach.wellKeyed.states id s hlookup).1
    have hvector := (hhistory s.vectorId).recorded
    rw [hlookup] at hvector
    cases hvector with
    | vector hvector =>
      obtain ⟨v, hlast, hv⟩ := hvector.last
      refine ⟨v, hv, ?_⟩
      rw [← hlast, ← hfound, ← eventsOf_appliedEvents hwf horders]
      exact lookup_stateAfter _ s.vectorId

end

end VKernelX
