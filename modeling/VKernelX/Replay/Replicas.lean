/-
  Replay/Replicas.lean --- two kernels that compare their replays.

  The events of a reachable kernel carry their own hashes, so its replay commitments pin its
  history down, signatures apart; and replay looks at no signature but in the registry.  So a
  snapshot of one kernel verifies on the other exactly if both hold one history.
-/
import VKernelX.Dag.Heads
import VKernelX.Engine.Integrity
import VKernelX.Replay.Cuts
import VKernelX.Replay.SnapshotRoots
import VKernelX.Replay.TamperEvidence

set_option autoImplicit false

namespace VKernelX

/-! ## Orders and signatures -/

theorem map_eventHash_unsigned (events : List VectorEvent) :
    (events.map VectorEvent.unsigned).map VectorEvent.eventHash =
      events.map VectorEvent.eventHash := by
  rw [List.map_map]
  rfl

theorem eventAt_unsigned (events : List VectorEvent) (hash : String) :
    eventAt (events.map VectorEvent.unsigned) hash = (eventAt events hash).unsigned := by
  rw [eventAt, eventAt, List.find?_map]
  cases h : events.find? (fun e => e.eventHash = hash) with
  | none =>
    rw [show List.find? ((fun e : VectorEvent => decide (e.eventHash = hash)) ∘
      VectorEvent.unsigned) events = none from h]
    rfl
  | some e =>
    rw [show List.find? ((fun e : VectorEvent => decide (e.eventHash = hash)) ∘
      VectorEvent.unsigned) events = some e from h]
    rfl

theorem ownParents_unsigned (events : List VectorEvent) :
    ownParents (events.map VectorEvent.unsigned) = ownParents events := by
  funext hash
  rw [ownParents, ownParents, parentsIn, parentsIn, List.find?_map, Option.map_map]
  have hown : ownParent (events.map VectorEvent.unsigned) = ownParent events := by
    funext e p
    rw [ownParent, ownParent, map_eventHash_unsigned]
  rw [hown]
  rfl

theorem eventsOf_unsigned (entityId : String) (events : List VectorEvent) :
    eventsOf entityId (events.map VectorEvent.unsigned) =
      (eventsOf entityId events).map VectorEvent.unsigned := by
  rw [eventsOf, eventsOf, List.filter_map]
  rfl

/-- The order of an entity's events does not depend on their signatures. -/
theorem orderEntityEvents_unsigned {events ordered : List VectorEvent}
    (hhashes : (events.map VectorEvent.eventHash).Nodup)
    (hparents : ∀ e ∈ events, e.parentHashes.Nodup)
    (hordered : orderEntityEvents events = .ok ordered) :
    orderEntityEvents (events.map VectorEvent.unsigned) =
      .ok (ordered.map VectorEvent.unsigned) := by
  by_cases hne : events = []
  · subst hne
    obtain rfl := Except.ok.inj hordered
    rfl
  obtain ⟨all, hall, hrun⟩ := orderEntityEvents_spec hne hhashes hparents
  rw [hordered] at hrun
  obtain ⟨_, hroot, hrun⟩ := Outcome.bind_eq_ok_iff.mp hrun.symm
  obtain ⟨_, hlength, hreturn⟩ := Outcome.bind_eq_ok_iff.mp hrun
  obtain rfl := Except.ok.inj hreturn
  have hroots : rootHashes (events.map VectorEvent.unsigned) = rootHashes events := by
    rw [rootHashes, rootHashes, map_eventHash_unsigned, ownParents_unsigned]
  have hprefers : ReplayPrefers (events.map VectorEvent.unsigned) = ReplayPrefers events := by
    funext a b
    rw [ReplayPrefers, ReplayPrefers, eventAt_unsigned, eventAt_unsigned]
    rfl
  have hall' : CausalList (ReplayPrefers (events.map VectorEvent.unsigned))
      ((events.map VectorEvent.unsigned).map VectorEvent.eventHash)
      (ownParents (events.map VectorEvent.unsigned)) all := by
    rw [hprefers, map_eventHash_unsigned, ownParents_unsigned]
    exact hall
  rw [orderEntityEvents_eq_ok (by simpa using hne) (by rwa [map_eventHash_unsigned]) ?_
    (by rw [hroots]; exact Outcome.require_eq_ok_iff.mp hroot)
    (by rw [List.length_map]; exact Outcome.require_eq_ok_iff.mp hlength) hall', List.map_map]
  · exact congrArg Except.ok (List.map_congr_left (fun hash _ => eventAt_unsigned events hash))
  · intro u hu
    obtain ⟨e, he, rfl⟩ := List.mem_map.mp hu
    exact hparents e he

/-! ## One history, replayed twice -/

section

variable {env : Platform} {events events' : List VectorEvent}

theorem SameHistory.entityOrder_eq (hsame : SameHistory events events')
    (hwf : WellFormedDag events) (hwf' : WellFormedDag events') {entityId : String}
    (hordered : orderEntityEvents (eventsOf entityId events) = .ok (entityOrder events entityId))
    (hordered' : orderEntityEvents (eventsOf entityId events') =
      .ok (entityOrder events' entityId)) :
    (entityOrder events entityId).map VectorEvent.unsigned =
      (entityOrder events' entityId).map VectorEvent.unsigned := by
  have hgroup : ∀ {l : List VectorEvent}, WellFormedDag l →
      ((eventsOf entityId l).map VectorEvent.eventHash).Nodup ∧
        ∀ e ∈ eventsOf entityId l, e.parentHashes.Nodup := fun hl =>
    ⟨hl.hash_nodup.sublist (List.filter_sublist.map _),
      fun e he => hl.parents_nodup e (List.mem_filter.mp he).1⟩
  have hrun := orderEntityEvents_unsigned (hgroup hwf).1 (hgroup hwf).2 hordered
  have hrun' := orderEntityEvents_unsigned (hgroup hwf').1 (hgroup hwf').2 hordered'
  have hperm : ((eventsOf entityId events).map VectorEvent.unsigned).Perm
      ((eventsOf entityId events').map VectorEvent.unsigned) := by
    rw [← eventsOf_unsigned, ← eventsOf_unsigned]
    exact hsame.filter _
  rw [orderEntityEvents_perm hperm (by rw [map_eventHash_unsigned]; exact (hgroup hwf).1) ?_,
    hrun'] at hrun
  · exact (Except.ok.inj hrun).symm
  · intro u hu
    obtain ⟨e, he, rfl⟩ := List.mem_map.mp hu
    exact (hgroup hwf).2 e he

/-- The events of one history are applied in one order, up to signatures. -/
theorem SameHistory.appliedEvents_eq (hsame : SameHistory events events')
    (hwf : WellFormedDag events) (hwf' : WellFormedDag events')
    (hordered : ∀ entityId, orderEntityEvents (eventsOf entityId events) =
      .ok (entityOrder events entityId))
    (hordered' : ∀ entityId, orderEntityEvents (eventsOf entityId events') =
      .ok (entityOrder events' entityId)) :
    (appliedEvents events).map VectorEvent.unsigned =
      (appliedEvents events').map VectorEvent.unsigned := by
  have hids : entityIds events = entityIds events' := by
    refine entityIds_eq (pairwise_entityIds events') (fun id => ?_)
    have hperm : ((eventsOf id events).map VectorEvent.unsigned).Perm
        ((eventsOf id events').map VectorEvent.unsigned) := by
      rw [← eventsOf_unsigned, ← eventsOf_unsigned]
      exact hsame.filter _
    have hlength := hperm.length_eq
    rw [List.length_map, List.length_map] at hlength
    rw [mem_entityIds, ← List.length_pos_iff, ← List.length_pos_iff, hlength]
  rw [appliedEvents, appliedEvents, List.map_flatMap, List.map_flatMap, hids]
  exact List.flatMap_congr (fun id _ =>
    hsame.entityOrder_eq hwf hwf' (hordered id) (hordered' id))

theorem stateAfter_unsigned (applied : List VectorEvent) :
    stateAfter (applied.map VectorEvent.unsigned) = stateAfter applied := by
  rw [stateAfter, List.foldl_map]
  rfl

theorem highestClock_unsigned (applied : List VectorEvent) :
    highestClock (applied.map VectorEvent.unsigned) = highestClock applied := by
  rw [highestClock, List.foldl_map]
  rfl

/-- What a replay returns, but for the registry. -/
structure SameReplay (r r' : ReplayResult) : Prop where
  finalState : r.finalState = r'.finalState
  stateRoot : r.stateRoot = r'.stateRoot
  replayHash : r.replayHash = r'.replayHash
  appliedEventHashes : r.appliedEventHashes = r'.appliedEventHashes

theorem sameReplay_of_unsigned {applied applied' : List VectorEvent} {core core' : CoreState}
    (h : applied.map VectorEvent.unsigned = applied'.map VectorEvent.unsigned) :
    SameReplay (replayOutcome env applied core) (replayOutcome env applied' core') := by
  have hhashes : applied.map VectorEvent.eventHash = applied'.map VectorEvent.eventHash := by
    rw [← map_eventHash_unsigned, h, map_eventHash_unsigned]
  have hstate : stateAfter applied = stateAfter applied' := by
    rw [← stateAfter_unsigned, h, stateAfter_unsigned]
  have hclock : highestClock applied = highestClock applied' := by
    rw [← highestClock_unsigned, h, highestClock_unsigned]
  refine ⟨hstate, ?_, ?_, hhashes⟩
  · simp only [replayOutcome, progressAfter, ReplayProgress.result, hhashes, hstate, hclock]
  · simp only [replayOutcome, progressAfter, ReplayProgress.result, hhashes]

theorem SameHistory.sameReplay {r r' : ReplayResult} (hsame : SameHistory events events')
    (h : replayEvents env events = .ok r) (h' : replayEvents env events' = .ok r') :
    SameReplay r r' := by
  obtain ⟨hwf, hordered, _, core, _, rfl⟩ := replayEvents_eq_ok_iff_accepted.mp h
  obtain ⟨hwf', hordered', _, core', _, rfl⟩ := replayEvents_eq_ok_iff_accepted.mp h'
  exact sameReplay_of_unsigned (hsame.appliedEvents_eq hwf hwf' hordered hordered')

/-- One history has one set of heads. -/
theorem SameHistory.computeHeads_eq (hsame : SameHistory events events')
    (hwf : WellFormedDag events) (hwf' : WellFormedDag events') :
    computeHeads events = computeHeads events' := by
  have hmem : ∀ {l l' : List VectorEvent}, SameHistory l l' → ∀ e ∈ l,
      ∃ e' ∈ l', e'.eventHash = e.eventHash ∧ e'.parentHashes = e.parentHashes := by
    intro l l' h e he
    obtain ⟨e', he', heq⟩ := List.mem_map.mp (h.mem_iff.mp (List.mem_map_of_mem he))
    have hparents : e'.unsigned.parentHashes = e.unsigned.parentHashes := by rw [heq]
    exact ⟨e', he', eventHash_of_unsigned_eq heq, hparents⟩
  have hheads : ∀ {l l' : List VectorEvent}, SameHistory l l' → ∀ hash,
      ((∃ e ∈ l, e.eventHash = hash) ∧ ∀ e ∈ l, hash ∉ e.parentHashes) →
        (∃ e ∈ l', e.eventHash = hash) ∧ ∀ e ∈ l', hash ∉ e.parentHashes := by
    rintro l l' h hash ⟨⟨e, he, rfl⟩, hnone⟩
    obtain ⟨e', he', hhash, _⟩ := hmem h e he
    refine ⟨⟨e', he', hhash⟩, fun child hchild hnamed => ?_⟩
    obtain ⟨twin, htwin, _, hparents⟩ := hmem h.symm child hchild
    exact hnone twin htwin (hparents ▸ hnamed)
  have hfront := hwf.completeFrontier
  have hfront' := hwf'.completeFrontier
  refine List.Perm.eq_of_pairwise (fun a b _ _ hab hba => absurd (hab.trans hba) (lt_irrefl a))
    hfront.increasing hfront'.increasing ?_
  refine (List.perm_ext_iff_of_nodup (hfront.increasing.imp (fun hlt => hlt.ne))
    (hfront'.increasing.imp (fun hlt => hlt.ne))).mpr (fun hash => ?_)
  rw [hfront.mem_iff, hfront'.mem_iff]
  exact ⟨hheads hsame hash, hheads hsame.symm hash⟩

end

/-! ## Short histories -/

instance decidableShortMap (m : BTreeMap String String) : Decidable (ShortMap m) :=
  decidable_of_iff (m.size < 2 ^ 64 ∧ ∀ entry ∈ m.toList, ShortStr entry.1 ∧ ShortStr entry.2)
    ⟨fun h => ⟨h.1, h.2⟩, fun h => ⟨h.size, h.entries⟩⟩

instance decidableShortStrs (l : List String) : Decidable (ShortStrs l) :=
  decidable_of_iff (l.length < 2 ^ 64 ∧ ∀ s ∈ l, ShortStr s)
    ⟨fun h => ⟨h.1, h.2⟩, fun h => ⟨h.length, h.entries⟩⟩

instance decidableShortOperation : ∀ operation : OperationType, Decidable operation.Short
  | .other name => inferInstanceAs (Decidable (ShortStr name))
  | .originCreate | .certify | .transfer | .drain | .project | .reconstruct | .move | .rotate
  | .scale | .normalize | .constrain | .query | .record => inferInstanceAs (Decidable True)

instance decidableShortState (s : VectorState) : Decidable s.Short :=
  decidable_of_iff (s.components.length < 2 ^ 64 ∧ ShortStr s.ownerPublicKey ∧
      ShortStr s.typeTag ∧ ShortMap s.metadata)
    ⟨fun h => ⟨h.1, h.2.1, h.2.2.1, h.2.2.2⟩,
      fun h => ⟨h.components, h.ownerPublicKey, h.typeTag, h.metadata⟩⟩

instance decidableShortEvent (e : VectorEvent) : Decidable e.Short :=
  decidable_of_iff ((ShortStr e.eventId ∧ ShortStrs e.parentHashes ∧ ShortStr e.regionId ∧
      ShortStr e.entityId) ∧ (e.operation.Short ∧ e.vectorBefore.Short ∧ e.vectorAfter.Short) ∧
      ShortStr e.actorPublicKey ∧ ShortStr e.payloadHash)
    ⟨fun h => ⟨h.1.1, h.1.2.1, h.1.2.2.1, h.1.2.2.2, h.2.1.1, h.2.1.2.1, h.2.1.2.2, h.2.2.1,
        h.2.2.2⟩,
      fun h => ⟨⟨h.eventId, h.parentHashes, h.regionId, h.entityId⟩,
        ⟨h.operation, h.vectorBefore, h.vectorAfter⟩, h.actorPublicKey, h.payloadHash⟩⟩

instance decidableShortHistory (events : List VectorEvent) : Decidable (ShortHistory events) :=
  decidable_of_iff (events.length < 2 ^ 64 ∧ (∀ e ∈ events, e.Short) ∧
      ∀ e ∈ events, ShortStr e.eventHash)
    ⟨fun h => ⟨h.1, h.2.1, h.2.2⟩, fun h => ⟨h.length, h.short, h.eventHash⟩⟩

theorem ShortHistory.perm {events events' : List VectorEvent} (h : ShortHistory events)
    (hperm : events.Perm events') : ShortHistory events' where
  length := hperm.length_eq ▸ h.length
  short := fun e he => h.short e (hperm.mem_iff.mpr he)
  eventHash := fun e he => h.eventHash e (hperm.mem_iff.mpr he)

/-- The final state holds what events carry, for no more entities than there are events. -/
theorem ShortHistory.finalState {env : Platform} {events : List VectorEvent} {r : ReplayResult}
    (h : ShortHistory events) (hr : replayEvents env events = .ok r) :
    ShortStateMap r.finalState := by
  obtain ⟨hwf, hordered, _, core, _, rfl⟩ := replayEvents_eq_ok_iff_accepted.mp hr
  have hfrom : ∀ (id : String) (s : VectorState),
      (stateAfter (appliedEvents events))[id]? = some s →
        ∃ e ∈ events, e.entityId = id ∧ e.vectorAfter = s := by
    intro id s hs
    rw [lookup_stateAfter, Option.map_eq_some_iff] at hs
    obtain ⟨e, he, rfl⟩ := hs
    obtain ⟨hmem, hid⟩ := List.mem_filter.mp (List.mem_of_getLast? he)
    exact ⟨e, (appliedEvents_perm hwf hordered).mem_iff.mp hmem, of_decide_eq_true hid, rfl⟩
  constructor
  · have hnodup : ((stateAfter (appliedEvents events)).toList.map Prod.fst).Nodup := by
      rw [List.nodup_iff_pairwise_ne, List.pairwise_map]
      exact Std.ExtTreeMap.ordered_keys_toList.imp (fun hlt => (compare_lt_iff_lt.mp hlt).ne)
    have hsubset : (stateAfter (appliedEvents events)).toList.map Prod.fst ⊆
        events.map VectorEvent.entityId := by
      intro id hid
      obtain ⟨entry, hentry, rfl⟩ := List.mem_map.mp hid
      obtain ⟨e, he, hid, _⟩ := hfrom _ _ (BTreeMap.mem_toList.mp hentry)
      exact List.mem_map.mpr ⟨e, he, hid⟩
    have hle := (hnodup.subperm hsubset).length_le
    rw [List.length_map, List.length_map, Std.ExtTreeMap.length_toList] at hle
    exact lt_of_le_of_lt hle h.length
  · intro entry hentry
    obtain ⟨e, he, hid, hstate⟩ := hfrom _ _ (BTreeMap.mem_toList.mp hentry)
    exact ⟨hid ▸ (h.short e he).entityId, hstate ▸ (h.short e he).vectorAfter⟩

/-! ## Two kernels -/

theorem map_unsigned_eventAt {events : List VectorEvent}
    (hnodup : (events.map VectorEvent.eventHash).Nodup) :
    events.map VectorEvent.unsigned = (events.map VectorEvent.eventHash).map
      (fun hash => (eventAt events hash).unsigned) := by
  rw [List.map_map]
  exact List.map_congr_left (fun e he => by rw [Function.comp, eventAt_eventHash hnodup he])

/-- Events that carry their own hashes are told apart by them, signatures aside. -/
theorem sameHistory_of_eventHashes {env : Platform} (hfree : env.CollisionFree)
    {events events' : List VectorEvent} (hs : ShortHistory events) (hs' : ShortHistory events')
    (hchecks : ∀ e ∈ events, EventChecks env e) (hchecks' : ∀ e ∈ events', EventChecks env e)
    (hnodup : (events.map VectorEvent.eventHash).Nodup)
    (hnodup' : (events'.map VectorEvent.eventHash).Nodup)
    (hperm : (events.map VectorEvent.eventHash).Perm (events'.map VectorEvent.eventHash)) :
    SameHistory events events' := by
  have hunsigned : ∀ hash ∈ events.map VectorEvent.eventHash,
      (eventAt events hash).unsigned = (eventAt events' hash).unsigned := by
    intro hash hhash
    obtain ⟨e, he, rfl⟩ := List.mem_map.mp hhash
    obtain ⟨e', he', heq⟩ := List.mem_map.mp (hperm.mem_iff.mp hhash)
    have hcanonical : canonicalEventHash env e = canonicalEventHash env e' := by
      rw [← (hchecks e he).eventHash_eq, ← (hchecks' e' he').eventHash_eq, heq]
    obtain ⟨hpayload, hpayloadHash⟩ :=
      payload_of_eventBytes (hs.short e he) (hs'.short e' he') (hfree hcanonical)
    have hown : eventAt events' e.eventHash = e' := by
      rw [← heq, eventAt_eventHash hnodup' he']
    rw [eventAt_eventHash hnodup he, hown]
    exact unsigned_eq_of_payload hpayload hpayloadHash heq.symm
  rw [SameHistory, map_unsigned_eventAt hnodup, map_unsigned_eventAt hnodup',
    List.map_congr_left hunsigned]
  exact hperm.map _

section

variable {env : Platform} {policy policy' : ConsensusPolicy} {a b : KernelEngine}
  {r r' : ReplayResult}

theorem replayCanonicalHistory_eq_ok {eng : KernelEngine}
    (hr : eng.replayCanonicalHistory env = .ok r) :
    replayEvents env eng.store.loadEventsForReplay = .ok r :=
  Outcome.mapErr_eq_ok_iff.mp hr

/-- Two reachable kernels with one replay hash hold one history. -/
theorem sameHistory_of_replayHash (hfree : env.CollisionFree)
    (ha : ReachableEngine env policy a) (hb : ReachableEngine env policy' b)
    (hs : ShortHistory a.store.listEvents) (hs' : ShortHistory b.store.listEvents)
    (hr : a.replayCanonicalHistory env = .ok r) (hr' : b.replayCanonicalHistory env = .ok r')
    (hhash : r.replayHash = r'.replayHash) :
    SameHistory a.store.listEvents b.store.listEvents := by
  have hload := (MemoryStore.loadEventsForReplay_perm a.store).symm
  have hload' := (MemoryStore.loadEventsForReplay_perm b.store).symm
  have hperm := eventHashes_perm_of_replayHash hfree (replayCanonicalHistory_eq_ok hr)
    (replayCanonicalHistory_eq_ok hr') (hs.perm hload) (hs'.perm hload') hhash
  exact sameHistory_of_eventHashes hfree hs hs' ha.eventGraph.checks hb.eventGraph.checks
    ha.eventGraph.keyed.nodup_eventHash hb.eventGraph.keyed.nodup_eventHash
    ((hload.map _).trans (hperm.trans (hload'.symm.map _)))

/-- A snapshot of one reachable kernel verifies on another, and its replay is confirmed by the
other's events, exactly if both hold one history; and then they have the same heads. -/
theorem replicas_sameHistory_iff (hfree : env.CollisionFree)
    (ha : ReachableEngine env policy a) (hb : ReachableEngine env policy' b)
    (hs : ShortHistory a.store.listEvents) (hs' : ShortHistory b.store.listEvents)
    (hr : a.replayCanonicalHistory env = .ok r) (hr' : b.replayCanonicalHistory env = .ok r')
    (dagHeads : List String) (createdAt : UInt64) :
    (verifySnapshot env (createSnapshot env r dagHeads createdAt) r'.finalState
        r'.replayHash = .ok true ↔ SameHistory a.store.listEvents b.store.listEvents) ∧
      (verifyReplay env b.store.loadEventsForReplay r.stateRoot r.replayHash = .ok true ↔
        SameHistory a.store.listEvents b.store.listEvents) ∧
      (SameHistory a.store.listEvents b.store.listEvents →
        computeHeads a.queryEvents = computeHeads b.queryEvents) := by
  have hload := MemoryStore.loadEventsForReplay_perm a.store
  have hload' := MemoryStore.loadEventsForReplay_perm b.store
  have hreplay := replayCanonicalHistory_eq_ok hr
  have hreplay' := replayCanonicalHistory_eq_ok hr'
  have hhistory := sameHistory_of_replayHash hfree ha hb hs hs' hr hr'
  have hloaded : SameHistory a.store.listEvents b.store.listEvents →
      SameHistory a.store.loadEventsForReplay b.store.loadEventsForReplay := fun hsame =>
    (hload.map _).trans (hsame.trans (hload'.symm.map _))
  refine ⟨?_, ?_, fun hsame => ?_⟩
  · rw [verifySnapshot_createSnapshot_iff env ((hs.perm hload.symm).finalState hreplay)
      ((hs'.perm hload'.symm).finalState hreplay')]
    constructor
    · rintro ⟨_, hhash⟩
      exact hhistory hhash.symm
    · intro hsame
      have hreplayed := (hloaded hsame).sameReplay hreplay hreplay'
      exact ⟨hreplayed.finalState.symm, hreplayed.replayHash.symm⟩
  · rw [verifyReplay_eq_ok_true_iff]
    constructor
    · rintro ⟨result, hresult, _, hhash⟩
      obtain rfl := Except.ok.inj (hreplay'.symm.trans hresult)
      exact hhistory hhash.symm
    · intro hsame
      have hreplayed := (hloaded hsame).sameReplay hreplay hreplay'
      exact ⟨r', hreplay', hreplayed.stateRoot.symm, hreplayed.replayHash.symm⟩
  · have hwf : ∀ {eng : KernelEngine} {result : ReplayResult},
        replayEvents env eng.store.loadEventsForReplay = .ok result →
          WellFormedDag eng.queryEvents := fun {eng _} h =>
      (replayEvents_eq_ok_iff.mp h).1.perm (sortEvents_perm eng.store.loadEventsForReplay).symm
    have hquery := (queryEvents_perm a).map VectorEvent.unsigned
    have hquery' := (queryEvents_perm b).map VectorEvent.unsigned
    exact SameHistory.computeHeads_eq (hquery.trans (hsame.trans hquery'.symm))
      (hwf hreplay) (hwf hreplay')

end

/-! ## A kernel that is behind -/

/-- A kernel after some of the calls of a projection. -/
def escrowReplica (calls : List TimedCall) : KernelEngine :=
  engineAfter (platformFor escrowedVector) calls

theorem escrowReplica_short :
    ShortHistory (escrowReplica oneVector).store.listEvents ∧
      ShortHistory (escrowReplica escrowedVector).store.listEvents := by
  decide +kernel

theorem replicas_sameHistory_iff_escrowed :
    ∃ r r', (escrowReplica oneVector).replayCanonicalHistory (platformFor escrowedVector) = .ok r ∧
      (escrowReplica escrowedVector).replayCanonicalHistory (platformFor escrowedVector) = .ok r' ∧
      (verifySnapshot (platformFor escrowedVector)
          (createSnapshot (platformFor escrowedVector) r [] 1) r'.finalState r'.replayHash =
            .ok true ↔
        SameHistory (escrowReplica oneVector).store.listEvents
          (escrowReplica escrowedVector).store.listEvents) := by
  have hok : ((escrowReplica oneVector).replayCanonicalHistory
      (platformFor escrowedVector)).IsOk := by decide +kernel
  have hok' : ((escrowReplica escrowedVector).replayCanonicalHistory
      (platformFor escrowedVector)).IsOk := by decide +kernel
  obtain ⟨r, hr⟩ := hok
  obtain ⟨r', hr'⟩ := hok'
  have hfree : (platformFor escrowedVector).CollisionFree :=
    platformFor_collisionFree escrowedVector (by decide +kernel)
  exact ⟨r, r', hr, hr', (replicas_sameHistory_iff hfree (engineAfter_reachable _ oneVector)
    (engineAfter_reachable _ escrowedVector) escrowReplica_short.1 escrowReplica_short.2 hr hr'
    [] 1).1⟩

end VKernelX
