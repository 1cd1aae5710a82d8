/-
  Engine/Acceptance.lean --- in an engine of created vectors, an operation whose checks pass is
  carried out to its end.

  A vector is a created one if its creation returned `Ok`.  Its names are visible, its amounts
  fit an event, and its versions are counted by its events; the operations keep all that as
  long as the new amounts fit.
-/
import VKernelX.Engine.Admission
import VKernelX.Engine.Debits
import VKernelX.Model.Magnitude

set_option autoImplicit false

namespace VKernelX

variable {env : Platform}

/-! ## Certifications -/

theorem amountSum_lt_of_fitsEvent {s : VectorStateV1} (hfits : s.FitsEvent)
    (hlength : s.components.length < 2 ^ 64) : amountSum s.components < 2 ^ 128 := by
  have hle : amountSum s.components ≤ s.components.length * u64Max := by
    have := List.sum_le_card_nsmul (s.components.map BitVec.toNat) u64Max
      (by simpa [VectorStateV1.FitsEvent] using hfits)
    simpa [amountSum] using this
  have hmul : s.components.length * u64Max ≤ (2 ^ 64 - 1) * (2 ^ 64 - 1) :=
    Nat.mul_le_mul (by omega) (Nat.le_refl _)
  omega

/-- A magnitude that fits is certified. -/
theorem certifyState_of_lt (env : Platform) {s : VectorStateV1}
    (h : amountSum s.components < 2 ^ 128) (nowMs : UInt64) :
    ∃ certification, certifyState env s true true nowMs = .ok certification := by
  obtain ⟨m, hmagnitude, _⟩ := magnitude_of_lt env.overflowChecks h
  exact ⟨_, by rw [certifyState, computeAuthRatio, hmagnitude, Outcome.ok_bind]; rfl⟩

/-- A verified vector scores 700 or 1000. -/
theorem certifyState_ratio {s : VectorStateV1} {nowMs : UInt64}
    {certification : CertificationState}
    (h : certifyState env s true true nowMs = .ok certification) (hne : s.components ≠ []) :
    certification.authRatio = 700 ∨ certification.authRatio = 1000 := by
  simp only [certifyState, computeAuthRatio, Outcome.bind_eq_ok_iff] at h
  obtain ⟨ratio, ⟨magnitude, _, hratio⟩, hcertification⟩ := h
  obtain rfl := Except.ok.inj hratio
  obtain rfl := Except.ok.inj hcertification
  rw [if_neg hne]
  by_cases hzero : magnitude = 0
  · rw [if_pos hzero]
    exact Or.inl (by decide : UInt16.ofNat (min (100 + 200 + 300 + 100) 1000) = 700)
  · rw [if_neg hzero]
    exact Or.inr (by decide : UInt16.ofNat (min (400 + 200 + 300 + 100) 1000) = 1000)

theorem update_next_ratio {now : ℕ → UInt64} {c : Call} {u : Update}
    (hupdate : c.update? env now = some u) {s after : VectorStateV1} (h : u.next s = .ok after)
    (hne : after.components ≠ []) :
    after.certification.authRatio = 700 ∨ after.certification.authRatio = 1000 := by
  cases c with
  | certify vectorId =>
    obtain rfl := Option.some.inj hupdate
    simp only [certifyNext, Outcome.bind_eq_ok_iff] at h
    obtain ⟨_, hcertification, _, _, hafter⟩ := h
    obtain rfl := Except.ok.inj hafter
    exact certifyState_ratio hcertification hne
  | drain vectorId basisPoints =>
    obtain rfl := Option.some.inj hupdate
    simp only [drainNext, Outcome.bind_eq_ok_iff] at h
    obtain ⟨⟨_, _⟩, _, _, hcertification, _, _, hafter⟩ := h
    obtain rfl := Except.ok.inj hafter
    exact certifyState_ratio hcertification hne
  | project vectorId projected escrowId =>
    obtain rfl := Option.some.inj hupdate
    simp only [projectNext, Outcome.bind_eq_ok_iff] at h
    obtain ⟨_, _, _, hcertification, hafter⟩ := h
    obtain rfl := Except.ok.inj hafter
    exact certifyState_ratio hcertification hne
  | reconstruct vectorId outcome =>
    obtain rfl := Option.some.inj hupdate
    simp only [reconstructNext, Outcome.bind_eq_ok_iff] at h
    obtain ⟨_, _, _, hcertification, hafter⟩ := h
    obtain rfl := Except.ok.inj hafter
    exact certifyState_ratio hcertification hne
  | originCreate _ => cases hupdate
  | transfer _ _ _ => cases hupdate
  | createRegion _ _ => cases hupdate

theorem transferNext_ratio {now : ℕ → UInt64} {amount : List U128}
    {sender receiver afterFrom afterTo : VectorStateV1}
    (h : transferNext env now amount sender receiver = .ok (afterFrom, afterTo)) :
    (afterFrom.certification.authRatio = 700 ∨ afterFrom.certification.authRatio = 1000) ∧
      (afterTo.certification.authRatio = 700 ∨ afterTo.certification.authRatio = 1000) := by
  obtain ⟨hfrom, hto⟩ := transferNext_canonical h
  simp only [transferNext, Outcome.bind_eq_ok_iff] at h
  obtain ⟨⟨_, _⟩, _, _, hsenderCert, _, hreceiverCert, _, _, _, _, hafter⟩ := h
  obtain ⟨rfl, rfl⟩ := Prod.mk.inj (Except.ok.inj hafter)
  exact ⟨certifyState_ratio hsenderCert hfrom.components,
    certifyState_ratio hreceiverCert hto.components⟩

theorem originState_ratio {now : ℕ → UInt64} {request : OriginRequest} {s : VectorStateV1}
    (h : originState env now request = .ok s) :
    s.certification.authRatio = 700 ∨ s.certification.authRatio = 1000 := by
  have hcanonical := originState_canonical h
  simp only [originState, Outcome.bind_eq_ok_iff] at h
  obtain ⟨_, _, _, _, _, hcertification, _, _, hs⟩ := h
  obtain rfl := Except.ok.inj hs
  exact certifyState_ratio hcertification hcanonical.components

/-! ## Created vectors -/

/-- A stored state of a vector whose creation returned `Ok`. -/
structure CreatedState (eng : KernelEngine) (s : VectorStateV1) : Prop where
  vectorId : isBlank s.vectorId = false
  spaceId : isBlank s.spaceId = false
  ownerPubkey : isBlank s.ownerPubkey = false
  names : ShortNames s.vectorId s.spaceId
  dimensions : s.components.length < 2 ^ 64
  fits : s.FitsEvent
  authRatio : s.certification.authRatio = 700 ∨ s.certification.authRatio = 1000
  created : 0 < eng.eventCount s.vectorId s.spaceId
  version : s.version.toNat ≤ eng.eventCount s.vectorId s.spaceId

/-- An engine all of whose vectors and events come from creations that returned `Ok`. -/
structure CreatedVectors (env : Platform) (policy : ConsensusPolicy) (eng : KernelEngine) :
    Prop where
  reachable : ReachableEngine env policy eng
  events : CountedEvents env eng
  states : ∀ (id : String) (s : VectorStateV1), eng.store.states[id]? = some s →
    CreatedState eng s

/-- A state stays a created one while its vector gets more events. -/
theorem CreatedState.mono {eng eng' : KernelEngine} {s : VectorStateV1} (h : CreatedState eng s)
    (hcount : eng.eventCount s.vectorId s.spaceId ≤ eng'.eventCount s.vectorId s.spaceId) :
    CreatedState eng' s :=
  { h with
    created := Nat.lt_of_lt_of_le h.created hcount
    version := h.version.trans hcount }

theorem createdVectors_initial (env : Platform) (policy : ConsensusPolicy) :
    CreatedVectors env policy (KernelEngine.initial policy) := by
  refine ⟨⟨[], rfl⟩, ⟨?_, ?_, ?_, ?_, ?_, ?_⟩, ?_⟩ <;> intro x <;>
    simp [KernelEngine.initial, MemoryStore.empty, MemoryStore.listEvents]

/-- The count of events does not depend on the states. -/
theorem eventCount_congr {eng eng' : KernelEngine} (h : eng.store.events = eng'.store.events)
    (entityId regionId : String) :
    eng.eventCount entityId regionId = eng'.eventCount entityId regionId := by
  rw [KernelEngine.eventCount, KernelEngine.eventCount, MemoryStore.listEvents,
    MemoryStore.listEvents, h]

/-- The amounts of a state that was put into an event fit it. -/
theorem fitsEvent_of_eventState {s : VectorStateV1} {v : VectorState}
    (h : vectorV1ToEventState s = .ok v) : s.FitsEvent := by
  intro c hc
  obtain ⟨i, hi, rfl⟩ := List.mem_iff_getElem.mp hc
  have := component_le_of_event h i
  rwa [VectorStateV1.component, amountAt, List.getD_eq_getElem _ _ hi] at this

/-- A valid event shows whom it is about. -/
theorem visible_of_validateEvent {e : VectorEvent} {u : Unit} (h : validateEvent env e = .ok u) :
    isBlank e.regionId = false ∧ isBlank e.entityId = false ∧
      isBlank e.actorPublicKey = false := by
  simp only [validateEvent, Outcome.bind_eq_ok_iff, Outcome.require_eq_ok_iff] at h
  obtain ⟨_, _, _, hspace, _, hvector, _, howner, _⟩ := h
  exact ⟨hspace, hvector, howner⟩

/-- The event of a creation joins the counted ones, as number one or a later one. -/
theorem CountedEvents.origin {eng : KernelEngine} (h : CountedEvents env eng) {s : VectorStateV1}
    {e : VectorEvent} (hevent : originEvent env eng s = .ok e) (hversion : s.version = 1)
    (hnames : ShortNames s.vectorId s.spaceId) : CountedEvents env (eng.addEvent e) := by
  obtain ⟨hbuild, hadmissible⟩ := transitionEvent_eq_ok_iff.mp hevent
  obtain ⟨hfields, _⟩ := buildTransitionEvent_fields hbuild
  obtain ⟨_, hvalid⟩ := hadmissible.valid
  obtain ⟨sequence, hsequence, hid⟩ := hfields.sequence_eq
  have hroom : eng.eventCount s.vectorId s.spaceId + 1 < 2 ^ 64 := by
    by_contra hfull
    rw [KernelEngine.nextEventSequenceForEntity, eng.store.loadEventsForReplay_perm.countP_eq]
      at hsequence
    exact absurd (hsequence.symm.trans (if_neg hfull)) (by simp [Outcome.fail])
  obtain rfl := Except.ok.inj ((nextEventSequence_eq hroom).symm.trans hsequence)
  refine h.addEvent hadmissible.appendable.hash_fresh
    (eventChecks_of_validateEvent hvalid).eventHash_eq ?_ hadmissible.appendable.id_fresh ?_ ?_
    (Or.inr ⟨hfields.operation_eq, hfields.logicalClock_eq.trans hversion⟩)
  · rw [hid]
    exact hnames.shortStr _ _ _
  · rwa [hfields.entityId_eq, hfields.regionId_eq]
  · rw [hfields.entityId_eq, hfields.regionId_eq, hfields.operation_eq, hfields.logicalClock_eq]
    exact hid

/-- A creation that returns `Ok` leaves an engine of created vectors. -/
theorem CreatedVectors.origin {policy : ConsensusPolicy} {eng : KernelEngine}
    (h : CreatedVectors env policy eng) {now : ℕ → UInt64} {request : OriginRequest}
    (hok : (eng.call env now (.originCreate request)).1.IsOk)
    (hnames : ShortNames request.vectorId request.spaceId)
    (hdimensions : request.components.length < 2 ^ 64) :
    CreatedVectors env policy (eng.call env now (.originCreate request)).2 := by
  obtain ⟨s, e, hplan, hevent, hcall⟩ := origin_of_ok hok
  have hcreated := originState_ok hplan
  rw [← hcreated.vectorId, ← hcreated.spaceId] at hnames
  rw [← hcreated.components] at hdimensions
  obtain ⟨hbuild, hadmissible⟩ := transitionEvent_eq_ok_iff.mp hevent
  obtain ⟨hfields, _⟩ := buildTransitionEvent_fields hbuild
  obtain ⟨_, hvalid⟩ := hadmissible.valid
  obtain ⟨hspace, hvector, howner⟩ := visible_of_validateEvent hvalid
  rw [hfields.regionId_eq] at hspace
  rw [hfields.entityId_eq] at hvector
  rw [(transitionEvent_actor hevent).2] at howner
  have hreach : ReachableEngine env policy (eng.call env now (.originCreate request)).2 :=
    h.reachable.tail _ _ ⟨.originCreate request, now⟩
  rw [hcall] at hreach ⊢
  have hevents : (eng.addEvent e).store.events = (((eng.withState s).withRecord
      (originRecord env request.difficulty now s)).addEvent e).store.events := by simp
  have hcount : ∀ entityId regionId, (((eng.withState s).withRecord
      (originRecord env request.difficulty now s)).addEvent e).eventCount entityId regionId =
        eng.eventCount entityId regionId +
          if s.vectorId = entityId ∧ s.spaceId = regionId then 1 else 0 := by
    intro entityId regionId
    rw [← eventCount_congr hevents, eventCount_addEvent hadmissible.appendable.hash_fresh,
      hfields.entityId_eq, hfields.regionId_eq]
  refine ⟨hreach, (h.events.origin hevent hcreated.version hnames).congr hevents, ?_⟩
  simp only [KernelEngine.states_addEvent, KernelEngine.states_withRecord,
    KernelEngine.states_withState]
  refine forall_lookup_insert (fun id s' hs' => (h.states id s' hs').mono ?_) ?_
  · rw [hcount]
    exact Nat.le_add_right _ _
  · refine ⟨hvector, hspace, howner, hnames, hdimensions,
      fitsEvent_of_eventState hfields.vectorAfter_eq, originState_ratio hplan, ?_, ?_⟩
    · rw [hcount, if_pos ⟨rfl, rfl⟩]
      exact Nat.succ_pos _
    · rw [hcount, if_pos ⟨rfl, rfl⟩, hcreated.version]
      exact Nat.le_add_left _ _

/-! ## Calls -/

section

variable {policy : ConsensusPolicy} {eng : KernelEngine} {now : ℕ → UInt64} {c : Call} {w : Work}

/-- A transition of a created vector whose new amounts fit is ready. -/
theorem CreatedState.transition {s : VectorStateV1} (h : CreatedState eng s) {t : Transition}
    (hbefore : t.before = some s) (hsame : SameIdentity s t.after) (hfits : t.after.FitsEvent)
    (hoperation : t.operation ≠ .originCreate ∧ ∀ name, t.operation ≠ .other name)
    (hratio : t.after.certification.authRatio = 700 ∨ t.after.certification.authRatio = 1000) :
    t.Ready eng where
  before := ⟨s, hbefore, h.fits, hsame.length_eq.symm⟩
  after := hfits
  operation := hoperation
  vectorId := by rw [hsame.vectorId]; exact h.vectorId
  spaceId := by rw [hsame.spaceId]; exact h.spaceId
  ownerPubkey := by rw [hsame.ownerPubkey]; exact h.ownerPubkey
  names := by rw [hsame.vectorId, hsame.spaceId]; exact h.names
  authRatio := hratio
  created := by rw [hsame.vectorId, hsame.spaceId]; exact h.created

/-- A ready transition of a stored vector, by one version at most. -/
structure Transition.OfStored (eng : KernelEngine) (t : Transition) : Prop where
  ready : t.Ready eng
  stored : ∃ (id : String) (s : VectorStateV1), eng.store.states[id]? = some s ∧
    SameIdentity s t.after ∧
    t.after.version.toNat ≤ s.version.toNat + 1

theorem toNat_le_of_u64Succ {n m : UInt64}
    (h : u64Succ (ε := KernelXError) env.overflowChecks n = .ok m) : m.toNat ≤ n.toNat + 1 := by
  unfold u64Succ at h
  split at h
  · rename_i hlt
    obtain rfl := Except.ok.inj h
    exact (toNat_succ hlt).le
  · split at h
    · cases h
    · obtain rfl := Except.ok.inj h
      exact Nat.zero_le _

/-- The transitions of an operation are of stored vectors. -/
theorem Works.ofStored (h : CreatedVectors env policy eng) (hc : c.IsMutation)
    (hworks : Works env eng now c w) (hfits : ∀ s ∈ w.states, s.FitsEvent) :
    w.states = w.transitions.map Transition.after ∧ ∀ t ∈ w.transitions, t.OfStored eng := by
  cases hworks with
  | @update _ u before after r hupdate hplan hrecord =>
    obtain ⟨hbefore, hnext, hcanonical⟩ := Update.plan_eq_ok_iff.mp hplan
    have hsound := h.reachable.soundStates _ _ hbefore
    have hsame := update_next_identity hupdate hnext hsound hcanonical
    refine ⟨rfl, List.forall_mem_singleton.mpr ⟨?_, u.vectorId, before, hbefore, hsame, ?_⟩⟩
    · exact (h.states _ _ hbefore).transition rfl hsame (hfits after List.mem_cons_self)
        (operation_of_update hupdate) (update_next_ratio hupdate hnext hcanonical.components)
    · exact toNat_le_of_u64Succ (update_next_ok hupdate hnext hsound hcanonical).1.version
  | origin _ => cases hc
  | @transfer fromId toId amount plan sr rr hplan hrecords =>
    obtain ⟨hsender, hreceiver, hnext⟩ := transferPlan_eq_ok_iff.mp hplan
    obtain ⟨hfrom, hto⟩ := transferNext_identity hnext
    obtain ⟨hratioFrom, hratioTo⟩ := transferNext_ratio hnext
    have htransfers := transferNext_ok hnext
    have hoperation : OperationType.transfer ≠ .originCreate ∧
        ∀ name, OperationType.transfer ≠ .other name := ⟨nofun, fun _ => nofun⟩
    obtain ⟨hfitsFrom, hrest⟩ := List.forall_mem_cons.mp hfits
    have hfitsTo := List.forall_mem_singleton.mp hrest
    refine ⟨rfl, List.forall_mem_cons.mpr ⟨⟨?_, fromId, plan.sender, hsender, hfrom, ?_⟩,
      List.forall_mem_singleton.mpr ⟨?_, toId, plan.receiver, hreceiver, hto, ?_⟩⟩⟩
    · exact (h.states _ _ hsender).transition rfl hfrom hfitsFrom hoperation hratioFrom
    · rw [htransfers.version_from]
      exact Nat.le_succ _
    · exact (h.states _ _ hreceiver).transition rfl hto hfitsTo hoperation hratioTo
    · rw [htransfers.version_to]
      exact Nat.le_succ _

/-- What holds of every stored state and of every inserted one holds afterwards. -/
theorem forall_lookup_insertMany {P : VectorStateV1 → Prop} {m : BTreeMap String VectorStateV1}
    (h : ∀ (id : String) (s : VectorStateV1), m[id]? = some s → P s)
    {states : List VectorStateV1} (hstates : ∀ s ∈ states, P s) :
    ∀ (id : String) (s : VectorStateV1), (BTreeMap.insertMany m
      (states.map (fun s => (s.vectorId, s))))[id]? = some s → P s := by
  induction states generalizing m with
  | nil => exact h
  | cons s states ih =>
    obtain ⟨hs, hrest⟩ := List.forall_mem_cons.mp hstates
    rw [List.map_cons, BTreeMap.insertMany_cons]
    exact ih (forall_lookup_insert h hs) hrest

/-- An operation on created vectors whose checks pass and whose new amounts fit is carried out
to its end. -/
theorem call_accepted (hfree : env.CollisionFree) (h : CreatedVectors env policy eng)
    (hc : c.IsMutation) (hworks : Works env eng now c w) (hfits : ∀ s ∈ w.states, s.FitsEvent)
    (hroom : eng.store.listEvents.length + w.transitions.length < 2 ^ 64) :
    ∃ es, eng.call env now c = (.ok w.reply, w.finish eng es) ∧
      CreatedVectors env policy (w.finish eng es) := by
  obtain ⟨hstates, hstored⟩ := hworks.ofStored h hc hfits
  obtain ⟨es, happends, hcounted, hcounts⟩ :=
    exists_appends hfree h.events (fun t ht => (hstored t ht).ready) hroom
  have hcall := call_of_works hworks happends
  have hevents := Work.events_finish w eng es
  have hreach : ReachableEngine env policy (eng.call env now c).2 :=
    h.reachable.tail _ _ ⟨c, now⟩
  rw [hcall] at hreach
  refine ⟨es, hcall, hreach, hcounted.congr hevents.symm, ?_⟩
  rw [Work.states_finish]
  refine forall_lookup_insertMany (fun id s hs => (h.states id s hs).mono ?_) ?_
  · rw [eventCount_congr hevents, hcounts]
    exact Nat.le_add_right _ _
  · intro s hs
    rw [hstates] at hs
    obtain ⟨t, ht, rfl⟩ := List.mem_map.mp hs
    obtain ⟨hready, id, before, hbefore, hsame, hversion⟩ := hstored t ht
    have hold := h.states id before hbefore
    -- The transition itself is among the counted ones.
    have hone : 0 < w.transitions.countP (fun t' => t'.after.vectorId = t.after.vectorId ∧
        t'.after.spaceId = t.after.spaceId) :=
      List.countP_pos_iff.mpr ⟨t, ht, by simp⟩
    have hcount : (w.finish eng es).eventCount t.after.vectorId t.after.spaceId =
        eng.eventCount before.vectorId before.spaceId + w.transitions.countP (fun t' =>
          t'.after.vectorId = t.after.vectorId ∧ t'.after.spaceId = t.after.spaceId) := by
      rw [eventCount_congr hevents, hcounts, hsame.vectorId, hsame.spaceId]
    refine ⟨hready.vectorId, hready.spaceId, hready.ownerPubkey, hready.names, ?_, hready.after,
      hready.authRatio, ?_, ?_⟩
    · rw [hsame.length_eq]
      exact hold.dimensions
    · rw [hcount]
      omega
    · rw [hcount]
      have := hold.version
      omega

end

end VKernelX
