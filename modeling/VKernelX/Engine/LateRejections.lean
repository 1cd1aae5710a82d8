/-
  Engine/LateRejections.lean --- which calls are rejected after their first write.

  A call that passes its checks and does not panic stores its states and records, and then the
  engine refuses its event, or appends it.  So arguments and prior state decide how the call
  ends, and whether it leaves something behind.
-/
import VKernelX.Engine.Refusals

set_option autoImplicit false

namespace VKernelX

/-! ## Drafts of calls -/

/-- The draft of an event of a stored vector. -/
def VectorStateV1.draft (s : VectorStateV1) (operation : OperationType) (logicalClock : UInt64)
    (amount : ℕ → ℕ) : EventDraft where
  vectorId := s.vectorId
  spaceId := s.spaceId
  ownerPubkey := s.ownerPubkey
  operation := operation
  logicalClock := logicalClock
  amount := amount

/-- The draft of the event of a creation. -/
def OriginRequest.draft (request : OriginRequest) : EventDraft where
  vectorId := request.vectorId
  spaceId := request.spaceId
  ownerPubkey := request.ownerPubkey
  operation := .originCreate
  logicalClock := 1
  amount := amountAt request.components

/-- The event of a call on vectors is refused, of a transfer one of the two. -/
def Call.EventRefused (eng : KernelEngine) : Call → Prop
  | .originCreate request => request.draft.Refused eng.eventNames
  | .certify vectorId => ∃ s, eng.store.getState vectorId = some s ∧
      (s.draft .certify (s.version + 1) s.component).Refused eng.eventNames
  | .transfer fromId toId amount => ∃ sender receiver,
      eng.store.getState fromId = some sender ∧ eng.store.getState toId = some receiver ∧
      EventDraft.AnyRefused eng.eventNames
        [sender.draft .transfer sender.version sender.component,
          receiver.draft .transfer receiver.version (receivedAmount amount receiver)]
  | .drain vectorId _ => ∃ s, eng.store.getState vectorId = some s ∧
      (s.draft .drain (s.version + 1) s.component).Refused eng.eventNames
  | .project vectorId _ _ => ∃ s, eng.store.getState vectorId = some s ∧
      (s.draft .project (s.version + 1) s.component).Refused eng.eventNames
  | .reconstruct vectorId outcome => ∃ s projection, eng.store.getState vectorId = some s ∧
      s.projection = some projection ∧
      (s.draft .reconstruct (s.version + 1) (settledAmount outcome projection s)).Refused
        eng.eventNames
  | .createRegion _ _ => False

section

variable {env : Platform} {policy : ConsensusPolicy} {eng : KernelEngine} {now : ℕ → UInt64}

theorem eq_succ_of_u64Succ {n m : UInt64} {overflowChecks : Bool}
    (h : u64Succ (ε := KernelXError) overflowChecks n = .ok m) : m = n + 1 := by
  unfold u64Succ at h
  split at h
  · exact (Except.ok.inj h).symm
  · rename_i hlt
    split at h
    · cases h
    · rw [← Except.ok.inj h, ← UInt64.toNat_inj, UInt64.toNat_add, UInt64.toNat_one]
      have := n.toNat_lt
      have hmax : n.toNat + 1 = 2 ^ 64 := by omega
      rw [hmax]
      rfl

/-- The draft of a transition of a stored vector. -/
theorem draft_of_same {s after : VectorStateV1} (hsame : SameVector s after)
    {operation : OperationType} {timestamp : UInt64} {amount : ℕ → ℕ}
    (hamount : ∀ i, max (s.component i) (after.component i) = amount i) :
    (⟨some s, after, operation, timestamp⟩ : Transition).draft =
      s.draft operation after.version amount := by
  simp only [Transition.draft, VectorStateV1.draft, hsame.vectorId, hsame.spaceId,
    hsame.ownerPubkey, EventDraft.mk.injEq, true_and]
  funext i
  exact hamount i

theorem draft_of_advances {s after : VectorStateV1} (h : Advances env s after)
    {operation : OperationType} {timestamp : UInt64} {amount : ℕ → ℕ}
    (hamount : ∀ i, max (s.component i) (after.component i) = amount i) :
    (⟨some s, after, operation, timestamp⟩ : Transition).draft =
      s.draft operation (s.version + 1) amount := by
  rw [draft_of_same h.same hamount, eq_succ_of_u64Succ h.version]

theorem component_le_max (s : VectorStateV1) (i : ℕ) : s.component i ≤ u128Max := by
  have := (s.components.getD i 0).isLt
  simp only [VectorStateV1.component, amountAt, u128Max]
  omega

/-- The draft of an update's event is the one of its call. -/
theorem update_refused_iff (hreach : ReachableEngine env policy eng) {c : Call} {u : Update}
    {before after : VectorStateV1} {timestamp : UInt64} (hupdate : c.update? env now = some u)
    (hplan : u.plan eng = .ok (before, after)) :
    (⟨some before, after, u.operation, timestamp⟩ : Transition).draft.Refused eng.eventNames ↔
      c.EventRefused eng := by
  obtain ⟨hbefore, hnext, _⟩ := Update.plan_eq_ok_iff.mp hplan
  have hstored : ∀ {id : String} {p : VectorStateV1 → Prop},
      eng.store.states[id]? = some before →
        ((∃ s, eng.store.getState id = some s ∧ p s) ↔ p before) := by
    intro id p hs
    simp only [MemoryStore.getState, hs, Option.some.injEq, exists_eq_left']
  cases c with
  | certify vectorId =>
    obtain rfl := Option.some.inj hupdate
    obtain ⟨hadvances, hcomponents, _⟩ := certifyNext_ok hnext
    rw [Call.EventRefused, hstored hbefore, draft_of_advances hadvances (fun i => ?_)]
    simp only [VectorStateV1.component, hcomponents, max_self]
  | drain vectorId basisPoints =>
    obtain rfl := Option.some.inj hupdate
    obtain ⟨hadvances, _⟩ := drainNext_ok hnext
    rw [Call.EventRefused, hstored hbefore, draft_of_advances hadvances (fun i => ?_)]
    rw [drainNext_component hnext]
    exact max_eq_left (Nat.sub_le _ _)
  | project vectorId projected escrowId =>
    obtain rfl := Option.some.inj hupdate
    obtain ⟨hadvances, hprojects, _⟩ := projectNext_ok hnext
    rw [Call.EventRefused, hstored hbefore, draft_of_advances hadvances (fun i => ?_)]
    rw [hprojects.component_eq]
    exact max_eq_left (Nat.sub_le _ _)
  | reconstruct vectorId outcome =>
    obtain rfl := Option.some.inj hupdate
    obtain ⟨projection, hprojection⟩ := reconstructNext_projection hnext
    obtain ⟨hadvances, hsettles, _⟩ := reconstructNext_ok hprojection
      ((hreach.soundStates _ _ hbefore).shape projection hprojection) hnext
    have hdraft : (⟨some before, after, .reconstruct, timestamp⟩ : Transition).draft =
        before.draft .reconstruct (before.version + 1)
          (settledAmount outcome projection before) := by
      refine draft_of_advances hadvances (fun i => ?_)
      rw [hsettles.component_eq, settledAmount]
      exact max_eq_right (le_min (Nat.le_add_right _ _) (component_le_max before i))
    simp only [Call.EventRefused, exists_and_left]
    rw [hstored hbefore, hprojection, hdraft]
    simp only [Option.some.injEq, exists_eq_left']
  | originCreate _ => cases hupdate
  | transfer _ _ _ => cases hupdate
  | createRegion _ _ => cases hupdate

theorem anyRefused_singleton {names : List EventName} {d : EventDraft} :
    EventDraft.AnyRefused names [d] ↔ d.Refused names := or_iff_left id

/-- The draft of the sender's event. -/
theorem TransferPlan.sender_draft (plan : TransferPlan) {fromId toId : String}
    {amount : List U128} (hplan : transferPlan env eng now fromId toId amount = .ok plan) :
    (⟨some plan.sender, plan.afterFrom, .transfer, now 6⟩ : Transition).draft =
      plan.sender.draft .transfer plan.sender.version plan.sender.component := by
  have h := transferNext_ok (transferPlan_eq_ok_iff.mp hplan).2.2
  rw [draft_of_same h.same_from (fun i => ?_), h.version_from]
  rw [h.component_from]
  exact max_eq_left (Nat.sub_le _ _)

/-- The drafts of a call's transitions are those of the call. -/
theorem Works.refused_iff (hreach : ReachableEngine env policy eng) {c : Call} {w : Work}
    (h : Works env eng now c w) :
    EventDraft.AnyRefused eng.eventNames (w.transitions.map Transition.draft) ↔
      c.EventRefused eng := by
  cases h with
  | update hupdate hplan hrecord =>
    exact anyRefused_singleton.trans (update_refused_iff hreach hupdate hplan)
  | @origin request s hplan =>
    have hcreated := originState_ok hplan
    have hdraft : (⟨none, s, .originCreate, s.createdAtMs⟩ : Transition).draft =
        request.draft := by
      simp only [Transition.draft, OriginRequest.draft, hcreated.vectorId, hcreated.spaceId,
        hcreated.ownerPubkey, hcreated.version, EventDraft.mk.injEq, true_and]
      funext i
      simp only [Transition.amountBefore, VectorStateV1.component, hcreated.components, zero_le,
        max_eq_right]
    rw [List.map_singleton, anyRefused_singleton, hdraft]
    rfl
  | @transfer fromId toId amount plan sr rr hplan hrecords =>
    obtain ⟨hsender, hreceiver, hnext⟩ := transferPlan_eq_ok_iff.mp hplan
    have h := transferNext_ok hnext
    have hfrom := plan.sender_draft hplan
    have hto : (⟨some plan.receiver, plan.afterTo, .transfer, now 7⟩ : Transition).draft =
        plan.receiver.draft .transfer plan.receiver.version
          (receivedAmount amount plan.receiver) := by
      rw [draft_of_same h.same_to (fun i => ?_), h.version_to]
      rw [h.component_to]
      exact max_eq_right (le_min (Nat.le_add_right _ _) (component_le_max plan.receiver i))
    simp only [List.map_cons, List.map_nil, hfrom, hto, Call.EventRefused, MemoryStore.getState,
      hsender, hreceiver, Option.some.injEq, exists_and_left, exists_eq_left']

/-! ## How calls end -/

/-- A call's transitions have what every event needs. -/
theorem Works.shaped (hreach : ReachableEngine env policy eng) {c : Call} {w : Work}
    (h : Works env eng now c w) : ∀ t ∈ w.transitions, t.Shaped := by
  cases h with
  | @update _ u before after r hupdate hplan hrecord =>
    obtain ⟨hbefore, hnext, hcanonical⟩ := Update.plan_eq_ok_iff.mp hplan
    have hlength := update_next_length hupdate hnext (hreach.soundStates _ _ hbefore)
    have hoperation : u.operation ≠ .originCreate ∧ ∀ name, u.operation ≠ .other name := by
      cases c <;> cases hupdate <;> exact ⟨nofun, nofun⟩
    rw [List.forall_mem_singleton]
    refine ⟨fun s hs => ?_, hoperation.2, fun hcreation => absurd hcreation hoperation.1,
      update_next_ratio hupdate hnext hcanonical.components⟩
    rw [← Option.some.inj hs]
    exact hlength.symm
  | @origin request s hplan =>
    rw [List.forall_mem_singleton]
    refine ⟨fun _ hs => ?_, fun _ hname => ?_, fun _ => (originState_ok hplan).typeMetadata,
      originState_ratio hplan⟩
    · cases hs
    · cases hname
  | @transfer fromId toId amount plan sr rr hplan hrecords =>
    obtain ⟨_, _, hnext⟩ := transferPlan_eq_ok_iff.mp hplan
    have h := transferNext_ok hnext
    obtain ⟨hfrom, hto⟩ := transferNext_ratio hnext
    rw [List.forall_mem_cons, List.forall_mem_singleton]
    have hoperation : OperationType.transfer ≠ .originCreate ∧
        ∀ name, OperationType.transfer ≠ .other name := ⟨nofun, nofun⟩
    refine ⟨⟨fun s hs => ?_, hoperation.2, fun h => absurd h hoperation.1, hfrom⟩,
      ⟨fun s hs => ?_, hoperation.2, fun h => absurd h hoperation.1, hto⟩⟩
    · rw [← Option.some.inj hs]
      exact h.length_from.symm
    · rw [← Option.some.inj hs]
      exact h.length_to.symm

end

/-- A call on vectors is carried out: it passes its checks, does not panic, and none of its
events is refused. -/
structure Call.CarriedOut (env : Platform) (eng : KernelEngine) (c : Call) : Prop where
  checked : c.Checked env eng
  notPanics : ¬ c.Panics env eng
  notRefused : ¬ c.EventRefused eng

/-- Texts as long as they come: the names of the stored vectors and the ids of the stored
events. -/
structure KernelEngine.NamesShort (eng : KernelEngine) : Prop where
  states : ∀ (id : String) (s : VectorStateV1), eng.store.getState id = some s →
    ShortNames s.vectorId s.spaceId
  events : ∀ e ∈ eng.store.listEvents, ShortStr e.eventId

theorem initial_namesShort (policy : ConsensusPolicy) :
    (KernelEngine.initial policy).NamesShort where
  states := fun id s hs => by simp [KernelEngine.initial, MemoryStore.empty,
    MemoryStore.getState] at hs
  events := fun e he => by simp [KernelEngine.initial, MemoryStore.empty,
    MemoryStore.listEvents] at he

/-- The names a creation brings along are as long as texts come. -/
def Call.NamesShort : Call → Prop
  | .originCreate request => ShortNames request.vectorId request.spaceId
  | _ => True

section

variable {env : Platform} {policy : ConsensusPolicy} {eng : KernelEngine} {now : ℕ → UInt64}

theorem Works.shortNames (hreach : ReachableEngine env policy eng) (hshort : eng.NamesShort)
    {c : Call} (hc : c.NamesShort) {w : Work} (h : Works env eng now c w) :
    ∀ t ∈ w.transitions, ShortNames t.after.vectorId t.after.spaceId := by
  cases h with
  | @update _ u before after r hupdate hplan hrecord =>
    obtain ⟨hbefore, hnext, hcanonical⟩ := Update.plan_eq_ok_iff.mp hplan
    have hsame := update_next_identity hupdate hnext (hreach.soundStates _ _ hbefore) hcanonical
    rw [List.forall_mem_singleton, hsame.vectorId, hsame.spaceId]
    exact hshort.states _ _ hbefore
  | @origin request s hplan =>
    have hcreated := originState_ok hplan
    rw [List.forall_mem_singleton, hcreated.vectorId, hcreated.spaceId]
    exact hc
  | @transfer fromId toId amount plan sr rr hplan hrecords =>
    obtain ⟨hsender, hreceiver, hnext⟩ := transferPlan_eq_ok_iff.mp hplan
    obtain ⟨hfrom, hto⟩ := transferNext_identity hnext
    rw [List.forall_mem_cons, List.forall_mem_singleton, hfrom.vectorId, hfrom.spaceId,
      hto.vectorId, hto.spaceId]
    exact ⟨hshort.states _ _ hsender, hshort.states _ _ hreceiver⟩

theorem KernelEngine.NamesShort.known (hshort : eng.NamesShort)
    (hreach : ReachableEngine env policy eng) : KnownEvents env eng :=
  ⟨hreach.eventGraph, hshort.events⟩

/-- A call that goes through is one whose events are not refused. -/
theorem carriedOut_of_ok (hreach : ReachableEngine env policy eng) {c : Call}
    (hvector : ∀ request actorPublicKey, c ≠ .createRegion request actorPublicKey)
    (hok : (eng.call env now c).1.IsOk) : c.CarriedOut env eng := by
  obtain ⟨w, es, hworks, happends, _⟩ := works_of_ok hvector hok
  obtain ⟨hchecked, hpanics⟩ := (@works_iff env policy eng now hreach c).mp ⟨w, hworks⟩
  exact ⟨hchecked, hpanics, mt (hworks.refused_iff hreach).mpr happends.not_refused⟩

/-- The events of transitions have ids as long as the names make them. -/
theorem Appends.shortStr {ts : List Transition} {es : List VectorEvent}
    (h : Appends env eng ts es) (hnames : ∀ t ∈ ts, ShortNames t.after.vectorId t.after.spaceId)
    (hshort : ∀ e ∈ eng.store.listEvents, ShortStr e.eventId) :
    ∀ e ∈ (eng.addEvents es).store.listEvents, ShortStr e.eventId := by
  induction h with
  | nil => exact hshort
  | @cons eng t ts e es hevent hrest ih =>
    obtain ⟨ht, hts⟩ := List.forall_mem_cons.mp hnames
    obtain ⟨hfields, _⟩ := buildTransitionEvent_fields (transitionEvent_eq_ok_iff.mp hevent).1
    obtain ⟨sequence, _, hid⟩ := hfields.sequence_eq
    refine ih hts (fun x hx => ?_)
    rcases mem_listEvents_addEvent hx with rfl | hx
    · rw [hid]
      exact ht.shortStr _ _ _
    · exact hshort x hx

/-- A call on vectors that goes through leaves the names as short as they were. -/
theorem KernelEngine.NamesShort.call (hshort : eng.NamesShort)
    (hreach : ReachableEngine env policy eng) {c : Call} (hc : c.NamesShort)
    (hvector : ∀ request actorPublicKey, c ≠ .createRegion request actorPublicKey)
    (hok : (eng.call env now c).1.IsOk) : (eng.call env now c).2.NamesShort := by
  obtain ⟨w, es, hworks, happends, hcall⟩ := works_of_ok hvector hok
  have hnames := hworks.shortNames hreach hshort hc
  have hstates : w.states = w.transitions.map Transition.after := by
    cases hworks <;> rfl
  rw [hcall]
  constructor
  · simp only [MemoryStore.getState, w.states_finish]
    refine forall_lookup_insertMany hshort.states (fun s hs => ?_)
    rw [hstates] at hs
    obtain ⟨t, ht, rfl⟩ := List.mem_map.mp hs
    exact hnames t ht
  · rw [MemoryStore.listEvents, w.events_finish]
    exact happends.shortStr hnames hshort.events

/-- The events of a call's work are appended exactly when none is refused. -/
theorem Works.appends_iff (hfree : env.CollisionFree) (hreach : ReachableEngine env policy eng)
    (hshort : eng.NamesShort) {c : Call} (hc : c.NamesShort) {w : Work}
    (h : Works env eng now c w) :
    (∃ es, Appends env eng w.transitions es) ↔ ¬ c.EventRefused eng := by
  rw [exists_appends_iff hfree (hshort.known hreach) (h.shaped hreach)
    (h.shortNames hreach hshort hc), h.refused_iff hreach]

/-- A call on vectors is carried out exactly when it passes its checks, does not panic, and none
of its events is refused. -/
theorem call_isOk_iff (hfree : env.CollisionFree) (hreach : ReachableEngine env policy eng)
    (hshort : eng.NamesShort) {c : Call} (hc : c.NamesShort)
    (hvector : ∀ request actorPublicKey, c ≠ .createRegion request actorPublicKey) :
    (eng.call env now c).1.IsOk ↔ c.CarriedOut env eng := by
  constructor
  · exact fun hok => carriedOut_of_ok hreach hvector hok
  · rintro ⟨hchecked, hpanics, hrefused⟩
    obtain ⟨w, hworks⟩ := (@works_iff env policy eng now hreach c).mpr ⟨hchecked, hpanics⟩
    obtain ⟨es, happends⟩ := (hworks.appends_iff hfree hreach hshort hc).mpr hrefused
    rw [call_of_works hworks happends]
    exact Outcome.isOk_ok _

end

/-! ## Calls that would write what is stored -/

/-- The certification of a verified vector at a reading of the clock. -/
def VectorStateV1.recertified (s : VectorStateV1) (nowMs : UInt64) : CertificationState where
  certified := true
  authRatio := if amountSum s.components % 2 ^ 128 = 0 then 700 else 1000
  threshold := 700
  lastCheckedAtMs := nowMs
  reason := none

/-- The vector a request describes, at these readings of the clock. -/
def OriginRequest.vector (env : Platform) (now : ℕ → UInt64) (request : OriginRequest) :
    VectorStateV1 :=
  let s := { VectorStateV1.new request.vectorId request.ownerPubkey request.spaceId
      request.components .origin (now 0) with
    origin := some {
      seed := request.seed
      nonce := request.nonce
      difficulty := request.difficulty
      proofHash := originProofHash env request.seed request.nonce } }
  { s with certification := s.recertified (now 1) }

/-- The vector with these amounts, certified as of then, and a standard one from now on. -/
def VectorStateV1.moved (s : VectorStateV1) (components : List U128) (nowMs : UInt64) :
    VectorStateV1 :=
  let rest := { s with components := components, vectorType := .standard }
  { rest with certification := rest.recertified nowMs }

/-- The sender without the amount. -/
def VectorStateV1.sent (s : VectorStateV1) (amount : List U128) (nowMs : UInt64) :
    VectorStateV1 :=
  s.moved ((s.components.zip amount).map (fun ca => saturatingSub ca.1 ca.2)) nowMs

/-- The receiver with the amount. -/
def VectorStateV1.received (s : VectorStateV1) (amount : List U128) (nowMs : UInt64) :
    VectorStateV1 :=
  s.moved ((s.components.zip amount).map (fun ca => saturatingAdd ca.1 ca.2)) nowMs

section

variable {env : Platform} {policy : ConsensusPolicy} {eng : KernelEngine} {now : ℕ → UInt64}

theorem certifyState_recertified {s : VectorStateV1} {nowMs : UInt64}
    {certification : CertificationState} (hthreshold : s.certification.threshold = 700)
    (hne : s.components ≠ []) (h : certifyState env s true true nowMs = .ok certification) :
    certification = s.recertified nowMs := by
  simp only [certifyState, computeAuthRatio, Outcome.bind_eq_ok_iff, hthreshold] at h
  obtain ⟨ratio, ⟨m, hmagnitude, hratio⟩, hcertification⟩ := h
  obtain rfl := Except.ok.inj hratio
  obtain rfl := Except.ok.inj hcertification
  have hzero : m = 0 ↔ amountSum s.components % 2 ^ 128 = 0 := by
    rw [← toNat_of_magnitude hmagnitude]
    exact ⟨fun h => by rw [h]; rfl, fun h => BitVec.eq_of_toNat_eq h⟩
  simp only [VectorStateV1.recertified, if_true, if_neg hne, CertificationState.mk.injEq, true_and]
  by_cases hm : m = 0
  · rw [if_pos hm, if_pos (hzero.mp hm)]
    decide
  · rw [if_neg hm, if_neg (fun h => hm (hzero.mpr h))]
    decide

/-- The state a creation stores is the one its arguments describe. -/
theorem originState_vector {request : OriginRequest} {s : VectorStateV1}
    (h : originState env now request = .ok s) : s = request.vector env now := by
  have hcanonical := originState_canonical h
  simp only [originState, createOriginVector, Outcome.bind_eq_ok_iff] at h
  obtain ⟨mid, ⟨_, _, hmid⟩, _, _, certification, hcertify, _, _, hs⟩ := h
  obtain rfl := Except.ok.inj hmid
  obtain rfl := Except.ok.inj hs
  obtain rfl := certifyState_recertified (by rfl) (by exact hcanonical.components) hcertify
  rfl

/-- The states a transfer stores. -/
theorem transferNext_moved {amount : List U128} {sender receiver afterFrom afterTo : VectorStateV1}
    (hfrom : SoundState sender) (hto : SoundState receiver)
    (h : transferNext env now amount sender receiver = .ok (afterFrom, afterTo)) :
    afterFrom = sender.sent amount (now 0) ∧ afterTo = receiver.received amount (now 1) := by
  obtain ⟨hcanonicalFrom, hcanonicalTo⟩ := transferNext_canonical h
  simp only [transferNext, transferComponents, Outcome.bind_eq_ok_iff] at h
  obtain ⟨mid, ⟨_, _, _, _, _, _, hmid⟩, senderCert, hsenderCert, receiverCert, hreceiverCert,
    _, _, _, _, hafter⟩ := h
  obtain rfl := Except.ok.inj hmid
  obtain ⟨rfl, rfl⟩ := Prod.mk.inj (Except.ok.inj hafter)
  obtain rfl := certifyState_recertified (by exact hfrom.threshold)
    (by exact hcanonicalFrom.components) hsenderCert
  obtain rfl := certifyState_recertified (by exact hto.threshold)
    (by exact hcanonicalTo.components) hreceiverCert
  exact ⟨rfl, rfl⟩

end

/-- The records are stored as they are, as far as the policy accepts them. -/
def KernelEngine.Keeps (eng : KernelEngine) (records : List VectorRecordV1) : Prop :=
  (eng.withRecords records).store.records = eng.store.records

/-- A refused creation or transfer finds stored what it writes: the vectors are already as the
arguments and the readings of the clock make them, and so are the records. -/
def Call.Idle (env : Platform) (eng : KernelEngine) (now : ℕ → UInt64) : Call → Prop
  | .originCreate request =>
      eng.store.getState request.vectorId = some (request.vector env now) ∧
      eng.Keeps [originRecord env request.difficulty now (request.vector env now)]
  | .transfer fromId toId amount => ∃ sender receiver,
      eng.store.getState fromId = some sender ∧ eng.store.getState toId = some receiver ∧
      (sender.draft .transfer sender.version sender.component).Refused eng.eventNames ∧
      (fromId ≠ toId → sender = sender.sent amount (now 0)) ∧
      receiver = receiver.received amount (now 1) ∧
      ∀ sr rr, transferRecords env now amount sender receiver (sender.sent amount (now 0))
        receiver = .ok (sr, rr) → eng.Keeps [sr, rr]
  | _ => False

/-- A call is rejected late: it passes its checks and does not panic, so that it writes, and
then an event of it is refused.  A creation or a transfer may by chance write what is stored. -/
structure Call.RejectedLate (env : Platform) (eng : KernelEngine) (now : ℕ → UInt64) (c : Call) :
    Prop where
  checked : c.Checked env eng
  notPanics : ¬ c.Panics env eng
  refused : c.EventRefused eng
  notIdle : ¬ c.Idle env eng now

end VKernelX
