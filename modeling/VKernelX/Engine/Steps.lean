/-
  Engine/Steps.lean --- how a call can end, and what it has written by then.

  For each operation an inductive predicate lists its endings, each with the outcome of
  every part up to the one that stopped it.  Everything else about calls is read off these
  endings; no later proof unfolds an operation.
-/
import VKernelX.Model.Engine
import VKernelX.Foundation.Runs

set_option autoImplicit false

namespace VKernelX

section

variable (env : Platform)

/-! ## Events -/

/-- What `append_canonical_event` asks of an event. -/
structure Admissible (store : MemoryStore) (e : VectorEvent) : Prop where
  valid : ∃ u, validateEvent env e = .ok u
  parents : ∀ p ∈ e.parentHashes, store.events[p]? ≠ none
  appendable : store.Appendable e

/-- The checks of `append_canonical_event`. -/
def admitEvent (eng : KernelEngine) (e : VectorEvent) : Outcome KernelXError Unit := do
  validateEvent env e
  eng.ensureParentClosure e
  eng.store.appendChecks e

/-- The event a transition appends to an engine, if it is built and admitted. -/
def transitionEvent (eng : KernelEngine) (before : Option VectorStateV1)
    (after : VectorStateV1) (operation : OperationType) (timestamp : UInt64)
    (parentHashes : List String) : Outcome KernelXError VectorEvent := do
  let e ← buildTransitionEvent env eng before after operation after.version timestamp
    parentHashes
  admitEvent env eng e
  return e

/-- The engine with one more event. -/
def KernelEngine.addEvent (eng : KernelEngine) (e : VectorEvent) : KernelEngine :=
  { eng with store := { eng.store with events := eng.store.events.insert e.eventHash e } }

end

section

variable {env : Platform}

theorem ensureParentClosure_eq_ok_iff {eng : KernelEngine} {e : VectorEvent} {u : Unit} :
    eng.ensureParentClosure e = .ok u ↔ ∀ p ∈ e.parentHashes, eng.store.events[p]? ≠ none := by
  unfold KernelEngine.ensureParentClosure MemoryStore.getEventByHash
  induction e.parentHashes with
  | nil =>
    simp
    rfl
  | cons p ps ih =>
    rw [List.forM_eq_forM] at ih
    rw [List.forM_eq_forM, List.forM_cons, Outcome.bind_eq_ok_iff, ih]
    simp

theorem admitEvent_eq_ok_iff {eng : KernelEngine} {e : VectorEvent} {u : Unit} :
    admitEvent env eng e = .ok u ↔ Admissible env eng.store e := by
  simp only [admitEvent, Outcome.bind_eq_ok_iff, ensureParentClosure_eq_ok_iff,
    MemoryStore.appendChecks_eq_ok_iff]
  constructor
  · rintro ⟨_, hvalid, _, hparents, happendable⟩
    exact ⟨⟨_, hvalid⟩, hparents, happendable⟩
  · rintro ⟨⟨u, hvalid⟩, hparents, happendable⟩
    exact ⟨u, hvalid, (), hparents, happendable⟩

theorem transitionEvent_eq_ok_iff {eng : KernelEngine} {before : Option VectorStateV1}
    {after : VectorStateV1} {operation : OperationType} {timestamp : UInt64}
    {parentHashes : List String} {e : VectorEvent} :
    transitionEvent env eng before after operation timestamp parentHashes = .ok e ↔
      buildTransitionEvent env eng before after operation after.version timestamp
        parentHashes = .ok e ∧ Admissible env eng.store e := by
  simp only [transitionEvent, Outcome.bind_eq_ok_iff, admitEvent_eq_ok_iff]
  constructor
  · rintro ⟨e', hbuild, _, hadm, he⟩
    obtain rfl := Except.ok.inj he
    exact ⟨hbuild, hadm⟩
  · rintro ⟨hbuild, hadm⟩
    exact ⟨e, hbuild, (), hadm, rfl⟩

/-- Appending an event is checking it and adding it. -/
theorem exec_appendCanonicalEvent (eng : KernelEngine) (e : VectorEvent) :
    (appendCanonicalEvent env e).exec eng =
      match admitEvent env eng e with
      | .ok _ => (.ok (), eng.addEvent e)
      | .error f => (.error f, eng) := by
  rw [appendCanonicalEvent, Proc.exec_update, KernelEngine.withEvent, admitEvent]
  cases validateEvent env e with
  | error f => rfl
  | ok _ =>
    simp only [Outcome.ok_bind, MemoryStore.appendEvent]
    cases eng.ensureParentClosure e with
    | error f => rfl
    | ok _ =>
      simp only [Outcome.ok_bind]
      cases eng.store.appendChecks e <;> rfl

/-- Appending a transition is appending its event. -/
theorem exec_appendTransition_bind {α : Type} {before : Option VectorStateV1}
    {after : VectorStateV1} {operation : OperationType} {timestamp : UInt64}
    {parentHashes : KernelEngine → List String} (f : Unit → EngineProc α) (eng : KernelEngine) :
    (appendTransition env before after operation timestamp parentHashes >>= f).exec eng =
      match transitionEvent env eng before after operation timestamp (parentHashes eng) with
      | .ok e => (f ()).exec (eng.addEvent e)
      | .error failure => (.error failure, eng) := by
  rw [Proc.exec_bind, appendTransition, Proc.exec_query_bind, transitionEvent]
  cases buildTransitionEvent env eng before after operation after.version timestamp
      (parentHashes eng) with
  | error f => rfl
  | ok e =>
    simp only [Outcome.ok_bind, exec_appendCanonicalEvent]
    cases admitEvent env eng e <;> rfl

/-! ## What events depend on

Building and admitting an event looks at the stored events only. -/

theorem transitionEvent_congr {eng eng' : KernelEngine}
    (h : eng.store.events = eng'.store.events) (before : Option VectorStateV1)
    (after : VectorStateV1) (operation : OperationType) (timestamp : UInt64)
    (parentHashes : List String) :
    transitionEvent env eng before after operation timestamp parentHashes =
      transitionEvent env eng' before after operation timestamp parentHashes := by
  obtain ⟨⟨_, _, events, _⟩, _⟩ := eng
  obtain ⟨⟨_, _, events', _⟩, _⟩ := eng'
  obtain rfl : events = events' := h
  rfl

theorem latestParent_congr {eng eng' : KernelEngine}
    (h : eng.store.events = eng'.store.events) (entityId : String) :
    eng.latestParentHashForEntity entityId = eng'.latestParentHashForEntity entityId := by
  obtain ⟨⟨_, _, events, _⟩, _⟩ := eng
  obtain ⟨⟨_, _, events', _⟩, _⟩ := eng'
  obtain rfl : events = events' := h
  rfl

end

/-! ## Writes -/

namespace KernelEngine

variable (eng : KernelEngine)

@[simp] theorem states_withState (s : VectorStateV1) :
    (eng.withState s).store.states = eng.store.states.insert s.vectorId s := rfl
@[simp] theorem records_withState (s : VectorStateV1) :
    (eng.withState s).store.records = eng.store.records := rfl
@[simp] theorem events_withState (s : VectorStateV1) :
    (eng.withState s).store.events = eng.store.events := rfl
@[simp] theorem consensus_withState (s : VectorStateV1) :
    (eng.withState s).consensus = eng.consensus := rfl

@[simp] theorem states_withRecord (r : VectorRecordV1) :
    (eng.withRecord r).store.states = eng.store.states := by
  unfold withRecord
  split <;> rfl
@[simp] theorem events_withRecord (r : VectorRecordV1) :
    (eng.withRecord r).store.events = eng.store.events := by
  unfold withRecord
  split <;> rfl
@[simp] theorem consensus_withRecord (r : VectorRecordV1) :
    (eng.withRecord r).consensus = eng.consensus := by
  unfold withRecord
  split <;> rfl
theorem records_withRecord (r : VectorRecordV1) :
    (eng.withRecord r).store.records =
      if acceptRecord r eng.consensus = true then eng.store.records.insert r.recordId r
      else eng.store.records := by
  unfold withRecord
  split <;> rfl

@[simp] theorem states_addEvent (e : VectorEvent) :
    (eng.addEvent e).store.states = eng.store.states := rfl
@[simp] theorem records_addEvent (e : VectorEvent) :
    (eng.addEvent e).store.records = eng.store.records := rfl
@[simp] theorem events_addEvent (e : VectorEvent) :
    (eng.addEvent e).store.events = eng.store.events.insert e.eventHash e := rfl
theorem lookup_addEvent (e : VectorEvent) :
    (eng.addEvent e).store.events[e.eventHash]? = some e := by
  rw [events_addEvent, BTreeMap.lookup_insert, if_pos rfl]
@[simp] theorem consensus_addEvent (e : VectorEvent) :
    (eng.addEvent e).consensus = eng.consensus := rfl

end KernelEngine

/-! ## Endings of the operations on one vector -/

/-- What distinguishes the operations on one existing vector. -/
structure Update where
  vectorId : String
  operation : OperationType
  next : VectorStateV1 → Outcome KernelXError VectorStateV1
  record : VectorStateV1 → VectorStateV1 → Outcome KernelXError VectorRecordV1

/-- The vector before and after an update, if the update gets past its first checks. -/
def Update.plan (u : Update) (eng : KernelEngine) :
    Outcome KernelXError (VectorStateV1 × VectorStateV1) := do
  let before ← Outcome.okOr .vectorNotFound (eng.store.getState u.vectorId)
  let after ← u.next before
  validateState after
  return (before, after)

theorem Update.plan_eq_ok_iff {u : Update} {eng : KernelEngine} {before after : VectorStateV1} :
    u.plan eng = .ok (before, after) ↔
      eng.store.states[u.vectorId]? = some before ∧ u.next before = .ok after ∧
        CanonicalState after := by
  simp only [Update.plan, Outcome.bind_eq_ok_iff, Outcome.okOr_eq_ok_iff,
    MemoryStore.getState, validateState_eq_ok_iff]
  constructor
  · rintro ⟨s, hs, s', hs', _, hcanonical, heq⟩
    obtain ⟨rfl, rfl⟩ := Prod.mk.inj (Except.ok.inj heq)
    exact ⟨hs, hs', hcanonical⟩
  · rintro ⟨hs, hs', hcanonical⟩
    exact ⟨before, hs, after, hs', (), hcanonical, rfl⟩

section

variable (env : Platform)

/-- The event of an update on an engine. -/
def Update.event (u : Update) (eng : KernelEngine) (before after : VectorStateV1) :
    Outcome KernelXError VectorEvent :=
  transitionEvent env eng (some before) after u.operation after.updatedAtMs
    (eng.latestParentHashForEntity after.vectorId)

/-- The endings of an update. -/
inductive UpdateEnds (eng : KernelEngine) (u : Update) :
    Outcome KernelXError VectorStateV1 → KernelEngine → Prop where
  /-- turned down before anything is written -/
  | rejected {f : Failure KernelXError} (hplan : u.plan eng = .error f) :
      UpdateEnds eng u (.error f) eng
  /-- stopped while the record is made -/
  | unrecorded (before after : VectorStateV1) {f : Failure KernelXError}
      (hplan : u.plan eng = .ok (before, after)) (hrecord : u.record before after = .error f) :
      UpdateEnds eng u (.error f) (eng.withState after)
  /-- the event is turned down -/
  | unappended (before after : VectorStateV1) (r : VectorRecordV1) {f : Failure KernelXError}
      (hplan : u.plan eng = .ok (before, after)) (hrecord : u.record before after = .ok r)
      (hevent : u.event env eng before after = .error f) :
      UpdateEnds eng u (.error f) ((eng.withState after).withRecord r)
  /-- everything is written -/
  | done (before after : VectorStateV1) (r : VectorRecordV1) (e : VectorEvent)
      (hplan : u.plan eng = .ok (before, after)) (hrecord : u.record before after = .ok r)
      (hevent : u.event env eng before after = .ok e) :
      UpdateEnds eng u (.ok after) (((eng.withState after).withRecord r).addEvent e)

variable {env}

theorem updateVector_ends (eng : KernelEngine) (u : Update) :
    UpdateEnds env eng u
      ((updateVector env u.vectorId u.operation u.next u.record).exec eng).1
      ((updateVector env u.vectorId u.operation u.next u.record).exec eng).2 := by
  rw [updateVector, getVector, Proc.exec_query_bind]
  cases hget : Outcome.okOr KernelXError.vectorNotFound (eng.store.getState u.vectorId) with
  | error f =>
    refine .rejected ?_
    rw [Update.plan, hget]
    rfl
  | ok before =>
    simp only [Proc.exec_lift_bind]
    cases hnext : u.next before with
    | error f =>
      refine .rejected ?_
      rw [Update.plan, hget, Outcome.ok_bind, hnext]
      rfl
    | ok after =>
      simp only
      cases hvalid : validateState after with
      | error f =>
        refine .rejected ?_
        rw [Update.plan, hget, Outcome.ok_bind, hnext, Outcome.ok_bind, hvalid]
        rfl
      | ok _ =>
        have hplan : u.plan eng = .ok (before, after) := by
          rw [Update.plan, hget, Outcome.ok_bind, hnext, Outcome.ok_bind, hvalid]
          rfl
        simp only [putState, Proc.exec_write_bind, Proc.exec_lift_bind]
        cases hrecord : u.record before after with
        | error f => exact .unrecorded before after hplan hrecord
        | ok r =>
          have hevents : ((eng.withState after).withRecord r).store.events =
              eng.store.events := by simp
          simp only [putAcceptedRecord, Proc.exec_write_bind, exec_appendTransition_bind,
            parentOf, transitionEvent_congr hevents, latestParent_congr hevents]
          cases hevent : u.event env eng before after with
          | error f =>
            rw [Update.event] at hevent
            simp only [hevent]
            exact .unappended before after r hplan hrecord hevent
          | ok e =>
            rw [Update.event] at hevent
            simp only [hevent]
            exact .done before after r e hplan hrecord hevent

end

/-! ## Endings of a creation -/

section

variable (env : Platform)

/-- The event of a creation on an engine. -/
def originEvent (eng : KernelEngine) (s : VectorStateV1) : Outcome KernelXError VectorEvent :=
  transitionEvent env eng none s .originCreate s.createdAtMs []

/-- The endings of `origin_create`. -/
inductive OriginEnds (eng : KernelEngine) (now : ℕ → UInt64) (request : OriginRequest) :
    Outcome KernelXError VectorStateV1 → KernelEngine → Prop where
  /-- turned down before anything is written -/
  | rejected {f : Failure KernelXError} (hplan : originState env now request = .error f) :
      OriginEnds eng now request (.error f) eng
  /-- the event is turned down -/
  | unappended (s : VectorStateV1) {f : Failure KernelXError}
      (hplan : originState env now request = .ok s) (hevent : originEvent env eng s = .error f) :
      OriginEnds eng now request (.error f)
        ((eng.withState s).withRecord (originRecord env request.difficulty now s))
  /-- everything is written -/
  | done (s : VectorStateV1) (e : VectorEvent)
      (hplan : originState env now request = .ok s) (hevent : originEvent env eng s = .ok e) :
      OriginEnds eng now request (.ok s)
        (((eng.withState s).withRecord (originRecord env request.difficulty now s)).addEvent e)

variable {env}

theorem originCreate_ends (eng : KernelEngine) (now : ℕ → UInt64) (request : OriginRequest) :
    OriginEnds env eng now request ((originCreate env now request).exec eng).1
      ((originCreate env now request).exec eng).2 := by
  rw [originCreate, Proc.exec_lift_bind]
  cases hplan : originState env now request with
  | error f => exact .rejected hplan
  | ok s =>
    have hevents : ((eng.withState s).withRecord
        (originRecord env request.difficulty now s)).store.events = eng.store.events := by simp
    simp only [putState, putAcceptedRecord, Proc.exec_write_bind, exec_appendTransition_bind,
      transitionEvent_congr hevents]
    cases hevent : originEvent env eng s with
    | error f =>
      rw [originEvent] at hevent
      simp only [hevent]
      exact .unappended s hplan hevent
    | ok e =>
      rw [originEvent] at hevent
      simp only [hevent]
      exact .done s e hplan hevent

end

/-! ## Endings of a transfer -/

/-- The states a transfer starts from and the states it stores. -/
structure TransferPlan where
  sender : VectorStateV1
  receiver : VectorStateV1
  afterFrom : VectorStateV1
  afterTo : VectorStateV1

section

variable (env : Platform)

/-- The plan of a transfer, if it gets past its first checks. -/
def transferPlan (eng : KernelEngine) (now : ℕ → UInt64) (fromId toId : String)
    (amount : List U128) : Outcome KernelXError TransferPlan := do
  let sender ← Outcome.okOr .vectorNotFound (eng.store.getState fromId)
  let receiver ← Outcome.okOr .vectorNotFound (eng.store.getState toId)
  let (afterFrom, afterTo) ← transferNext env now amount sender receiver
  return { sender := sender, receiver := receiver, afterFrom := afterFrom, afterTo := afterTo }

/-- The sender's event, on the engine the transfer starts from. -/
def TransferPlan.senderEvent (plan : TransferPlan) (eng : KernelEngine) (now : ℕ → UInt64) :
    Outcome KernelXError VectorEvent :=
  transitionEvent env eng (some plan.sender) plan.afterFrom .transfer (now 6)
    (eng.latestParentHashForEntity plan.afterFrom.vectorId)

/-- The receiver's event, on the engine that holds the sender's. -/
def TransferPlan.receiverEvent (plan : TransferPlan) (eng : KernelEngine) (now : ℕ → UInt64) :
    Outcome KernelXError VectorEvent :=
  transitionEvent env eng (some plan.receiver) plan.afterTo .transfer (now 7)
    (eng.latestParentHashForEntity plan.afterTo.vectorId)

/-- The records of the plan. -/
def TransferPlan.records (plan : TransferPlan) (now : ℕ → UInt64) (amount : List U128) :
    Outcome KernelXError (VectorRecordV1 × VectorRecordV1) :=
  transferRecords env now amount plan.sender plan.receiver plan.afterFrom plan.afterTo

/-- The engine with both states of the plan stored, the sender's first. -/
def TransferPlan.store (plan : TransferPlan) (eng : KernelEngine) : KernelEngine :=
  (eng.withState plan.afterFrom).withState plan.afterTo

/-- The endings of `transfer`. -/
inductive TransferEnds (eng : KernelEngine) (now : ℕ → UInt64) (fromId toId : String)
    (amount : List U128) : Outcome KernelXError (VectorStateV1 × VectorStateV1) →
    KernelEngine → Prop where
  /-- turned down before anything is written -/
  | rejected {f : Failure KernelXError}
      (hplan : transferPlan env eng now fromId toId amount = .error f) :
      TransferEnds eng now fromId toId amount (.error f) eng
  /-- stopped while the records are made -/
  | unrecorded (plan : TransferPlan) {f : Failure KernelXError}
      (hplan : transferPlan env eng now fromId toId amount = .ok plan)
      (hrecords : plan.records env now amount = .error f) :
      TransferEnds eng now fromId toId amount (.error f) (plan.store eng)
  /-- the sender's event is turned down -/
  | unappended (plan : TransferPlan) (sr rr : VectorRecordV1) {f : Failure KernelXError}
      (hplan : transferPlan env eng now fromId toId amount = .ok plan)
      (hrecords : plan.records env now amount = .ok (sr, rr))
      (hsender : plan.senderEvent env eng now = .error f) :
      TransferEnds eng now fromId toId amount (.error f)
        (((plan.store eng).withRecord sr).withRecord rr)
  /-- the receiver's event is turned down -/
  | halfway (plan : TransferPlan) (sr rr : VectorRecordV1) (es : VectorEvent)
      {f : Failure KernelXError}
      (hplan : transferPlan env eng now fromId toId amount = .ok plan)
      (hrecords : plan.records env now amount = .ok (sr, rr))
      (hsender : plan.senderEvent env eng now = .ok es)
      (hreceiver : plan.receiverEvent env (eng.addEvent es) now = .error f) :
      TransferEnds eng now fromId toId amount (.error f)
        ((((plan.store eng).withRecord sr).withRecord rr).addEvent es)
  /-- everything is written -/
  | done (plan : TransferPlan) (sr rr : VectorRecordV1) (es er : VectorEvent)
      (hplan : transferPlan env eng now fromId toId amount = .ok plan)
      (hrecords : plan.records env now amount = .ok (sr, rr))
      (hsender : plan.senderEvent env eng now = .ok es)
      (hreceiver : plan.receiverEvent env (eng.addEvent es) now = .ok er) :
      TransferEnds eng now fromId toId amount (.ok (plan.afterFrom, plan.afterTo))
        (((((plan.store eng).withRecord sr).withRecord rr).addEvent es).addEvent er)

variable {env}

theorem transferPlan_eq_ok_iff {eng : KernelEngine} {now : ℕ → UInt64} {fromId toId : String}
    {amount : List U128} {plan : TransferPlan} :
    transferPlan env eng now fromId toId amount = .ok plan ↔
      eng.store.states[fromId]? = some plan.sender ∧
        eng.store.states[toId]? = some plan.receiver ∧
        transferNext env now amount plan.sender plan.receiver =
          .ok (plan.afterFrom, plan.afterTo) := by
  simp only [transferPlan, Outcome.bind_eq_ok_iff, Outcome.okOr_eq_ok_iff, MemoryStore.getState]
  constructor
  · rintro ⟨sender, hsender, receiver, hreceiver, ⟨afterFrom, afterTo⟩, hnext, heq⟩
    obtain rfl := Except.ok.inj heq
    exact ⟨hsender, hreceiver, hnext⟩
  · rintro ⟨hsender, hreceiver, hnext⟩
    exact ⟨plan.sender, hsender, plan.receiver, hreceiver, _, hnext, rfl⟩

theorem transfer_ends (eng : KernelEngine) (now : ℕ → UInt64) (fromId toId : String)
    (amount : List U128) :
    TransferEnds env eng now fromId toId amount ((transfer env now fromId toId amount).exec eng).1
      ((transfer env now fromId toId amount).exec eng).2 := by
  rw [transfer, getVector, Proc.exec_query_bind]
  cases hsender : Outcome.okOr KernelXError.vectorNotFound (eng.store.getState fromId) with
  | error f =>
    refine .rejected ?_
    rw [transferPlan, hsender]
    rfl
  | ok sender =>
    simp only [getVector, Proc.exec_query_bind]
    cases hreceiver : Outcome.okOr KernelXError.vectorNotFound (eng.store.getState toId) with
    | error f =>
      refine .rejected ?_
      rw [transferPlan, hsender, Outcome.ok_bind, hreceiver]
      rfl
    | ok receiver =>
      simp only [Proc.exec_lift_bind]
      cases hnext : transferNext env now amount sender receiver with
      | error f =>
        refine .rejected ?_
        rw [transferPlan, hsender, Outcome.ok_bind, hreceiver, Outcome.ok_bind, hnext]
        rfl
      | ok states =>
        obtain ⟨afterFrom, afterTo⟩ := states
        have hplan : transferPlan env eng now fromId toId amount =
            .ok ⟨sender, receiver, afterFrom, afterTo⟩ := by
          rw [transferPlan, hsender, Outcome.ok_bind, hreceiver, Outcome.ok_bind, hnext]
          rfl
        simp only [putState, Proc.exec_write_bind, Proc.exec_lift_bind]
        cases hrecords : transferRecords env now amount sender receiver afterFrom afterTo with
        | error f => exact .unrecorded ⟨sender, receiver, afterFrom, afterTo⟩ hplan hrecords
        | ok records =>
          obtain ⟨sr, rr⟩ := records
          have hevents : ((((eng.withState afterFrom).withState afterTo).withRecord
              sr).withRecord rr).store.events = eng.store.events := by simp
          simp only [putAcceptedRecord, Proc.exec_write_bind, exec_appendTransition_bind,
            parentOf, transitionEvent_congr hevents, latestParent_congr hevents]
          cases hsenderEvent : transitionEvent env eng (some sender) afterFrom .transfer (now 6)
              (eng.latestParentHashForEntity afterFrom.vectorId) with
          | error f =>
            exact .unappended ⟨sender, receiver, afterFrom, afterTo⟩ sr rr hplan hrecords
              hsenderEvent
          | ok es =>
            have hevents' : (((((eng.withState afterFrom).withState afterTo).withRecord
                sr).withRecord rr).addEvent es).store.events =
                  (eng.addEvent es).store.events := by simp
            simp only [transitionEvent_congr hevents', latestParent_congr hevents']
            cases hreceiverEvent : transitionEvent env (eng.addEvent es) (some receiver) afterTo
                .transfer (now 7)
                ((eng.addEvent es).latestParentHashForEntity afterTo.vectorId) with
            | error f =>
              exact .halfway ⟨sender, receiver, afterFrom, afterTo⟩ sr rr es hplan hrecords
                hsenderEvent hreceiverEvent
            | ok er =>
              exact .done ⟨sender, receiver, afterFrom, afterTo⟩ sr rr es er hplan hrecords
                hsenderEvent hreceiverEvent

end

/-! ## Endings of a region creation -/

section

variable (env : Platform)

/-- The endings of `create_region`. -/
inductive RegionEnds (eng : KernelEngine) (now : ℕ → UInt64) (request : RegionCreateRequest)
    (actorPublicKey : String) : Outcome KernelXError RegionState → KernelEngine → Prop where
  /-- turned down before the event is offered to the store -/
  | rejected {f : Failure KernelXError}
      (hevent : regionEvent env now request actorPublicKey eng = .error f) :
      RegionEnds eng now request actorPublicKey (.error f) eng
  /-- the event is turned down -/
  | unappended (e : VectorEvent) {f : Failure KernelXError}
      (hevent : regionEvent env now request actorPublicKey eng = .ok e)
      (hadmits : admitEvent env eng e = .error f) :
      RegionEnds eng now request actorPublicKey (.error f) eng
  /-- the appended event is not read back as a region -/
  | unreadable (e : VectorEvent) {f : Failure KernelXError}
      (hevent : regionEvent env now request actorPublicKey eng = .ok e)
      (hadmits : Admissible env eng.store e) (hregion : regionStateFromEvent e = .error f) :
      RegionEnds eng now request actorPublicKey (.error f) (eng.addEvent e)
  /-- everything is written -/
  | done (e : VectorEvent) (region : RegionState)
      (hevent : regionEvent env now request actorPublicKey eng = .ok e)
      (hadmits : Admissible env eng.store e) (hregion : regionStateFromEvent e = .ok region) :
      RegionEnds eng now request actorPublicKey (.ok region) (eng.addEvent e)

variable {env}

theorem createRegion_ends (eng : KernelEngine) (now : ℕ → UInt64)
    (request : RegionCreateRequest) (actorPublicKey : String) :
    RegionEnds env eng now request actorPublicKey
      ((createRegion env now request actorPublicKey).exec eng).1
      ((createRegion env now request actorPublicKey).exec eng).2 := by
  rw [createRegion, Proc.exec_query_bind]
  cases hevent : regionEvent env now request actorPublicKey eng with
  | error f => exact .rejected hevent
  | ok e =>
    simp only [Proc.exec_bind, exec_appendCanonicalEvent]
    cases hadmits : admitEvent env eng e with
    | error f => exact .unappended e hevent hadmits
    | ok _ =>
      simp only [Proc.exec_lift]
      have hadm := admitEvent_eq_ok_iff.mp hadmits
      cases hregion : regionStateFromEvent e with
      | error f => exact .unreadable e hevent hadm hregion
      | ok region => exact .done e region hevent hadm hregion

end

/-! ## Endings of a call -/

section

variable (env : Platform)

/-- The update a call makes, when it is an operation on one existing vector. -/
def Call.update? (now : ℕ → UInt64) : Call → Option Update
  | .certify vectorId => some
      { vectorId := vectorId
        operation := .certify
        next := certifyNext env now
        record := certifyRecord env vectorId now }
  | .drain vectorId basisPoints => some
      { vectorId := vectorId
        operation := .drain
        next := drainNext env now basisPoints
        record := drainRecord env vectorId basisPoints now }
  | .project vectorId projectedComponents escrowId => some
      { vectorId := vectorId
        operation := .project
        next := projectNext env now projectedComponents escrowId
        record := projectRecord env vectorId projectedComponents now }
  | .reconstruct vectorId outcome => some
      { vectorId := vectorId
        operation := .reconstruct
        next := reconstructNext env now outcome
        record := reconstructRecord env vectorId outcome now }
  | _ => none

/-- The endings of a call. -/
inductive CallEnds (eng : KernelEngine) (now : ℕ → UInt64) :
    Call → Outcome KernelXError Reply → KernelEngine → Prop where
  | update {c : Call} {u : Update} {r : Outcome KernelXError VectorStateV1} {eng' : KernelEngine}
      (hupdate : c.update? env now = some u) (h : UpdateEnds env eng u r eng') :
      CallEnds eng now c (r.map Reply.vector) eng'
  | origin {request : OriginRequest} {r : Outcome KernelXError VectorStateV1}
      {eng' : KernelEngine} (h : OriginEnds env eng now request r eng') :
      CallEnds eng now (.originCreate request) (r.map Reply.vector) eng'
  | transfer {fromId toId : String} {amount : List U128}
      {r : Outcome KernelXError (VectorStateV1 × VectorStateV1)} {eng' : KernelEngine}
      (h : TransferEnds env eng now fromId toId amount r eng') :
      CallEnds eng now (.transfer fromId toId amount)
        (r.map (fun states => Reply.vectors states.1 states.2)) eng'
  | region {request : RegionCreateRequest} {actorPublicKey : String}
      {r : Outcome KernelXError RegionState} {eng' : KernelEngine}
      (h : RegionEnds env eng now request actorPublicKey r eng') :
      CallEnds eng now (.createRegion request actorPublicKey) (r.map Reply.region) eng'

variable {env}

theorem call_ends (eng : KernelEngine) (now : ℕ → UInt64) (c : Call) :
    CallEnds env eng now c (eng.call env now c).1 (eng.call env now c).2 := by
  cases c with
  | originCreate request =>
    simp only [KernelEngine.call, Call.proc, Proc.exec_map]
    exact .origin (originCreate_ends eng now request)
  | certify vectorId =>
    simp only [KernelEngine.call, Call.proc, Proc.exec_map]
    exact .update rfl (updateVector_ends eng _)
  | transfer fromId toId amount =>
    simp only [KernelEngine.call, Call.proc, Proc.exec_map]
    exact .transfer (transfer_ends eng now fromId toId amount)
  | drain vectorId basisPoints =>
    simp only [KernelEngine.call, Call.proc, Proc.exec_map]
    exact .update rfl (updateVector_ends eng _)
  | project vectorId projectedComponents escrowId =>
    simp only [KernelEngine.call, Call.proc, Proc.exec_map]
    exact .update rfl (updateVector_ends eng _)
  | reconstruct vectorId outcome =>
    simp only [KernelEngine.call, Call.proc, Proc.exec_map]
    exact .update rfl (updateVector_ends eng _)
  | createRegion request actorPublicKey =>
    simp only [KernelEngine.call, Call.proc, Proc.exec_map]
    exact .region (createRegion_ends eng now request actorPublicKey)

/-- How an update on one vector ends, and what its call makes of it. -/
theorem call_update_ends (eng : KernelEngine) {now : ℕ → UInt64} {c : Call} {u : Update}
    (hupdate : c.update? env now = some u) :
    ∃ r eng', UpdateEnds env eng u r eng' ∧ eng.call env now c = (r.map Reply.vector, eng') := by
  have hends : CallEnds env eng now c _ _ := call_ends eng now c
  rcases hcall : eng.call env now c with ⟨result, eng'⟩
  rw [hcall] at hends
  cases hends with
  | update hupdate' h =>
    obtain rfl := Option.some.inj (hupdate.symm.trans hupdate')
    exact ⟨_, _, h, rfl⟩
  | origin _ => cases hupdate
  | transfer _ => cases hupdate
  | region _ => cases hupdate

theorem call_originCreate_ends (eng : KernelEngine) (now : ℕ → UInt64) (request : OriginRequest) :
    ∃ r eng', OriginEnds env eng now request r eng' ∧
      eng.call env now (.originCreate request) = (r.map Reply.vector, eng') :=
  ⟨_, _, originCreate_ends eng now request, Proc.exec_map _ _ _⟩

theorem call_transfer_ends (eng : KernelEngine) (now : ℕ → UInt64) (fromId toId : String)
    (amount : List U128) :
    ∃ r eng', TransferEnds env eng now fromId toId amount r eng' ∧
      eng.call env now (.transfer fromId toId amount) =
        (r.map (fun states => Reply.vectors states.1 states.2), eng') :=
  ⟨_, _, transfer_ends eng now fromId toId amount, Proc.exec_map _ _ _⟩

theorem call_createRegion_ends (eng : KernelEngine) (now : ℕ → UInt64)
    (request : RegionCreateRequest) (actorPublicKey : String) :
    ∃ r eng', RegionEnds env eng now request actorPublicKey r eng' ∧
      eng.call env now (.createRegion request actorPublicKey) = (r.map Reply.region, eng') :=
  ⟨_, _, createRegion_ends eng now request actorPublicKey, Proc.exec_map _ _ _⟩

/-! ## Calls that go through -/

/-- An update whose parts all succeed. -/
theorem call_of_update {eng : KernelEngine} {now : ℕ → UInt64} {c : Call} {u : Update}
    {before after : VectorStateV1} {r : VectorRecordV1} {e : VectorEvent}
    (hupdate : c.update? env now = some u) (hplan : u.plan eng = .ok (before, after))
    (hrecord : u.record before after = .ok r) (hevent : u.event env eng before after = .ok e) :
    eng.call env now c =
      (.ok (.vector after), ((eng.withState after).withRecord r).addEvent e) := by
  obtain ⟨result, eng', h, hcall⟩ := call_update_ends eng hupdate
  rw [hcall]
  cases h with
  | rejected hplan' => exact absurd (hplan.symm.trans hplan') (by simp)
  | unrecorded _ _ hplan' hrecord' =>
    obtain ⟨rfl, rfl⟩ := Prod.mk.inj (Except.ok.inj (hplan.symm.trans hplan'))
    exact absurd (hrecord.symm.trans hrecord') (by simp)
  | unappended _ _ _ hplan' _ hevent' =>
    obtain ⟨rfl, rfl⟩ := Prod.mk.inj (Except.ok.inj (hplan.symm.trans hplan'))
    exact absurd (hevent.symm.trans hevent') (by simp)
  | done _ _ _ _ hplan' hrecord' hevent' =>
    obtain ⟨rfl, rfl⟩ := Prod.mk.inj (Except.ok.inj (hplan.symm.trans hplan'))
    obtain rfl := Except.ok.inj (hrecord.symm.trans hrecord')
    obtain rfl := Except.ok.inj (hevent.symm.trans hevent')
    rfl

/-- An update that its first checks turn down. -/
theorem call_of_plan_error {eng : KernelEngine} {now : ℕ → UInt64} {c : Call} {u : Update}
    {f : Failure KernelXError} (hupdate : c.update? env now = some u)
    (hplan : u.plan eng = .error f) : eng.call env now c = (.error f, eng) := by
  obtain ⟨result, eng', h, hcall⟩ := call_update_ends eng hupdate
  rw [hcall]
  cases h with
  | rejected hplan' =>
    obtain rfl := Except.error.inj (hplan.symm.trans hplan')
    rfl
  | unrecorded _ _ hplan' _ => exact absurd (hplan.symm.trans hplan') (by simp)
  | unappended _ _ _ hplan' _ _ => exact absurd (hplan.symm.trans hplan') (by simp)
  | done _ _ _ _ hplan' _ _ => exact absurd (hplan.symm.trans hplan') (by simp)

theorem call_of_transferPlan_error {eng : KernelEngine} {now : ℕ → UInt64} {fromId toId : String}
    {amount : List U128} {f : Failure KernelXError}
    (hplan : transferPlan env eng now fromId toId amount = .error f) :
    eng.call env now (.transfer fromId toId amount) = (.error f, eng) := by
  obtain ⟨result, eng', h, hcall⟩ := call_transfer_ends eng now fromId toId amount
  rw [hcall]
  cases h with
  | rejected hplan' =>
    obtain rfl := Except.error.inj (hplan.symm.trans hplan')
    rfl
  | unrecorded _ hplan' _ => exact absurd (hplan.symm.trans hplan') (by simp)
  | unappended _ _ _ hplan' _ _ => exact absurd (hplan.symm.trans hplan') (by simp)
  | halfway _ _ _ _ hplan' _ _ _ => exact absurd (hplan.symm.trans hplan') (by simp)
  | done _ _ _ _ _ hplan' _ _ _ => exact absurd (hplan.symm.trans hplan') (by simp)

/-! ## Calls that returned `Ok` -/

theorem update_of_ok {eng : KernelEngine} {now : ℕ → UInt64} {c : Call} {u : Update}
    (hupdate : c.update? env now = some u) (hok : (eng.call env now c).1.IsOk) :
    ∃ before after r e, u.plan eng = .ok (before, after) ∧ u.record before after = .ok r ∧
      u.event env eng before after = .ok e ∧
      eng.call env now c =
        (.ok (.vector after), ((eng.withState after).withRecord r).addEvent e) := by
  obtain ⟨result, eng', h, hcall⟩ := call_update_ends eng hupdate
  rw [hcall] at hok ⊢
  cases h with
  | rejected _ => exact absurd hok (Outcome.not_isOk_error _)
  | unrecorded _ _ _ _ => exact absurd hok (Outcome.not_isOk_error _)
  | unappended _ _ _ _ _ _ => exact absurd hok (Outcome.not_isOk_error _)
  | done before after r e hplan hrecord hevent =>
    exact ⟨before, after, r, e, hplan, hrecord, hevent, rfl⟩

theorem origin_of_ok {eng : KernelEngine} {now : ℕ → UInt64} {request : OriginRequest}
    (hok : (eng.call env now (.originCreate request)).1.IsOk) :
    ∃ s e, originState env now request = .ok s ∧ originEvent env eng s = .ok e ∧
      eng.call env now (.originCreate request) = (.ok (.vector s),
        ((eng.withState s).withRecord (originRecord env request.difficulty now s)).addEvent e) := by
  obtain ⟨result, eng', h, hcall⟩ := call_originCreate_ends eng now request
  rw [hcall] at hok ⊢
  cases h with
  | rejected _ => exact absurd hok (Outcome.not_isOk_error _)
  | unappended _ _ _ => exact absurd hok (Outcome.not_isOk_error _)
  | done s e hplan hevent => exact ⟨s, e, hplan, hevent, rfl⟩

theorem transfer_of_ok {eng : KernelEngine} {now : ℕ → UInt64} {fromId toId : String}
    {amount : List U128} (hok : (eng.call env now (.transfer fromId toId amount)).1.IsOk) :
    ∃ plan sr rr es er, transferPlan env eng now fromId toId amount = .ok plan ∧
      plan.records env now amount = .ok (sr, rr) ∧ plan.senderEvent env eng now = .ok es ∧
      plan.receiverEvent env (eng.addEvent es) now = .ok er ∧
      eng.call env now (.transfer fromId toId amount) =
        (.ok (.vectors plan.afterFrom plan.afterTo),
          ((((plan.store eng).withRecord sr).withRecord rr).addEvent es).addEvent er) := by
  obtain ⟨result, eng', h, hcall⟩ := call_transfer_ends eng now fromId toId amount
  rw [hcall] at hok ⊢
  cases h with
  | rejected _ => exact absurd hok (Outcome.not_isOk_error _)
  | unrecorded _ _ _ => exact absurd hok (Outcome.not_isOk_error _)
  | unappended _ _ _ _ _ _ => exact absurd hok (Outcome.not_isOk_error _)
  | halfway _ _ _ _ _ _ _ _ => exact absurd hok (Outcome.not_isOk_error _)
  | done plan sr rr es er hplan hrecords hsender hreceiver =>
    exact ⟨plan, sr, rr, es, er, hplan, hrecords, hsender, hreceiver, rfl⟩

theorem region_of_ok {eng : KernelEngine} {now : ℕ → UInt64} {request : RegionCreateRequest}
    {actorPublicKey : String}
    (hok : (eng.call env now (.createRegion request actorPublicKey)).1.IsOk) :
    ∃ e region, regionEvent env now request actorPublicKey eng = .ok e ∧
      Admissible env eng.store e ∧ regionStateFromEvent e = .ok region ∧
      eng.call env now (.createRegion request actorPublicKey) =
        (.ok (.region region), eng.addEvent e) := by
  obtain ⟨result, eng', h, hcall⟩ := call_createRegion_ends eng now request actorPublicKey
  rw [hcall] at hok ⊢
  cases h with
  | rejected _ => exact absurd hok (Outcome.not_isOk_error _)
  | unappended _ _ _ => exact absurd hok (Outcome.not_isOk_error _)
  | unreadable _ _ _ _ => exact absurd hok (Outcome.not_isOk_error _)
  | done e region hevent hadmits hregion => exact ⟨e, region, hevent, hadmits, hregion, rfl⟩

end

end VKernelX
