/-
  Engine/Writes.lean --- runs of the engine, and the elementary writes they are made of.

  However a call ends, the engine it leaves comes from the one it started in by storing
  checked states, offering records and appending admitted events.  So what each such write
  keeps, every run keeps.
-/
import VKernelX.Engine.Specs

set_option autoImplicit false

namespace VKernelX

open Relation

/-! ## Runs -/

/-- A call together with the clock readings it gets. -/
structure TimedCall where
  call : Call
  now : ℕ → UInt64

/-- An engine that has stored nothing yet. -/
def KernelEngine.initial (policy : ConsensusPolicy) : KernelEngine :=
  { store := MemoryStore.empty, consensus := policy }

section

variable (env : Platform)

/-- Make a call and go on, however it ended. -/
def engineStep (eng : KernelEngine) (c : TimedCall) : KernelEngine :=
  (eng.call env c.now c.call).2

/-- The engine a list of calls leads to from an empty one. -/
abbrev engineRun (policy : ConsensusPolicy) (calls : List TimedCall) : KernelEngine :=
  runFrom (engineStep env) (KernelEngine.initial policy) calls

/-- The engines that calls lead to from an empty one. -/
abbrev ReachableEngine (policy : ConsensusPolicy) (eng : KernelEngine) : Prop :=
  Reachable (engineStep env) (KernelEngine.initial policy) eng

/-- A creation that no proof of work stands in the way of. -/
def sampleOrigin (vectorId : String) (components : List U128) : OriginRequest where
  vectorId := vectorId
  ownerPubkey := "o"
  spaceId := "s"
  components := components
  seed := "seed"
  nonce := 0
  difficulty := 0

/-- A call made while the clock stands still at `t`. -/
def callAt (t : UInt64) (c : Call) : TimedCall := { call := c, now := fun _ => t }

/-- The engine a list of calls leads to under the default policy. -/
def engineAfter (calls : List TimedCall) : KernelEngine :=
  engineRun env ConsensusPolicy.default calls

theorem engineAfter_reachable (calls : List TimedCall) :
    ReachableEngine env ConsensusPolicy.default (engineAfter env calls) := ⟨calls, rfl⟩

/-- What is hashed for the events of an engine. -/
def KernelEngine.eventInputs (eng : KernelEngine) : List (List UInt8) :=
  eng.store.listEvents.flatMap (fun e => [canonicalEventPayloadBytes e, canonicalEventBytes e])

/-- A platform for a run: it tells the run's own events apart by short digests, and has no
collisions. -/
def platformFor (calls : List TimedCall) : Platform :=
  separatedPlatform (engineAfter samplePlatform calls).eventInputs

theorem platformFor_collisionFree (calls : List TimedCall)
    (h : ((engineAfter samplePlatform calls).eventInputs.map shortDigest).Nodup) :
    (platformFor calls).CollisionFree := separatedDigest_injective h

/-- One stored vector with balance 5. -/
def oneVector : List TimedCall := [callAt 1 (.originCreate (sampleOrigin "a" [5]))]

/-- One stored vector with balance 3 and an escrow of 2. -/
def escrowedVector : List TimedCall := oneVector ++ [callAt 2 (.project "a" [2] "x")]

/-! ## Writes -/

/-- The parents the engine gives an event: none, or the latest event of the entity. -/
def ParentsChosen (eng : KernelEngine) (e : VectorEvent) : Prop :=
  e.parentHashes = [] ∨ e.parentHashes = eng.latestParentHashForEntity e.entityId

/-- One write. -/
inductive EngineWrite : KernelEngine → KernelEngine → Prop where
  | state {eng : KernelEngine} (s : VectorStateV1) (h : CanonicalState s) :
      EngineWrite eng (eng.withState s)
  | record {eng : KernelEngine} (r : VectorRecordV1) : EngineWrite eng (eng.withRecord r)
  | event {eng : KernelEngine} (e : VectorEvent) (hparents : ParentsChosen eng e)
      (hadmissible : Admissible env eng.store e) : EngineWrite eng (eng.addEvent e)

/-- A sequence of writes. -/
abbrev EngineWrites : KernelEngine → KernelEngine → Prop := ReflTransGen (EngineWrite env)

variable {env}

theorem Admissible.congr {store store' : MemoryStore} {e : VectorEvent}
    (h : Admissible env store e) (hevents : store.events = store'.events) :
    Admissible env store' e := by
  obtain ⟨hvalid, hparents, hid, hhash, hfresh, hids⟩ := h
  refine ⟨hvalid, ?_, hid, hhash, ?_, ?_⟩
  · rwa [← hevents]
  · rwa [← hevents]
  · rwa [MemoryStore.listEvents, ← hevents]

theorem ParentsChosen.congr {eng eng' : KernelEngine} {e : VectorEvent}
    (h : ParentsChosen eng e) (hevents : eng.store.events = eng'.store.events) :
    ParentsChosen eng' e := by
  rwa [ParentsChosen, ← latestParent_congr hevents]

/-- Storing an admitted transition event is a write with parents as the engine chooses
them. -/
theorem EngineWrite.transition {eng eng' : KernelEngine} {before : Option VectorStateV1}
    {after : VectorStateV1} {operation : OperationType} {timestamp : UInt64}
    {parentHashes : List String} {e : VectorEvent}
    (h : transitionEvent env eng before after operation timestamp parentHashes = .ok e)
    (hparents : parentHashes = [] ∨
      parentHashes = eng.latestParentHashForEntity after.vectorId)
    (hevents : eng.store.events = eng'.store.events) : EngineWrite env eng' (eng'.addEvent e) := by
  obtain ⟨hbuild, hadm⟩ := transitionEvent_eq_ok_iff.mp h
  obtain ⟨hfields, _⟩ := buildTransitionEvent_fields hbuild
  refine .event e (ParentsChosen.congr ?_ hevents) (hadm.congr hevents)
  rw [ParentsChosen, hfields.parentHashes_eq, hfields.entityId_eq]
  exact hparents

/-! ## Calls write -/

/-- Storing a checked state and offering a record. -/
theorem EngineWrites.stateRecord {eng : KernelEngine} {s : VectorStateV1}
    (h : CanonicalState s) (r : VectorRecordV1) :
    EngineWrites env eng ((eng.withState s).withRecord r) :=
  .tail (.single (.state s h)) (.record r)

theorem UpdateEnds.writes {eng eng' : KernelEngine} {u : Update}
    {r : Outcome KernelXError VectorStateV1} (h : UpdateEnds env eng u r eng') :
    EngineWrites env eng eng' := by
  cases h with
  | rejected _ => exact .refl
  | unrecorded before after hplan _ =>
    exact .single (.state after (Update.plan_eq_ok_iff.mp hplan).2.2)
  | unappended before after r hplan _ _ =>
    exact EngineWrites.stateRecord (Update.plan_eq_ok_iff.mp hplan).2.2 r
  | done before after r e hplan _ hevent =>
    refine (EngineWrites.stateRecord (Update.plan_eq_ok_iff.mp hplan).2.2 r).tail ?_
    exact .transition hevent (Or.inr rfl) (by simp)

theorem OriginEnds.writes {eng eng' : KernelEngine} {now : ℕ → UInt64} {request : OriginRequest}
    {r : Outcome KernelXError VectorStateV1} (h : OriginEnds env eng now request r eng') :
    EngineWrites env eng eng' := by
  cases h with
  | rejected _ => exact .refl
  | unappended s hplan _ => exact EngineWrites.stateRecord (originState_canonical hplan) _
  | done s e hplan hevent =>
    refine (EngineWrites.stateRecord (originState_canonical hplan)
      (originRecord env request.difficulty now s)).tail ?_
    exact .transition hevent (Or.inl rfl) (by simp)

theorem TransferPlan.store_writes {eng : KernelEngine} {now : ℕ → UInt64} {fromId toId : String}
    {amount : List U128} {plan : TransferPlan}
    (hplan : transferPlan env eng now fromId toId amount = .ok plan) :
    EngineWrites env eng (plan.store eng) := by
  obtain ⟨hfrom, hto⟩ := transferNext_canonical (transferPlan_eq_ok_iff.mp hplan).2.2
  exact .tail (.single (.state _ hfrom)) (.state _ hto)

theorem TransferPlan.records_writes {eng : KernelEngine} {now : ℕ → UInt64}
    {fromId toId : String} {amount : List U128} {plan : TransferPlan}
    (hplan : transferPlan env eng now fromId toId amount = .ok plan) (sr rr : VectorRecordV1) :
    EngineWrites env eng (((plan.store eng).withRecord sr).withRecord rr) :=
  .tail (.tail (TransferPlan.store_writes hplan) (.record sr)) (.record rr)

@[simp] theorem TransferPlan.events_store (plan : TransferPlan) (eng : KernelEngine) :
    (plan.store eng).store.events = eng.store.events := rfl

theorem TransferEnds.writes {eng eng' : KernelEngine} {now : ℕ → UInt64} {fromId toId : String}
    {amount : List U128} {r : Outcome KernelXError (VectorStateV1 × VectorStateV1)}
    (h : TransferEnds env eng now fromId toId amount r eng') : EngineWrites env eng eng' := by
  cases h with
  | rejected _ => exact .refl
  | unrecorded plan hplan _ => exact TransferPlan.store_writes hplan
  | unappended plan sr rr hplan _ _ => exact TransferPlan.records_writes hplan sr rr
  | halfway plan sr rr es hplan _ hsender _ =>
    refine (TransferPlan.records_writes hplan sr rr).tail ?_
    exact .transition hsender (Or.inr rfl) (by simp)
  | done plan sr rr es er hplan _ hsender hreceiver =>
    have hhalf : EngineWrites env eng
        ((((plan.store eng).withRecord sr).withRecord rr).addEvent es) :=
      (TransferPlan.records_writes hplan sr rr).tail
        (.transition hsender (Or.inr rfl) (by simp))
    refine hhalf.tail ?_
    exact .transition hreceiver (Or.inr rfl) (by simp)

theorem RegionEnds.writes {eng eng' : KernelEngine} {now : ℕ → UInt64}
    {request : RegionCreateRequest} {actorPublicKey : String}
    {r : Outcome KernelXError RegionState}
    (h : RegionEnds env eng now request actorPublicKey r eng') : EngineWrites env eng eng' := by
  cases h with
  | rejected _ => exact .refl
  | unappended e _ _ => exact .refl
  | unreadable e hevent hadmits _ =>
    exact .single (.event e (Or.inl (buildRegionGenesisEvent_parents (regionEvent_built hevent)))
      hadmits)
  | done e region hevent hadmits _ =>
    exact .single (.event e (Or.inl (buildRegionGenesisEvent_parents (regionEvent_built hevent)))
      hadmits)

theorem CallEnds.writes {eng eng' : KernelEngine} {now : ℕ → UInt64} {c : Call}
    {r : Outcome KernelXError Reply} (h : CallEnds env eng now c r eng') :
    EngineWrites env eng eng' := by
  cases h with
  | update _ h => exact h.writes
  | origin h => exact h.writes
  | transfer h => exact h.writes
  | region h => exact h.writes

theorem EngineWrites.invariant {I : KernelEngine → Prop}
    (hwrite : ∀ eng eng', EngineWrite env eng eng' → I eng → I eng') {eng eng' : KernelEngine}
    (hwrites : EngineWrites env eng eng') (h : I eng) : I eng' := by
  induction hwrites with
  | refl => exact h
  | tail _ hlast ih => exact hwrite _ _ hlast ih

/-- What an empty engine has and every write keeps holds in every reachable engine. -/
theorem ReachableEngine.invariant {policy : ConsensusPolicy} {I : KernelEngine → Prop}
    (hinitial : I (KernelEngine.initial policy))
    (hwrite : ∀ eng eng', EngineWrite env eng eng' → I eng → I eng') {eng : KernelEngine}
    (h : ReachableEngine env policy eng) : I eng :=
  Reachable.invariant _ _ hinitial
    (fun eng c hI => EngineWrites.invariant hwrite (call_ends eng c.now c.call).writes hI) h

/-! ## Keys -/

/-- Every map of the store is keyed by its values' own keys, and states are canonical. -/
structure WellKeyed (store : MemoryStore) : Prop where
  states : ∀ (id : String) (s : VectorStateV1), store.states[id]? = some s →
    s.vectorId = id ∧ CanonicalState s
  records : ∀ (id : String) (r : VectorRecordV1), store.records[id]? = some r → r.recordId = id
  events : ∀ (hash : String) (e : VectorEvent), store.events[hash]? = some e →
    e.eventHash = hash

theorem EngineWrite.wellKeyed {eng eng' : KernelEngine} (hwrite : EngineWrite env eng eng')
    (h : WellKeyed eng.store) : WellKeyed eng'.store := by
  cases hwrite with
  | state s hs =>
    refine ⟨?_, h.records, h.events⟩
    intro id s' hs'
    rw [KernelEngine.states_withState, BTreeMap.lookup_insert] at hs'
    split at hs'
    · rename_i hid
      obtain rfl := Option.some.inj hs'
      exact ⟨hid, hs⟩
    · exact h.states id s' hs'
  | record r =>
    refine ⟨?_, ?_, ?_⟩
    · simpa using h.states
    · intro id r' hr'
      rw [KernelEngine.records_withRecord] at hr'
      split at hr'
      · rw [BTreeMap.lookup_insert] at hr'
        split at hr'
        · rename_i hid
          obtain rfl := Option.some.inj hr'
          exact hid
        · exact h.records id r' hr'
      · exact h.records id r' hr'
    · simpa using h.events
  | event e _ _ =>
    refine ⟨h.states, h.records, ?_⟩
    intro hash e' he'
    rw [KernelEngine.events_addEvent, BTreeMap.lookup_insert] at he'
    split at he'
    · rename_i hhash
      obtain rfl := Option.some.inj he'
      exact hhash
    · exact h.events hash e' he'

theorem wellKeyed_initial (policy : ConsensusPolicy) :
    WellKeyed (KernelEngine.initial policy).store := by
  refine ⟨?_, ?_, ?_⟩ <;> intro _ _ h <;> simp [KernelEngine.initial, MemoryStore.empty] at h

theorem ReachableEngine.wellKeyed {policy : ConsensusPolicy} {eng : KernelEngine}
    (h : ReachableEngine env policy eng) : WellKeyed eng.store :=
  h.invariant (wellKeyed_initial policy) (fun _ _ hwrite hI => hwrite.wellKeyed hI)

/-! ## Stored states -/

/-- What a call can make of the stored states. -/
inductive StatesChange (env : Platform) (eng : KernelEngine) (now : ℕ → UInt64) (c : Call) :
    BTreeMap String VectorStateV1 → Prop where
  | none : StatesChange env eng now c eng.store.states
  | update (u : Update) (before after : VectorStateV1) (hupdate : c.update? env now = some u)
      (hplan : u.plan eng = .ok (before, after)) :
      StatesChange env eng now c (eng.store.states.insert after.vectorId after)
  | origin (request : OriginRequest) (s : VectorStateV1) (hcall : c = .originCreate request)
      (hplan : originState env now request = .ok s) :
      StatesChange env eng now c (eng.store.states.insert s.vectorId s)
  | transfer (fromId toId : String) (amount : List U128) (plan : TransferPlan)
      (hcall : c = .transfer fromId toId amount)
      (hplan : transferPlan env eng now fromId toId amount = .ok plan) :
      StatesChange env eng now c ((eng.store.states.insert plan.afterFrom.vectorId
        plan.afterFrom).insert plan.afterTo.vectorId plan.afterTo)

theorem TransferPlan.states_store (plan : TransferPlan) (eng : KernelEngine) :
    (plan.store eng).store.states = (eng.store.states.insert plan.afterFrom.vectorId
      plan.afterFrom).insert plan.afterTo.vectorId plan.afterTo := rfl

theorem CallEnds.states {eng eng' : KernelEngine} {now : ℕ → UInt64} {c : Call}
    {r : Outcome KernelXError Reply} (h : CallEnds env eng now c r eng') :
    StatesChange env eng now c eng'.store.states := by
  cases h with
  | update hupdate h =>
    cases h with
    | rejected _ => exact .none
    | unrecorded before after hplan _ => exact .update _ before after hupdate hplan
    | unappended before after r hplan _ _ =>
      rw [KernelEngine.states_withRecord]
      exact .update _ before after hupdate hplan
    | done before after r e hplan _ _ =>
      rw [KernelEngine.states_addEvent, KernelEngine.states_withRecord]
      exact .update _ before after hupdate hplan
  | @origin request _ _ h =>
    cases h with
    | rejected _ => exact .none
    | unappended s hplan _ =>
      rw [KernelEngine.states_withRecord]
      exact .origin request s rfl hplan
    | done s e hplan _ =>
      rw [KernelEngine.states_addEvent, KernelEngine.states_withRecord]
      exact .origin request s rfl hplan
  | @transfer fromId toId amount _ _ h =>
    cases h with
    | rejected _ => exact .none
    | unrecorded plan hplan _ => exact .transfer fromId toId amount plan rfl hplan
    | unappended plan sr rr hplan _ _ =>
      rw [KernelEngine.states_withRecord, KernelEngine.states_withRecord]
      exact .transfer fromId toId amount plan rfl hplan
    | halfway plan sr rr es hplan _ _ _ =>
      rw [KernelEngine.states_addEvent, KernelEngine.states_withRecord,
        KernelEngine.states_withRecord]
      exact .transfer fromId toId amount plan rfl hplan
    | done plan sr rr es er hplan _ _ _ =>
      rw [KernelEngine.states_addEvent, KernelEngine.states_addEvent,
        KernelEngine.states_withRecord, KernelEngine.states_withRecord]
      exact .transfer fromId toId amount plan rfl hplan
  | region h =>
    cases h with
    | rejected _ => exact .none
    | unappended _ _ _ => exact .none
    | unreadable e _ _ _ => exact .none
    | done e region _ _ _ => exact .none

/-- Every stored state is sound. -/
def SoundStates (store : MemoryStore) : Prop :=
  ∀ (id : String) (s : VectorStateV1), store.states[id]? = some s → SoundState s

theorem forall_lookup_insert {P : VectorStateV1 → Prop} {m : BTreeMap String VectorStateV1}
    (h : ∀ (id : String) (s : VectorStateV1), m[id]? = some s → P s) {key : String}
    {s : VectorStateV1} (hs : P s) :
    ∀ (id : String) (s' : VectorStateV1), (m.insert key s)[id]? = some s' → P s' := by
  intro id s' hs'
  rw [BTreeMap.lookup_insert] at hs'
  split at hs'
  · obtain rfl := Option.some.inj hs'
    exact hs
  · exact h id s' hs'

theorem SoundStates.call {eng : KernelEngine} (h : SoundStates eng.store) (now : ℕ → UInt64)
    (c : Call) : SoundStates (eng.call env now c).2.store := by
  have hchange := (show CallEnds env eng now c _ _ from call_ends eng now c).states
  unfold SoundStates
  generalize (eng.call env now c).2.store.states = states at hchange
  cases hchange with
  | none => exact h
  | update u before after hupdate hplan =>
    obtain ⟨hbefore, hnext, hcanonical⟩ := Update.plan_eq_ok_iff.mp hplan
    exact forall_lookup_insert h (update_next_ok hupdate hnext (h _ _ hbefore) hcanonical).2
  | origin request s _ hplan =>
    exact forall_lookup_insert h ((originState_ok hplan).sound (originState_canonical hplan))
  | transfer fromId toId amount plan _ hplan =>
    obtain ⟨hsender, hreceiver, hnext⟩ := transferPlan_eq_ok_iff.mp hplan
    obtain ⟨hfrom, hto⟩ := transferNext_canonical hnext
    obtain ⟨hsoundFrom, hsoundTo⟩ := (transferNext_ok hnext).sound (h _ _ hsender)
      (h _ _ hreceiver) hfrom hto
    exact forall_lookup_insert (forall_lookup_insert h hsoundFrom) hsoundTo

theorem ReachableEngine.soundStates {policy : ConsensusPolicy} {eng : KernelEngine}
    (h : ReachableEngine env policy eng) : SoundStates eng.store := by
  refine Reachable.invariant _ _ (I := fun eng => SoundStates eng.store) ?_
    (fun eng c hI => SoundStates.call hI c.now c.call) h
  intro id s hs
  simp [KernelEngine.initial, MemoryStore.empty] at hs

theorem ReachableEngine.consensus {policy : ConsensusPolicy} {eng : KernelEngine}
    (h : ReachableEngine env policy eng) : eng.consensus = policy := by
  refine ReachableEngine.invariant (I := fun eng => eng.consensus = policy) rfl ?_ h
  intro eng eng' hwrite hI
  cases hwrite <;> simpa using hI

end

end VKernelX
