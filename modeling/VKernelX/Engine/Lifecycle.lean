/-
  Engine/Lifecycle.lean --- the phases of a vector's life.

  A stored vector is active, projected or settled, and its projection slot shows which.  Each
  operation either keeps the phase or moves to the one it is named after; a vector's length is
  fixed by the creation that stored it last.
-/
import VKernelX.Engine.Frame

set_option autoImplicit false

namespace VKernelX

/-! ## Phases -/

/-- The phase a vector is in, as its status and its projection slot show it. -/
inductive Phase (s : VectorStateV1) : Prop where
  | active (hstatus : s.status = .active) (hprojection : s.projection = none)
  | projected (p : ProjectionState) (hstatus : s.status = .projected)
      (hprojection : s.projection = some p) (hsettlement : p.settlementAtMs = none)
      (htag : p.outcomeTag = none) (hsettled : p.settledComponents = [])
  | settled (p : ProjectionState) (t : UInt64) (tag : String) (hstatus : s.status = .settled)
      (hprojection : s.projection = some p) (hsettlement : p.settlementAtMs = some t)
      (htag : p.outcomeTag = some tag)
      (hsettled : p.settledComponents.length = s.components.length)

/-- A vector type that records an operation goes with the phase that operation leads to. -/
structure TypeFitsStatus (s : VectorStateV1) : Prop where
  origin : s.vectorType = .origin → s.status = .active
  projected : s.vectorType = .projected → s.status = .projected
  settlement : s.vectorType = .settlement → s.status = .settled

/-- A phase with its type, on a state that the engine may store. -/
structure InPhase (s : VectorStateV1) : Prop where
  phase : Phase s
  type : TypeFitsStatus s

/-- A state with the same status, projection and length is in the same phase. -/
theorem Phase.congr {s after : VectorStateV1} (h : Phase s) (hstatus : after.status = s.status)
    (hprojection : after.projection = s.projection)
    (hlength : after.components.length = s.components.length) : Phase after := by
  cases h with
  | active hactive hnone => exact .active (hstatus.trans hactive) (hprojection.trans hnone)
  | projected p hprojected hsome hsettlement htag hsettled =>
    exact .projected p (hstatus.trans hprojected) (hprojection.trans hsome) hsettlement htag
      hsettled
  | settled p t tag hsettledStatus hsome hsettlement htag hsettled =>
    exact .settled p t tag (hstatus.trans hsettledStatus) (hprojection.trans hsome) hsettlement
      htag (hsettled.trans hlength.symm)

theorem TypeFitsStatus.congr {s after : VectorStateV1} (h : TypeFitsStatus s)
    (htype : after.vectorType = s.vectorType) (hstatus : after.status = s.status) :
    TypeFitsStatus after := by
  refine ⟨?_, ?_, ?_⟩ <;> rw [htype, hstatus]
  · exact h.origin
  · exact h.projected
  · exact h.settlement

/-- A standard vector may be in any phase. -/
theorem typeFitsStatus_standard {s : VectorStateV1} (h : s.vectorType = .standard) :
    TypeFitsStatus s := by
  refine ⟨?_, ?_, ?_⟩ <;> intro htype <;> rw [h] at htype <;> cases htype

/-! ## Operations -/

variable {env : Platform}

/-- The settlement loop settles every entry. -/
theorem settleLoop_settled_length {index : ℕ} {entries : List ((U128 × U128) × U128)}
    {restored settled restored' settled' : List U128}
    (h : settleLoop index entries restored settled = .ok (restored', settled')) :
    settled'.length = settled.length + entries.length := by
  induction entries generalizing index restored settled with
  | nil =>
    obtain ⟨_, rfl⟩ := Prod.mk.inj (Except.ok.inj h)
    rfl
  | cons entry entries ih =>
    obtain ⟨⟨principal, gain⟩, loss⟩ := entry
    rw [settleLoop] at h
    split at h
    · cases h
    · have := ih h
      rw [List.length_append, List.length_singleton] at this
      rw [List.length_cons]
      omega

theorem update_next_inPhase {now : ℕ → UInt64} {c : Call} {u : Update}
    (hupdate : c.update? env now = some u) {s after : VectorStateV1} (h : u.next s = .ok after)
    (hsound : SoundState s) (hphase : InPhase s) : InPhase after := by
  have hlength := update_next_length hupdate h hsound
  cases c with
  | certify vectorId =>
    obtain rfl := Option.some.inj hupdate
    simp only [certifyNext, Outcome.bind_eq_ok_iff] at h
    obtain ⟨_, _, _, _, hafter⟩ := h
    obtain rfl := Except.ok.inj hafter
    exact ⟨hphase.phase.congr rfl rfl hlength, hphase.type.congr rfl rfl⟩
  | drain vectorId basisPoints =>
    obtain rfl := Option.some.inj hupdate
    simp only [drainNext, Outcome.bind_eq_ok_iff] at h
    obtain ⟨⟨_, _⟩, _, _, _, _, _, hafter⟩ := h
    obtain rfl := Except.ok.inj hafter
    exact ⟨hphase.phase.congr rfl rfl hlength, hphase.type.congr rfl rfl⟩
  | project vectorId projected escrowId =>
    obtain rfl := Option.some.inj hupdate
    simp only [projectNext, projectVector, Outcome.bind_eq_ok_iff] at h
    obtain ⟨_, ⟨_, _, _, _, _, _, hmid⟩, _, _, hafter⟩ := h
    obtain rfl := Except.ok.inj hmid
    obtain rfl := Except.ok.inj hafter
    refine ⟨.projected _ rfl rfl rfl rfl rfl, ?_, fun _ => rfl, ?_⟩ <;> intro htype <;> cases htype
  | reconstruct vectorId outcome =>
    obtain rfl := Option.some.inj hupdate
    simp only [reconstructNext, reconstructVector, Outcome.bind_eq_ok_iff,
      Outcome.okOr_eq_ok_iff, Outcome.require_eq_ok_iff] at h
    obtain ⟨_, ⟨p, hp, _, ⟨hgains, hlosses⟩, ⟨restored, settled⟩, hloop, _, _, hmid⟩, _, _,
      hafter⟩ := h
    have hsettled := settleLoop_settled_length hloop
    rw [List.length_zip, List.length_zip, List.length_nil] at hsettled
    have hshape := hsound.shape p hp
    have hsettledLength : settled.length = after.components.length := by
      rw [hlength]
      omega
    obtain rfl := Except.ok.inj hmid
    obtain rfl := Except.ok.inj hafter
    refine ⟨.settled _ (now 0) outcome.outcomeTag rfl rfl rfl rfl hsettledLength, ?_, ?_,
      fun _ => rfl⟩ <;> intro htype <;> cases htype
  | originCreate _ => cases hupdate
  | transfer _ _ _ => cases hupdate
  | createRegion _ _ => cases hupdate

/-- A transfer keeps both phases and makes both vectors standard. -/
theorem transferNext_inPhase {now : ℕ → UInt64} {amount : List U128}
    {sender receiver afterFrom afterTo : VectorStateV1}
    (h : transferNext env now amount sender receiver = .ok (afterFrom, afterTo))
    (hsender : InPhase sender) (hreceiver : InPhase receiver) :
    InPhase afterFrom ∧ InPhase afterTo := by
  have htransfers := transferNext_ok h
  simp only [transferNext, transferComponents, Outcome.bind_eq_ok_iff] at h
  obtain ⟨⟨_, _⟩, ⟨_, _, _, _, _, _, hmid⟩, _, _, _, _, _, _, _, _, hafter⟩ := h
  obtain ⟨rfl, rfl⟩ := Prod.mk.inj (Except.ok.inj hmid)
  obtain ⟨rfl, rfl⟩ := Prod.mk.inj (Except.ok.inj hafter)
  exact ⟨⟨hsender.phase.congr rfl rfl htransfers.length_from, typeFitsStatus_standard rfl⟩,
    ⟨hreceiver.phase.congr rfl rfl htransfers.length_to, typeFitsStatus_standard rfl⟩⟩

theorem originState_inPhase {now : ℕ → UInt64} {request : OriginRequest} {s : VectorStateV1}
    (h : originState env now request = .ok s) : InPhase s := by
  simp only [originState, createOriginVector, Outcome.bind_eq_ok_iff] at h
  obtain ⟨_, ⟨_, _, hmid⟩, _, _, _, _, _, _, hs⟩ := h
  obtain rfl := Except.ok.inj hmid
  obtain rfl := Except.ok.inj hs
  refine ⟨.active rfl rfl, fun _ => rfl, ?_, ?_⟩ <;> intro htype <;> cases htype

/-! ## Runs -/

/-- Every stored vector is in a phase. -/
def StatesInPhase (states : BTreeMap String VectorStateV1) : Prop :=
  ∀ (id : String) (s : VectorStateV1), states[id]? = some s → InPhase s

theorem StatesChange.inPhase {eng : KernelEngine} {now : ℕ → UInt64} {c : Call}
    {states : BTreeMap String VectorStateV1} (h : StatesChange env eng now c states)
    (hsound : SoundStates eng.store) (hphase : StatesInPhase eng.store.states) :
    StatesInPhase states := by
  cases h with
  | none => exact hphase
  | update u before after hupdate hplan =>
    obtain ⟨hbefore, hnext, _⟩ := Update.plan_eq_ok_iff.mp hplan
    exact forall_lookup_insert hphase
      (update_next_inPhase hupdate hnext (hsound _ _ hbefore) (hphase _ _ hbefore))
  | origin request s _ hplan => exact forall_lookup_insert hphase (originState_inPhase hplan)
  | transfer fromId toId amount plan _ hplan =>
    obtain ⟨hsender, hreceiver, hnext⟩ := transferPlan_eq_ok_iff.mp hplan
    obtain ⟨hfrom, hto⟩ :=
      transferNext_inPhase hnext (hphase _ _ hsender) (hphase _ _ hreceiver)
    exact forall_lookup_insert (forall_lookup_insert hphase hfrom) hto

theorem ReachableEngine.statesInPhase {policy : ConsensusPolicy} {eng : KernelEngine}
    (h : ReachableEngine env policy eng) : StatesInPhase eng.store.states := by
  refine Reachable.invariant_of_reachable _ _ (I := fun eng => StatesInPhase eng.store.states) ?_
    ?_ h
  · intro id s hs
    simp [KernelEngine.initial, MemoryStore.empty] at hs
  · intro eng c hreach hI
    have hends : CallEnds env eng c.now c.call _ _ := call_ends eng c.now c.call
    exact hends.states.inPhase (ReachableEngine.soundStates hreach) hI

/-- A creation that gets past its checks stores its vector, whatever becomes of its event. -/
theorem OriginEnds.states {eng eng' : KernelEngine} {now : ℕ → UInt64} {request : OriginRequest}
    {r : Outcome KernelXError VectorStateV1} (h : OriginEnds env eng now request r eng') :
    eng'.store.states =
      match originState env now request with
      | .ok s => eng.store.states.insert s.vectorId s
      | .error _ => eng.store.states := by
  cases h with
  | rejected hplan => rw [hplan]
  | unappended s hplan _ =>
    rw [hplan, KernelEngine.states_withRecord, KernelEngine.states_withState]
  | done s e hplan _ =>
    rw [hplan, KernelEngine.states_addEvent, KernelEngine.states_withRecord,
      KernelEngine.states_withState]

theorem states_originCreate (eng : KernelEngine) (now : ℕ → UInt64) (request : OriginRequest) :
    (eng.call env now (.originCreate request)).2.store.states =
      match originState env now request with
      | .ok s => eng.store.states.insert s.vectorId s
      | .error _ => eng.store.states := by
  obtain ⟨result, eng', h, hcall⟩ := call_originCreate_ends eng now request
  rw [hcall]
  exact h.states

variable (env)

/-- The number of components a vector had when a run's calls last created it. -/
def createdLength (calls : List TimedCall) (id : String) : Option ℕ :=
  calls.foldl (fun length c =>
    match c.call with
    | .originCreate request =>
        match originState env c.now request with
        | .ok s => if s.vectorId = id then some s.components.length else length
        | .error _ => length
    | _ => length) none

variable {env}

theorem createdLength_origin {calls : List TimedCall} {c : TimedCall} {request : OriginRequest}
    (hc : c.call = .originCreate request) (id : String) :
    createdLength env (calls ++ [c]) id =
      match originState env c.now request with
      | .ok s => if s.vectorId = id then some s.components.length else createdLength env calls id
      | .error _ => createdLength env calls id := by
  rw [createdLength, List.foldl_append, List.foldl_cons, List.foldl_nil, hc]
  rfl

theorem createdLength_other {calls : List TimedCall} {c : TimedCall}
    (hc : ∀ request, c.call ≠ .originCreate request) (id : String) :
    createdLength env (calls ++ [c]) id = createdLength env calls id := by
  rw [createdLength, List.foldl_append, List.foldl_cons, List.foldl_nil]
  split
  · rename_i request heq
    exact absurd heq (hc request)
  · rfl

/-- A creation of regions stores no vector. -/
theorem states_createRegion (eng : KernelEngine) (now : ℕ → UInt64)
    (request : RegionCreateRequest) (actorPublicKey : String) :
    (eng.call env now (.createRegion request actorPublicKey)).2.store.states =
      eng.store.states := by
  have hends : CallEnds env eng now (.createRegion request actorPublicKey) _ _ :=
    call_ends eng now _
  have hchange := hends.states
  generalize (eng.call env now (.createRegion request actorPublicKey)).2.store.states = states
    at hchange
  cases hchange with
  | none => rfl
  | update u _ _ hupdate _ => cases hupdate
  | origin _ _ hcall _ => cases hcall
  | transfer _ _ _ _ hcall _ => cases hcall

/-- A stored vector has the length of its last creation. -/
theorem length_eq_createdLength (policy : ConsensusPolicy) (calls : List TimedCall) {id : String}
    {s : VectorStateV1} (hs : (engineRun env policy calls).store.states[id]? = some s) :
    createdLength env calls id = some s.components.length := by
  induction calls using List.reverseRecOn generalizing id s with
  | nil => simp [KernelEngine.initial, MemoryStore.empty] at hs
  | append_singleton calls c ih =>
    have hreach : ReachableEngine env policy (engineRun env policy calls) := ⟨calls, rfl⟩
    rw [engineRun, runFrom_snoc, engineStep] at hs
    by_cases hmutation : c.call.IsMutation
    · have hother : ∀ request, c.call ≠ .originCreate request := by
        intro request heq
        rw [heq] at hmutation
        exact hmutation
      obtain ⟨hframed, _⟩ := mutation_framed env hreach c.now hmutation
      rw [createdLength_other hother]
      cases hold : (engineRun env policy calls).store.states[id]? with
      | none =>
        rw [(hframed.ids id).mpr hold] at hs
        cases hs
      | some old =>
        rw [(hframed.kept id old s hold hs).length_eq]
        exact ih hold
    · cases hc : c.call with
      | originCreate request =>
        rw [hc, states_originCreate] at hs
        rw [createdLength_origin hc]
        cases hplan : originState env c.now request with
        | error f =>
          rw [hplan] at hs
          exact ih hs
        | ok created =>
          rw [hplan] at hs
          simp only [BTreeMap.lookup_insert] at hs ⊢
          split at hs
          · rename_i heq
            rw [if_pos heq, Option.some.inj hs]
          · rename_i hne
            rw [if_neg hne]
            exact ih hs
      | createRegion request actorPublicKey =>
        rw [hc, states_createRegion] at hs
        rw [createdLength_other (fun request heq => by rw [hc] at heq; cases heq)]
        exact ih hs
      | certify _ => exact absurd (hc ▸ trivial) hmutation
      | transfer _ _ _ => exact absurd (hc ▸ trivial) hmutation
      | drain _ _ => exact absurd (hc ▸ trivial) hmutation
      | project _ _ _ => exact absurd (hc ▸ trivial) hmutation
      | reconstruct _ _ => exact absurd (hc ▸ trivial) hmutation

/-! ## The lifecycle -/

/-- What status, type and projection of a stored vector tell about one another. -/
structure Lifecycle (s : VectorStateV1) : Prop where
  components : s.components ≠ []
  active : s.status = .active ↔ s.projection = none
  projected : s.status = .projected ↔ ∃ p, s.projection = some p ∧ p.settlementAtMs = none ∧
    p.outcomeTag = none ∧ p.settledComponents = []
  settled : s.status = .settled ↔ ∃ p t tag, s.projection = some p ∧
    p.settlementAtMs = some t ∧ p.outcomeTag = some tag ∧
    p.settledComponents.length = s.components.length
  shape : ∀ p, s.projection = some p → p.projectedComponents.length = s.components.length
  type : TypeFitsStatus s

theorem InPhase.lifecycle {s : VectorStateV1} (h : InPhase s) (hsound : SoundState s) :
    Lifecycle s := by
  obtain ⟨hphase, htype⟩ := h
  cases hphase with
  | active hstatus hprojection =>
    refine ⟨hsound.canonical.components, ?_, ?_, ?_, hsound.shape, htype⟩ <;>
      simp [hstatus, hprojection]
  | projected p hstatus hprojection hsettlement htag hsettled =>
    refine ⟨hsound.canonical.components, ?_, ?_, ?_, hsound.shape, htype⟩ <;>
      simp [hstatus, hprojection, hsettlement, htag, hsettled]
  | settled p t tag hstatus hprojection hsettlement htag hsettled =>
    refine ⟨hsound.canonical.components, ?_, ?_, ?_, hsound.shape, htype⟩ <;>
      simp [hstatus, hprojection, hsettlement, htag, hsettled]

/-- In every reachable state every stored vector is in one of its phases, has the length of its
last creation, and settling it cannot lengthen it. -/
theorem vector_lifecycle (env : Platform) (policy : ConsensusPolicy) (calls : List TimedCall)
    {id : String} {s : VectorStateV1}
    (hs : (engineRun env policy calls).store.states[id]? = some s) :
    Lifecycle s ∧ createdLength env calls id = some s.components.length ∧
      ∀ outcome now after, reconstructNext env now outcome s = .ok after →
        after.components.length = s.components.length := by
  have hreach : ReachableEngine env policy (engineRun env policy calls) := ⟨calls, rfl⟩
  have hsound := ReachableEngine.soundStates hreach id s hs
  refine ⟨(ReachableEngine.statesInPhase hreach id s hs).lifecycle hsound,
    length_eq_createdLength policy calls hs, fun outcome now after h => ?_⟩
  obtain ⟨projection, hprojection⟩ := reconstructNext_projection h
  exact (reconstructNext_ok hprojection (hsound.shape projection hprojection) h).2.1.length_eq

theorem vector_lifecycle_escrowed :
    ∃ s, (engineRun samplePlatform ConsensusPolicy.default escrowedVector).store.states["a"]? =
        some s ∧ Lifecycle s ∧ s.status = .projected := by
  have hrun : ((engineRun samplePlatform ConsensusPolicy.default
      escrowedVector).store.states["a"]?).map VectorStateV1.status = some .projected := by
    decide +kernel
  obtain ⟨s, hs, hstatus⟩ := Option.map_eq_some_iff.mp hrun
  exact ⟨s, hs, (vector_lifecycle samplePlatform _ _ hs).1, hstatus⟩

end VKernelX
