/-
  Engine/Minting.lean --- how often a vector is minted.

  Replay accepts one ORIGIN_CREATE event for an entity.  `origin_create` itself does not
  look whether the vector exists, so a history keeps to that only as long as requests for
  stored vectors fail one of the checks made before the first write.
-/
import VKernelX.Engine.Integrity

set_option autoImplicit false

namespace VKernelX

section

variable {env : Platform}

/-! ## Early rejection -/

variable (env) in
/-- The proof of work does not hold, or a required part of the request is empty. -/
def OriginRequest.Rejected (request : OriginRequest) : Prop :=
  verifyOrigin env request.seed request.nonce request.difficulty = false ∨
    request.components = [] ∨ request.ownerPubkey = "" ∨ request.vectorId = "" ∨
    request.spaceId = ""

theorem originState_of_rejected {request : OriginRequest} (h : request.Rejected env)
    (now : ℕ → UInt64) : ∃ e, originState env now request = .error (.err e) := by
  by_cases hproof : verifyOrigin env request.seed request.nonce request.difficulty = true
  · obtain ⟨s, hs⟩ : ∃ s, createOriginVector env request.vectorId request.ownerPubkey
        request.spaceId request.components request.seed request.nonce request.difficulty
        (now 0) = .ok s := by
      constructor
      rw [createOriginVector, Outcome.require_of hproof]
      rfl
    have hfields : s.components = request.components ∧ s.ownerPubkey = request.ownerPubkey ∧
        s.vectorId = request.vectorId ∧ s.spaceId = request.spaceId := by
      rw [createOriginVector, Outcome.require_of hproof] at hs
      obtain rfl := Except.ok.inj hs
      exact ⟨rfl, rfl, rfl, rfl⟩
    have hnot : ¬ CanonicalState s := by
      rintro ⟨_, hcomponents, howner, hid, hspace⟩
      rw [hfields.1] at hcomponents
      rw [hfields.2.1] at howner
      rw [hfields.2.2.1] at hid
      rw [hfields.2.2.2] at hspace
      rcases h with h | h | h | h | h
      · rw [hproof] at h
        cases h
      · exact hcomponents h
      · exact howner h
      · exact hid h
      · exact hspace h
    obtain ⟨e, he⟩ := validateState_isErr_iff.mpr hnot
    refine ⟨e, ?_⟩
    rw [originState, hs, Outcome.ok_bind, he]
    rfl
  · refine ⟨.originRejected, ?_⟩
    rw [originState, createOriginVector, Outcome.require, if_neg hproof]
    rfl

/-- A rejected request returns `Err` and leaves the engine as it was. -/
theorem originCreate_of_rejected {eng : KernelEngine} {now : ℕ → UInt64}
    {request : OriginRequest} (h : request.Rejected env) :
    (eng.call env now (.originCreate request)).1.IsErr ∧
      (eng.call env now (.originCreate request)).2 = eng := by
  obtain ⟨e, he⟩ := originState_of_rejected h now
  obtain ⟨r, eng', hends, hcall⟩ := call_originCreate_ends eng now request
  rw [hcall]
  cases hends with
  | rejected hplan =>
    obtain rfl := Except.error.inj (he.symm.trans hplan)
    exact ⟨⟨e, rfl⟩, rfl⟩
  | unappended _ hplan _ => exact absurd (he.symm.trans hplan) (by simp)
  | done _ _ hplan _ => exact absurd (he.symm.trans hplan) (by simp)

/-! ## Counting creations -/

/-- The number of ORIGIN_CREATE events of an entity. -/
def MemoryStore.mintCount (store : MemoryStore) (entityId : String) : ℕ :=
  store.listEvents.countP (fun e => e.entityId = entityId ∧ e.operation = .originCreate)

theorem mintCount_congr {store store' : MemoryStore} (h : store.events = store'.events)
    (entityId : String) : store.mintCount entityId = store'.mintCount entityId := by
  simp only [MemoryStore.mintCount, MemoryStore.listEvents, h]

theorem mintCount_addEvent {eng : KernelEngine} {e : VectorEvent}
    (hfresh : eng.store.events[e.eventHash]? = none) (entityId : String) :
    (eng.addEvent e).store.mintCount entityId = eng.store.mintCount entityId +
      if e.entityId = entityId ∧ e.operation = .originCreate then 1 else 0 := by
  rw [MemoryStore.mintCount, (listEvents_addEvent_perm hfresh).countP_eq, List.countP_cons]
  simp only [decide_eq_true_eq]
  rfl

/-- Every entity was minted at most once, and only if its vector is stored. -/
def MintedOnce (store : MemoryStore) : Prop :=
  ∀ entityId, store.mintCount entityId ≤ 1 ∧
    (store.getState entityId = none → store.mintCount entityId = 0)

/-- States are added or replaced, never removed. -/
theorem getState_call_eq_none {eng : KernelEngine} {now : ℕ → UInt64} {c : Call} {id : String}
    (h : (eng.call env now c).2.store.getState id = none) : eng.store.getState id = none := by
  have hends : CallEnds env eng now c _ _ := call_ends eng now c
  have hchange := hends.states
  unfold MemoryStore.getState at h ⊢
  generalize (eng.call env now c).2.store.states = states at hchange h
  have hinsert : ∀ (m : BTreeMap String VectorStateV1) (key : String) (s : VectorStateV1),
      (m.insert key s)[id]? = none → m[id]? = none := by
    intro m key s hm
    rw [BTreeMap.lookup_insert] at hm
    split at hm
    · cases hm
    · exact hm
  cases hchange with
  | none => exact h
  | update u before after _ _ => exact hinsert _ _ _ h
  | origin request s _ _ => exact hinsert _ _ _ h
  | transfer fromId toId amount plan _ _ => exact hinsert _ _ _ (hinsert _ _ _ h)

/-- A transition that is no creation adds no creation event. -/
theorem mintCount_transition {eng eng' : KernelEngine} {before : Option VectorStateV1}
    {after : VectorStateV1} {operation : OperationType} {timestamp : UInt64}
    {parentHashes : List String} {e : VectorEvent}
    (h : transitionEvent env eng before after operation timestamp parentHashes = .ok e)
    (hoperation : operation ≠ .originCreate) (hevents : eng.store.events = eng'.store.events)
    (entityId : String) :
    (eng'.addEvent e).store.mintCount entityId = eng.store.mintCount entityId := by
  obtain ⟨hbuild, hadm⟩ := transitionEvent_eq_ok_iff.mp h
  obtain ⟨hfields, _⟩ := buildTransitionEvent_fields hbuild
  rw [mintCount_addEvent (hadm.congr hevents).appendable.hash_fresh, hfields.operation_eq,
    if_neg (fun hc => hoperation hc.2), mintCount_congr hevents.symm, Nat.add_zero]

theorem update_operation_ne {now : ℕ → UInt64} {c : Call} {u : Update}
    (h : c.update? env now = some u) : u.operation ≠ .originCreate := by
  cases c <;> first | (obtain rfl := Option.some.inj h; simp) | cases h

/-- A call that is not a creation leaves every count as it was. -/
theorem mintCount_call {eng : KernelEngine} {now : ℕ → UInt64} {c : Call}
    (hc : ∀ request, c ≠ .originCreate request) (entityId : String) :
    (eng.call env now c).2.store.mintCount entityId = eng.store.mintCount entityId := by
  have hends : CallEnds env eng now c _ _ := call_ends eng now c
  generalize (eng.call env now c).1 = r at hends
  generalize (eng.call env now c).2 = eng' at hends ⊢
  cases hends with
  | update hupdate h =>
    cases h with
    | rejected _ => rfl
    | unrecorded before after _ _ => exact mintCount_congr rfl entityId
    | unappended before after r _ _ _ => exact mintCount_congr (by simp) entityId
    | done before after r e _ _ hevent =>
      exact mintCount_transition hevent (update_operation_ne hupdate) (by simp) entityId
  | origin _ => exact absurd rfl (hc _)
  | transfer h =>
    cases h with
    | rejected _ => rfl
    | unrecorded plan _ _ => exact mintCount_congr rfl entityId
    | unappended plan sr rr _ _ _ => exact mintCount_congr (by simp) entityId
    | halfway plan sr rr es _ _ hsender _ =>
      exact mintCount_transition hsender (by simp) (by simp) entityId
    | done plan sr rr es er _ _ hsender hreceiver =>
      rw [mintCount_transition hreceiver (by simp) (by simp) entityId]
      exact mintCount_transition hsender (by simp) rfl entityId
  | @region request actorPublicKey _ _ h =>
    have hregion : ∀ e, regionEvent env now request actorPublicKey eng = .ok e →
        e.operation ≠ .originCreate := by
      intro e hevent
      rw [buildRegionGenesisEvent_operation (regionEvent_built hevent)]
      simp [regionCreateOperation]
    cases h with
    | rejected _ => rfl
    | unappended _ _ _ => rfl
    | unreadable e hevent hadmits _ =>
      rw [mintCount_addEvent hadmits.appendable.hash_fresh,
        if_neg (fun hc => hregion e hevent hc.2)]
      rfl
    | done e region hevent hadmits _ =>
      rw [mintCount_addEvent hadmits.appendable.hash_fresh,
        if_neg (fun hc => hregion e hevent hc.2)]
      rfl

/-! ## Runs -/

variable (env) in
/-- A creation of a vector that is stored already fails an early check. -/
def MintsFresh (eng : KernelEngine) (c : TimedCall) : Prop :=
  ∀ request, c.call = .originCreate request →
    eng.store.getState request.vectorId ≠ none → request.Rejected env

/-- A call that does not mint a stored vector again keeps the counts. -/
theorem MintedOnce.step {eng : KernelEngine} {c : TimedCall} (h : MintedOnce eng.store)
    (hc : MintsFresh env eng c) : MintedOnce (engineStep env eng c).store := by
  by_cases hcreate : ∃ request, c.call = .originCreate request
  · obtain ⟨request, hrequest⟩ := hcreate
    by_cases hstored : eng.store.getState request.vectorId = none
    · -- The vector is new: its count goes from zero to at most one.
      obtain ⟨r, eng', hends, hcall⟩ := call_originCreate_ends eng c.now request
      unfold engineStep
      rw [hrequest, hcall]
      have hnone : ∀ (s : VectorStateV1) (id : String),
          (eng.store.states.insert s.vectorId s)[id]? = none →
          eng.store.states[id]? = none := by
        intro s id hid
        rw [BTreeMap.lookup_insert] at hid
        split at hid
        · cases hid
        · exact hid
      cases hends with
      | rejected _ => exact h
      | unappended s _ _ =>
        have hsame := mintCount_congr (show ((eng.withState s).withRecord
          (originRecord env request.difficulty c.now s)).store.events = eng.store.events
            by simp)
        intro entityId
        rw [hsame entityId]
        refine ⟨(h entityId).1, ?_⟩
        intro hid
        exact (h entityId).2 (hnone s entityId (by simpa [MemoryStore.getState] using hid))
      | done s e hplan hevent =>
        obtain ⟨hbuild, hadm⟩ := transitionEvent_eq_ok_iff.mp hevent
        obtain ⟨hfields, _⟩ := buildTransitionEvent_fields hbuild
        have hid := (originState_ok hplan).vectorId
        intro entityId
        have hevents : eng.store.events = ((eng.withState s).withRecord
            (originRecord env request.difficulty c.now s)).store.events := by simp
        rw [mintCount_addEvent (hadm.congr hevents).appendable.hash_fresh,
          mintCount_congr hevents.symm, hfields.entityId_eq, hid]
        by_cases hentity : request.vectorId = entityId
        · subst hentity
          rw [(h _).2 hstored]
          refine ⟨by split <;> simp, ?_⟩
          intro hnot
          simp [MemoryStore.getState, hid] at hnot
        · rw [if_neg (fun hc => hentity hc.1), Nat.add_zero]
          refine ⟨(h entityId).1, ?_⟩
          intro hnot
          exact (h entityId).2 (hnone s entityId (by simpa [MemoryStore.getState] using hnot))
    · unfold engineStep
      rw [hrequest, (originCreate_of_rejected (hc request hrequest hstored)).2]
      exact h
  · intro entityId
    have hcount : (engineStep env eng c).store.mintCount entityId =
        eng.store.mintCount entityId :=
      mintCount_call (fun request hrequest => hcreate ⟨request, hrequest⟩) entityId
    rw [hcount]
    exact ⟨(h entityId).1, fun hnone => (h entityId).2 (getState_call_eq_none hnone)⟩

/-- In a run in which every creation of a stored vector fails an early check, such calls
return `Err` and change nothing, and no entity is minted twice. -/
theorem minted_at_most_once {policy : ConsensusPolicy} {calls : List TimedCall}
    (h : AllSteps (engineStep env) (KernelEngine.initial policy)
      (fun _ eng c => MintsFresh env eng c) calls) :
    (∀ before c after request, calls = before ++ c :: after →
      c.call = .originCreate request →
      (engineRun env policy before).store.getState request.vectorId ≠ none →
      ((engineRun env policy before).call env c.now c.call).1.IsErr ∧
        engineStep env (engineRun env policy before) c = engineRun env policy before) ∧
    ∀ entityId, (engineRun env policy calls).store.mintCount entityId ≤ 1 := by
  constructor
  · intro before c after request hsplit hrequest hstored
    have hrejected := h before c after hsplit request hrequest hstored
    rw [engineStep, hrequest]
    exact originCreate_of_rejected hrejected
  · have hminted := AllSteps.invariant (I := fun _ eng => MintedOnce eng.store)
      (fun entityId => ⟨Nat.zero_le _, fun _ => rfl⟩)
      (fun _ c hI hc => MintedOnce.step hI hc) h
    exact fun entityId => (hminted entityId).1

end

/-- A run that creates a vector and asks for it again without components. -/
def mintedAfresh : List TimedCall :=
  [callAt 1 (.originCreate (sampleOrigin "a" [5])), callAt 2 (.originCreate (sampleOrigin "a" []))]

theorem mintedAfresh_mintsFresh :
    AllSteps (engineStep samplePlatform) (KernelEngine.initial ConsensusPolicy.default)
      (fun _ eng c => MintsFresh samplePlatform eng c) mintedAfresh := by
  refine allSteps_snoc.mpr ⟨allSteps_snoc.mpr ⟨AllSteps.nil, ?_⟩, ?_⟩
  · intro request _ hstored
    exact absurd rfl hstored
  · intro request hrequest _
    obtain rfl := Call.originCreate.inj hrequest
    exact Or.inr (Or.inl rfl)

theorem minted_at_most_once_sample :
    (∀ before c after request, mintedAfresh = before ++ c :: after →
      c.call = .originCreate request →
      (engineAfter samplePlatform before).store.getState request.vectorId ≠ none →
      ((engineAfter samplePlatform before).call samplePlatform c.now c.call).1.IsErr ∧
      engineStep samplePlatform (engineAfter samplePlatform before) c =
        engineAfter samplePlatform before) ∧
    ∀ entityId, (engineAfter samplePlatform mintedAfresh).store.mintCount entityId ≤ 1 :=
  minted_at_most_once mintedAfresh_mintsFresh

/-- In every run a vector is minted at most once. -/
def VectorsMintedOnce : Prop :=
  ∀ (env : Platform) (policy : ConsensusPolicy) (eng : KernelEngine),
    ReachableEngine env policy eng →
    (∀ (now : ℕ → UInt64) (request : OriginRequest),
      eng.store.getState request.vectorId ≠ none →
      (eng.call env now (.originCreate request)).1.IsErr ∧
      (eng.call env now (.originCreate request)).2.store.getState request.vectorId =
        eng.store.getState request.vectorId ∧
      (∀ r : VectorRecordV1, r.vectorId = request.vectorId →
        (r ∈ (eng.call env now (.originCreate request)).2.store.listRecords ↔
          r ∈ eng.store.listRecords)) ∧
      ∀ e : VectorEvent, e.entityId = request.vectorId →
        (e ∈ (eng.call env now (.originCreate request)).2.store.listEvents ↔
          e ∈ eng.store.listEvents)) ∧
    ∀ entityId, eng.store.mintCount entityId ≤ 1

/-- A run that creates one vector twice. -/
def mintedTwice : List TimedCall :=
  [callAt 1 (.originCreate (sampleOrigin "a" [5])), callAt 2 (.originCreate (sampleOrigin "a" [7]))]

/-- The second creation goes through, and the entity has two ORIGIN_CREATE events. -/
theorem vectorsMintedOnce_fails : ¬ VectorsMintedOnce := by
  intro h
  have hcount := (h samplePlatform _ _ (engineAfter_reachable samplePlatform mintedTwice)).2 "a"
  exact absurd hcount (by decide +kernel)

end VKernelX
