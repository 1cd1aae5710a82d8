/-
  Engine/StateInvariants.lean --- invariants of single stored states.

  The engine stores what a creation, an operation on one vector or a transfer makes, and
  nothing else.  So a property of states that each of the three establishes or keeps holds of
  every state that any run stores, failed calls included.
-/
import VKernelX.Engine.Frame

set_option autoImplicit false

namespace VKernelX

/-- A property of states that every operation establishes or keeps. -/
structure KeptByOperations (env : Platform) (P : VectorStateV1 → Prop) : Prop where
  origin : ∀ (now : ℕ → UInt64) (request : OriginRequest) (s : VectorStateV1),
    originState env now request = .ok s → P s
  update : ∀ (now : ℕ → UInt64) (c : Call) (u : Update) (s after : VectorStateV1),
    c.update? env now = some u → u.next s = .ok after → SoundState s → CanonicalState after →
    P s → P after
  transfer : ∀ (now : ℕ → UInt64) (amount : List U128)
    (sender receiver afterFrom afterTo : VectorStateV1),
    transferNext env now amount sender receiver = .ok (afterFrom, afterTo) →
    P sender → P receiver → P afterFrom ∧ P afterTo

variable {env : Platform} {P : VectorStateV1 → Prop}

theorem KeptByOperations.call (hP : KeptByOperations env P) {eng : KernelEngine}
    (hsound : SoundStates eng.store)
    (h : ∀ (id : String) (s : VectorStateV1), eng.store.states[id]? = some s → P s)
    (c : TimedCall) (id : String) (s : VectorStateV1)
    (hs : (engineStep env eng c).store.states[id]? = some s) : P s := by
  have hends : CallEnds env eng c.now c.call _ _ := call_ends eng c.now c.call
  have hchange := hends.states
  rw [engineStep] at hs
  generalize (eng.call env c.now c.call).2.store.states = states at hchange hs
  cases hchange with
  | none => exact h id s hs
  | update u before after hupdate hplan =>
    obtain ⟨hbefore, hnext, hcanonical⟩ := Update.plan_eq_ok_iff.mp hplan
    exact forall_lookup_insert h (hP.update _ _ u before after hupdate hnext (hsound _ _ hbefore)
      hcanonical (h _ _ hbefore)) id s hs
  | origin request created _ hplan =>
    exact forall_lookup_insert h (hP.origin _ request created hplan) id s hs
  | transfer fromId toId amount plan _ hplan =>
    obtain ⟨hsender, hreceiver, hnext⟩ := transferPlan_eq_ok_iff.mp hplan
    obtain ⟨hfrom, hto⟩ := hP.transfer _ amount _ _ _ _ hnext (h _ _ hsender) (h _ _ hreceiver)
    exact forall_lookup_insert (forall_lookup_insert h hfrom) hto id s hs

/-- What every operation establishes or keeps holds of every stored state. -/
theorem ReachableEngine.states_of_kept {policy : ConsensusPolicy} {eng : KernelEngine}
    (h : ReachableEngine env policy eng) (hP : KeptByOperations env P) {s : VectorStateV1}
    (hs : s ∈ eng.store.listStates) : P s := by
  have hall : ∀ (id : String) (s : VectorStateV1), eng.store.states[id]? = some s → P s := by
    refine Reachable.invariant_of_reachable _ _ (I := fun eng => ∀ (id : String)
      (s : VectorStateV1), eng.store.states[id]? = some s → P s) ?_ ?_ h
    · intro id s hs
      simp [KernelEngine.initial, MemoryStore.empty] at hs
    · intro eng c hreach hI
      exact hP.call (ReachableEngine.soundStates hreach) hI c
  obtain ⟨id, hid⟩ := BTreeMap.mem_values.mp hs
  exact hall id s hid

theorem ReachableEngine.soundState {policy : ConsensusPolicy} {eng : KernelEngine}
    (h : ReachableEngine env policy eng) {s : VectorStateV1} (hs : s ∈ eng.store.listStates) :
    SoundState s := by
  obtain ⟨id, hid⟩ := BTreeMap.mem_values.mp hs
  exact h.soundStates id s hid

end VKernelX
