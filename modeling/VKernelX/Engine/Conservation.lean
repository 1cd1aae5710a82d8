/-
  Engine/Conservation.lean --- what transfers and projections do to the value in the store.

  A transfer to another vector keeps every component's total.  A transfer of a vector to
  itself fetches the vector twice and stores the receiving copy last, so the amount is
  added and never taken away.  A projection moves value from the balance into a fresh
  escrow, and drops whatever escrow the vector still had.
-/
import VKernelX.Engine.Writes

set_option autoImplicit false

namespace VKernelX

section

variable {env : Platform} {policy : ConsensusPolicy} {eng : KernelEngine} {now : ℕ → UInt64}

/-! ## Totals -/

/-- The sum of component `i` over all stored vectors. -/
def MemoryStore.totalComponent (store : MemoryStore) (i : ℕ) : ℕ :=
  (store.listStates.map (fun s => s.component i)).sum

/-- Replacing a stored state changes the total by the difference. -/
theorem totalComponent_withState {eng : KernelEngine} {s old : VectorStateV1}
    (h : eng.store.states[s.vectorId]? = some old) (i : ℕ) :
    (eng.withState s).store.totalComponent i + old.component i =
      eng.store.totalComponent i + s.component i :=
  BTreeMap.sum_values_insert (fun s => s.component i) h

theorem totalComponent_congr {store store' : MemoryStore} (h : store.states = store'.states)
    (i : ℕ) : store.totalComponent i = store'.totalComponent i := by
  simp only [MemoryStore.totalComponent, MemoryStore.listStates, h]

/-- The states after a transfer that returned `Ok`. -/
theorem transfer_ok_states (hreach : ReachableEngine env policy eng) {fromId toId : String}
    {amount : List U128} (hok : (eng.call env now (.transfer fromId toId amount)).1.IsOk) :
    ∃ plan : TransferPlan, eng.store.states[fromId]? = some plan.sender ∧
      eng.store.states[toId]? = some plan.receiver ∧
      Transfers amount plan.sender plan.receiver plan.afterFrom plan.afterTo ∧
      plan.afterFrom.vectorId = fromId ∧ plan.afterTo.vectorId = toId ∧
      (∀ i, plan.afterTo.component i = plan.receiver.component i + amountAt amount i) ∧
      (eng.call env now (.transfer fromId toId amount)).2.store.states =
        (plan.store eng).store.states := by
  obtain ⟨plan, sr, rr, es, er, hplan, _, _, hreceiver, hcall⟩ := transfer_of_ok hok
  obtain ⟨hsenderState, hreceiverState, hnext⟩ := transferPlan_eq_ok_iff.mp hplan
  have htransfers := transferNext_ok hnext
  obtain ⟨hfields, _⟩ := buildTransitionEvent_fields (transitionEvent_eq_ok_iff.mp hreceiver).1
  refine ⟨plan, hsenderState, hreceiverState, htransfers, ?_, ?_, ?_, ?_⟩
  · rw [htransfers.same_from.vectorId]
    exact (hreach.wellKeyed.states _ _ hsenderState).1
  · rw [htransfers.same_to.vectorId]
    exact (hreach.wellKeyed.states _ _ hreceiverState).1
  · -- The receiver's event was built, so its amounts fit in 64 bits and nothing saturated.
    intro i
    have hle := component_le_of_event hfields.vectorAfter_eq i
    have heq := htransfers.component_to i
    simp only [u64Max, u128Max] at hle heq
    omega
  · rw [hcall]
    simp

/-- A transfer that returned `Ok` keeps every total exactly when it names two vectors or
moves nothing. -/
theorem transfer_conserves_iff (hreach : ReachableEngine env policy eng) {fromId toId : String}
    {amount : List U128} (hok : (eng.call env now (.transfer fromId toId amount)).1.IsOk) :
    (∀ i, (eng.call env now (.transfer fromId toId amount)).2.store.totalComponent i =
        eng.store.totalComponent i) ↔
      fromId ≠ toId ∨ ∀ a ∈ amount, a = 0 := by
  obtain ⟨plan, hsender, hreceiver, htransfers, hfrom, hto, hadd, hstates⟩ :=
    transfer_ok_states hreach hok
  have hfirst : ∀ i, (eng.withState plan.afterFrom).store.totalComponent i +
      plan.sender.component i = eng.store.totalComponent i + plan.afterFrom.component i :=
    totalComponent_withState (by rw [hfrom, hsender])
  by_cases hsame : fromId = toId
  · -- The receiving copy overwrites the sending one.
    subst hsame
    have hcopy : plan.receiver = plan.sender :=
      Option.some.inj (hreceiver.symm.trans hsender)
    have hsecond : ∀ i, (plan.store eng).store.totalComponent i + plan.afterFrom.component i =
        (eng.withState plan.afterFrom).store.totalComponent i + plan.afterTo.component i := by
      refine totalComponent_withState ?_
      rw [KernelEngine.states_withState, hto, hfrom, BTreeMap.lookup_insert, if_pos rfl]
    have htotal : ∀ i, (eng.call env now (.transfer fromId fromId amount)).2.store.totalComponent
        i = eng.store.totalComponent i + amountAt amount i := by
      intro i
      rw [totalComponent_congr hstates]
      have h1 := hfirst i
      have h2 := hsecond i
      have h3 := hadd i
      rw [hcopy] at h3
      omega
    simp only [htotal, ne_eq, not_true_eq_false, false_or, Nat.add_eq_left]
    exact amountAt_eq_zero_iff
  · have hsecond : ∀ i, (plan.store eng).store.totalComponent i + plan.receiver.component i =
        (eng.withState plan.afterFrom).store.totalComponent i + plan.afterTo.component i := by
      refine totalComponent_withState ?_
      rw [KernelEngine.states_withState, hto, hfrom, BTreeMap.lookup_insert_of_ne _ _ hsame,
        hreceiver]
    refine ⟨fun _ => Or.inl hsame, ?_⟩
    intro _ i
    rw [totalComponent_congr hstates]
    have h1 := hfirst i
    have h2 := hsecond i
    have h3 := hadd i
    have h4 := htransfers.component_from i
    have h5 := htransfers.covered i
    omega

end

/-- Every transfer conserves value. -/
def TransfersConserve : Prop :=
  ∀ (env : Platform) (policy : ConsensusPolicy) (eng : KernelEngine),
    ReachableEngine env policy eng → ∀ (now : ℕ → UInt64) (fromId toId : String)
      (amount : List U128), (eng.call env now (.transfer fromId toId amount)).1.IsOk →
      ∀ i, (eng.call env now (.transfer fromId toId amount)).2.store.totalComponent i =
        eng.store.totalComponent i

/-- A vector with balance 5 that sends 3 to itself ends up with balance 8. -/
theorem transfersConserve_fails_on_self : ¬ TransfersConserve := by
  intro h
  have hconserved := h samplePlatform _ _ (engineAfter_reachable samplePlatform oneVector)
    (fun _ => 2) "a" "a" [3] (by decide +kernel) 0
  exact absurd hconserved (by decide +kernel)

theorem transfer_conserves_iff_self :
    (∀ i, ((engineAfter samplePlatform oneVector).call samplePlatform (fun _ => 2)
        (.transfer "a" "a" [3])).2.store.totalComponent i =
          (engineAfter samplePlatform oneVector).store.totalComponent i) ↔
      "a" ≠ "a" ∨ ∀ a ∈ ([3] : List U128), a = 0 :=
  transfer_conserves_iff (engineAfter_reachable samplePlatform oneVector) (by decide +kernel)

/-! ## Escrow -/

section

variable {env : Platform} {policy : ConsensusPolicy} {eng : KernelEngine} {now : ℕ → UInt64}

/-- The unsettled projected amount at position `i`. -/
def VectorStateV1.escrowed (s : VectorStateV1) (i : ℕ) : ℕ :=
  match s.projection with
  | some projection =>
      if projection.settlementAtMs = none then amountAt projection.projectedComponents i else 0
  | none => 0

/-- What a stored vector holds at position `i`: its balance and its escrow. -/
def MemoryStore.holdings (store : MemoryStore) (vectorId : String) (i : ℕ) : ℕ :=
  match store.getState vectorId with
  | some s => s.component i + s.escrowed i
  | none => 0

/-- A projection that returned `Ok` keeps what the vector holds exactly when the vector had
nothing in escrow. -/
theorem project_keeps_holdings_iff (hreach : ReachableEngine env policy eng)
    {vectorId escrowId : String} {projected : List U128}
    (hok : (eng.call env now (.project vectorId projected escrowId)).1.IsOk) :
    (∀ i, (eng.call env now (.project vectorId projected escrowId)).2.store.holdings vectorId i =
        eng.store.holdings vectorId i) ↔
      ∀ s, eng.store.getState vectorId = some s → ∀ i, s.escrowed i = 0 := by
  obtain ⟨before, after, r, e, hplan, _, _, hcall⟩ := update_of_ok rfl hok
  obtain ⟨hbefore, hnext, _⟩ := Update.plan_eq_ok_iff.mp hplan
  obtain ⟨hadvances, hprojects, _⟩ := projectNext_ok hnext
  have hid : after.vectorId = vectorId := by
    rw [hadvances.same.vectorId]
    exact (hreach.wellKeyed.states _ _ hbefore).1
  obtain ⟨projection, hprojection, hprojected, hunsettled⟩ := hprojects.projection_eq
  -- Balance and new escrow add up to the old balance.
  have hafter : ∀ i, (eng.call env now (.project vectorId projected escrowId)).2.store.holdings
      vectorId i = before.component i := by
    intro i
    have hget : (eng.call env now (.project vectorId projected escrowId)).2.store.getState
        vectorId = some after := by
      rw [hcall, MemoryStore.getState]
      simp [hid]
    rw [MemoryStore.holdings, hget]
    have h1 := hprojects.component_eq i
    have h2 := hprojects.covered i
    simp only [VectorStateV1.escrowed, hprojection, if_pos hunsettled, hprojected]
    omega
  have hget : eng.store.getState vectorId = some before := hbefore
  have hheld : ∀ i, eng.store.holdings vectorId i =
      before.component i + before.escrowed i := by
    intro i
    rw [MemoryStore.holdings, hget]
  simp only [hafter, hheld, hget, Option.some.injEq, forall_eq']
  refine forall_congr' ?_
  intro i
  omega

end

/-- Every projection conserves value. -/
def ProjectionsConserve : Prop :=
  ∀ (env : Platform) (policy : ConsensusPolicy) (eng : KernelEngine),
    ReachableEngine env policy eng → ∀ (now : ℕ → UInt64) (vectorId escrowId : String)
      (projected : List U128),
      (eng.call env now (.project vectorId projected escrowId)).1.IsOk →
      ∀ i, (eng.call env now (.project vectorId projected escrowId)).2.store.holdings vectorId i =
        eng.store.holdings vectorId i

/-- A vector with an escrow of 2 that projects 1 more loses the 2. -/
theorem projectionsConserve_fails_on_escrow : ¬ ProjectionsConserve := by
  intro h
  have hconserved := h samplePlatform _ _ (engineAfter_reachable samplePlatform escrowedVector)
    (fun _ => 3) "a" "y" [1] (by decide +kernel) 0
  exact absurd hconserved (by decide +kernel)

theorem project_keeps_holdings_iff_first :
    (∀ i, ((engineAfter samplePlatform oneVector).call samplePlatform (fun _ => 2)
        (.project "a" [2] "x")).2.store.holdings "a" i =
          (engineAfter samplePlatform oneVector).store.holdings "a" i) ↔
      ∀ s, (engineAfter samplePlatform oneVector).store.getState "a" = some s →
        ∀ i, s.escrowed i = 0 :=
  project_keeps_holdings_iff (engineAfter_reachable samplePlatform oneVector) (by decide +kernel)

end VKernelX
