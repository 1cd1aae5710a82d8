/-
  Engine/BalanceSheet.lean --- where value comes from and where it goes, over a whole run.

  A vector holds its balance and what it has in escrow.  Value enters the store by creations
  and by gains, and also by transfers of a vector to itself and by settlements of a projection
  that was settled before.  It leaves by fees and by losses, and also when a creation replaces
  a vector and when a projection drops an escrow.  There is no other way.
-/
import VKernelX.Engine.Conservation
import VKernelX.Engine.DrainFees
import VKernelX.Engine.Frame
import VKernelX.Engine.Settlement
import VKernelX.Foundation.Accounts

set_option autoImplicit false

namespace VKernelX

/-! ## Holdings -/

/-- What a vector holds at position `i`: its balance and its escrow. -/
def VectorStateV1.holding (s : VectorStateV1) (i : ℕ) : ℕ := s.component i + s.escrowed i

/-- What all stored vectors hold at position `i`. -/
def MemoryStore.totalHoldings (store : MemoryStore) (i : ℕ) : ℕ :=
  (store.listStates.map (fun s => s.holding i)).sum

theorem VectorStateV1.escrowed_congr {s s' : VectorStateV1} (h : s'.projection = s.projection)
    (i : ℕ) : s'.escrowed i = s.escrowed i := by
  rw [VectorStateV1.escrowed, VectorStateV1.escrowed, h]

theorem VectorStateV1.escrowed_none {s : VectorStateV1} (h : s.projection = none) (i : ℕ) :
    s.escrowed i = 0 := by
  rw [VectorStateV1.escrowed, h]

theorem MemoryStore.holdings_some {store : MemoryStore} {vectorId : String} {s : VectorStateV1}
    (h : store.states[vectorId]? = some s) (i : ℕ) : store.holdings vectorId i = s.holding i := by
  rw [MemoryStore.holdings, MemoryStore.getState, h]
  rfl

/-- Storing a state replaces what its vector held. -/
theorem totalHoldings_insert {store store' : MemoryStore} {s : VectorStateV1}
    (h : store'.states = store.states.insert s.vectorId s) (i : ℕ) :
    store'.totalHoldings i + store.holdings s.vectorId i =
      store.totalHoldings i + s.holding i := by
  rw [MemoryStore.totalHoldings, MemoryStore.totalHoldings, MemoryStore.listStates,
    MemoryStore.listStates, h]
  cases hold : store.states[s.vectorId]? with
  | some old =>
    rw [MemoryStore.holdings_some hold]
    exact BTreeMap.sum_values_insert (fun s => s.holding i) hold
  | none =>
    have hperm := BTreeMap.values_insert_perm_of_none s hold
    have hnone : store.holdings s.vectorId i = 0 := by
      rw [MemoryStore.holdings, MemoryStore.getState, hold]
    rw [(hperm.map _).sum_eq, List.map_cons, List.sum_cons, hnone]
    omega

theorem totalHoldings_congr {store store' : MemoryStore} (h : store'.states = store.states)
    (i : ℕ) : store'.totalHoldings i = store.totalHoldings i := by
  rw [MemoryStore.totalHoldings, MemoryStore.totalHoldings, MemoryStore.listStates,
    MemoryStore.listStates, h]

/-! ## Entries -/

/-- The fee of a drain at position `i`. -/
def VectorStateV1.drainFee (s : VectorStateV1) (basisPoints : UInt16) (i : ℕ) : ℕ :=
  s.component i * drainRate basisPoints s.certification.authRatio s.certification.threshold / 10000

/-- What a projection that is settled already would pay out again at position `i`. -/
def VectorStateV1.settledAgain (s : VectorStateV1) (i : ℕ) : ℕ :=
  match s.projection with
  | some projection =>
      if projection.settlementAtMs = none then 0 else amountAt projection.projectedComponents i
  | none => 0

/-- A number that a stored vector tells; zero without the vector. -/
def MemoryStore.ofVector (store : MemoryStore) (vectorId : String) (f : VectorStateV1 → ℕ) : ℕ :=
  match store.getState vectorId with
  | some s => f s
  | none => 0

/-- What a successful call brings into the store at position `i`. -/
def Call.credit (eng : KernelEngine) (i : ℕ) : Call → ℕ
  | .originCreate request => amountAt request.components i
  | .transfer fromId toId amount => if fromId = toId then amountAt amount i else 0
  | .reconstruct vectorId outcome =>
      amountAt outcome.gains i + eng.store.ofVector vectorId (fun s => s.settledAgain i)
  | .certify _ => 0
  | .drain _ _ => 0
  | .project _ _ _ => 0
  | .createRegion _ _ => 0

/-- What a successful call takes out of the store at position `i`. -/
def Call.debit (eng : KernelEngine) (i : ℕ) : Call → ℕ
  | .originCreate request => eng.store.holdings request.vectorId i
  | .drain vectorId basisPoints => eng.store.ofVector vectorId (fun s => s.drainFee basisPoints i)
  | .project vectorId _ _ => eng.store.ofVector vectorId (fun s => s.escrowed i)
  | .reconstruct _ outcome => amountAt outcome.losses i
  | .certify _ => 0
  | .transfer _ _ _ => 0
  | .createRegion _ _ => 0

theorem MemoryStore.ofVector_some {store : MemoryStore} {vectorId : String} {s : VectorStateV1}
    (h : store.getState vectorId = some s) (f : VectorStateV1 → ℕ) :
    store.ofVector vectorId f = f s := by
  rw [MemoryStore.ofVector, h]

section

variable {env : Platform} {policy : ConsensusPolicy} {eng : KernelEngine} {now : ℕ → UInt64}

/-! ## One call -/

/-- The states before and after an operation on one vector, and what it makes of the total. -/
theorem update_ok_holdings (hreach : ReachableEngine env policy eng) {c : Call} {u : Update}
    (hupdate : c.update? env now = some u) (hok : (eng.call env now c).1.IsOk) :
    ∃ before after, eng.store.getState u.vectorId = some before ∧
      (eng.call env now c).2.store.getState u.vectorId = some after ∧
      u.next before = .ok after ∧
      ∀ i, (eng.call env now c).2.store.totalHoldings i + before.holding i =
        eng.store.totalHoldings i + after.holding i := by
  obtain ⟨before, after, r, e, hplan, _, _, hcall⟩ := update_of_ok hupdate hok
  obtain ⟨hbefore, hnext, hcanonical⟩ := Update.plan_eq_ok_iff.mp hplan
  have hid : after.vectorId = u.vectorId :=
    (update_next_identity hupdate hnext (hreach.soundStates _ _ hbefore) hcanonical).vectorId.trans
      (hreach.wellKeyed.states _ _ hbefore).1
  have hstates : (eng.call env now c).2.store.states =
      eng.store.states.insert after.vectorId after := by rw [hcall]; simp
  refine ⟨before, after, hbefore, ?_, hnext, fun i => ?_⟩
  · rw [MemoryStore.getState, hstates, hid, BTreeMap.lookup_insert, if_pos rfl]
  · have := totalHoldings_insert hstates i
    rwa [hid, MemoryStore.holdings_some hbefore] at this

/-- A successful call changes the total by its entries. -/
theorem call_balanced (hreach : ReachableEngine env policy eng) {c : Call}
    (hok : (eng.call env now c).1.IsOk) (i : ℕ) :
    (eng.call env now c).2.store.totalHoldings i + c.debit eng i =
      eng.store.totalHoldings i + c.credit eng i := by
  cases c with
  | originCreate request =>
    obtain ⟨s, e, hplan, _, hcall⟩ := origin_of_ok hok
    have hcreated := originState_ok hplan
    have hstates : (eng.call env now (.originCreate request)).2.store.states =
        eng.store.states.insert s.vectorId s := by rw [hcall]; simp
    have htotal := totalHoldings_insert hstates i
    rw [VectorStateV1.holding, VectorStateV1.escrowed_none hcreated.projection,
      VectorStateV1.component, hcreated.components, hcreated.vectorId] at htotal
    exact htotal
  | certify vectorId =>
    obtain ⟨before, after, _, _, hnext, htotal⟩ := update_ok_holdings hreach rfl hok
    obtain ⟨_, hcomponents, hprojection, _⟩ := certifyNext_ok hnext
    have hsame : after.holding i = before.holding i := by
      rw [VectorStateV1.holding, VectorStateV1.holding, VectorStateV1.escrowed_congr hprojection,
        VectorStateV1.component, VectorStateV1.component, hcomponents]
    have := htotal i
    simp only [Call.debit, Call.credit]
    omega
  | drain vectorId basisPoints =>
    obtain ⟨before, after, hbefore, hafter, hnext, htotal⟩ := update_ok_holdings hreach rfl hok
    obtain ⟨s, s', hs, hs', hfee⟩ := drain_ok_exact hreach hok
    obtain rfl := Option.some.inj (hbefore.symm.trans hs)
    obtain rfl := Option.some.inj (hafter.symm.trans hs')
    have hescrow := VectorStateV1.escrowed_congr (drainNext_ok hnext).2.2.1 i
    have hcharged : before.drainFee basisPoints i + after.component i = before.component i :=
      hfee i
    have := htotal i
    rw [Call.debit, Call.credit, MemoryStore.ofVector_some hbefore]
    simp only [VectorStateV1.holding] at this
    omega
  | project vectorId projected escrowId =>
    obtain ⟨before, after, hbefore, _, hnext, htotal⟩ := update_ok_holdings hreach rfl hok
    obtain ⟨_, hprojects, _⟩ := projectNext_ok hnext
    obtain ⟨projection, hprojection, hprojected, hopen⟩ := hprojects.projection_eq
    have hescrow : after.escrowed i = amountAt projected i := by
      rw [VectorStateV1.escrowed, hprojection]
      simp only [hopen, if_true, hprojected]
    have hcovered := hprojects.covered i
    have hcomponent := hprojects.component_eq i
    have := htotal i
    rw [Call.debit, Call.credit, MemoryStore.ofVector_some hbefore]
    simp only [VectorStateV1.holding] at this
    omega
  | reconstruct vectorId outcome =>
    obtain ⟨before, after, hbefore, hafter, hnext, htotal⟩ := update_ok_holdings hreach rfl hok
    obtain ⟨s, projection, s', hs, hprojection, hs', hexact, settled, hsettled, hmark⟩ :=
      reconstruct_ok_exact hreach hok
    obtain rfl := Option.some.inj (hbefore.symm.trans hs)
    obtain rfl := Option.some.inj (hafter.symm.trans hs')
    have hclosed : after.escrowed i = 0 := by
      rw [VectorStateV1.escrowed, hsettled]
      simp only [hmark, if_false]
    -- The principal was in escrow, or it is paid out once more.
    have hprincipal : before.escrowed i + before.settledAgain i =
        amountAt projection.projectedComponents i := by
      rw [VectorStateV1.escrowed, VectorStateV1.settledAgain, hprojection]
      dsimp only
      split <;> omega
    have := htotal i
    have := hexact i
    rw [Call.debit, Call.credit, MemoryStore.ofVector_some hbefore]
    simp only [VectorStateV1.holding] at *
    omega
  | transfer fromId toId amount =>
    obtain ⟨plan, hsender, hreceiver, htransfers, hfrom, hto, hadd, hstates⟩ :=
      transfer_ok_states hreach hok
    have hfirst : (eng.withState plan.afterFrom).store.totalHoldings i + plan.sender.holding i =
        eng.store.totalHoldings i + plan.afterFrom.holding i := by
      have hinsert : (eng.withState plan.afterFrom).store.states =
          eng.store.states.insert plan.afterFrom.vectorId plan.afterFrom :=
        eng.states_withState plan.afterFrom
      have := totalHoldings_insert hinsert i
      rwa [hfrom, MemoryStore.holdings_some hsender] at this
    have hsecond : (eng.call env now (.transfer fromId toId amount)).2.store.totalHoldings i +
        (eng.withState plan.afterFrom).store.holdings plan.afterTo.vectorId i =
          (eng.withState plan.afterFrom).store.totalHoldings i + plan.afterTo.holding i :=
      totalHoldings_insert hstates i
    have hescrowFrom := VectorStateV1.escrowed_congr htransfers.projection_from i
    have hescrowTo := VectorStateV1.escrowed_congr htransfers.projection_to i
    have hcovered := htransfers.covered i
    have hsub := htransfers.component_from i
    have hplus := hadd i
    have hlookup : (eng.withState plan.afterFrom).store.states[toId]? =
        if fromId = toId then some plan.afterFrom else some plan.receiver := by
      rw [KernelEngine.states_withState, BTreeMap.lookup_insert, hfrom, hreceiver]
    rw [Call.debit, Call.credit]
    by_cases hsame : fromId = toId
    · -- The receiving copy overwrites the sending one.
      rw [if_pos hsame] at hlookup ⊢
      have hcopy : plan.receiver = plan.sender :=
        Option.some.inj (hreceiver.symm.trans (hsame ▸ hsender))
      rw [hto, MemoryStore.holdings_some hlookup] at hsecond
      rw [hcopy] at hescrowTo hplus
      simp only [VectorStateV1.holding] at hfirst hsecond
      omega
    · rw [if_neg hsame] at hlookup ⊢
      rw [hto, MemoryStore.holdings_some hlookup] at hsecond
      simp only [VectorStateV1.holding] at hfirst hsecond
      omega
  | createRegion request actorPublicKey =>
    obtain ⟨e, region, _, _, _, hcall⟩ := region_of_ok hok
    rw [hcall]
    exact congrArg (· + 0) (totalHoldings_congr (KernelEngine.states_addEvent eng e) i)

end

/-! ## Runs -/

section

variable (env : Platform)

/-- A call that succeeds, or fails without a trace in the stored states. -/
def EndsClean (eng : KernelEngine) (c : TimedCall) : Prop :=
  (eng.call env c.now c.call).1.IsOk ∨ (engineStep env eng c).store.states = eng.store.states

/-- The entry of a call that may fail. -/
def entryOf (entry : KernelEngine → Call → ℕ) (eng : KernelEngine) (c : TimedCall) : ℕ :=
  if (eng.call env c.now c.call).1.IsOk then entry eng c.call else 0

/-- A failed call without a trace has no entries. -/
theorem endsClean_balanced {policy : ConsensusPolicy} {eng : KernelEngine}
    (hreach : ReachableEngine env policy eng) (i : ℕ) {c : TimedCall}
    (hclean : EndsClean env eng c) :
    (engineStep env eng c).store.totalHoldings i + entryOf env (fun eng c => c.debit eng i) eng c =
      eng.store.totalHoldings i + entryOf env (fun eng c => c.credit eng i) eng c := by
  by_cases hok : (eng.call env c.now c.call).1.IsOk
  · rw [entryOf, entryOf, if_pos hok, if_pos hok]
    exact call_balanced hreach hok i
  · rw [entryOf, entryOf, if_neg hok, if_neg hok]
    exact congrArg (· + 0) (totalHoldings_congr (hclean.resolve_left hok) i)

/-- The balance sheet of a run.  In every run whose calls succeed, or fail without a trace in
the stored states, what the vectors hold at the end and all debits of the run make up exactly
all its credits. -/
theorem run_balanced {policy : ConsensusPolicy} {calls : List TimedCall}
    (h : AllSteps (engineStep env) (KernelEngine.initial policy)
      (fun _ eng c => EndsClean env eng c) calls) (i : ℕ) :
    (engineRun env policy calls).store.totalHoldings i +
        runTotal (engineStep env) (entryOf env (fun eng c => c.debit eng i))
          (KernelEngine.initial policy) calls =
      runTotal (engineStep env) (entryOf env (fun eng c => c.credit eng i))
        (KernelEngine.initial policy) calls := by
  have hempty : (KernelEngine.initial policy).store.totalHoldings i = 0 := rfl
  have hbalanced := AllSteps.balanced (fun eng => eng.store.totalHoldings i)
    (entryOf env (fun eng c => c.credit eng i)) (entryOf env (fun eng c => c.debit eng i))
    (fun before c => endsClean_balanced env ⟨before, rfl⟩ i) h
  rwa [hempty, Nat.zero_add] at hbalanced

end

/-- A run that settles a projection of 2 with a gain of 3 and a loss of 1, settles it again, and
pays a fee. -/
def balancedRun : List TimedCall :=
  escrowedVector ++ [callAt 3 (.reconstruct "a" ⟨"won", [3], [1]⟩),
    callAt 4 (.reconstruct "a" ⟨"again", [0], [0]⟩), callAt 5 (.drain "a" 5000)]

theorem balancedRun_endsClean :
    AllSteps (engineStep samplePlatform) (KernelEngine.initial ConsensusPolicy.default)
      (fun _ eng c => EndsClean samplePlatform eng c) balancedRun := by
  have hok : AllSteps (engineStep samplePlatform) (KernelEngine.initial ConsensusPolicy.default)
      (fun _ eng c => (eng.call samplePlatform c.now c.call).1.IsOk) balancedRun := by
    decide +kernel
  exact hok.mono (fun _ _ _ => Or.inl)

theorem run_balanced_settled :
    (engineRun samplePlatform ConsensusPolicy.default balancedRun).store.totalHoldings 0 +
        runTotal (engineStep samplePlatform)
          (entryOf samplePlatform (fun eng c => c.debit eng 0))
          (KernelEngine.initial ConsensusPolicy.default) balancedRun =
      runTotal (engineStep samplePlatform)
        (entryOf samplePlatform (fun eng c => c.credit eng 0))
        (KernelEngine.initial ConsensusPolicy.default) balancedRun :=
  run_balanced samplePlatform balancedRun_endsClean 0

end VKernelX
