/-
  Engine/Overflows.lean --- in which runs every magnitude is sound.

  Nothing bounds the sum of the components a creation brings.  With overflow checks its
  certification panics on a sum of 2^128 and nothing is stored; without them it is stored, and
  so is what a transfer or a settlement adds up past it.  The runs that do neither are those
  whose steps keep the sums they make below 2^128.
-/
import VKernelX.Engine.Panics

set_option autoImplicit false

namespace VKernelX

open Outcome

section

variable {env : Platform} {policy : ConsensusPolicy} {eng : KernelEngine} {now : ℕ → UInt64}

/-! ## What gets past its checks is stored -/

/-- A planned update stores the new state, whatever becomes of its record and its event. -/
theorem UpdateEnds.stored {u : Update} {r : Outcome KernelXError VectorStateV1}
    {eng' : KernelEngine} (h : UpdateEnds env eng u r eng') {before after : VectorStateV1}
    (hplan : u.plan eng = .ok (before, after)) :
    eng'.store.states[after.vectorId]? = some after := by
  cases h with
  | rejected hplan' => exact absurd (hplan.symm.trans hplan') (by simp)
  | unrecorded _ _ hplan' _ =>
    obtain ⟨rfl, rfl⟩ := Prod.mk.inj (Except.ok.inj (hplan.symm.trans hplan'))
    simp
  | unappended _ _ _ hplan' _ _ =>
    obtain ⟨rfl, rfl⟩ := Prod.mk.inj (Except.ok.inj (hplan.symm.trans hplan'))
    simp
  | done _ _ _ _ hplan' _ _ =>
    obtain ⟨rfl, rfl⟩ := Prod.mk.inj (Except.ok.inj (hplan.symm.trans hplan'))
    simp

/-- A planned transfer stores the receiver. -/
theorem TransferEnds.stored {fromId toId : String} {amount : List U128}
    {r : Outcome KernelXError (VectorStateV1 × VectorStateV1)} {eng' : KernelEngine}
    (h : TransferEnds env eng now fromId toId amount r eng') {plan : TransferPlan}
    (hplan : transferPlan env eng now fromId toId amount = .ok plan) :
    eng'.store.states[plan.afterTo.vectorId]? = some plan.afterTo := by
  cases h with
  | rejected hplan' => exact absurd (hplan.symm.trans hplan') (by simp)
  | unrecorded _ hplan' _ =>
    obtain rfl := Except.ok.inj (hplan.symm.trans hplan')
    simp [TransferPlan.states_store]
  | unappended _ _ _ hplan' _ _ =>
    obtain rfl := Except.ok.inj (hplan.symm.trans hplan')
    simp [TransferPlan.states_store]
  | halfway _ _ _ _ hplan' _ _ _ =>
    obtain rfl := Except.ok.inj (hplan.symm.trans hplan')
    simp [TransferPlan.states_store]
  | done _ _ _ _ _ hplan' _ _ _ =>
    obtain rfl := Except.ok.inj (hplan.symm.trans hplan')
    simp [TransferPlan.states_store]

theorem not_sumOverflows_of_unchecked (hchecks : env.overflowChecks = false) (sum : ℕ) :
    ¬ SumOverflows env sum := by
  intro h
  rw [h.1] at hchecks
  cases hchecks

/-- Without overflow checks, a transfer that gets past its checks leaves the receiver with what
it received. -/
theorem receivedSum_stored (hchecks : env.overflowChecks = false)
    (hreach : ReachableEngine env policy eng) {fromId toId : String} {amount : List U128}
    {sender receiver : VectorStateV1} (hsender : eng.store.getState fromId = some sender)
    (hreceiver : eng.store.getState toId = some receiver) (hcovered : CoveredBy amount sender)
    (hlength : receiver.components.length = amount.length) :
    ∃ (id : String) (s : VectorStateV1),
      (eng.call env now (.transfer fromId toId amount)).2.store.states[id]? = some s ∧
        amountSum s.components = receivedSum amount receiver := by
  obtain ⟨hpanics, hnotErr⟩ := transferNext_of_covered env now
    (hreach.soundStates _ _ hsender).canonical (hreach.soundStates _ _ hreceiver).canonical
    (hreach.not_sumOverflows hsender) hcovered hlength
  obtain ⟨⟨afterFrom, afterTo⟩, hnext⟩ := (panics_or_ok hnotErr).resolve_left
    (fun h => not_sumOverflows_of_unchecked hchecks _ (hpanics.mp h))
  have hplan : transferPlan env eng now fromId toId amount =
      .ok ⟨sender, receiver, afterFrom, afterTo⟩ :=
    transferPlan_eq_ok_iff.mpr ⟨hsender, hreceiver, hnext⟩
  obtain ⟨r, eng', h, hcall⟩ := call_transfer_ends eng now fromId toId amount
  rw [hcall]
  have htransfers := transferNext_ok hnext
  refine ⟨_, afterTo, h.stored hplan, ?_⟩
  rw [amountSum_eq_sum_range, htransfers.length_to, hlength, receivedSum]
  exact Finset.sum_congr rfl (fun i _ => htransfers.component_to i)

/-- Without overflow checks, a settlement that gets past its checks leaves the vector with what
it settled. -/
theorem settledSum_stored (hchecks : env.overflowChecks = false)
    (hreach : ReachableEngine env policy eng) {vectorId : String} {outcome : SettlementOutcome}
    {s : VectorStateV1} {projection : ProjectionState}
    (hs : eng.store.getState vectorId = some s) (hprojection : s.projection = some projection)
    (hfits : Fits outcome projection) :
    ∃ (id : String) (s' : VectorStateV1),
      (eng.call env now (.reconstruct vectorId outcome)).2.store.states[id]? = some s' ∧
        amountSum s'.components = settledSum outcome projection s := by
  have hsound : SoundState s := hreach.soundStates _ _ hs
  obtain ⟨hpanics, hnotErr⟩ := reconstructNext_of_fits env now hsound hprojection hfits
  have hfree : ¬ (reconstructNext env now outcome s).Panics := by
    rw [hpanics]
    rintro (hversion | hsum)
    · exact not_sumOverflows_of_unchecked hchecks (2 ^ 128) ⟨hversion.1, le_rfl⟩
    · exact not_sumOverflows_of_unchecked hchecks _ hsum
  obtain ⟨after, hnext⟩ := (panics_or_ok hnotErr).resolve_left hfree
  have hcanonical : CanonicalState after :=
    update_next_canonical (c := .reconstruct vectorId outcome) rfl hsound hnext
  obtain ⟨r, eng', h, hcall⟩ := call_update_ends eng
    (show (Call.reconstruct vectorId outcome).update? env now = some _ from rfl)
  have hsettles :=
    (reconstructNext_ok hprojection (hsound.shape projection hprojection) hnext).2.1
  rw [hcall]
  refine ⟨_, after, h.stored (Update.plan_eq_ok_iff.mpr ⟨hs, hnext, hcanonical⟩), ?_⟩
  rw [amountSum_eq_sum_range, hsettles.length_eq, settledSum]
  exact Finset.sum_congr rfl (fun i _ => hsettles.component_eq i)

/-! ## Runs -/

/-- A call keeps the sums it makes below 2^128: the amounts of a creation that passes its
checks, in every build, and without overflow checks whatever else it would store. -/
structure Call.KeepsSums (env : Platform) (eng : KernelEngine) (c : Call) : Prop where
  created : ∀ request, c = .originCreate request → request.Admitted env →
    amountSum request.components < 2 ^ 128
  stored : env.overflowChecks = false → SumsFit env eng c

/-- If the sums fit after a call that creates nothing too large, the call kept them. -/
theorem MemoryStore.SumsFit.keepsSums (hreach : ReachableEngine env policy eng) {c : Call}
    (now : ℕ → UInt64)
    (hcreated : ∀ request, c = .originCreate request → request.Admitted env →
      amountSum request.components < 2 ^ 128)
    (h : (eng.call env now c).2.store.SumsFit) : c.KeepsSums env eng := by
  refine ⟨hcreated, fun hchecks => ?_⟩
  cases c with
  | originCreate request => exact hcreated request rfl
  | transfer fromId toId amount =>
    intro sender receiver hsender hreceiver hshape hlength hle
    obtain ⟨id, s, hs, hsum⟩ := @receivedSum_stored env policy eng now hchecks hreach fromId toId
      amount sender receiver hsender hreceiver ⟨hlength.symm, hle⟩ (hshape.symm.trans hlength)
    have hlt := h id s hs
    rwa [hsum] at hlt
  | reconstruct vectorId outcome =>
    intro s projection hs hprojection hfits
    obtain ⟨id, s', hs', hsum⟩ := @settledSum_stored env policy eng now hchecks hreach vectorId
      outcome s projection hs hprojection hfits
    have hlt := h id s' hs'
    rwa [hsum] at hlt
  | certify _ => exact trivial
  | drain _ _ => exact trivial
  | project _ _ _ => exact trivial
  | createRegion _ _ => exact trivial

/-- Every list of components that a creation of the run brings past its checks, and every vector
that a state of the run stores, has a sound magnitude. -/
structure MagnitudesSoundIn (env : Platform) (policy : ConsensusPolicy)
    (calls : List TimedCall) : Prop where
  admitted : ∀ c ∈ calls, ∀ request, c.call = .originCreate request → request.Admitted env →
    ∀ s : VectorStateV1, s.components = request.components → SoundMagnitude env s
  stored : ∀ before after, calls = before ++ after → ∀ (id : String) (s : VectorStateV1),
    (engineRun env policy before).store.states[id]? = some s → SoundMagnitude env s

/-- The magnitudes of a run are sound exactly if each of its steps keeps its sums below
2^128. -/
theorem run_magnitudes_sound_iff {calls : List TimedCall} :
    MagnitudesSoundIn env policy calls ↔
      AllSteps (engineStep env) (KernelEngine.initial policy)
        (fun _ eng c => c.call.KeepsSums env eng) calls := by
  constructor
  · intro h before c after hcalls
    refine MemoryStore.SumsFit.keepsSums ⟨before, rfl⟩ c.now ?_ ?_
    · intro request hcall hadmitted
      exact (h.admitted c (by simp [hcalls]) request hcall hadmitted
        (VectorStateV1.new request.vectorId request.ownerPubkey request.spaceId
          request.components .origin (c.now 0)) rfl).sum_lt
    · intro id s hs
      refine (h.stored (before ++ [c]) after (by simp [hcalls]) id s ?_).sum_lt
      rw [engineRun, runFrom_snoc]
      exact hs
  · intro h
    have hsums : ∀ before after, calls = before ++ after →
        (engineRun env policy before).store.SumsFit := by
      intro before after hcalls
      subst hcalls
      refine AllSteps.invariant (I := fun _ eng => eng.store.SumsFit) ?_ ?_ h.of_append
      · intro id s hs
        simp [KernelEngine.initial, MemoryStore.empty] at hs
      · intro before c hI hkeeps
        exact hI.call ⟨before, rfl⟩ c.now hkeeps.stored
    constructor
    · intro c hc request hcall hadmitted s hs
      obtain ⟨before, after, hcalls⟩ := List.append_of_mem hc
      have hlt := (h before c after hcalls).created request hcall hadmitted
      rw [← hs] at hlt
      exact soundMagnitude_of_lt env hlt
    · intro before after hcalls id s hs
      exact soundMagnitude_of_lt env (hsums before after hcalls id s hs)

end

/-- In every run every magnitude is sound. -/
def MagnitudesSound (env : Platform) : Prop :=
  ∀ (policy : ConsensusPolicy) (calls : List TimedCall), MagnitudesSoundIn env policy calls

/-- The sample platform in a build without overflow checks. -/
def wrappingPlatform : Platform := { samplePlatform with overflowChecks := false }

/-- A creation whose components add up to 2^128. -/
def hugeCreation : List TimedCall :=
  [callAt 1 (.originCreate (sampleOrigin "a" [BitVec.ofNat 128 u128Max, 1]))]

/-- It passes the checks of a creation in a build with overflow checks, and is stored by one
without them. -/
theorem magnitudesSound_fails :
    ¬ MagnitudesSound samplePlatform ∧ ¬ MagnitudesSound wrappingPlatform := by
  constructor
  · intro hsound
    have hlt := ((hsound .default hugeCreation).admitted _ (List.mem_singleton.mpr rfl) _ rfl
      ⟨by decide +kernel, by simp [sampleOrigin], by decide, by decide, by decide⟩
      (VectorStateV1.new "a" "" "" [BitVec.ofNat 128 u128Max, 1] .origin 0) rfl).sum_lt
    exact absurd hlt (by decide)
  · intro hsound
    have hstored : ((engineRun wrappingPlatform .default hugeCreation).store.states["a"]?).map
        (fun s => amountSum s.components) = some (2 ^ 128) := by
      decide +kernel
    obtain ⟨s, hs, hsum⟩ := Option.map_eq_some_iff.mp hstored
    have hlt := ((hsound .default hugeCreation).stored hugeCreation [] (by simp) "a" s hs).sum_lt
    rw [hsum] at hlt
    exact absurd hlt (lt_irrefl _)

end VKernelX
