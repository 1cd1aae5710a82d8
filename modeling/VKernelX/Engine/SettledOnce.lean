/-
  Engine/SettledOnce.lean --- in which runs a projection is settled once.

  Settling does not look at the mark that an earlier settlement left.  So a projection is
  settled once only in runs in which a second settlement fails for its amounts, and in which a
  new projection of a settled vector does not fail after it is stored.
-/
import VKernelX.Engine.LateRejections

set_option autoImplicit false

namespace VKernelX

open Outcome

section

variable {env : Platform} {policy : ConsensusPolicy}

/-! ## Projections that go through -/

/-- A projection that is worked out passed its checks and had a version to count up. -/
theorem projectNext_checked {now : ℕ → UInt64} {s after : VectorStateV1} {projected : List U128}
    {escrowId : String} (hfit : ¬ SumOverflows env (amountSum s.components))
    (h : projectNext env now projected escrowId s = .ok after) :
    CoveredBy projected s ∧ ¬ VersionOverflows env s := by
  have hcovered : CoveredBy projected s := by
    by_contra hnot
    obtain ⟨e, he⟩ := @projectNext_isErr env now s projected escrowId hnot
    exact absurd (h.symm.trans he) (by simp)
  refine ⟨hcovered, fun hversion => ?_⟩
  have hpanics : (projectNext env now projected escrowId s).Panics :=
    (projectNext_of_covered now hfit hcovered).1.mpr hversion
  rw [h] at hpanics
  exact not_panics_ok after hpanics

variable (env) in
/-- The engine has room for the event of a draft: it does not refuse it, and no stored event has
the hash of an event with its id. -/
structure KernelEngine.HasRoom (eng : KernelEngine) (d : EventDraft) : Prop where
  notRefused : ¬ d.Refused eng.eventNames
  hashFree : ∀ e, e.eventHash = canonicalEventHash env e →
    e.eventId = (d.name eng.eventNames).eventId → eng.store.events[e.eventHash]? = none

/-- A projection that is worked out returns `Ok` if its amounts fit a record and the engine has
room for its event. -/
theorem project_isOk {eng : KernelEngine} (hreach : ReachableEngine env policy eng)
    {now : ℕ → UInt64} {vectorId escrowId : String} {projected : List U128} {u : Update}
    {s after : VectorStateV1}
    (hupdate : (Call.project vectorId projected escrowId).update? env now = some u)
    (hplan : u.plan eng = .ok (s, after)) (hnarrow : ¬ Wide projected)
    (hroom : eng.HasRoom env (s.draft .project (s.version + 1) s.component)) :
    (eng.call env now (.project vectorId projected escrowId)).1.IsOk := by
  obtain ⟨hstored, hnext, _⟩ := Update.plan_eq_ok_iff.mp hplan
  obtain ⟨r, hr⟩ : ∃ r, u.record s after = .ok r := by
    refine (panics_or_ok (not_isErr_record hupdate s after)).resolve_left (fun hpanics => ?_)
    obtain rfl := Option.some.inj hupdate
    exact hnarrow (panics_projectRecord_iff.mp hpanics)
  have hshaped := (Works.update hupdate hplan hr).shaped hreach _ (List.mem_singleton.mpr rfl)
  have hdraft : (⟨some s, after, u.operation, after.updatedAtMs⟩ : Transition).draft =
      s.draft .project (s.version + 1) s.component := by
    obtain rfl := Option.some.inj hupdate
    obtain ⟨hadvances, hprojects, _⟩ := projectNext_ok hnext
    refine draft_of_advances hadvances (fun i => ?_)
    rw [hprojects.component_eq]
    exact max_eq_left (Nat.sub_le _ _)
  rw [← hdraft] at hroom
  obtain ⟨e, he⟩ :=
    Transition.exists_event_of_fresh hreach.wellKeyed hshaped hroom.notRefused hroom.hashFree
  rw [call_of_update hupdate hplan hr he]
  exact ⟨_, rfl⟩

/-! ## Runs -/

variable (env policy) in
/-- A settlement of the vector returned `Ok`, and no projection of it has since. -/
inductive SettledSince (vectorId : String) : List TimedCall → Prop where
  | settled {before : List TimedCall} {c : TimedCall} {outcome : SettlementOutcome}
      (hcall : c.call = .reconstruct vectorId outcome)
      (hok : ((engineRun env policy before).call env c.now c.call).1.IsOk) :
      SettledSince vectorId (before ++ [c])
  | later {before : List TimedCall} {c : TimedCall} (h : SettledSince vectorId before)
      (hc : ∀ projected escrowId, c.call = .project vectorId projected escrowId →
        ¬ ((engineRun env policy before).call env c.now c.call).1.IsOk) :
      SettledSince vectorId (before ++ [c])

theorem SettledSince.exists_reconstruct {vectorId : String} {calls : List TimedCall}
    (h : SettledSince env policy vectorId calls) :
    ∃ c ∈ calls, ∃ outcome, c.call = .reconstruct vectorId outcome := by
  induction h with
  | @settled before c outcome hcall _ => exact ⟨c, by simp, outcome, hcall⟩
  | later _ _ ih =>
    obtain ⟨c, hc, outcome, hcall⟩ := ih
    exact ⟨c, by simp [hc], outcome, hcall⟩

variable (env policy) in
/-- The condition on a step after the calls `before`.  A settlement of a projection that is
settled already has amounts that do not fit it.  A projection of a vector settled before that
passes its checks names no amount past 2^64, and the engine has room for its event. -/
structure SettlesFresh (before : List TimedCall) (eng : KernelEngine) (c : TimedCall) : Prop where
  reconstruct : ∀ vectorId outcome s projection, c.call = .reconstruct vectorId outcome →
    eng.store.getState vectorId = some s → s.projection = some projection →
    projection.settlementAtMs ≠ none → ¬ Fits outcome projection
  project : ∀ vectorId projected escrowId s, c.call = .project vectorId projected escrowId →
    SettledSince env policy vectorId before → eng.store.getState vectorId = some s →
    CoveredBy projected s → ¬ VersionOverflows env s →
    ¬ Wide projected ∧ eng.HasRoom env (s.draft .project (s.version + 1) s.component)

variable (env policy) in
/-- A vector settled since has no open projection. -/
def SlotsSettled (before : List TimedCall) (eng : KernelEngine) : Prop :=
  ∀ vectorId, SettledSince env policy vectorId before → ∀ s projection,
    eng.store.getState vectorId = some s → s.projection = some projection →
    projection.settlementAtMs ≠ none

theorem SlotsSettled.step {before : List TimedCall} {c : TimedCall}
    (h : SlotsSettled env policy before (engineRun env policy before))
    (hc : SettlesFresh env policy before (engineRun env policy before) c) :
    SlotsSettled env policy (before ++ [c]) (engineStep env (engineRun env policy before) c) := by
  have hreach : ReachableEngine env policy (engineRun env policy before) := ⟨before, rfl⟩
  intro vectorId hsettled s projection hs hprojection
  generalize hcalls : before ++ [c] = calls at hsettled
  cases hsettled with
  | @settled _ _ outcome hcall hok =>
    obtain ⟨rfl, hlast⟩ := List.append_inj' hcalls rfl
    obtain rfl := List.singleton_inj.mp hlast
    rw [hcall] at hok
    obtain ⟨_, _, after, _, _, hafter, _, settled, hsettled, hmark⟩ :=
      reconstruct_ok_exact hreach hok
    rw [engineStep, hcall, hafter] at hs
    obtain rfl := Option.some.inj hs
    obtain rfl := Option.some.inj (hsettled.symm.trans hprojection)
    exact hmark
  | later hsince hnot =>
    obtain ⟨rfl, hlast⟩ := List.append_inj' hcalls rfl
    obtain rfl := List.singleton_inj.mp hlast
    rcases projection_call hreach.wellKeyed hreach.soundStates hs with
      ⟨old, hold, heq⟩ | hmark | ⟨projected, escrowId, u, old, hcall, hupdate, hplan⟩
    · exact h vectorId hsince old projection hold (heq.trans hprojection)
    · exact hmark projection hprojection
    · -- A projection that got past its checks returned `Ok`.
      refine absurd ?_ (hnot projected escrowId hcall)
      rw [hcall] at hupdate ⊢
      obtain ⟨hstored, hnext, _⟩ := Update.plan_eq_ok_iff.mp hplan
      obtain rfl := Option.some.inj hupdate
      obtain ⟨hcovered, hversion⟩ := projectNext_checked (hreach.not_sumOverflows hstored) hnext
      obtain ⟨hnarrow, hroom⟩ :=
        hc.project vectorId projected escrowId old hcall hsince hstored hcovered hversion
      exact project_isOk hreach rfl hplan hnarrow hroom

/-- In a run that never settles a settled projection with amounts that fit it, every
settlement that returns `Ok` pays out exactly, and after one that did, every further
settlement of the vector returns `Err` and changes nothing until a projection of the vector
has returned `Ok`. -/
theorem settled_at_most_once {calls : List TimedCall}
    (h : AllSteps (engineStep env) (KernelEngine.initial policy) (SettlesFresh env policy) calls) :
    ∀ before c after vectorId outcome, calls = before ++ c :: after →
      c.call = .reconstruct vectorId outcome →
      (((engineRun env policy before).call env c.now c.call).1.IsOk →
        ∃ s projection s', (engineRun env policy before).store.getState vectorId = some s ∧
          s.projection = some projection ∧
          (engineStep env (engineRun env policy before) c).store.getState vectorId = some s' ∧
          SettledExactly outcome projection s s') ∧
      (SettledSince env policy vectorId before →
        ((engineRun env policy before).call env c.now c.call).1.IsErr ∧
          engineStep env (engineRun env policy before) c = engineRun env policy before) := by
  intro before c after vectorId outcome hsplit hcall
  have hreach : ReachableEngine env policy (engineRun env policy before) := ⟨before, rfl⟩
  have hcond := h before c after hsplit
  rw [engineStep, hcall]
  constructor
  · intro hok
    obtain ⟨s, projection, s', hs, hprojection, hs', hexact, _⟩ := reconstruct_ok_exact hreach hok
    exact ⟨s, projection, s', hs, hprojection, hs', hexact⟩
  · intro hsince
    have hslots : SlotsSettled env policy before (engineRun env policy before) := by
      rw [hsplit] at h
      refine h.of_append.invariant (I := SlotsSettled env policy) ?_
        (fun before c hI hc => SlotsSettled.step hI hc)
      intro vectorId hnil
      generalize hcalls : ([] : List TimedCall) = calls at hnil
      cases hnil <;> simp at hcalls
    exact reconstruct_of_settled hreach (fun s projection hs hprojection =>
      hcond.reconstruct vectorId outcome s projection hcall hs hprojection
        (hslots vectorId hsince s projection hs hprojection))

/-- A call that settles nothing meets the condition as long as nothing has been settled. -/
theorem settlesFresh_of_unsettled {before : List TimedCall} {eng : KernelEngine} {c : TimedCall}
    (h : ∀ c' ∈ before ++ [c], ∀ vectorId outcome, c'.call ≠ .reconstruct vectorId outcome) :
    SettlesFresh env policy before eng c := by
  refine ⟨fun vectorId outcome _ _ hcall => absurd hcall (h c (by simp) vectorId outcome), ?_⟩
  intro vectorId _ _ _ _ hsince
  obtain ⟨c', hc', outcome, hcall⟩ := hsince.exists_reconstruct
  exact absurd hcall (h c' (by simp [hc']) vectorId outcome)

end

/-- A run that projects 2 of 5 and settles them without gain or loss. -/
def settledVector : List TimedCall :=
  escrowedVector ++ [callAt 3 (.reconstruct "a" ⟨"won", [0], [0]⟩)]

/-- That run, and a settlement that loses more than was projected. -/
def settledAfresh : List TimedCall :=
  settledVector ++ [callAt 4 (.reconstruct "a" ⟨"lost", [0], [9]⟩)]

/-- The projection stored for a vector. -/
def KernelEngine.projectionOf (eng : KernelEngine) (vectorId : String) : Option ProjectionState :=
  (eng.store.getState vectorId).bind VectorStateV1.projection

theorem settledAfresh_settlesFresh :
    AllSteps (engineStep samplePlatform) (KernelEngine.initial ConsensusPolicy.default)
      (SettlesFresh samplePlatform ConsensusPolicy.default) settledAfresh := by
  have hslot : ∀ {eng : KernelEngine} {s : VectorStateV1} {projection : ProjectionState},
      eng.store.getState "a" = some s → s.projection = some projection →
      eng.projectionOf "a" = some projection := by
    intro eng s projection hs hprojection
    rw [KernelEngine.projectionOf, hs, Option.bind_some, hprojection]
  rw [settledAfresh, settledVector, escrowedVector, oneVector, ← List.nil_append [callAt 1 _]]
  refine allSteps_snoc.mpr ⟨allSteps_snoc.mpr ⟨allSteps_snoc.mpr ⟨allSteps_snoc.mpr
    ⟨AllSteps.nil, ?_⟩, ?_⟩, ?_⟩, ?_⟩
  · exact settlesFresh_of_unsettled (by simp [callAt])
  · exact settlesFresh_of_unsettled (by simp [callAt])
  · refine ⟨?_, fun _ _ _ _ h => by simp [callAt] at h⟩
    intro vectorId outcome s projection hcall hs hprojection hmark
    obtain ⟨rfl, rfl⟩ := Call.reconstruct.inj hcall
    have hopen : ((engineAfter samplePlatform escrowedVector).projectionOf "a").map
        ProjectionState.settlementAtMs = some none := by decide +kernel
    have := congrArg (Option.map ProjectionState.settlementAtMs) (hslot hs hprojection)
    exact absurd (Option.some.inj (this.symm.trans hopen)) hmark
  · refine ⟨?_, fun _ _ _ _ h => by simp [callAt] at h⟩
    intro vectorId outcome s projection hcall hs hprojection _
    obtain ⟨rfl, rfl⟩ := Call.reconstruct.inj hcall
    have hamounts : ((engineAfter samplePlatform settledVector).projectionOf "a").map
        ProjectionState.projectedComponents = some [2] := by decide +kernel
    have := congrArg (Option.map ProjectionState.projectedComponents) (hslot hs hprojection)
    have hprojected : projection.projectedComponents = [2] :=
      Option.some.inj (this.symm.trans hamounts)
    rintro ⟨_, _, hcovered⟩
    have hfirst := hcovered 0
    rw [hprojected] at hfirst
    exact absurd hfirst (by decide)

theorem settled_at_most_once_sample :
    (∃ s projection s', (engineAfter samplePlatform escrowedVector).store.getState "a" = some s ∧
      s.projection = some projection ∧
      (engineAfter samplePlatform settledVector).store.getState "a" = some s' ∧
      SettledExactly ⟨"won", [0], [0]⟩ projection s s') ∧
    ((engineAfter samplePlatform settledVector).call samplePlatform (fun _ => 4)
      (.reconstruct "a" ⟨"lost", [0], [9]⟩)).1.IsErr ∧
    engineAfter samplePlatform settledAfresh = engineAfter samplePlatform settledVector := by
  have hok : ((engineAfter samplePlatform escrowedVector).call samplePlatform (fun _ => 3)
      (.reconstruct "a" ⟨"won", [0], [0]⟩)).1.IsOk := by decide +kernel
  obtain ⟨s, projection, s', hs, hprojection, hs', hexact⟩ :=
    (settled_at_most_once settledAfresh_settlesFresh escrowedVector (callAt 3 _)
      [callAt 4 (.reconstruct "a" ⟨"lost", [0], [9]⟩)] "a" ⟨"won", [0], [0]⟩
      (by simp [settledAfresh, settledVector]) rfl).1 hok
  have hsince : SettledSince samplePlatform ConsensusPolicy.default "a" settledVector :=
    .settled rfl hok
  obtain ⟨herr, hsame⟩ := (settled_at_most_once settledAfresh_settlesFresh settledVector
    (callAt 4 _) [] "a" ⟨"lost", [0], [9]⟩ rfl rfl).2 hsince
  refine ⟨⟨s, projection, s', hs, hprojection, ?_, hexact⟩, herr, ?_⟩
  · rw [settledVector, engineAfter, engineRun, runFrom_snoc]
    exact hs'
  · rw [settledAfresh, engineAfter, engineRun, runFrom_snoc]
    exact hsame

/-- A settlement pays out exactly, and a further one of the vector returns `Err` and changes no
component until the vector is projected anew. -/
def ProjectionsSettledOnce : Prop :=
  ∀ (env : Platform) (policy : ConsensusPolicy) (calls : List TimedCall) (vectorId : String)
    (outcome : SettlementOutcome) (now : ℕ → UInt64),
    (((engineRun env policy calls).call env now (.reconstruct vectorId outcome)).1.IsOk →
      ∃ s projection s', (engineRun env policy calls).store.getState vectorId = some s ∧
        s.projection = some projection ∧
        ((engineRun env policy calls).call env now
          (.reconstruct vectorId outcome)).2.store.getState vectorId = some s' ∧
        SettledExactly outcome projection s s') ∧
    (SettledSince env policy vectorId calls →
      ((engineRun env policy calls).call env now (.reconstruct vectorId outcome)).1.IsErr ∧
        ∀ i, (((engineRun env policy calls).call env now
          (.reconstruct vectorId outcome)).2.store.getState vectorId).map
            (fun s => s.component i) =
          ((engineRun env policy calls).store.getState vectorId).map (fun s => s.component i))

/-- The settlement of 2 goes through a second time. -/
theorem projectionsSettledOnce_fails : ¬ ProjectionsSettledOnce := by
  intro h
  have hsettled : SettledSince samplePlatform ConsensusPolicy.default "a" settledVector :=
    .settled rfl (by decide +kernel)
  have herr := ((h samplePlatform ConsensusPolicy.default settledVector "a" ⟨"won", [0], [0]⟩
    (fun _ => 4)).2 hsettled).1
  exact absurd herr (by decide +kernel)

end VKernelX
