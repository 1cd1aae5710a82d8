/-
  Engine/Certification.lean --- every stored vector is certified.

  Every operation certifies the state it is about to store, with ownership and structure taken
  as verified, and the threshold never changes.  A score of 700 is then reached even with a
  magnitude of zero, so a drain always finds its vector certified and charges half the rate.
-/
import VKernelX.Engine.Acceptance
import VKernelX.Engine.DrainFees
import VKernelX.Engine.StateInvariants

set_option autoImplicit false

namespace VKernelX

section

variable {env : Platform}

/-! ## Certification of the stored amounts -/

variable (env) in
/-- The certification of a state was computed from the state's own amounts. -/
def SelfCertified (after : VectorStateV1) : Prop :=
  ∃ s nowMs, certifyState env s true true nowMs = .ok after.certification ∧
    s.components = after.components

variable (env) in
/-- A certified vector: it reaches the threshold of 700, by 300 more than needed unless its
magnitude is zero. -/
structure CertifiedState (s : VectorStateV1) : Prop where
  certified : s.certification.certified = true
  threshold : s.certification.threshold = 700
  reason : s.certification.reason = none
  ratio : ∃ m, s.magnitude env.overflowChecks = .ok m ∧
    s.certification.authRatio = if m = 0 then 700 else 1000

theorem SelfCertified.certified {after : VectorStateV1} (h : SelfCertified env after)
    (hsound : SoundState after) : CertifiedState env after := by
  obtain ⟨s, nowMs, hcertify, hcomponents⟩ := h
  have hne : s.components ≠ [] := by
    rw [hcomponents]
    exact hsound.canonical.components
  have hthreshold := hsound.threshold
  obtain ⟨_, hflag, hratio⟩ := certifyState_ok hcertify
  have hreached : (700 : UInt16) ≤ after.certification.authRatio := hratio hne
  have hkept : s.certification.threshold = 700 := by
    rw [← (certifyState_ok hcertify).1, hthreshold]
  simp only [certifyState, computeAuthRatio, Outcome.bind_eq_ok_iff] at hcertify
  obtain ⟨ratio, ⟨m, hmagnitude, hr⟩, hcertification⟩ := hcertify
  obtain rfl := Except.ok.inj hr
  have hcertification := Except.ok.inj hcertification
  rw [if_neg hne] at hcertification
  refine ⟨?_, hthreshold, ?_, m, ?_, ?_⟩
  · rw [hflag, hkept, decide_eq_true hreached]
  · rw [← hcertification] at hreached ⊢
    dsimp only at hreached ⊢
    rw [hkept, if_pos hreached]
  · rw [VectorStateV1.magnitude, ← hcomponents]
    exact hmagnitude
  · rw [← hcertification]
    by_cases hzero : m = 0
    · simp only [hzero, if_true]
      exact (by decide : UInt16.ofNat (min (100 + 200 + 300 + 100) 1000) = 700)
    · simp only [hzero, if_false]
      exact (by decide : UInt16.ofNat (min (400 + 200 + 300 + 100) 1000) = 1000)

theorem update_next_selfCertified {now : ℕ → UInt64} {c : Call} {u : Update}
    (hupdate : c.update? env now = some u) {s after : VectorStateV1} (h : u.next s = .ok after) :
    SelfCertified env after := by
  cases c with
  | certify vectorId =>
    obtain rfl := Option.some.inj hupdate
    simp only [certifyNext, Outcome.bind_eq_ok_iff] at h
    obtain ⟨_, hcertification, _, _, hafter⟩ := h
    obtain rfl := Except.ok.inj hafter
    exact ⟨_, _, hcertification, rfl⟩
  | drain vectorId basisPoints =>
    obtain rfl := Option.some.inj hupdate
    simp only [drainNext, Outcome.bind_eq_ok_iff] at h
    obtain ⟨⟨_, _⟩, _, _, hcertification, _, _, hafter⟩ := h
    obtain rfl := Except.ok.inj hafter
    exact ⟨_, _, hcertification, rfl⟩
  | project vectorId projected escrowId =>
    obtain rfl := Option.some.inj hupdate
    simp only [projectNext, Outcome.bind_eq_ok_iff] at h
    obtain ⟨_, _, _, hcertification, hafter⟩ := h
    obtain rfl := Except.ok.inj hafter
    exact ⟨_, _, hcertification, rfl⟩
  | reconstruct vectorId outcome =>
    obtain rfl := Option.some.inj hupdate
    simp only [reconstructNext, Outcome.bind_eq_ok_iff] at h
    obtain ⟨_, _, _, hcertification, hafter⟩ := h
    obtain rfl := Except.ok.inj hafter
    exact ⟨_, _, hcertification, rfl⟩
  | originCreate _ => cases hupdate
  | transfer _ _ _ => cases hupdate
  | createRegion _ _ => cases hupdate

theorem transferNext_selfCertified {now : ℕ → UInt64} {amount : List U128}
    {sender receiver afterFrom afterTo : VectorStateV1}
    (h : transferNext env now amount sender receiver = .ok (afterFrom, afterTo)) :
    SelfCertified env afterFrom ∧ SelfCertified env afterTo := by
  simp only [transferNext, Outcome.bind_eq_ok_iff] at h
  obtain ⟨⟨_, _⟩, _, _, hsenderCert, _, hreceiverCert, _, _, _, _, hafter⟩ := h
  obtain ⟨rfl, rfl⟩ := Prod.mk.inj (Except.ok.inj hafter)
  exact ⟨⟨_, _, hsenderCert, rfl⟩, ⟨_, _, hreceiverCert, rfl⟩⟩

theorem originState_selfCertified {now : ℕ → UInt64} {request : OriginRequest}
    {s : VectorStateV1} (h : originState env now request = .ok s) : SelfCertified env s := by
  simp only [originState, Outcome.bind_eq_ok_iff] at h
  obtain ⟨_, _, _, _, _, hcertification, _, _, hs⟩ := h
  obtain rfl := Except.ok.inj hs
  exact ⟨_, _, hcertification, rfl⟩

theorem selfCertified_kept (env : Platform) : KeptByOperations env (SelfCertified env) where
  origin _ _ _ := originState_selfCertified
  update _ _ _ _ _ hupdate hnext _ _ _ := update_next_selfCertified hupdate hnext
  transfer _ _ _ _ _ _ hnext _ _ := transferNext_selfCertified hnext

/-- In every reachable state every stored vector is certified, and a drain of it charges half
the basis points, rounded down. -/
theorem reachable_certified {policy : ConsensusPolicy} {eng : KernelEngine}
    (h : ReachableEngine env policy eng) :
    ∀ s ∈ eng.store.listStates, CertifiedState env s ∧ ∀ basisPoints : UInt16,
      drainRate basisPoints s.certification.authRatio s.certification.threshold =
        basisPoints.toNat / 2 := by
  intro s hs
  have hcertified := (h.states_of_kept (selfCertified_kept env) hs).certified (h.soundState hs)
  refine ⟨hcertified, fun basisPoints => ?_⟩
  obtain ⟨m, _, hratio⟩ := hcertified.ratio
  have hreached : s.certification.threshold ≤ s.certification.authRatio := by
    rw [hcertified.threshold, hratio]
    split
    · exact UInt16.le_refl 700
    · decide
  rw [drainRate, if_pos hreached]

end

theorem reachable_certified_escrowed :
    (engineAfter samplePlatform escrowedVector).store.listStates.length = 1 ∧
      ∀ s ∈ (engineAfter samplePlatform escrowedVector).store.listStates,
        CertifiedState samplePlatform s ∧ ∀ basisPoints : UInt16,
          drainRate basisPoints s.certification.authRatio s.certification.threshold =
            basisPoints.toNat / 2 :=
  ⟨by decide +kernel, reachable_certified (engineAfter_reachable samplePlatform escrowedVector)⟩

end VKernelX
