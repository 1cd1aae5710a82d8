/-
  Engine/Magnitudes.lean --- when the sum of a stored vector's components fits in 128 bits.

  Nothing bounds the sum, and `magnitude` adds with the plain operator.  In a build with
  overflow checks every operation certifies what it is about to store, and so panics before it
  stores a sum that does not fit.  In a build without them a creation, a transfer and a
  settlement can each store one.
-/
import VKernelX.Engine.DrainFees
import VKernelX.Engine.Settlement
import VKernelX.Model.Magnitude

set_option autoImplicit false

namespace VKernelX

/-! ## Magnitudes of one vector -/

/-- The sum of the components fits, and everything that is computed from the magnitude is what
it is over the integers. -/
structure SoundMagnitude (env : Platform) (s : VectorStateV1) : Prop where
  sum_lt : amountSum s.components < 2 ^ 128
  magnitude_eq : ∃ m, s.magnitude env.overflowChecks = .ok m ∧ m.toNat = amountSum s.components
  isZero_iff : s.isZero = true ↔ s.magnitude env.overflowChecks = .ok 0
  shares_err_iff : s.directionShares env.overflowChecks = .error (.err .zeroNormalization) ↔
    ∀ c ∈ s.components, c = 0
  shares_ok : (∃ c ∈ s.components, c ≠ 0) → ∃ shares denominator,
    s.directionShares env.overflowChecks = .ok shares ∧
      shares.map (fun share => (share.numerator, share.componentIndex)) = s.components.zipIdx ∧
      (∀ share ∈ shares, share.denominator = denominator) ∧
      (shares.map (fun share => share.numerator.toNat)).sum = denominator.toNat
  authRatio_eq : ∀ ownershipVerified structureVerified,
    computeAuthRatio env s ownershipVerified structureVerified =
      .ok (UInt16.ofNat (min ((if s.isZero then 100 else 400) +
        (if s.components = [] then 0 else 200) + (if ownershipVerified then 300 else 0) +
        (if structureVerified then 100 else 0)) 1000))

theorem isZero_iff_forall {s : VectorStateV1} :
    s.isZero = true ↔ ∀ c ∈ s.components, c = 0 := by
  simp [VectorStateV1.isZero]

/-- A magnitude that is the integer sum is zero for zero vectors only. -/
theorem magnitude_eq_zero_iff {s : VectorStateV1} {m : U128}
    (hm : m.toNat = amountSum s.components) : m = 0 ↔ ∀ c ∈ s.components, c = 0 := by
  rw [← amountSum_eq_zero_iff, ← hm]
  exact ⟨fun h => by rw [h]; rfl, fun h => BitVec.eq_of_toNat_eq h⟩

/-- The shares of a vector, from its magnitude. -/
theorem directionShares_of_magnitude {checks : Bool} {s : VectorStateV1} {m : U128}
    (hmagnitude : s.magnitude checks = .ok m) :
    s.directionShares checks = if m = 0 then .error (.err .zeroNormalization) else
      .ok (s.components.zipIdx.map (fun ci =>
        { componentIndex := ci.2, numerator := ci.1, denominator := m })) := by
  rw [VectorStateV1.directionShares, hmagnitude, Outcome.ok_bind, Outcome.require]
  by_cases hzero : m = 0
  · rw [if_pos hzero, if_neg (not_not_intro hzero)]
    rfl
  · rw [if_neg hzero, if_pos hzero]
    rfl

/-- A sum that fits is all it takes. -/
theorem soundMagnitude_of_lt (env : Platform) {s : VectorStateV1}
    (h : amountSum s.components < 2 ^ 128) : SoundMagnitude env s := by
  obtain ⟨m, hmagnitude, hm⟩ := magnitude_of_lt env.overflowChecks h
  have hzero := magnitude_eq_zero_iff hm
  have hshares := directionShares_of_magnitude hmagnitude
  refine ⟨h, ⟨m, hmagnitude, hm⟩, ?_, ?_, ?_, ?_⟩
  · rw [isZero_iff_forall, ← hzero, hmagnitude, Except.ok.injEq]
  · rw [hshares, ← hzero]
    split <;> simp_all
  · rintro ⟨c, hc, hne⟩
    have hpos : m ≠ 0 := fun heq => hne (hzero.mp heq c hc)
    rw [if_neg hpos] at hshares
    refine ⟨_, m, hshares, ?_, ?_, ?_⟩
    · simp [Function.comp_def]
    · intro share hshare
      obtain ⟨_, _, rfl⟩ := List.mem_map.mp hshare
      rfl
    · rw [hm, amountSum, List.map_map]
      have hnumerators : ∀ l : List (U128 × ℕ),
          l.map ((fun share : DirectionShare => share.numerator.toNat) ∘ fun ci =>
            { componentIndex := ci.2, numerator := ci.1, denominator := m }) =
          (l.map Prod.fst).map BitVec.toNat := by
        intro l
        rw [List.map_map]
        rfl
      rw [hnumerators, List.zipIdx_map_fst]
  · intro ownershipVerified structureVerified
    have hcond : (m = 0) = (s.isZero = true) := propext (hzero.trans isZero_iff_forall.symm)
    rw [computeAuthRatio, hmagnitude, Outcome.ok_bind]
    simp only [hcond]
    rfl

/-! ## Builds with overflow checks -/

section

variable {env : Platform}

/-- With overflow checks a certification goes through only for a sum that fits. -/
theorem amountSum_lt_of_certifyState (hchecks : env.overflowChecks = true) {s : VectorStateV1}
    {o v : Bool} {nowMs : UInt64} {certification : CertificationState}
    (h : certifyState env s o v nowMs = .ok certification) :
    amountSum s.components < 2 ^ 128 := by
  simp only [certifyState, computeAuthRatio, VectorStateV1.magnitude, u128Sum, hchecks,
    Outcome.bind_eq_ok_iff] at h
  obtain ⟨_, ⟨m, hm, _⟩, _⟩ := h
  simpa using amountSum_lt_of_foldlM hm

/-- Every update certifies the components it stores. -/
theorem amountSum_lt_of_update (hchecks : env.overflowChecks = true) {now : ℕ → UInt64} {c : Call}
    {u : Update} (hupdate : c.update? env now = some u) {s after : VectorStateV1}
    (h : u.next s = .ok after) : amountSum after.components < 2 ^ 128 := by
  cases c with
  | certify vectorId =>
    obtain rfl := Option.some.inj hupdate
    simp only [certifyNext, Outcome.bind_eq_ok_iff] at h
    obtain ⟨_, hcertify, _, _, hafter⟩ := h
    obtain rfl := Except.ok.inj hafter
    have hsum := amountSum_lt_of_certifyState hchecks hcertify
    exact hsum
  | drain vectorId basisPoints =>
    obtain rfl := Option.some.inj hupdate
    simp only [drainNext, Outcome.bind_eq_ok_iff] at h
    obtain ⟨_, _, _, hcertify, _, _, hafter⟩ := h
    obtain rfl := Except.ok.inj hafter
    have hsum := amountSum_lt_of_certifyState hchecks hcertify
    exact hsum
  | project vectorId projected escrowId =>
    obtain rfl := Option.some.inj hupdate
    simp only [projectNext, Outcome.bind_eq_ok_iff] at h
    obtain ⟨_, _, _, hcertify, hafter⟩ := h
    obtain rfl := Except.ok.inj hafter
    have hsum := amountSum_lt_of_certifyState hchecks hcertify
    exact hsum
  | reconstruct vectorId outcome =>
    obtain rfl := Option.some.inj hupdate
    simp only [reconstructNext, Outcome.bind_eq_ok_iff] at h
    obtain ⟨_, _, _, hcertify, hafter⟩ := h
    obtain rfl := Except.ok.inj hafter
    have hsum := amountSum_lt_of_certifyState hchecks hcertify
    exact hsum
  | originCreate _ => cases hupdate
  | transfer _ _ _ => cases hupdate
  | createRegion _ _ => cases hupdate

theorem amountSum_lt_of_origin (hchecks : env.overflowChecks = true) {now : ℕ → UInt64}
    {request : OriginRequest} {s : VectorStateV1} (h : originState env now request = .ok s) :
    amountSum s.components < 2 ^ 128 := by
  simp only [originState, Outcome.bind_eq_ok_iff] at h
  obtain ⟨_, _, _, _, _, hcertify, _, _, hs⟩ := h
  obtain rfl := Except.ok.inj hs
  have hsum := amountSum_lt_of_certifyState hchecks hcertify
  exact hsum

theorem amountSum_lt_of_transfer (hchecks : env.overflowChecks = true) {now : ℕ → UInt64}
    {amount : List U128} {sender receiver afterFrom afterTo : VectorStateV1}
    (h : transferNext env now amount sender receiver = .ok (afterFrom, afterTo)) :
    amountSum afterFrom.components < 2 ^ 128 ∧ amountSum afterTo.components < 2 ^ 128 := by
  simp only [transferNext, Outcome.bind_eq_ok_iff] at h
  obtain ⟨_, _, _, hfrom, _, hto, _, _, _, _, hafter⟩ := h
  obtain ⟨rfl, rfl⟩ := Prod.mk.inj (Except.ok.inj hafter)
  have hsumFrom := amountSum_lt_of_certifyState hchecks hfrom
  have hsumTo := amountSum_lt_of_certifyState hchecks hto
  exact ⟨hsumFrom, hsumTo⟩

end

/-! ## Builds without overflow checks -/

/-- The arguments of a creation that is not rejected. -/
structure OriginRequest.Admitted (env : Platform) (request : OriginRequest) : Prop where
  proof : verifyOrigin env request.seed request.nonce request.difficulty = true
  components : request.components ≠ []
  ownerPubkey : request.ownerPubkey ≠ ""
  vectorId : request.vectorId ≠ ""
  spaceId : request.spaceId ≠ ""

/-- What a call that is not rejected would store has a sum that fits. -/
def SumsFit (env : Platform) (eng : KernelEngine) : Call → Prop
  | .originCreate request => request.Admitted env → amountSum request.components < 2 ^ 128
  | .transfer fromId toId amount => ∀ sender receiver,
      eng.store.getState fromId = some sender → eng.store.getState toId = some receiver →
      sender.components.length = receiver.components.length →
      sender.components.length = amount.length →
      (∀ i, amountAt amount i ≤ sender.component i) →
      ∑ i ∈ Finset.range amount.length,
        min (receiver.component i + amountAt amount i) u128Max < 2 ^ 128
  | .reconstruct vectorId outcome => ∀ s projection,
      eng.store.getState vectorId = some s → s.projection = some projection →
      Fits outcome projection →
      ∑ i ∈ Finset.range s.components.length, min (s.component i +
        (min (amountAt projection.projectedComponents i + amountAt outcome.gains i) u128Max -
          amountAt outcome.losses i)) u128Max < 2 ^ 128
  | _ => True

section

variable {env : Platform}

/-- The premises under which an update is stored, and what it stores then fits. -/
theorem amountSum_lt_of_sumsFit {eng : KernelEngine} {now : ℕ → UInt64} {c : Call} {u : Update}
    (hupdate : c.update? env now = some u) (hfit : SumsFit env eng c) {s after : VectorStateV1}
    (hs : eng.store.getState u.vectorId = some s) (hsound : SoundState s)
    (hsum : amountSum s.components < 2 ^ 128) (h : u.next s = .ok after) :
    amountSum after.components < 2 ^ 128 := by
  cases c with
  | certify vectorId =>
    obtain rfl := Option.some.inj hupdate
    rwa [(certifyNext_ok h).2.1]
  | drain vectorId basisPoints =>
    obtain rfl := Option.some.inj hupdate
    have hle : ∀ i, after.component i ≤ s.component i := drainNext_component_le h
    exact (amountSum_le (drainNext_ok h).2.1 hle).trans_lt hsum
  | project vectorId projected escrowId =>
    obtain rfl := Option.some.inj hupdate
    have hprojects := (projectNext_ok h).2.1
    refine (amountSum_le hprojects.length_eq (fun i => ?_)).trans_lt hsum
    have := hprojects.component_eq i
    simp only [VectorStateV1.component] at this
    omega
  | reconstruct vectorId outcome =>
    obtain rfl := Option.some.inj hupdate
    obtain ⟨projection, hprojection⟩ := reconstructNext_projection h
    have hsettles := (reconstructNext_ok hprojection (hsound.shape projection hprojection) h).2.1
    have hfits : Fits outcome projection := by
      by_contra hnot
      have hnone : ∀ projection', s.projection = some projection' →
          ¬ Fits outcome projection' := by
        intro projection' hprojection'
        rwa [Option.some.inj (hprojection'.symm.trans hprojection)]
      obtain ⟨e, herror⟩ := @reconstructNext_of_not_fits env now outcome s hsound hnone
      exact absurd (h.symm.trans herror) (by simp)
    have hbound := hfit s projection hs hprojection hfits
    rw [amountSum_eq_sum_range, hsettles.length_eq]
    simp only [← hsettles.component_eq] at hbound
    exact hbound
  | originCreate _ => cases hupdate
  | transfer _ _ _ => cases hupdate
  | createRegion _ _ => cases hupdate

/-- A creation that is stored was admitted. -/
theorem admitted_of_originState {now : ℕ → UInt64} {request : OriginRequest} {s : VectorStateV1}
    (h : originState env now request = .ok s) : request.Admitted env := by
  have hcanonical := originState_canonical h
  have hcreated := originState_ok h
  refine ⟨?_, ?_, ?_, ?_, ?_⟩
  · simp only [originState, createOriginVector, Outcome.bind_eq_ok_iff,
      Outcome.require_eq_ok_iff] at h
    obtain ⟨_, ⟨_, hproof, _⟩, _⟩ := h
    exact hproof
  · rw [← hcreated.components]
    exact hcanonical.components
  · rw [← hcreated.ownerPubkey]
    exact hcanonical.ownerPubkey
  · rw [← hcreated.vectorId]
    exact hcanonical.vectorId
  · rw [← hcreated.spaceId]
    exact hcanonical.spaceId

/-- Both sides of a transfer have the shape of the amount. -/
theorem transferNext_shape {now : ℕ → UInt64} {amount : List U128}
    {sender receiver afterFrom afterTo : VectorStateV1}
    (h : transferNext env now amount sender receiver = .ok (afterFrom, afterTo)) :
    sender.components.length = receiver.components.length ∧
      sender.components.length = amount.length := by
  simp only [transferNext, transferComponents, VectorStateV1.ensureSameShape,
    Outcome.bind_eq_ok_iff, Outcome.require_eq_ok_iff] at h
  obtain ⟨_, ⟨_, hshape, _, hlength, _⟩, _⟩ := h
  exact ⟨hshape, hlength⟩

/-! ## Runs -/

/-- Every stored vector's sum fits. -/
def MemoryStore.SumsFit (store : MemoryStore) : Prop :=
  ∀ (id : String) (s : VectorStateV1), store.states[id]? = some s →
    amountSum s.components < 2 ^ 128

/-- A call stores sums that fit: with overflow checks because it certifies first, and without
them because of its arguments. -/
theorem MemoryStore.SumsFit.call {policy : ConsensusPolicy} {eng : KernelEngine}
    (hreach : ReachableEngine env policy eng) (h : eng.store.SumsFit) (now : ℕ → UInt64)
    {c : Call} (hfit : env.overflowChecks = false → VKernelX.SumsFit env eng c) :
    (eng.call env now c).2.store.SumsFit := by
  have hchange := (show CallEnds env eng now c _ _ from call_ends eng now c).states
  unfold MemoryStore.SumsFit
  generalize (eng.call env now c).2.store.states = states at hchange
  cases hchange with
  | none => exact h
  | update u before after hupdate hplan =>
    obtain ⟨hbefore, hnext, _⟩ := Update.plan_eq_ok_iff.mp hplan
    refine forall_lookup_insert h ?_
    cases hchecks : env.overflowChecks with
    | true => exact amountSum_lt_of_update hchecks hupdate hnext
    | false =>
      exact amountSum_lt_of_sumsFit hupdate (hfit hchecks) hbefore
        (hreach.soundStates _ _ hbefore) (h _ _ hbefore) hnext
  | origin request s hcall hplan =>
    refine forall_lookup_insert h ?_
    cases hchecks : env.overflowChecks with
    | true => exact amountSum_lt_of_origin hchecks hplan
    | false =>
      subst hcall
      rw [(originState_ok hplan).components]
      exact hfit hchecks (admitted_of_originState hplan)
  | transfer fromId toId amount plan hcall hplan =>
    obtain ⟨hsender, hreceiver, hnext⟩ := transferPlan_eq_ok_iff.mp hplan
    have hboth : amountSum plan.afterFrom.components < 2 ^ 128 ∧
        amountSum plan.afterTo.components < 2 ^ 128 := by
      cases hchecks : env.overflowChecks with
      | true => exact amountSum_lt_of_transfer hchecks hnext
      | false =>
        subst hcall
        have htransfers := transferNext_ok hnext
        obtain ⟨hshape, hlength⟩ := transferNext_shape hnext
        have hbound := hfit hchecks _ _ hsender hreceiver hshape hlength htransfers.covered
        refine ⟨(amountSum_le htransfers.length_from (fun i => ?_)).trans_lt (h _ _ hsender), ?_⟩
        · have := htransfers.component_from i
          simp only [VectorStateV1.component] at this
          omega
        · rw [amountSum_eq_sum_range, htransfers.length_to, ← hshape, hlength]
          simp only [← htransfers.component_to] at hbound
          exact hbound
    exact forall_lookup_insert (forall_lookup_insert h hboth.1) hboth.2

end

end VKernelX
