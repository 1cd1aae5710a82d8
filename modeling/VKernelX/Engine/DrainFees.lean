/-
  Engine/DrainFees.lean --- the fee a drain charges.

  The product of amount and rate is formed before the division and stops at the largest
  `u128`.  So the fee is the exact one as long as the product stays below the next multiple of
  the divisor; amounts that fit in an event always do.
-/
import VKernelX.Engine.Writes

set_option autoImplicit false

namespace VKernelX

/-! ## The exact fee -/

/-- The rate of a drain: half the basis points, rounded down, where the ratio reaches the
threshold. -/
def drainRate (basisPoints authRatio threshold : UInt16) : ℕ :=
  if threshold ≤ authRatio then basisPoints.toNat / 2 else basisPoints.toNat

/-- A drain fails for more than 10000 basis points and no other reason, and charges every amount
the rate, rounded down; what is not charged remains. -/
structure ChargesExactFee (amounts : List U128) (basisPoints authRatio threshold : UInt16) :
    Prop where
  rejected : (applyDrain amounts basisPoints authRatio threshold).IsErr ↔
    10000 < basisPoints.toNat
  charged : basisPoints.toNat ≤ 10000 → ∃ drained remaining,
    applyDrain amounts basisPoints authRatio threshold = .ok (drained, remaining) ∧
      drained.length = amounts.length ∧ remaining.length = amounts.length ∧
      ∀ i, amountAt drained i =
          amountAt amounts i * drainRate basisPoints authRatio threshold / 10000 ∧
        amountAt drained i + amountAt remaining i = amountAt amounts i

/-- The products of the amounts and the rate stay below the first multiple of 10000 past the
largest `u128`. -/
def ProductsFit (amounts : List U128) (basisPoints authRatio threshold : UInt16) : Prop :=
  ∀ a ∈ amounts,
    a.toNat * drainRate basisPoints authRatio threshold < 10000 * (u128Max / 10000 + 1)

instance (amounts : List U128) (basisPoints authRatio threshold : UInt16) :
    Decidable (ProductsFit amounts basisPoints authRatio threshold) :=
  List.decidableBAll _ amounts

/-! ## The fee of the code -/

/-- The rate as the code computes it. -/
theorem toNat_discount (basisPoints authRatio threshold : UInt16) :
    (if threshold ≤ authRatio then basisPoints / 2 else basisPoints).toNat =
      drainRate basisPoints authRatio threshold := by
  unfold drainRate
  split
  · rw [UInt16.toNat_div]
    rfl
  · rfl

/-- The product is cut off at the largest `u128`. -/
theorem toNat_fee (amount : U128) (rate : UInt16) :
    (saturatingMul amount (BitVec.ofNat 128 rate.toNat) / 10000).toNat =
      min (amount.toNat * rate.toNat) u128Max / 10000 := by
  have hrate : (BitVec.ofNat 128 rate.toNat).toNat = rate.toNat := by
    have := rate.toNat_lt
    rw [BitVec.toNat_ofNat]
    exact Nat.mod_eq_of_lt (by omega)
  rw [BitVec.toNat_udiv, toNat_saturatingMul, hrate]
  rfl

/-- The cut-off shows in the quotient from the next multiple of the divisor on. -/
theorem min_div_eq_iff (n : ℕ) :
    min n u128Max / 10000 = n / 10000 ↔ n < 10000 * (u128Max / 10000 + 1) := by
  simp only [u128Max]
  omega

/-- A rate of at most the whole takes at most the amount. -/
theorem fee_le_amount (amount : U128) {rate : UInt16} (hrate : rate.toNat ≤ 10000) :
    min (amount.toNat * rate.toNat) u128Max / 10000 ≤ amount.toNat := by
  have hproduct : amount.toNat * rate.toNat ≤ amount.toNat * 10000 := Nat.mul_le_mul_left _ hrate
  omega

/-- What a drain returns, entry by entry. -/
theorem applyDrain_ok (amounts : List U128) {basisPoints : UInt16} (authRatio threshold : UInt16)
    (h : basisPoints.toNat ≤ 10000) :
    ∃ drained remaining, applyDrain amounts basisPoints authRatio threshold =
        .ok (drained, remaining) ∧
      drained.length = amounts.length ∧ remaining.length = amounts.length ∧
      ∀ i, amountAt drained i = min (amountAt amounts i *
          drainRate basisPoints authRatio threshold) u128Max / 10000 ∧
        amountAt drained i + amountAt remaining i = amountAt amounts i := by
  have hle : basisPoints ≤ 10000 := UInt16.le_iff_toNat_le.mpr h
  rw [applyDrain, Outcome.require_of hle, Outcome.ok_bind]
  refine ⟨_, _, rfl, List.length_map _, List.length_map _, fun i => ?_⟩
  have hdiscount := toNat_discount basisPoints authRatio threshold
  generalize (if threshold ≤ authRatio then basisPoints / 2 else basisPoints) = rate at hdiscount ⊢
  have hrate : rate.toNat ≤ 10000 := by
    rw [hdiscount, drainRate]
    split <;> omega
  have hfee := toNat_fee (amounts.getD i 0) rate
  have hzero : (saturatingMul 0 (BitVec.ofNat 128 rate.toNat) / 10000).toNat = 0 := by simp
  rw [amountAt_map hzero, amountAt_map (by simp), toNat_saturatingSub, hfee, ← hdiscount]
  have hbound := fee_le_amount (amounts.getD i 0) hrate
  exact ⟨rfl, Nat.add_sub_of_le hbound⟩

theorem applyDrain_isErr_iff (amounts : List U128) (basisPoints authRatio threshold : UInt16) :
    (applyDrain amounts basisPoints authRatio threshold).IsErr ↔ 10000 < basisPoints.toNat := by
  constructor
  · intro herr
    by_contra hle
    obtain ⟨_, _, hok, _⟩ := applyDrain_ok amounts authRatio threshold (Nat.le_of_not_lt hle)
    rw [hok] at herr
    exact Outcome.not_isErr_ok _ herr
  · intro h
    have hle : ¬ basisPoints ≤ 10000 := by
      rw [UInt16.le_iff_toNat_le]
      exact Nat.not_le_of_lt h
    rw [applyDrain, Outcome.require, if_neg hle]
    exact Outcome.isErr_err _

/-- A drain that returned `Ok` was of at most 10000 basis points. -/
theorem applyDrain_le {amounts drained remaining : List U128}
    {basisPoints authRatio threshold : UInt16}
    (h : applyDrain amounts basisPoints authRatio threshold = .ok (drained, remaining)) :
    basisPoints.toNat ≤ 10000 := by
  by_contra hlt
  have herr := (applyDrain_isErr_iff amounts basisPoints authRatio threshold).mpr
    (Nat.lt_of_not_le hlt)
  rw [h] at herr
  exact Outcome.not_isErr_ok _ herr

/-- Without a product that is cut off the fee is exact. -/
theorem chargesExactFee_of_fit {amounts : List U128} {basisPoints authRatio threshold : UInt16}
    (hfit : basisPoints.toNat ≤ 10000 → ProductsFit amounts basisPoints authRatio threshold) :
    ChargesExactFee amounts basisPoints authRatio threshold := by
  refine ⟨applyDrain_isErr_iff amounts basisPoints authRatio threshold, fun h => ?_⟩
  obtain ⟨drained, remaining, hok, hdrained, hremaining, hfees⟩ :=
    applyDrain_ok amounts authRatio threshold h
  refine ⟨drained, remaining, hok, hdrained, hremaining, fun i => ⟨?_, (hfees i).2⟩⟩
  rw [(hfees i).1]
  by_cases hi : i < amounts.length
  · have hentry : amountAt amounts i = amounts[i].toNat := by simp [amountAt, hi]
    rw [hentry]
    exact (min_div_eq_iff _).mpr (hfit h _ (List.getElem_mem hi))
  · rw [amountAt_of_length_le (Nat.le_of_not_lt hi)]
    simp

/-- Where the fee is exact no product was cut off. -/
theorem productsFit_of_exact {amounts : List U128} {basisPoints authRatio threshold : UInt16}
    (hexact : ChargesExactFee amounts basisPoints authRatio threshold)
    (h : basisPoints.toNat ≤ 10000) : ProductsFit amounts basisPoints authRatio threshold := by
  obtain ⟨drained, remaining, hok, _, _, hfees⟩ := hexact.charged h
  obtain ⟨drained', remaining', hok', _, _, hfees'⟩ := applyDrain_ok amounts authRatio threshold h
  obtain ⟨rfl, rfl⟩ := Prod.mk.inj (Except.ok.inj (hok.symm.trans hok'))
  intro a ha
  obtain ⟨i, hi, rfl⟩ := List.mem_iff_getElem.mp ha
  have hentry : amountAt amounts i = amounts[i].toNat := by simp [amountAt, hi]
  rw [← hentry]
  exact (min_div_eq_iff _).mp ((hfees' i).1.symm.trans (hfees i).1)

/-- A drain charges the exact fee exactly if it is rejected or no product is cut off. -/
theorem applyDrain_exact_iff (amounts : List U128) (basisPoints authRatio threshold : UInt16) :
    ChargesExactFee amounts basisPoints authRatio threshold ↔
      (basisPoints.toNat ≤ 10000 → ProductsFit amounts basisPoints authRatio threshold) :=
  ⟨productsFit_of_exact, chargesExactFee_of_fit⟩

/-- Drains charge the exact fee. -/
def DrainsChargeExactly : Prop :=
  ∀ (amounts : List U128) (basisPoints authRatio threshold : UInt16),
    ChargesExactFee amounts basisPoints authRatio threshold

/-- Draining the whole of the largest amount leaves most of it. -/
theorem drainsChargeExactly_fails : ¬ DrainsChargeExactly := by
  intro h
  have hfit := productsFit_of_exact (h [BitVec.ofNat 128 u128Max] 10000 0 700) (by decide)
  exact absurd hfit (by decide)

/-! ## Drains of the engine -/

/-- Amounts that fit in 64 bits have products that fit. -/
theorem productsFit_of_le {amounts : List U128} {basisPoints : UInt16}
    (authRatio threshold : UInt16) (h : basisPoints.toNat ≤ 10000)
    (hamounts : ∀ i, amountAt amounts i ≤ u64Max) :
    ProductsFit amounts basisPoints authRatio threshold := by
  intro a ha
  obtain ⟨i, hi, rfl⟩ := List.mem_iff_getElem.mp ha
  have hentry : amountAt amounts i = amounts[i].toNat := by simp [amountAt, hi]
  have hrate : drainRate basisPoints authRatio threshold ≤ 10000 := by
    rw [drainRate]
    split <;> omega
  have hproduct := Nat.mul_le_mul (hamounts i) hrate
  rw [hentry] at hproduct
  simp only [u64Max, u128Max] at hproduct ⊢
  omega

/-- The components after a drain are what `apply_drain` leaves. -/
theorem drainNext_components {env : Platform} {now : ℕ → UInt64} {basisPoints : UInt16}
    {s after : VectorStateV1} (h : drainNext env now basisPoints s = .ok after) :
    ∃ drained, applyDrain s.components basisPoints s.certification.authRatio
      s.certification.threshold = .ok (drained, after.components) := by
  simp only [drainNext, Outcome.bind_eq_ok_iff] at h
  obtain ⟨⟨drained, remaining⟩, hamounts, _, _, _, _, hafter⟩ := h
  obtain rfl := Except.ok.inj hafter
  exact ⟨drained, hamounts⟩

/-- A drain raises no component. -/
theorem drainNext_component_le {env : Platform} {now : ℕ → UInt64} {basisPoints : UInt16}
    {s after : VectorStateV1} (h : drainNext env now basisPoints s = .ok after) (i : ℕ) :
    after.component i ≤ s.component i := by
  obtain ⟨drained, hamounts⟩ := drainNext_components h
  have hle := applyDrain_le hamounts
  obtain ⟨_, _, hok, _, _, hfees⟩ := applyDrain_ok s.components s.certification.authRatio
    s.certification.threshold hle
  obtain ⟨rfl, rfl⟩ := Prod.mk.inj (Except.ok.inj (hamounts.symm.trans hok))
  have := (hfees i).2
  simp only [VectorStateV1.component]
  omega

/-- A drain of the engine that returned `Ok` charged the exact fee: its event holds the old
amounts as 64-bit numbers. -/
theorem drain_ok_exact {env : Platform} {policy : ConsensusPolicy} {eng : KernelEngine}
    (hreach : ReachableEngine env policy eng) {now : ℕ → UInt64} {vectorId : String}
    {basisPoints : UInt16} (hok : (eng.call env now (.drain vectorId basisPoints)).1.IsOk) :
    ∃ s after, eng.store.getState vectorId = some s ∧
      (eng.call env now (.drain vectorId basisPoints)).2.store.getState vectorId = some after ∧
      ∀ i, s.component i * drainRate basisPoints s.certification.authRatio
        s.certification.threshold / 10000 + after.component i = s.component i := by
  obtain ⟨before, after, r, e, hplan, _, hevent, hcall⟩ := update_of_ok rfl hok
  obtain ⟨hbefore, hnext, _⟩ := Update.plan_eq_ok_iff.mp hplan
  refine ⟨before, after, hbefore, ?_, ?_⟩
  · have hid : after.vectorId = vectorId := by
      rw [(drainNext_ok hnext).1.same.vectorId]
      exact (hreach.wellKeyed.states _ _ hbefore).1
    rw [hcall, MemoryStore.getState]
    simp [hid]
  · obtain ⟨drained, hamounts⟩ := drainNext_components hnext
    obtain ⟨_, hstate⟩ := buildTransitionEvent_fields (transitionEvent_eq_ok_iff.mp hevent).1
    have hle := applyDrain_le hamounts
    have hfit := productsFit_of_le before.certification.authRatio before.certification.threshold
      hle (component_le_of_event hstate)
    obtain ⟨_, _, hok', _, _, hfees⟩ :=
      (chargesExactFee_of_fit (fun _ => hfit)).charged hle
    obtain ⟨rfl, rfl⟩ := Prod.mk.inj (Except.ok.inj (hamounts.symm.trans hok'))
    intro i
    obtain ⟨hfee, hsum⟩ := hfees i
    rw [hfee] at hsum
    exact hsum

end VKernelX
