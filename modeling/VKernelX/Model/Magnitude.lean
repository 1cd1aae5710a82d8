/-
  Model/Magnitude.lean --- zero detection and direction shares of `state.rs`.
-/
import VKernelX.Model.Operations

set_option autoImplicit false

namespace VKernelX

/-- `state.rs`, `DirectionShare`. -/
structure DirectionShare where
  componentIndex : ℕ
  numerator : U128
  denominator : U128
  deriving DecidableEq

namespace VectorStateV1

/-- `VectorStateV1::is_zero`. -/
def isZero (s : VectorStateV1) : Bool := s.components.all (fun v => v == 0)

/-- `VectorStateV1::direction_shares`. -/
def directionShares (overflowChecks : Bool) (s : VectorStateV1) :
    Outcome KernelXError (List DirectionShare) := do
  let magnitude ← s.magnitude overflowChecks
  Outcome.require (magnitude ≠ 0) .zeroNormalization
  return s.components.zipIdx.map (fun ci =>
    { componentIndex := ci.2, numerator := ci.1, denominator := magnitude })

end VectorStateV1

/-! ## Sums over the integers -/

/-- The sum of a list of amounts, as a number. -/
def amountSum (l : List U128) : ℕ := (l.map BitVec.toNat).sum

@[simp] theorem amountSum_nil : amountSum [] = 0 := rfl

@[simp] theorem amountSum_cons (a : U128) (l : List U128) :
    amountSum (a :: l) = a.toNat + amountSum l := by
  rw [amountSum, List.map_cons, List.sum_cons, amountSum]

/-- The sum by positions. -/
theorem amountSum_eq_sum_range (l : List U128) :
    amountSum l = ∑ i ∈ Finset.range l.length, amountAt l i := by
  induction l with
  | nil => rfl
  | cons a l ih =>
    rw [amountSum_cons, List.length_cons, Finset.sum_range_succ', ih, Nat.add_comm]
    rfl

/-- A list of smaller amounts has a smaller sum. -/
theorem amountSum_le {l l' : List U128} (hlength : l.length = l'.length)
    (h : ∀ i, amountAt l i ≤ amountAt l' i) : amountSum l ≤ amountSum l' := by
  rw [amountSum_eq_sum_range, amountSum_eq_sum_range, hlength]
  exact Finset.sum_le_sum (fun i _ => h i)

theorem amountSum_eq_zero_iff {l : List U128} : amountSum l = 0 ↔ ∀ a ∈ l, a = 0 := by
  rw [amountSum, List.sum_eq_zero_iff]
  simp only [List.mem_map, forall_exists_index, and_imp, forall_apply_eq_imp_iff₂]
  exact forall₂_congr (fun a _ => ⟨fun h => BitVec.eq_of_toNat_eq h, fun h => by rw [h]; rfl⟩)

/-- Adding up from `acc` neither panics nor wraps while the sum fits. -/
theorem foldlM_u128Add_of_lt {ε : Type} (overflowChecks : Bool) {acc : U128} {l : List U128}
    (h : acc.toNat + amountSum l < 2 ^ 128) :
    ∃ m, l.foldlM (u128Add (ε := ε) overflowChecks) acc = .ok m ∧
      m.toNat = acc.toNat + amountSum l := by
  induction l generalizing acc with
  | nil => exact ⟨acc, rfl, rfl⟩
  | cons a l ih =>
    rw [amountSum_cons] at h
    have hadd : acc.toNat + a.toNat < 2 ^ 128 := by omega
    have hsum : (acc + a).toNat = acc.toNat + a.toNat := by
      rw [BitVec.toNat_add]
      exact Nat.mod_eq_of_lt hadd
    obtain ⟨m, hfold, hm⟩ := @ih (acc + a) (by omega)
    refine ⟨m, ?_, ?_⟩
    · rw [List.foldlM_cons, u128Add, if_pos hadd]
      exact hfold
    · rw [hm, hsum, amountSum_cons, Nat.add_assoc]

/-- With overflow checks a sum that does not fit panics. -/
theorem amountSum_lt_of_foldlM {ε : Type} {acc m : U128} {l : List U128}
    (h : l.foldlM (u128Add (ε := ε) true) acc = .ok m) : acc.toNat + amountSum l < 2 ^ 128 := by
  induction l generalizing acc with
  | nil => exact acc.isLt
  | cons a l ih =>
    rw [List.foldlM_cons, u128Add] at h
    split at h
    · rename_i hadd
      have := ih h
      rw [BitVec.toNat_add, Nat.mod_eq_of_lt hadd] at this
      rw [amountSum_cons]
      omega
    · cases h

theorem magnitude_of_lt (overflowChecks : Bool) {s : VectorStateV1}
    (h : amountSum s.components < 2 ^ 128) :
    ∃ m, s.magnitude overflowChecks = .ok m ∧ m.toNat = amountSum s.components := by
  obtain ⟨m, hfold, hm⟩ := @foldlM_u128Add_of_lt KernelXError overflowChecks 0 s.components
    (by simpa using h)
  exact ⟨m, hfold, by simpa using hm⟩

/-- A magnitude is the sum, or what a build without overflow checks leaves of it. -/
theorem toNat_of_magnitude {overflowChecks : Bool} {s : VectorStateV1} {m : U128}
    (h : s.magnitude overflowChecks = .ok m) : m.toNat = amountSum s.components % 2 ^ 128 := by
  have hfold : ∀ (l : List U128) (acc : U128),
      l.foldlM (u128Add (ε := KernelXError) overflowChecks) acc = .ok m →
        m.toNat = (acc.toNat + amountSum l) % 2 ^ 128 := by
    intro l
    induction l with
    | nil =>
      intro acc hm
      rw [← Except.ok.inj hm]
      exact (Nat.mod_eq_of_lt acc.isLt).symm
    | cons a l ih =>
      intro acc hm
      rw [List.foldlM_cons, Outcome.bind_eq_ok_iff] at hm
      obtain ⟨sum, hadd, hrest⟩ := hm
      have hsum : sum = acc + a := by
        unfold u128Add at hadd
        split at hadd
        · exact (Except.ok.inj hadd).symm
        · split at hadd
          · cases hadd
          · exact (Except.ok.inj hadd).symm
      rw [ih sum hrest, hsum, BitVec.toNat_add, amountSum_cons, Nat.mod_add_mod, Nat.add_assoc]
  simpa using hfold s.components 0 h

end VKernelX
