/-
  Foundation/Machine.lean --- fixed-width numbers.

  `u64`, `u32` and `u16` are the language's own `UInt64`, `UInt32` and `UInt16`;
  `u128` is a 128-bit vector.  The plain operators `+` and `+=` of the source panic on
  overflow in a build with overflow checks and wrap in one without, so the operations
  below take the build's choice as an argument.  `f64` is its 64-bit IEEE-754 pattern.
-/
import VKernelX.Foundation.Outcome

set_option autoImplicit false

namespace VKernelX

/-! ## Unsigned 128-bit numbers -/

/-- `u128`. -/
abbrev U128 : Type := BitVec 128

/-- The largest `u64`. -/
def u64Max : ℕ := 2 ^ 64 - 1

/-- The largest `u128`. -/
def u128Max : ℕ := 2 ^ 128 - 1

/-- `u128::saturating_add`. -/
def saturatingAdd (a b : U128) : U128 := BitVec.ofNat 128 (min (a.toNat + b.toNat) u128Max)

/-- `u128::saturating_sub`. -/
def saturatingSub (a b : U128) : U128 := BitVec.ofNat 128 (a.toNat - b.toNat)

/-- `u128::saturating_mul`. -/
def saturatingMul (a b : U128) : U128 := BitVec.ofNat 128 (min (a.toNat * b.toNat) u128Max)

@[simp] theorem toNat_saturatingAdd (a b : U128) :
    (saturatingAdd a b).toNat = min (a.toNat + b.toNat) u128Max := by
  simp only [saturatingAdd, BitVec.toNat_ofNat]
  apply Nat.mod_eq_of_lt
  simp only [u128Max]
  omega

@[simp] theorem toNat_saturatingSub (a b : U128) :
    (saturatingSub a b).toNat = a.toNat - b.toNat := by
  simp only [saturatingSub, BitVec.toNat_ofNat]
  apply Nat.mod_eq_of_lt
  omega

@[simp] theorem toNat_saturatingMul (a b : U128) :
    (saturatingMul a b).toNat = min (a.toNat * b.toNat) u128Max := by
  simp only [saturatingMul, BitVec.toNat_ofNat]
  apply Nat.mod_eq_of_lt
  simp only [u128Max]
  omega

/-- `u64::try_from`. -/
def u64TryFrom (a : U128) : Option UInt64 :=
  if a.toNat ≤ u64Max then some (UInt64.ofNat a.toNat) else none

theorem u64TryFrom_eq_some_iff {a : U128} {n : UInt64} :
    u64TryFrom a = some n ↔ a.toNat = n.toNat := by
  unfold u64TryFrom u64Max
  have hn := n.toNat_lt
  split
  · rename_i h
    rw [Option.some_inj, ← UInt64.toNat_inj, UInt64.toNat_ofNat']
    omega
  · simp only [reduceCtorEq, false_iff]
    omega

theorem u64TryFrom_eq_none_iff {a : U128} : u64TryFrom a = none ↔ u64Max < a.toNat := by
  unfold u64TryFrom
  split <;> simp_all

/-! ## Lists of amounts -/

/-- Entry `i` of a list of amounts as a number; zero past the end. -/
def amountAt (l : List U128) (i : ℕ) : ℕ := (l.getD i 0).toNat

theorem amountAt_of_length_le {l : List U128} {i : ℕ} (h : l.length ≤ i) : amountAt l i = 0 := by
  rw [amountAt, List.getD_eq_default _ _ h]
  rfl

/-- A pointwise operation on lists of one length, entry by entry. -/
theorem getD_map_zip {l l' : List U128} (hlen : l.length = l'.length) (f : U128 × U128 → U128)
    (hzero : f (0, 0) = 0) (i : ℕ) :
    ((l.zip l').map f).getD i 0 = f (l.getD i 0, l'.getD i 0) := by
  by_cases hi : i < l.length
  · have hi' : i < l'.length := hlen ▸ hi
    simp [List.getD_eq_getElem?_getD, hi, hi']
  · have hi' : ¬ i < l'.length := hlen ▸ hi
    have hmap : ((l.zip l').map f).length ≤ i := by
      rw [List.length_map, List.length_zip]
      omega
    rw [List.getD_eq_default _ _ hmap, List.getD_eq_default _ _ (Nat.le_of_not_lt hi),
      List.getD_eq_default _ _ (Nat.le_of_not_lt hi'), hzero]

theorem amountAt_le_of_zip {l l' : List U128} (hlen : l.length = l'.length)
    (h : ∀ ab ∈ l.zip l', ab.1 ≤ ab.2) (i : ℕ) : amountAt l i ≤ amountAt l' i := by
  by_cases hi : i < l.length
  · have hi' : i < l'.length := hlen ▸ hi
    have hmem : (l[i], l'[i]) ∈ l.zip l' := by
      rw [← List.getElem_zip (h := by rw [List.length_zip]; omega)]
      exact List.getElem_mem _
    simpa [amountAt, hi, hi', BitVec.le_def] using h _ hmem
  · rw [amountAt_of_length_le (Nat.le_of_not_lt hi)]
    exact Nat.zero_le _

theorem amountAt_le {l : List U128} {bound : ℕ} (h : ∀ x ∈ l, x.toNat ≤ bound) (i : ℕ) :
    amountAt l i ≤ bound := by
  by_cases hi : i < l.length
  · simpa [amountAt, hi] using h l[i] (List.getElem_mem hi)
  · rw [amountAt_of_length_le (Nat.le_of_not_lt hi)]
    exact Nat.zero_le _

/-- Entry `i` of a list that was mapped by a function that keeps zero. -/
theorem amountAt_map {f : U128 → U128} (hzero : (f 0).toNat = 0) (l : List U128) (i : ℕ) :
    amountAt (l.map f) i = (f (l.getD i 0)).toNat := by
  have hf : f 0 = 0 := BitVec.eq_of_toNat_eq hzero
  rw [amountAt]
  nth_rewrite 1 [← hf]
  rw [List.getD_map]

theorem amountAt_eq_zero_iff {l : List U128} :
    (∀ i, amountAt l i = 0) ↔ ∀ a ∈ l, a = 0 := by
  constructor
  · intro h a ha
    obtain ⟨i, hi, rfl⟩ := List.mem_iff_getElem.mp ha
    have := h i
    rw [amountAt, List.getD_eq_getElem _ _ hi] at this
    exact BitVec.eq_of_toNat_eq this
  · intro h i
    exact Nat.le_zero.mp (amountAt_le (fun x hx => by rw [h x hx]; exact Nat.le_refl 0) i)

/-! ## Operators that may overflow -/

section Overflow

variable {ε : Type} (overflowChecks : Bool)

/-- `n += 1` on a `u64`. -/
def u64Succ (n : UInt64) : Outcome ε UInt64 :=
  if n.toNat + 1 < 2 ^ 64 then .ok (n + 1)
  else if overflowChecks then .error .panicked else .ok 0

/-- `a + b` on `u128`. -/
def u128Add (a b : U128) : Outcome ε U128 :=
  if a.toNat + b.toNat < 2 ^ 128 then .ok (a + b)
  else if overflowChecks then .error .panicked else .ok (a + b)

/-- `Iterator::sum` on `u128`. -/
def u128Sum (l : List U128) : Outcome ε U128 := l.foldlM (u128Add overflowChecks) 0

/-- Counting up from a number below the maximum is ordinary addition. -/
theorem u64Succ_of_lt {n : UInt64} (h : n.toNat + 1 < 2 ^ 64) :
    u64Succ (ε := ε) overflowChecks n = .ok (n + 1) := by
  unfold u64Succ
  rw [if_pos h]

theorem toNat_max (a b : UInt64) : (max a b).toNat = max a.toNat b.toNat := by
  show (if a ≤ b then b else a).toNat = _
  split
  · rename_i hle
    exact (Nat.max_eq_right (UInt64.le_iff_toNat_le.mp hle)).symm
  · rename_i hlt
    exact (Nat.max_eq_left (UInt64.lt_iff_toNat_lt.mp (UInt64.not_le.mp hlt)).le).symm

theorem toNat_succ {n : UInt64} (h : n.toNat + 1 < 2 ^ 64) : (n + 1).toNat = n.toNat + 1 := by
  rw [UInt64.toNat_add, UInt64.toNat_one]
  exact Nat.mod_eq_of_lt h

/-- Counting up never returns the number it started from. -/
theorem u64Succ_ne {n m : UInt64} (h : u64Succ (ε := ε) overflowChecks n = .ok m) : m ≠ n := by
  unfold u64Succ at h
  rintro rfl
  split at h
  · rename_i hlt
    have := congrArg UInt64.toNat (Except.ok.inj h)
    rw [toNat_succ hlt] at this
    omega
  · rename_i hlt
    split at h
    · cases h
    · have := congrArg UInt64.toNat (Except.ok.inj h)
      simp only [UInt64.toNat_zero] at this
      omega

/-- Neither operator returns `Err`. -/
theorem u64Succ_ne_err (n : UInt64) (e : ε) : u64Succ overflowChecks n ≠ .error (.err e) := by
  unfold u64Succ
  split
  · simp
  · split <;> simp

end Overflow

/-! ## Doubles -/

/-- `f64`, as its bit pattern. -/
structure F64 where
  bits : UInt64
  deriving DecidableEq, Repr, Inhabited

namespace F64

/-- The biased exponent field. -/
def exponent (x : F64) : ℕ := x.bits.toNat / 2 ^ 52 % 2 ^ 11

/-- The fraction field. -/
def fraction (x : F64) : ℕ := x.bits.toNat % 2 ^ 52

/-- `f64::is_finite`. -/
def isFinite (x : F64) : Bool := x.exponent != 2047

/-- A NaN pattern: all-ones exponent, nonzero fraction. -/
def isNaN (x : F64) : Bool := x.exponent == 2047 && x.fraction != 0

/-- `x < 0.0`: the sign is set and the value is neither a zero nor a NaN. -/
def ltZero (x : F64) : Bool := 2 ^ 63 < x.bits.toNat && !x.isNaN

/-- The pattern of `1.0`. -/
def one : F64 := ⟨0x3FF0000000000000⟩

/-- `x > 1.0`: on patterns without a sign the order of values is the order of bits. -/
def gtOne (x : F64) : Bool :=
  one.bits.toNat < x.bits.toNat && x.bits.toNat < 2 ^ 63 && !x.isNaN

/-- `n as f64 / d as f64` for small positive `d`: the quotient is scaled so that it has
53 significant bits, and rounded to nearest, ties to even. -/
def ofDiv (n d : ℕ) : F64 :=
  if n = 0 then ⟨0⟩
  else
    let scale := Nat.log2 (n * 2 ^ 64 / d)
    let num := n * 2 ^ (116 - scale)
    let q := num / d
    let r := num % d
    let q' := if d < 2 * r ∨ (2 * r = d ∧ q % 2 = 1) then q + 1 else q
    ⟨UInt64.ofNat ((scale + 959) * 2 ^ 52 + (q' - 2 ^ 52))⟩

/-- The patterns of 1.0, 0.7, 0.1 and 0.001. -/
example : (ofDiv 1000 1000, ofDiv 700 1000, ofDiv 100 1000, ofDiv 1 1000) =
    (one, ⟨0x3FE6666666666666⟩, ⟨0x3FB999999999999A⟩, ⟨0x3F50624DD2F1A9FC⟩) := by decide

end F64

end VKernelX
