/-
  Encoding/Writers.lean --- the elementary writers are prefix codes.

  Numbers have a fixed width, and everything of variable length comes after its length, which
  is written in 64 bits.
-/
import VKernelX.Foundation.PrefixCode
import VKernelX.Model.StateRoot

set_option autoImplicit false

namespace VKernelX

/-! ## Fixed widths -/

theorem length_beBytes (width n : ℕ) : (beBytes width n).length = width := by
  induction width with
  | zero => rfl
  | succ width ih => rw [beBytes, List.length_cons, ih]

/-- A number that fits in the width is determined by its bytes. -/
theorem beBytes_inj (width : ℕ) {n m : ℕ} (hn : n < 256 ^ width) (hm : m < 256 ^ width)
    (h : beBytes width n = beBytes width m) : n = m := by
  induction width generalizing n m with
  | zero =>
    rw [pow_zero] at hn hm
    omega
  | succ width ih =>
    rw [beBytes, beBytes, List.cons.injEq] at h
    obtain ⟨hhigh, hlow⟩ := h
    have hpos : 0 < 256 ^ width := Nat.pow_pos (by omega)
    have hbyte : ∀ k, k < 256 ^ (width + 1) → k / 256 ^ width < 256 := by
      intro k hk
      exact Nat.div_lt_of_lt_mul (by rwa [pow_succ] at hk)
    have hdiv : n / 256 ^ width = m / 256 ^ width := by
      have := congrArg UInt8.toNat hhigh
      rw [UInt8.toNat_ofNat', UInt8.toNat_ofNat', Nat.mod_eq_of_lt (hbyte n hn),
        Nat.mod_eq_of_lt (hbyte m hm)] at this
      exact this
    have hmod : n % 256 ^ width = m % 256 ^ width := by
      refine ih (Nat.mod_lt _ hpos) (Nat.mod_lt _ hpos) ?_
      rw [beBytes_mod width n width le_rfl, beBytes_mod width m width le_rfl, hlow]
    rw [← Nat.div_add_mod n (256 ^ width), hdiv, hmod, Nat.div_add_mod]

theorem prefixCode_writeBeU64 : PrefixCode (fun _ : UInt64 => True) writeBeU64 := by
  refine .of_width (fun v => length_beBytes 8 v.toNat) (fun a b _ _ h => ?_)
  exact UInt64.toNat_inj.mp (beBytes_inj 8 a.toNat_lt b.toNat_lt h)

theorem prefixCode_writeU64 : PrefixCode (fun _ : UInt64 => True) writeU64 := by
  have : writeU64 = writeBeU64 := funext writeU64_eq_writeBeU64
  rw [this]
  exact prefixCode_writeBeU64

/-- A length below 2^64 is not cut off. -/
theorem prefixCode_length :
    PrefixCode (fun n : ℕ => n < 2 ^ 64) (fun n => writeBeU64 (UInt64.ofNat n)) := by
  intro n m rest rest' hn hm heq
  obtain ⟨hsame, hrest⟩ := prefixCode_writeBeU64 _ _ _ _ trivial trivial heq
  have := congrArg UInt64.toNat hsame
  rw [UInt64.toNat_ofNat_of_lt' hn, UInt64.toNat_ofNat_of_lt' hm] at this
  exact ⟨this, hrest⟩

theorem prefixCode_writeBool : PrefixCode (fun _ : Bool => True) writeBool := by
  refine .of_width (w := 1) (fun _ => rfl) (fun a b _ _ h => ?_)
  cases a <;> cases b <;> first | rfl | cases h

theorem prefixCode_writeF64 : PrefixCode (fun _ : F64 => True) writeF64 := by
  refine .of_width (fun x => length_beBytes 8 x.bits.toNat) (fun a b _ _ h => ?_)
  have hbits : a.bits = b.bits := UInt64.toNat_inj.mp
    (beBytes_inj 8 a.bits.toNat_lt b.bits.toNat_lt h)
  cases a
  cases b
  exact congrArg F64.mk hbits

/-! ## Texts, lists and maps -/

/-- A text shorter than 2^64 bytes. -/
def ShortStr (s : String) : Prop := (strBytes s).length < 2 ^ 64

instance (s : String) : Decidable (ShortStr s) :=
  inferInstanceAs (Decidable ((strBytes s).length < 2 ^ 64))

/-- A list of short texts, itself shorter than 2^64. -/
structure ShortStrs (l : List String) : Prop where
  length : l.length < 2 ^ 64
  entries : ∀ s ∈ l, ShortStr s

/-- A map of short texts with less than 2^64 entries. -/
structure ShortMap (m : BTreeMap String String) : Prop where
  size : m.size < 2 ^ 64
  entries : ∀ entry ∈ m.toList, ShortStr entry.1 ∧ ShortStr entry.2

/-- A text after its length. -/
theorem prefixCode_text :
    PrefixCode ShortStr (fun s =>
      writeBeU64 (UInt64.ofNat (strBytes s).length) ++ strBytes s) := by
  have hbyte : PrefixCode (fun _ : UInt8 => True) (fun b => [b]) :=
    .of_width (w := 1) (fun _ => rfl) (fun a b _ _ h => List.singleton_injective h)
  have hlist := (prefixCode_length.counted hbyte).comap strBytes strBytes_injective
  simp only [List.flatMap_singleton'] at hlist
  exact hlist.mono (fun s hs => ⟨hs, fun _ _ => trivial⟩)

theorem prefixCode_writeStr : PrefixCode ShortStr writeStr := by
  have : writeStr = fun s => writeBeU64 (UInt64.ofNat (strBytes s).length) ++ strBytes s :=
    funext (fun s => by rw [writeStr, writeBytes, writeU64_eq_writeBeU64])
  rw [this]
  exact prefixCode_text

theorem prefixCode_writeVecStr : PrefixCode ShortStrs writeVecStr := by
  have : writeVecStr = fun l => writeBeU64 (UInt64.ofNat l.length) ++ l.flatMap writeStr :=
    funext (fun l => by rw [writeVecStr, writeU64_eq_writeBeU64])
  rw [this]
  exact (prefixCode_length.counted prefixCode_writeStr).mono (fun l hl => ⟨hl.length, hl.entries⟩)

theorem prefixCode_writeVecU64 :
    PrefixCode (fun l : List UInt64 => l.length < 2 ^ 64) writeVecU64 := by
  have : writeVecU64 = fun l => writeBeU64 (UInt64.ofNat l.length) ++ l.flatMap writeU64 :=
    funext (fun l => by rw [writeVecU64, writeU64_eq_writeBeU64])
  rw [this]
  exact (prefixCode_length.counted prefixCode_writeU64).mono
    (fun l hl => ⟨hl, fun _ _ => trivial⟩)

/-- A map after its size, its entries in key order. -/
theorem prefixCode_map {write : String → List UInt8} (hwrite : PrefixCode ShortStr write) :
    PrefixCode ShortMap (fun m => writeBeU64 (UInt64.ofNat m.size) ++
      m.toList.flatMap (fun entry => write entry.1 ++ write entry.2)) := by
  have hlist := (prefixCode_length.counted (hwrite.pair hwrite)).comap
    (fun m : BTreeMap String String => m.toList) BTreeMap.toList_injective
  simp only [Std.ExtTreeMap.length_toList] at hlist
  exact hlist.mono (fun m hm => ⟨hm.size, hm.entries⟩)

theorem prefixCode_writeStrMap : PrefixCode ShortMap writeStrMap := by
  have : writeStrMap = fun m => writeBeU64 (UInt64.ofNat m.size) ++
      m.toList.flatMap (fun entry => writeStr entry.1 ++ writeStr entry.2) :=
    funext (fun m => by rw [writeStrMap, writeU64_eq_writeBeU64])
  rw [this]
  exact prefixCode_map prefixCode_writeStr

end VKernelX
