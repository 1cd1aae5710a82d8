/-
  Encoding/Hex.lean --- the hex codec of keys and signatures is exact.

  A character outside ASCII is written in bytes from 128 on, and none of these is a hex digit,
  so it makes no difference whether a text is read by characters or by bytes.
-/
import VKernelX.Model.Region

set_option autoImplicit false

namespace VKernelX

/-! ## Nibbles -/

/-- A digit that `hex_value` reads. -/
def IsHexDigit (c : Char) : Prop :=
  ('0' ≤ c ∧ c ≤ '9') ∨ ('a' ≤ c ∧ c ≤ 'f') ∨ ('A' ≤ c ∧ c ≤ 'F')

instance (c : Char) : Decidable (IsHexDigit c) :=
  inferInstanceAs (Decidable (_ ∨ _ ∨ _))

theorem toNat_lt_of_isHexDigit {c : Char} (h : IsHexDigit c) : c.toNat < 128 := by
  have hle : ∀ d : Char, c ≤ d → c.toNat ≤ d.toNat := fun d h => h
  rcases h with ⟨_, h⟩ | ⟨_, h⟩ | ⟨_, h⟩ <;> refine Nat.lt_of_le_of_lt (hle _ h) (by decide)

/-- What holds of the 256 bytes holds of every byte. -/
theorem forall_byte {P : UInt8 → Prop} (h : ∀ n < 256, P (UInt8.ofNat n)) (b : UInt8) : P b := by
  have := h b.toNat b.toNat_lt
  rwa [UInt8.ofNat_toNat] at this

/-- A hex digit is read as the nibble whose character is that digit in lower case. -/
theorem hexValue_of_isHexDigit (b : UInt8) (h : IsHexDigit (Char.ofNat b.toNat)) :
    ∃ v : UInt8, hexValue b = .ok v ∧ v.toNat < 16 ∧
      hexChar v = (Char.ofNat b.toNat).toLower := by
  have hall : ∀ n < 256, IsHexDigit (Char.ofNat n) → ∃ k < 16,
      hexValue (UInt8.ofNat n) = .ok (UInt8.ofNat k) ∧
        hexChar (UInt8.ofNat k) = (Char.ofNat n).toLower := by
    decide +kernel
  obtain ⟨k, hk, hvalue, hchar⟩ := hall b.toNat b.toNat_lt h
  rw [UInt8.ofNat_toNat] at hvalue
  refine ⟨UInt8.ofNat k, hvalue, ?_, hchar⟩
  rw [UInt8.toNat_ofNat']
  omega

/-- Any other byte is turned down. -/
theorem hexValue_of_not_isHexDigit (b : UInt8) (h : ¬ IsHexDigit (Char.ofNat b.toNat)) :
    (hexValue b).IsErr := by
  have hall : ∀ n < 256, ¬ IsHexDigit (Char.ofNat n) → hexValue (UInt8.ofNat n) =
      Outcome.fail ("invalid hex character: " ++ String.singleton (Char.ofNat n)) := by
    decide +kernel
  have := hall b.toNat b.toNat_lt h
  rw [UInt8.ofNat_toNat] at this
  exact ⟨_, this⟩

/-- A nibble's character is read as that nibble. -/
theorem hexChar_spec (v : UInt8) (h : v.toNat < 16) :
    IsHexDigit (hexChar v) ∧ hexValue (UInt8.ofNat (hexChar v).toNat) = .ok v := by
  have hall : ∀ k < 16, IsHexDigit (hexChar (UInt8.ofNat k)) ∧
      hexValue (UInt8.ofNat (hexChar (UInt8.ofNat k)).toNat) = .ok (UInt8.ofNat k) := by
    decide +kernel
  have := hall v.toNat h
  rwa [UInt8.ofNat_toNat] at this

/-- A byte is made of its nibbles. -/
theorem nibbles_join (b : UInt8) :
    (b >>> 4).toNat < 16 ∧ (b &&& 0x0f).toNat < 16 ∧
      ((b >>> 4) <<< 4) ||| (b &&& 0x0f) = b :=
  forall_byte (P := fun b => (b >>> 4).toNat < 16 ∧ (b &&& 0x0f).toNat < 16 ∧
    ((b >>> 4) <<< 4) ||| (b &&& 0x0f) = b) (by decide +kernel) b

/-- Two nibbles are those of the byte they make. -/
theorem nibbles_split (hi lo : UInt8) (hhi : hi.toNat < 16) (hlo : lo.toNat < 16) :
    ((hi <<< 4) ||| lo) >>> 4 = hi ∧ ((hi <<< 4) ||| lo) &&& 0x0f = lo := by
  have hall : ∀ h < 16, ∀ l < 16,
      ((UInt8.ofNat h <<< 4) ||| UInt8.ofNat l) >>> 4 = UInt8.ofNat h ∧
        ((UInt8.ofNat h <<< 4) ||| UInt8.ofNat l) &&& 0x0f = UInt8.ofNat l := by
    decide +kernel
  have := hall hi.toNat hhi lo.toNat hlo
  rwa [UInt8.ofNat_toNat, UInt8.ofNat_toNat] at this

/-! ## Texts of hex digits -/

/-- A text of hex digits has them as its bytes. -/
theorem strBytes_of_hexDigits {s : String} (h : ∀ c ∈ s.toList, IsHexDigit c) :
    strBytes s = s.toList.map (fun c => UInt8.ofNat c.toNat) := by
  rw [strBytes_eq_flatMap, List.map_eq_flatMap]
  refine List.flatMap_congr (fun c hc => ?_)
  exact utf8EncodeChar_of_lt (toNat_lt_of_isHexDigit (h c hc))

theorem charOfByte_of_lt {c : Char} (h : c.toNat < 128) :
    Char.ofNat (UInt8.ofNat c.toNat).toNat = c := by
  rw [UInt8.toNat_ofNat', Nat.mod_eq_of_lt (by omega), Char.ofNat_toNat]

/-- A text has only hex digits exactly if its bytes are hex digits. -/
theorem hexDigits_iff (s : String) :
    (∀ c ∈ s.toList, IsHexDigit c) ↔ ∀ b ∈ strBytes s, IsHexDigit (Char.ofNat b.toNat) := by
  constructor
  · intro h b hb
    rw [strBytes_of_hexDigits h] at hb
    obtain ⟨c, hc, rfl⟩ := List.mem_map.mp hb
    rw [charOfByte_of_lt (toNat_lt_of_isHexDigit (h c hc))]
    exact h c hc
  · intro h c hc
    have hbytes : ∀ b ∈ String.utf8EncodeChar c, IsHexDigit (Char.ofNat b.toNat) := fun b hb =>
      h b (by rw [strBytes_eq_flatMap]; exact List.mem_flatMap.mpr ⟨c, hc, hb⟩)
    rcases Nat.lt_or_ge c.toNat 128 with hlt | hge
    · have := hbytes (UInt8.ofNat c.toNat) (by rw [utf8EncodeChar_of_lt hlt]; simp)
      rwa [charOfByte_of_lt hlt] at this
    · -- A multi-byte character has a byte that is no ASCII character.
      obtain ⟨b, hb⟩ := List.exists_mem_of_ne_nil _ (@String.utf8EncodeChar_ne_nil c)
      have hlow := toNat_lt_of_isHexDigit (hbytes b hb)
      have hhigh := le_of_mem_utf8EncodeChar hge b hb
      have hlt := b.toNat_lt
      rw [Char.toNat_ofNat, if_pos (Or.inl (by omega))] at hlow
      omega

/-! ## Decoding -/

/-- What the loop makes of an even number of hex digits: each pair becomes a byte, whose
characters are the pair in lower case. -/
theorem hexPairs_of_hexDigits {bytes : List UInt8} (heven : bytes.length % 2 = 0)
    (h : ∀ b ∈ bytes, IsHexDigit (Char.ofNat b.toNat)) :
    ∃ out, hexPairs bytes = .ok out ∧
      (hexEncode out).toList = bytes.map (fun b => (Char.ofNat b.toNat).toLower) := by
  induction bytes using hexPairs.induct with
  | case1 => exact ⟨[], rfl, rfl⟩
  | case2 b => simp at heven
  | case3 hiByte loByte rest ih =>
    obtain ⟨hhi, hloRest⟩ := List.forall_mem_cons.mp h
    obtain ⟨hlo, hrest⟩ := List.forall_mem_cons.mp hloRest
    obtain ⟨hi, hhiValue, hhiLt, hhiChar⟩ := hexValue_of_isHexDigit hiByte hhi
    obtain ⟨lo, hloValue, hloLt, hloChar⟩ := hexValue_of_isHexDigit loByte hlo
    obtain ⟨out, hout, htext⟩ :=
      ih (by rw [List.length_cons, List.length_cons] at heven; omega) hrest
    obtain ⟨hhigh, hlow⟩ := nibbles_split hi lo hhiLt hloLt
    refine ⟨((hi <<< 4) ||| lo) :: out, ?_, ?_⟩
    · rw [hexPairs, hhiValue, hloValue, hout]
      rfl
    · simp only [hexEncode, String.toList_ofList] at htext ⊢
      rw [List.flatMap_cons, hhigh, hlow, htext, hhiChar, hloChar]
      rfl

/-- The loop never sees half a pair, and it gives up at the first byte that is no digit. -/
theorem hexPairs_isErr {bytes : List UInt8} (heven : bytes.length % 2 = 0)
    (h : ¬ ∀ b ∈ bytes, IsHexDigit (Char.ofNat b.toNat)) : (hexPairs bytes).IsErr := by
  induction bytes using hexPairs.induct with
  | case1 => simp at h
  | case2 b => simp at heven
  | case3 hiByte loByte rest ih =>
    rw [hexPairs]
    by_cases hhi : IsHexDigit (Char.ofNat hiByte.toNat)
    · obtain ⟨hi, hhiValue, _⟩ := hexValue_of_isHexDigit hiByte hhi
      rw [hhiValue, Outcome.ok_bind]
      by_cases hlo : IsHexDigit (Char.ofNat loByte.toNat)
      · obtain ⟨lo, hloValue, _⟩ := hexValue_of_isHexDigit loByte hlo
        obtain ⟨e, herr⟩ := ih (by
          rw [List.length_cons, List.length_cons] at heven
          omega)
          (fun hrest => h (List.forall_mem_cons.mpr ⟨hhi, List.forall_mem_cons.mpr ⟨hlo, hrest⟩⟩))
        rw [hloValue, Outcome.ok_bind, herr]
        exact ⟨e, rfl⟩
      · obtain ⟨e, herr⟩ := hexValue_of_not_isHexDigit loByte hlo
        rw [herr]
        exact ⟨e, rfl⟩
    · obtain ⟨e, herr⟩ := hexValue_of_not_isHexDigit hiByte hhi
      rw [herr]
      exact ⟨e, rfl⟩

/-- With an even number of bytes to go, the indexing loop takes them two at a time. -/
theorem hexLoop_eq {bytes : List UInt8} (i : ℕ) (out : List UInt8)
    (heven : bytes.length % 2 = i % 2) :
    hexLoop bytes i out = (hexPairs (bytes.drop i)).map (out ++ ·) := by
  induction i, out using hexLoop.induct bytes with
  | case1 i out hlt ih =>
    have hlt' : i + 1 < bytes.length := by omega
    rw [hexLoop, if_pos hlt, List.drop_eq_getElem_cons hlt, List.drop_eq_getElem_cons hlt',
      List.getElem?_eq_getElem hlt, List.getElem?_eq_getElem hlt', hexPairs]
    simp only [Outcome.unwrap, Outcome.ok_bind]
    cases hexValue bytes[i] with
    | error f => rfl
    | ok hi =>
      cases hexValue bytes[i + 1] with
      | error f => rfl
      | ok lo =>
        simp only [Outcome.ok_bind, ih hi lo (by omega)]
        cases hexPairs (bytes.drop (i + 2)) <;> simp [Outcome.map, Except.map]
  | case2 i out hge =>
    rw [hexLoop, if_neg hge, List.drop_eq_nil_of_le (Nat.le_of_not_lt hge), hexPairs]
    simp [Outcome.map, Except.map]

/-- `hex_decode` is its indexing loop, after the check of the length. -/
theorem hexDecode_eq_loop (s : String) :
    hexDecode s = (do
      Outcome.require ((strBytes s).length % 2 = 0) "hex string must have even length"
      hexLoop (strBytes s) 0 []) := by
  rw [hexDecode]
  by_cases heven : (strBytes s).length % 2 = 0
  · rw [Outcome.require_of heven, Outcome.ok_bind, Outcome.ok_bind, hexLoop_eq 0 [] heven,
      List.drop_zero]
    cases hexPairs (strBytes s) <;> rfl
  · rw [Outcome.require_of_not heven]
    rfl

/-- A text of an even number of hex digits is decoded to bytes that are written as the text
in lower case. -/
theorem hexDecode_of_hexDigits {s : String} (heven : (strBytes s).length % 2 = 0)
    (h : ∀ c ∈ s.toList, IsHexDigit c) :
    ∃ bytes, hexDecode s = .ok bytes ∧ hexEncode bytes = toAsciiLowercase s := by
  obtain ⟨bytes, hbytes, htext⟩ := hexPairs_of_hexDigits heven ((hexDigits_iff s).mp h)
  refine ⟨bytes, by rw [hexDecode, Outcome.require_of heven, Outcome.ok_bind, hbytes], ?_⟩
  rw [← String.ofList_toList (s := hexEncode bytes), htext, strBytes_of_hexDigits h, List.map_map,
    toAsciiLowercase]
  congr 1
  refine List.map_congr_left (fun c hc => ?_)
  rw [Function.comp_apply, charOfByte_of_lt (toNat_lt_of_isHexDigit (h c hc))]

/-- Any other text is turned down. -/
theorem hexDecode_isErr {s : String}
    (h : ¬ ((strBytes s).length % 2 = 0 ∧ ∀ c ∈ s.toList, IsHexDigit c)) :
    (hexDecode s).IsErr := by
  rw [hexDecode]
  by_cases heven : (strBytes s).length % 2 = 0
  · rw [Outcome.require_of heven, Outcome.ok_bind]
    exact hexPairs_isErr heven (fun hbytes => h ⟨heven, (hexDigits_iff s).mpr hbytes⟩)
  · rw [Outcome.require_of_not heven]
    exact ⟨_, rfl⟩

/-! ## The codec -/

/-- Written bytes are hex digits, two for each byte. -/
theorem hexEncode_spec (bytes : List UInt8) :
    (∀ c ∈ (hexEncode bytes).toList, IsHexDigit c) ∧
      hexPairs ((hexEncode bytes).toList.map (fun c => UInt8.ofNat c.toNat)) = .ok bytes := by
  induction bytes with
  | nil => exact ⟨by simp [hexEncode], rfl⟩
  | cons b bytes ih =>
    obtain ⟨hdigits, hpairs⟩ := ih
    obtain ⟨hhi, hlo, hjoin⟩ := nibbles_join b
    obtain ⟨hhiDigit, hhiValue⟩ := hexChar_spec (b >>> 4) hhi
    obtain ⟨hloDigit, hloValue⟩ := hexChar_spec (b &&& 0x0f) hlo
    have hlist : (hexEncode (b :: bytes)).toList =
        hexChar (b >>> 4) :: hexChar (b &&& 0x0f) :: (hexEncode bytes).toList := by
      simp [hexEncode]
    rw [hlist]
    refine ⟨List.forall_mem_cons.mpr ⟨hhiDigit, List.forall_mem_cons.mpr ⟨hloDigit, hdigits⟩⟩, ?_⟩
    rw [List.map_cons, List.map_cons, hexPairs, hhiValue, hloValue, hpairs]
    simp only [Outcome.ok_bind, hjoin]
    rfl

theorem hexDecode_hexEncode (bytes : List UInt8) : hexDecode (hexEncode bytes) = .ok bytes := by
  obtain ⟨hdigits, hpairs⟩ := hexEncode_spec bytes
  rw [← strBytes_of_hexDigits hdigits] at hpairs
  have heven : (strBytes (hexEncode bytes)).length % 2 = 0 := by
    rw [strBytes_of_hexDigits hdigits, List.length_map, hexEncode, String.toList_ofList]
    simp [List.length_flatMap]
  rw [hexDecode, Outcome.require_of heven, Outcome.ok_bind, hpairs]

/-- The hex codec is exact: bytes survive the way through text, exactly the texts of an even
number of hex digits are decoded, and such a text comes back in lower case.  The loop, which
indexes the bytes, never leaves them. -/
theorem hexCodec_exact (bytes : List UInt8) (s : String) :
    hexDecode (hexEncode bytes) = .ok bytes ∧
      ((hexDecode s).IsOk ↔
        (strBytes s).length % 2 = 0 ∧ ∀ c ∈ s.toList, IsHexDigit c) ∧
      (∀ decoded, hexDecode s = .ok decoded → hexEncode decoded = toAsciiLowercase s) ∧
      (hexDecode s).NoPanic ∧
      hexDecode s = (do
        Outcome.require ((strBytes s).length % 2 = 0) "hex string must have even length"
        hexLoop (strBytes s) 0 []) := by
  refine ⟨hexDecode_hexEncode bytes, ?_, ?_, ?_, hexDecode_eq_loop s⟩ <;>
    by_cases h : (strBytes s).length % 2 = 0 ∧ ∀ c ∈ s.toList, IsHexDigit c
  · obtain ⟨decoded, hok, _⟩ := hexDecode_of_hexDigits h.1 h.2
    exact ⟨fun _ => h, fun _ => ⟨decoded, hok⟩⟩
  · exact ⟨fun hok => absurd hok (hexDecode_isErr h).not_isOk, fun h' => absurd h' h⟩
  · obtain ⟨decoded, hok, htext⟩ := hexDecode_of_hexDigits h.1 h.2
    intro decoded' hok'
    obtain rfl := Except.ok.inj (hok.symm.trans hok')
    exact htext
  · exact fun decoded hok => absurd ⟨decoded, hok⟩ (hexDecode_isErr h).not_isOk
  · obtain ⟨decoded, hok, _⟩ := hexDecode_of_hexDigits h.1 h.2
    rw [hok]
    exact Outcome.noPanic_ok decoded
  · obtain ⟨e, herr⟩ := hexDecode_isErr h
    rw [herr]
    exact Outcome.noPanic_fail e

end VKernelX
