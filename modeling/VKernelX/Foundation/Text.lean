/-
  Foundation/Text.lean --- the string operations of the source's standard library.

  Strings are compared by code point, which for valid UTF-8 is the byte order the
  source uses.
-/
import VKernelX.Foundation.Outcome

set_option autoImplicit false

namespace VKernelX

/-- The UTF-8 bytes of a string. -/
def strBytes (s : String) : List UInt8 := s.toByteArray.data.toList

theorem strBytes_injective : Function.Injective strBytes := by
  intro s t h
  apply String.toByteArray_inj.mp
  apply ByteArray.ext
  exact Array.toList_inj.mp h

/-- The bytes of a text, character by character. -/
theorem strBytes_eq_flatMap (s : String) : strBytes s = s.toList.flatMap String.utf8EncodeChar := by
  rw [strBytes, ← String.utf8Encode_toList, List.utf8Encode]
  simp

/-- A character below 128 is one byte. -/
theorem utf8EncodeChar_of_lt {c : Char} (h : c.toNat < 128) :
    String.utf8EncodeChar c = [UInt8.ofNat c.toNat] :=
  if_pos (by rw [Char.toNat] at h; omega)

/-- Any other character is written in bytes from 128 on. -/
theorem le_of_mem_utf8EncodeChar {c : Char} (h : 128 ≤ c.toNat) :
    ∀ b ∈ String.utf8EncodeChar c, 128 ≤ b.toNat := by
  have hbyte : ∀ m : ℕ, 128 ≤ m → m < 256 → 128 ≤ (UInt8.ofNat m).toNat := by
    intro m hle hlt
    rw [UInt8.toNat_ofNat']
    omega
  have h : ¬ c.val.toNat ≤ 0x7f := by
    rw [Char.toNat] at h
    omega
  intro b hb
  simp only [String.utf8EncodeChar, if_neg h] at hb
  split at hb
  · rcases List.mem_pair.mp hb with rfl | rfl <;> exact hbyte _ (by omega) (by omega)
  · split at hb <;> simp only [List.mem_cons, List.not_mem_nil, or_false] at hb
    · rcases hb with rfl | rfl | rfl <;> exact hbyte _ (by omega) (by omega)
    · rcases hb with rfl | rfl | rfl | rfl <;> exact hbyte _ (by omega) (by omega)

/-- `char::is_whitespace`: the Unicode `White_Space` property. -/
def isWhitespace (c : Char) : Bool :=
  let n := c.toNat
  (9 ≤ n && n ≤ 13) || n == 0x20 || n == 0x85 || n == 0xA0 || n == 0x1680 ||
    (0x2000 ≤ n && n ≤ 0x200A) || n == 0x2028 || n == 0x2029 || n == 0x202F ||
    n == 0x205F || n == 0x3000

/-- `str::trim`. -/
def trim (s : String) : String :=
  String.ofList (((s.toList.dropWhile isWhitespace).reverse.dropWhile isWhitespace).reverse)

/-- Only whitespace: what `s.trim().is_empty()` tests. -/
def isBlank (s : String) : Bool := trim s == ""

theorem isBlank_iff {s : String} : isBlank s = true ↔ ∀ c ∈ s.toList, isWhitespace c = true := by
  have hofList : ∀ l : List Char, String.ofList l = "" ↔ l = [] := by
    intro l
    rw [String.ext_iff, String.toList_ofList]
    rfl
  unfold isBlank trim
  rw [beq_iff_eq, hofList, List.reverse_eq_nil_iff, List.dropWhile_eq_nil_iff]
  constructor
  · intro h c hc
    rw [← List.takeWhile_append_dropWhile (p := isWhitespace) (l := s.toList)] at hc
    rcases List.mem_append.mp hc with hc | hc
    · exact List.mem_takeWhile_imp hc
    · exact h c (List.mem_reverse.mpr hc)
  · intro h c hc
    exact h c ((List.dropWhile_sublist _).subset (List.mem_reverse.mp hc))

/-- A string with a visible character in it is not blank. -/
theorem isBlank_eq_false_of_mem {s : String} {c : Char} (hc : c ∈ s.toList)
    (hw : isWhitespace c = false) : isBlank s = false := by
  rw [Bool.eq_false_iff]
  intro h
  rw [isBlank_iff.mp h c hc] at hw
  cases hw

theorem ne_empty_of_isBlank_eq_false {s : String} (h : isBlank s = false) : s ≠ "" := by
  rintro rfl
  revert h
  decide

/-- `str::to_ascii_lowercase`. -/
def toAsciiLowercase (s : String) : String := String.ofList (s.toList.map Char.toLower)

/-- `str::to_ascii_uppercase`. -/
def toAsciiUppercase (s : String) : String := String.ofList (s.toList.map Char.toUpper)

/-- `str::strip_prefix`. -/
def stripPrefix (p s : String) : Option String :=
  if p.toList <+: s.toList then some (String.ofList (s.toList.drop p.toList.length)) else none

/-- The first `n` characters. -/
def takeChars (n : ℕ) (s : String) : String := String.ofList (s.toList.take n)

/-- The decimal text of a number. -/
def decimal (n : ℕ) : String := n.repr

theorem decimal_injective : Function.Injective decimal := fun _ _ h => Nat.repr_inj.mp h

theorem isDigit_of_mem_decimal {n : ℕ} {c : Char} (h : c ∈ (decimal n).toList) : c.isDigit := by
  rw [decimal, Nat.toList_repr] at h
  exact Nat.isDigit_of_mem_toDigits (by decide) (by decide) h

/-- One digit of `u64::from_str`: the digit is checked before the overflow. -/
def parseDigit (acc : ℕ) (c : Char) : Except String ℕ :=
  if c.isDigit = false then .error "invalid digit found in string"
  else if 2 ^ 64 ≤ acc * 10 + (c.toNat - '0'.toNat) then
    .error "number too large to fit in target type"
  else .ok (acc * 10 + (c.toNat - '0'.toNat))

/-- `str::parse::<u64>`: decimal digits after an optional plus sign. -/
def parseU64 (s : String) : Except String UInt64 :=
  match s.toList with
  | [] => .error "cannot parse integer from empty string"
  | '+' :: c :: cs => UInt64.ofNat <$> (c :: cs).foldlM parseDigit 0
  | cs => UInt64.ofNat <$> cs.foldlM parseDigit 0

/-! ## Reading back decimal text -/

theorem toNat_digitChar_sub {d : ℕ} (h : d < 10) : d.digitChar.toNat - '0'.toNat = d := by
  interval_cases d <;> rfl

theorem parseDigit_digitChar (acc : ℕ) {d : ℕ} (hd : d < 10) (h : acc * 10 + d < 2 ^ 64) :
    parseDigit acc d.digitChar = .ok (acc * 10 + d) := by
  have hdigit : d.digitChar.isDigit = true := by interval_cases d <;> rfl
  rw [parseDigit, toNat_digitChar_sub hd, hdigit, if_neg (by decide), if_neg (by omega)]

/-- The digits of a number parse to the number. -/
theorem foldlM_parseDigit_toDigits {n : ℕ} (h : n < 2 ^ 64) :
    (Nat.toDigits 10 n).foldlM parseDigit 0 = .ok n := by
  induction n using Nat.strong_induction_on with
  | _ n ih =>
    rw [Nat.toDigits_eq_if (by decide)]
    split
    · rename_i hlt
      simpa using parseDigit_digitChar 0 hlt (by omega)
    · rename_i hge
      rw [List.foldlM_append, ih (n / 10) (by omega) (by omega)]
      have hn : n / 10 * 10 + n % 10 = n := by omega
      have hlast := parseDigit_digitChar (n / 10) (Nat.mod_lt n (by decide)) (by omega)
      rw [hn] at hlast
      show parseDigit (n / 10) (n % 10).digitChar >>= pure = _
      rw [hlast]
      rfl

/-- Parsing the decimal text of a number gives the number back. -/
theorem parseU64_decimal {n : ℕ} (h : n < 2 ^ 64) :
    parseU64 (decimal n) = .ok (UInt64.ofNat n) := by
  have hparse := foldlM_parseDigit_toDigits h
  have hdigits : ∀ c ∈ Nat.toDigits 10 n, c.isDigit = true :=
    fun c hc => Nat.isDigit_of_mem_toDigits (by decide) (by decide) hc
  rw [parseU64, decimal, Nat.toList_repr]
  generalize hds : Nat.toDigits 10 n = ds at hparse hdigits
  split
  · exact absurd hds Nat.toDigits_ne_nil
  · exact absurd (hdigits '+' List.mem_cons_self) (by decide)
  · rw [hparse]
    rfl

/-! ## Trimming and case -/

theorem toList_trim (s : String) :
    (trim s).toList = (s.toList.dropWhile isWhitespace).rdropWhile isWhitespace := by
  rw [trim, String.toList_ofList, List.rdropWhile]

theorem trim_eq_ofList (s : String) :
    trim s = String.ofList ((s.toList.dropWhile isWhitespace).rdropWhile isWhitespace) := by
  rw [← toList_trim, String.ofList_toList]

/-- What is left of a list after its end was dropped still begins as it did. -/
theorem dropWhile_rdropWhile_dropWhile {α : Type} (p : α → Bool) (l : List α) :
    ((l.dropWhile p).rdropWhile p).dropWhile p = (l.dropWhile p).rdropWhile p := by
  rw [List.dropWhile_eq_self_iff]
  intro hpos
  have hprefixed := List.rdropWhile_prefix p (l := l.dropWhile p)
  have hpos' : 0 < (l.dropWhile p).length := hpos.trans_le hprefixed.length_le
  rw [hprefixed.getElem hpos]
  exact (List.dropWhile_eq_self_iff.mp (List.dropWhile_idempotent p l)) hpos'

@[simp] theorem trim_trim (s : String) : trim (trim s) = trim s := by
  rw [trim_eq_ofList (trim s), toList_trim, dropWhile_rdropWhile_dropWhile,
    List.rdropWhile_idempotent, ← trim_eq_ofList]

/-- White space around a string is trimmed away. -/
theorem trim_append {before after : String} (hbefore : isBlank before = true)
    (hafter : isBlank after = true) (s : String) : trim (before ++ s ++ after) = trim s := by
  rw [isBlank_iff] at hbefore hafter
  have hend : ∀ l : List Char,
      (l ++ after.toList).rdropWhile isWhitespace = l.rdropWhile isWhitespace := by
    intro l
    rw [List.rdropWhile, List.reverse_append, List.dropWhile_append_of_pos, List.rdropWhile]
    exact fun c hc => hafter c (List.mem_reverse.mp hc)
  rw [trim_eq_ofList, trim_eq_ofList, String.toList_append, String.toList_append,
    List.append_assoc, List.dropWhile_append_of_pos hbefore, List.dropWhile_append]
  split
  · -- Nothing but white space.
    rename_i hnil
    rw [List.isEmpty_iff] at hnil
    rw [hnil, List.dropWhile_eq_nil_iff.mpr hafter]
  · rw [hend]

/-- A map of the characters that keeps white space apart from the rest commutes with
trimming. -/
theorem trim_map {f : Char → Char} (hf : ∀ c, isWhitespace (f c) = isWhitespace c) (s : String) :
    trim (String.ofList (s.toList.map f)) = String.ofList ((trim s).toList.map f) := by
  have hcomp : isWhitespace ∘ f = isWhitespace := funext hf
  rw [trim_eq_ofList, String.toList_ofList, toList_trim, List.dropWhile_map, List.rdropWhile,
    ← List.map_reverse, List.dropWhile_map, hcomp, ← List.map_reverse, List.rdropWhile]

/-- Letters are no white space. -/
theorem isWhitespace_eq_false_of_isAlpha {c : Char} (h : c.isAlpha = true) :
    isWhitespace c = false := by
  have hrange : (65 ≤ c.toNat ∧ c.toNat ≤ 90) ∨ (97 ≤ c.toNat ∧ c.toNat ≤ 122) := by
    simpa [Char.isAlpha, Char.isUpper, Char.isLower, UInt32.le_iff_toNat_le] using h
  simp only [isWhitespace, Bool.or_eq_false_iff, Bool.and_eq_false_iff, decide_eq_false_iff_not,
    beq_eq_false_iff_ne]
  omega

theorem isWhitespace_toLower (c : Char) : isWhitespace c.toLower = isWhitespace c := by
  by_cases h : c.isAlpha = true
  · rw [isWhitespace_eq_false_of_isAlpha h,
      isWhitespace_eq_false_of_isAlpha (by rwa [Char.isAlpha_toLower_eq_isAlpha])]
  · rw [Char.toLower_eq_of_not_isUpper (fun hupper => h (by simp [Char.isAlpha, hupper]))]

theorem isWhitespace_toUpper (c : Char) : isWhitespace c.toUpper = isWhitespace c := by
  by_cases h : c.isAlpha = true
  · rw [isWhitespace_eq_false_of_isAlpha h,
      isWhitespace_eq_false_of_isAlpha (by rwa [Char.isAlpha_toUpper_eq_isAlpha])]
  · rw [Char.toUpper_eq_of_not_isLower (fun hlower => h (by simp [Char.isAlpha, hlower]))]

theorem trim_toAsciiLowercase (s : String) :
    trim (toAsciiLowercase s) = toAsciiLowercase (trim s) := trim_map isWhitespace_toLower s

theorem trim_toAsciiUppercase (s : String) :
    trim (toAsciiUppercase s) = toAsciiUppercase (trim s) := trim_map isWhitespace_toUpper s

theorem toAsciiUppercase_toAsciiUppercase (s : String) :
    toAsciiUppercase (toAsciiUppercase s) = toAsciiUppercase s := by
  simp [toAsciiUppercase, Function.comp_def]

theorem toAsciiLowercase_toAsciiLowercase (s : String) :
    toAsciiLowercase (toAsciiLowercase s) = toAsciiLowercase s := by
  simp [toAsciiLowercase, Function.comp_def]

end VKernelX
