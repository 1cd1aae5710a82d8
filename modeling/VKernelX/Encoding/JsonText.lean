/-
  Encoding/JsonText.lean --- maps of texts as JSON objects.

  A text is quoted, with quotes and backslashes escaped; so it tells where it ends, and an
  object tells its entries.  Control characters, which no sample text has, stay as they are.
-/
import VKernelX.Foundation.PrefixCode
import VKernelX.Region.Genesis

set_option autoImplicit false

namespace VKernelX

/-! ## Texts -/

/-- A character between quotes. -/
def escapedChar (c : Char) : List Char := if c = '"' ∨ c = '\\' then ['\\', c] else [c]

/-- A text between quotes. -/
def quoted (s : String) : List Char := '"' :: (s.toList.flatMap escapedChar ++ ['"'])

theorem prefixCode_escapedChar : PrefixCode (fun _ : Char => True) escapedChar := by
  intro a b rest rest' _ _ heq
  unfold escapedChar at heq
  split at heq <;> split at heq
  · simp only [List.cons_append, List.nil_append, List.cons.injEq, true_and] at heq
    exact heq
  · rename_i hb
    simp only [List.cons_append, List.nil_append, List.cons.injEq] at heq
    exact absurd (Or.inr heq.1.symm) hb
  · rename_i ha _
    simp only [List.cons_append, List.nil_append, List.cons.injEq] at heq
    exact absurd (Or.inr heq.1) ha
  · simp only [List.cons_append, List.nil_append, List.cons.injEq] at heq
    exact heq

/-- No escaped character looks like the closing quote. -/
theorem escapedChar_ne_quote (c : Char) (rest rest' : List Char) :
    escapedChar c ++ rest ≠ ['"'] ++ rest' := by
  intro heq
  unfold escapedChar at heq
  split at heq
  · simp at heq
  · rename_i hc
    simp only [List.cons_append, List.nil_append, List.cons.injEq] at heq
    exact hc (Or.inl heq.1)

theorem prefixCode_quoted : PrefixCode (fun _ : String => True) quoted := by
  have hchars := prefixCode_escapedChar.terminated (fun c _ _ _ => escapedChar_ne_quote c _ _)
  have htext := hchars.comap String.toList (fun _ _ => String.toList_inj.mp)
  intro a b rest rest' _ _ heq
  simp only [quoted, List.cons_append, List.cons.injEq, true_and] at heq
  exact htext a b rest rest' (fun _ _ => trivial) (fun _ _ => trivial) heq

/-! ## Objects -/

/-- An entry of an object. -/
def jsonEntry (entry : String × String) : List Char := quoted entry.1 ++ ':' :: quoted entry.2

/-- The entries of an object, and its closing brace. -/
def jsonEntries : List (String × String) → List Char
  | [] => ['\x7d']
  | entry :: entries => jsonEntry entry ++
      (entries.flatMap (fun entry => ',' :: jsonEntry entry) ++ ['\x7d'])

/-- A map of texts as a JSON object. -/
def jsonObject (m : BTreeMap String String) : String :=
  String.ofList ('\x7b' :: jsonEntries m.toList)

theorem prefixCode_jsonEntry : PrefixCode (fun _ : String × String => True) jsonEntry := by
  rintro ⟨key, value⟩ ⟨key', value'⟩ rest rest' _ _ heq
  simp only [jsonEntry, List.append_assoc] at heq
  obtain ⟨hkey, heq⟩ := prefixCode_quoted _ _ _ _ trivial trivial heq
  simp only [List.cons_append, List.cons.injEq, true_and] at heq
  obtain ⟨hvalue, hrest⟩ := prefixCode_quoted _ _ _ _ trivial trivial heq
  exact ⟨Prod.ext hkey hvalue, hrest⟩

theorem jsonEntries_injective : Function.Injective jsonEntries := by
  have hmore : PrefixCode (fun _ : String × String => True) (fun entry => ',' :: jsonEntry entry) :=
    fun a b rest rest' _ _ heq =>
      prefixCode_jsonEntry a b rest rest' trivial trivial (List.cons.inj heq).2
  have htail := @PrefixCode.terminated _ _ _ _ ['\x7d'] hmore (fun _ _ _ _ heq => by simp at heq)
  rintro (_ | ⟨entry, entries⟩) (_ | ⟨entry', entries'⟩) heq
  · rfl
  · simp [jsonEntries, jsonEntry, quoted] at heq
  · simp [jsonEntries, jsonEntry, quoted] at heq
  · obtain ⟨hfirst, heq⟩ := prefixCode_jsonEntry _ _ _ _ trivial trivial heq
    have hrest := htail.eq_of_write_eq (fun _ _ => trivial) (fun _ _ => trivial) heq
    rw [hfirst, hrest]

theorem jsonObject_injective : Function.Injective jsonObject := by
  intro m m' heq
  have hchars := String.ofList_injective heq
  exact BTreeMap.toList_injective (jsonEntries_injective (List.cons.inj hchars).2)

/-! ## Hexadecimal digests -/

/-- A digest is 64 hexadecimal digits. -/
def Platform.HexDigests (env : Platform) : Prop :=
  ∀ bytes, (env.blake3Hex bytes).toList.length = 64 ∧
    ∀ c ∈ (env.blake3Hex bytes).toList, c.isDigit = true ∨ c ∈ ['a', 'b', 'c', 'd', 'e', 'f']

/-- Hexadecimal digits are visible. -/
theorem Platform.HexDigests.visible {env : Platform} (h : env.HexDigests) :
    env.DigestsVisible := by
  intro bytes
  obtain ⟨hlength, hdigits⟩ := h bytes
  obtain ⟨c, hc⟩ := List.exists_mem_of_length_pos (by rw [hlength]; omega)
  refine isBlank_eq_false_of_mem hc ?_
  rcases hdigits c hc with hdigit | hletter
  · have hrange : 48 ≤ c.toNat ∧ c.toNat ≤ 57 := by
      simpa [Char.isDigit, UInt32.le_iff_toNat_le] using hdigit
    simp only [isWhitespace, Bool.or_eq_false_iff, Bool.and_eq_false_iff, decide_eq_false_iff_not,
      beq_eq_false_iff_ne]
    omega
  · have halpha : ∀ c ∈ ['a', 'b', 'c', 'd', 'e', 'f'], c.isAlpha = true := by simp
    exact isWhitespace_eq_false_of_isAlpha (halpha c hletter)

/-- A remainder in decimal, filled up with zeros. -/
def hexDigest (bytes : List UInt8) : String :=
  String.ofList
    (((decimal (bytes.foldl (fun acc b => (acc * 257 + b.toNat + 1) % 9973) 7)).toList ++
      List.replicate 64 '0').take 64)

theorem hexDigest_ne_empty (bytes : List UInt8) : hexDigest bytes ≠ "" := by
  intro h
  have := congrArg (fun s => s.toList.length) h
  simp [hexDigest] at this

/-- A sample platform with digests and objects as the real ones look. -/
def hexPlatform : Platform :=
  { platformOf hexDigest hexDigest_ne_empty with jsonOfMap := jsonObject }

theorem hexPlatform_hexDigests : hexPlatform.HexDigests := by
  intro bytes
  refine ⟨by simp [hexPlatform, platformOf, hexDigest], fun c hc => Or.inl ?_⟩
  simp only [hexPlatform, platformOf, hexDigest, String.toList_ofList] at hc
  rcases List.mem_append.mp (List.mem_of_mem_take hc) with hc | hc
  · exact isDigit_of_mem_decimal hc
  · rw [List.eq_of_mem_replicate hc]
    rfl

end VKernelX
