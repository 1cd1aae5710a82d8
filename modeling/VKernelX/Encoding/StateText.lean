/-
  Encoding/StateText.lean --- sample texts of states, certifications and numbers.

  A state is a list of lists of texts, one list for each field of variable length.  A list is
  written between brackets and each of its texts between quotes, so the state is read back.
-/
import VKernelX.Encoding.JsonText

set_option autoImplicit false

namespace VKernelX

/-- A number that `serde_json` holds: what is not negative is a `posInt`, and a float is
finite. -/
def JsonNumber.Canonical : JsonNumber → Prop
  | .posInt _ => True
  | .negInt n => n < 0
  | .float x => x.isFinite

instance (n : JsonNumber) : Decidable n.Canonical := by
  cases n <;> simp only [JsonNumber.Canonical] <;> infer_instance

/-! ## Lists of texts -/

/-- Texts between brackets. -/
def jsonTexts (texts : List String) : List Char := '[' :: (texts.flatMap quoted ++ [']'])

/-- Lists of texts between brackets. -/
def jsonTextLists (lists : List (List String)) : List UInt8 :=
  strBytes (String.ofList (lists.flatMap jsonTexts ++ [']']))

theorem prefixCode_jsonTexts : PrefixCode (fun _ : List String => True) jsonTexts := by
  have htexts := @PrefixCode.terminated _ _ _ _ [']'] prefixCode_quoted
    (fun _ _ _ _ heq => by simp [quoted] at heq)
  intro a b rest rest' _ _ heq
  simp only [jsonTexts, List.cons_append, List.cons.injEq, true_and] at heq
  exact htexts a b rest rest' (fun _ _ => trivial) (fun _ _ => trivial) heq

theorem jsonTextLists_injective : Function.Injective jsonTextLists := by
  have hlists := @PrefixCode.terminated _ _ _ _ [']'] prefixCode_jsonTexts
    (fun _ _ _ _ heq => by simp [jsonTexts] at heq)
  intro lists lists' heq
  have hchars := String.ofList_injective (strBytes_injective heq)
  exact hlists.eq_of_write_eq (fun _ _ => trivial) (fun _ _ => trivial) hchars

/-! ## States -/

/-- The name of a status. -/
def VectorStatus.debugName : VectorStatus → String
  | .active => "Active"
  | .projected => "Projected"
  | .escrowed => "Escrowed"
  | .settled => "Settled"
  | .archived => "Archived"

/-- The texts of a list of amounts. -/
def amountTexts (amounts : List U128) : List String := amounts.map (fun x => decimal x.toNat)

/-- The keys and values of a map, in turn. -/
def entryTexts : List (String × String) → List String
  | [] => []
  | (key, value) :: entries => key :: value :: entryTexts entries

/-- A certification, and its reason. -/
def certificationTexts (c : CertificationState) : List (List String) :=
  [[toString c.certified, decimal c.authRatio.toNat, decimal c.threshold.toNat,
    decimal c.lastCheckedAtMs.toNat], c.reason.toList]

/-- A projection, with its settlement. -/
def projectionTexts : Option ProjectionState → List (List String)
  | none => []
  | some p => [[p.escrowId, decimal p.startedAtMs.toNat], amountTexts p.projectedComponents,
      amountTexts p.settledComponents, (p.settlementAtMs.map (fun t => decimal t.toNat)).toList,
      p.outcomeTag.toList]

/-- An origin. -/
def originTexts : Option OriginState → List String
  | none => []
  | some o => [o.seed, decimal o.nonce.toNat, decimal o.difficulty.toNat, o.proofHash]

/-- A state. -/
def stateTexts (s : VectorStateV1) : List (List String) :=
  [[s.schema, s.vectorId, s.ownerPubkey, s.spaceId, s.vectorType.debugName, s.status.debugName,
      decimal s.version.toNat, decimal s.createdAtMs.toNat, decimal s.updatedAtMs.toNat],
    amountTexts s.components, entryTexts s.typeMetadata.toList, originTexts s.origin] ++
    (certificationTexts s.certification ++ projectionTexts s.projection)

theorem VectorType.debugName_injective : Function.Injective VectorType.debugName := by
  intro a b h
  cases a <;> cases b <;> first | rfl | exact absurd h (by decide)

theorem VectorStatus.debugName_injective : Function.Injective VectorStatus.debugName := by
  intro a b h
  cases a <;> cases b <;> first | rfl | exact absurd h (by decide)

theorem decimalU16_injective : Function.Injective (fun n : UInt16 => decimal n.toNat) :=
  fun _ _ h => UInt16.toNat_inj.mp (decimal_injective h)

theorem decimalU32_injective : Function.Injective (fun n : UInt32 => decimal n.toNat) :=
  fun _ _ h => UInt32.toNat_inj.mp (decimal_injective h)

theorem decimalU64_injective : Function.Injective (fun n : UInt64 => decimal n.toNat) :=
  fun _ _ h => UInt64.toNat_inj.mp (decimal_injective h)

theorem amountTexts_injective : Function.Injective amountTexts :=
  List.map_injective_iff.mpr (fun _ _ h => BitVec.eq_of_toNat_eq (decimal_injective h))

theorem entryTexts_injective : Function.Injective entryTexts := by
  intro entries
  induction entries with
  | nil => rintro (_ | ⟨entry', entries'⟩) h <;> first | rfl | cases h
  | cons entry entries ih =>
    rintro (_ | ⟨entry', entries'⟩) h
    · cases h
    · simp only [entryTexts, List.cons.injEq] at h
      rw [Prod.ext h.1 h.2.1, ih h.2.2]

theorem toList_option_injective {α : Type} : Function.Injective (Option.toList : Option α → _) := by
  rintro (_ | a) (_ | b) h <;> simp_all

theorem certificationTexts_injective : Function.Injective certificationTexts := by
  have hbool : ∀ a b : Bool, toString a = toString b → a = b := by decide
  rintro ⟨certified, ratio, threshold, checked, reason⟩ ⟨certified', ratio', threshold', checked',
    reason'⟩ h
  simp only [certificationTexts, List.cons.injEq, and_true] at h
  obtain ⟨⟨hcertified, hratio, hthreshold, hchecked⟩, hreason⟩ := h
  rw [hbool _ _ hcertified, decimalU16_injective hratio, decimalU16_injective hthreshold,
    decimalU64_injective hchecked, toList_option_injective hreason]

theorem projectionTexts_injective : Function.Injective projectionTexts := by
  rintro (_ | ⟨escrow, projected, settled, started, settlement, outcome⟩)
    (_ | ⟨escrow', projected', settled', started', settlement', outcome'⟩) h
  · rfl
  · cases h
  · cases h
  · simp only [projectionTexts, List.cons.injEq, and_true] at h
    obtain ⟨⟨hescrow, hstarted⟩, hprojected, hsettled, hsettlement, houtcome⟩ := h
    rw [hescrow, decimalU64_injective hstarted, amountTexts_injective hprojected,
      amountTexts_injective hsettled, toList_option_injective houtcome,
      Option.map_injective decimalU64_injective (toList_option_injective hsettlement)]

theorem originTexts_injective : Function.Injective originTexts := by
  rintro (_ | ⟨seed, nonce, difficulty, proof⟩) (_ | ⟨seed', nonce', difficulty', proof'⟩) h
  · rfl
  · cases h
  · cases h
  · simp only [originTexts, List.cons.injEq, and_true] at h
    obtain ⟨hseed, hnonce, hdifficulty, hproof⟩ := h
    rw [hseed, decimalU64_injective hnonce, decimalU32_injective hdifficulty, hproof]

theorem stateTexts_injective : Function.Injective stateTexts := by
  rintro ⟨⟩ ⟨⟩ h
  simp only [stateTexts, List.cons_append, List.nil_append, List.cons.injEq, and_true] at h
  obtain ⟨⟨hschema, hid, howner, hspace, htype, hstatus, hversion, hcreated, hupdated⟩, hcomponents,
    hmetadata, horigin, hrest⟩ := h
  obtain ⟨hcertification, hprojection⟩ := List.append_inj hrest rfl
  rw [VectorStateV1.mk.injEq]
  exact ⟨hschema, hid, howner, hspace, VectorType.debugName_injective htype,
    VectorStatus.debugName_injective hstatus, amountTexts_injective hcomponents,
    BTreeMap.toList_injective (entryTexts_injective hmetadata),
    certificationTexts_injective hcertification, projectionTexts_injective hprojection,
    originTexts_injective horigin, decimalU64_injective hversion, decimalU64_injective hcreated,
    decimalU64_injective hupdated⟩

/-! ## Numbers -/

/-- The text of a number: integers in decimal, a float by its bits. -/
def numberText : JsonNumber → String
  | .posInt n => decimal n.toNat
  | .negInt n => "-" ++ decimal n.toInt.natAbs
  | .float x => "f" ++ decimal x.bits.toNat

/-- No decimal text has a character that is no digit. -/
theorem decimal_ne_of_mem {n : ℕ} {c : Char} {s : String} (hc : c.isDigit = false)
    (hmem : c ∈ s.toList) : decimal n ≠ s := by
  rintro rfl
  rw [isDigit_of_mem_decimal hmem] at hc
  cases hc

theorem numberText_injOn : Set.InjOn numberText {n | n.Canonical} := by
  have hminus : ∀ s : String, '-' ∈ ("-" ++ s).toList := by simp
  have hf : ∀ s : String, 'f' ∈ ("f" ++ s).toList := by simp
  have hsign : ∀ s t : String, "-" ++ s ≠ "f" ++ t := by
    intro s t h
    have := congrArg (fun s => s.toList.head?) h
    simp at this
  rintro (n | n | x) hn (m | m | y) hm h <;> simp only [numberText] at h
  · rw [decimalU64_injective h]
  · exact absurd h (decimal_ne_of_mem (by decide) (hminus _))
  · exact absurd h (decimal_ne_of_mem (by decide) (hf _))
  · exact absurd h.symm (decimal_ne_of_mem (by decide) (hminus _))
  · have habs := decimal_injective ((String.append_right_inj _).mp h)
    simp only [JsonNumber.Canonical, Set.mem_ofPred_eq, Int64.lt_iff_toInt_lt] at hn hm
    have hint : n.toInt = m.toInt := by
      have hzero : (0 : Int64).toInt = 0 := rfl
      omega
    rw [Int64.toInt_inj.mp hint]
  · exact absurd h (hsign _ _)
  · exact absurd h.symm (decimal_ne_of_mem (by decide) (hf _))
  · exact absurd h.symm (hsign _ _)
  · have hbits := decimalU64_injective ((String.append_right_inj _).mp h)
    cases x
    cases y
    exact congrArg JsonNumber.float (congrArg F64.mk hbits)

/-- A sample platform whose JSON writers are faithful. -/
def textPlatform : Platform :=
  { platformOf shortDigest shortDigest_ne_empty with
    jsonOfState := fun s => jsonTextLists (stateTexts s)
    jsonOfCertification := fun c => jsonTextLists (certificationTexts c)
    jsonOfNumber := numberText }

end VKernelX
