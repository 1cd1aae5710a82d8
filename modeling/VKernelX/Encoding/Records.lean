/-
  Encoding/Records.lean --- what the bytes of a record tell.

  Every block of a record comes after its length, so a record is peeled block by block; the
  parameters are JSON, where a leading byte tells the kind of the value.  All fields are read
  back but one: a custom operation is written as its name alone, which may be the word of a
  fixed kind.
-/
import VKernelX.Encoding.StateText
import VKernelX.Encoding.Writers
import VKernelX.Model.Record

set_option autoImplicit false

namespace VKernelX

/-! ## JSON values -/

section

variable (env : Platform)

mutual

/-- A value as `serde_json` holds it, all its texts and lists shorter than 2^64: numbers are
canonical, and the keys of an object ascend. -/
def Value.Fits : Value → Prop
  | .null => True
  | .bool _ => True
  | .number n => n.Canonical ∧ ShortStr (env.jsonOfNumber n)
  | .string s => ShortStr s
  | .array items => items.length < 2 ^ 64 ∧ Value.ItemsFit items
  | .object entries => entries.length < 2 ^ 64 ∧
      (entries.map Prod.fst).Pairwise (· < ·) ∧ Value.EntriesFit entries

/-- Every item of an array fits. -/
def Value.ItemsFit : List Value → Prop
  | [] => True
  | item :: items => Value.Fits item ∧ Value.ItemsFit items

/-- Every key of an object is short, and every value fits. -/
def Value.EntriesFit : List (String × Value) → Prop
  | [] => True
  | (key, value) :: entries => ShortStr key ∧ Value.Fits value ∧ Value.EntriesFit entries

end

theorem keys_canonicalEntryBytes (entries : List (String × Value)) :
    (canonicalEntryBytes env entries).map Prod.fst = entries.map Prod.fst := by
  induction entries with
  | nil => rfl
  | cons entry entries ih => rw [canonicalEntryBytes, List.map_cons, List.map_cons, ih]

/-- Entries that are in key order are written in that order. -/
theorem insertionSort_canonicalEntryBytes {entries : List (String × Value)}
    (hkeys : (entries.map Prod.fst).Pairwise (· < ·)) :
    (canonicalEntryBytes env entries).insertionSort (fun a b => a.1 ≤ b.1) =
      canonicalEntryBytes env entries := by
  rw [← keys_canonicalEntryBytes env entries] at hkeys
  exact List.Pairwise.insertionSort_eq
    ((List.pairwise_map.mp hkeys).imp (fun h => le_of_lt h))

variable {env}

mutual

/-- The JSON encoding is a prefix code: the first byte tells the kind, a number and a text come
after their length, and an array or an object after the number of its entries. -/
theorem value_of_bytes (hnumber : Set.InjOn env.jsonOfNumber {n | n.Canonical}) (v w : Value)
    {rest rest' : List UInt8} (hv : v.Fits env) (hw : w.Fits env)
    (heq : canonicalJsonBytes env v ++ rest = canonicalJsonBytes env w ++ rest') :
    v = w ∧ rest = rest' := by
  cases v with
  | null =>
    cases w with
    | null =>
      simp only [canonicalJsonBytes] at heq
      exact ⟨rfl, List.append_cancel_left heq⟩
    | _ => simp [canonicalJsonBytes] at heq
  | bool b =>
    cases w with
    | bool b' =>
      simp only [canonicalJsonBytes, List.cons_append, List.cons.injEq, true_and,
        List.nil_append] at heq
      refine ⟨congrArg Value.bool ?_, heq.2⟩
      cases b <;> cases b' <;> first | rfl | exact absurd heq.1 (by decide)
    | _ => simp [canonicalJsonBytes] at heq
  | number n =>
    cases w with
    | number n' =>
      simp only [canonicalJsonBytes, List.cons_append, List.cons.injEq, true_and] at heq
      simp only [Value.Fits] at hv hw
      obtain ⟨htext, hrest⟩ := prefixCode_writeStr _ _ _ _ hv.2 hw.2 heq
      exact ⟨congrArg Value.number (hnumber hv.1 hw.1 htext), hrest⟩
    | _ => simp [canonicalJsonBytes] at heq
  | string s =>
    cases w with
    | string s' =>
      simp only [canonicalJsonBytes, List.cons_append, List.cons.injEq, true_and] at heq
      simp only [Value.Fits] at hv hw
      obtain ⟨htext, hrest⟩ := prefixCode_writeStr _ _ _ _ hv hw heq
      exact ⟨congrArg Value.string htext, hrest⟩
    | _ => simp [canonicalJsonBytes] at heq
  | array items =>
    cases w with
    | array items' =>
      simp only [canonicalJsonBytes, List.cons_append, List.cons.injEq, true_and,
        List.append_assoc] at heq
      simp only [Value.Fits] at hv hw
      obtain ⟨hlength, heq⟩ := prefixCode_length _ _ _ _ hv.1 hw.1 heq
      obtain ⟨hitems, hrest⟩ := items_of_bytes hnumber items items' hv.2 hw.2 hlength heq
      exact ⟨congrArg Value.array hitems, hrest⟩
    | _ => simp [canonicalJsonBytes] at heq
  | object entries =>
    cases w with
    | object entries' =>
      simp only [canonicalJsonBytes, List.cons_append, List.cons.injEq, true_and,
        List.append_assoc] at heq
      simp only [Value.Fits] at hv hw
      obtain ⟨hlength, heq⟩ := prefixCode_length _ _ _ _ hv.1 hw.1 heq
      rw [insertionSort_canonicalEntryBytes env hv.2.1,
        insertionSort_canonicalEntryBytes env hw.2.1] at heq
      obtain ⟨hentries, hrest⟩ := entries_of_bytes hnumber entries entries' hv.2.2 hw.2.2
        hlength heq
      exact ⟨congrArg Value.object hentries, hrest⟩
    | _ => simp [canonicalJsonBytes] at heq

/-- The items of an array, of which there are as many on both sides. -/
theorem items_of_bytes (hnumber : Set.InjOn env.jsonOfNumber {n | n.Canonical})
    (items items' : List Value) {rest rest' : List UInt8} (hl : Value.ItemsFit env items)
    (hl' : Value.ItemsFit env items') (hlength : items.length = items'.length)
    (heq : canonicalItemBytes env items ++ rest = canonicalItemBytes env items' ++ rest') :
    items = items' ∧ rest = rest' := by
  cases items with
  | nil =>
    obtain rfl := List.length_eq_zero_iff.mp hlength.symm
    exact ⟨rfl, heq⟩
  | cons item items =>
    obtain ⟨item', items', rfl⟩ := List.exists_cons_of_length_eq_add_one hlength.symm
    simp only [canonicalItemBytes, List.append_assoc] at heq
    simp only [Value.ItemsFit] at hl hl'
    obtain ⟨hitem, heq⟩ := value_of_bytes hnumber item item' hl.1 hl'.1 heq
    obtain ⟨hitems, hrest⟩ := items_of_bytes hnumber items items' hl.2 hl'.2
      (by simpa using hlength) heq
    exact ⟨by rw [hitem, hitems], hrest⟩

/-- The entries of an object, of which there are as many on both sides. -/
theorem entries_of_bytes (hnumber : Set.InjOn env.jsonOfNumber {n | n.Canonical})
    (entries entries' : List (String × Value)) {rest rest' : List UInt8}
    (hl : Value.EntriesFit env entries) (hl' : Value.EntriesFit env entries')
    (hlength : entries.length = entries'.length)
    (heq : (canonicalEntryBytes env entries).flatMap (fun entry => writeStr entry.1 ++ entry.2) ++
        rest =
      (canonicalEntryBytes env entries').flatMap (fun entry => writeStr entry.1 ++ entry.2) ++
        rest') :
    entries = entries' ∧ rest = rest' := by
  cases entries with
  | nil =>
    obtain rfl := List.length_eq_zero_iff.mp hlength.symm
    exact ⟨rfl, heq⟩
  | cons entry entries =>
    obtain ⟨⟨key', value'⟩, entries', rfl⟩ := List.exists_cons_of_length_eq_add_one hlength.symm
    obtain ⟨key, value⟩ := entry
    simp only [canonicalEntryBytes, List.flatMap_cons, List.append_assoc] at heq
    simp only [Value.EntriesFit] at hl hl'
    obtain ⟨hkey, heq⟩ := prefixCode_writeStr _ _ _ _ hl.1 hl'.1 heq
    obtain ⟨hvalue, heq⟩ := value_of_bytes hnumber value value' hl.2.1 hl'.2.1 heq
    obtain ⟨hentries, hrest⟩ := entries_of_bytes hnumber entries entries' hl.2.2 hl'.2.2
      (by simpa using hlength) heq
    exact ⟨by rw [hkey, hvalue, hentries], hrest⟩

end

end

/-! ## Records -/

/-- A block after its length. -/
theorem prefixCode_writeBlock :
    PrefixCode (fun bytes : List UInt8 => bytes.length < 2 ^ 64) writeBlock := by
  have hbyte : PrefixCode (fun _ : UInt8 => True) (fun b => [b]) :=
    .of_width (w := 1) (fun _ => rfl) (fun a b _ _ h => List.singleton_injective h)
  have hlist := prefixCode_length.counted hbyte
  simp only [List.flatMap_singleton'] at hlist
  exact hlist.mono (fun bytes hbytes => ⟨hbytes, fun _ _ => trivial⟩)

/-- A custom operation under the word of a fixed kind. -/
def OperationKind.Imitates (a b : OperationKind) : Prop := a = .custom b.tag ∧ a ≠ b

instance (a b : OperationKind) : Decidable (a.Imitates b) :=
  inferInstanceAs (Decidable (a = .custom b.tag ∧ a ≠ b))

/-- Operations that are written with one word are equal, or one imitates the other. -/
theorem OperationKind.tag_eq_iff {a b : OperationKind} :
    a.tag = b.tag ↔ a = b ∨ a.Imitates b ∨ b.Imitates a := by
  constructor
  · intro h
    by_cases hab : a = b
    · exact Or.inl hab
    refine Or.inr ?_
    cases a with
    | custom name => exact Or.inl ⟨congrArg OperationKind.custom h, hab⟩
    | _ =>
      cases b with
      | custom name => exact Or.inr ⟨congrArg OperationKind.custom h.symm, fun heq => hab heq.symm⟩
      | _ => first | exact absurd rfl hab | exact absurd h (by simp only [tag]; decide)
  · rintro (rfl | ⟨h, _⟩ | ⟨h, _⟩)
    · rfl
    · rw [h, tag]
    · rw [h, tag]

/-- The JSON writers tell states, certifications and numbers apart. -/
structure Platform.FaithfulJson (env : Platform) : Prop where
  state : Function.Injective env.jsonOfState
  certification : Function.Injective env.jsonOfCertification
  number : Set.InjOn env.jsonOfNumber {n | n.Canonical}

theorem textPlatform_faithful : textPlatform.FaithfulJson where
  state := by
    simp only [textPlatform]
    exact jsonTextLists_injective.comp stateTexts_injective
  certification := by
    simp only [textPlatform]
    exact jsonTextLists_injective.comp certificationTexts_injective
  number := by
    simp only [textPlatform]
    exact numberText_injOn

/-- Every text, list and block of the record is shorter than 2^64. -/
structure VectorRecordV1.Fits (env : Platform) (r : VectorRecordV1) : Prop where
  schema : ShortStr r.schema
  recordId : ShortStr r.recordId
  vectorId : ShortStr r.vectorId
  before : ∀ s ∈ r.before, (env.jsonOfState s).length < 2 ^ 64
  after : (env.jsonOfState r.after).length < 2 ^ 64
  operation : ShortStr r.operation.tag
  parameters : r.parameters.Fits env
  parameterBytes : (canonicalJsonBytes env r.parameters).length < 2 ^ 64
  certification : (env.jsonOfCertification r.certification).length < 2 ^ 64

/-- A record without its proof. -/
def VectorRecordV1.content (r : VectorRecordV1) : VectorRecordV1 := { r with proof := "" }

/-- A record without its proof, and its operation in the one word that is written of it. -/
def VectorRecordV1.worded (r : VectorRecordV1) : VectorRecordV1 :=
  { r with operation := .custom r.operation.tag, proof := "" }

/-- The bytes of a record are those of its wording. -/
theorem canonicalRecordBytes_worded (env : Platform) (r : VectorRecordV1) :
    canonicalRecordBytes env r.worded = canonicalRecordBytes env r := rfl

/-- The optional state before the operation. -/
theorem before_of_bytes {env : Platform} (hjson : env.FaithfulJson)
    {before before' : Option VectorStateV1} {rest rest' : List UInt8}
    (heq : (match before with
        | some s => 1 :: writeBlock (env.jsonOfState s)
        | none => [0]) ++ rest =
      (match before' with
        | some s => 1 :: writeBlock (env.jsonOfState s)
        | none => [0]) ++ rest')
    (h : ∀ s ∈ before, (env.jsonOfState s).length < 2 ^ 64)
    (h' : ∀ s ∈ before', (env.jsonOfState s).length < 2 ^ 64) :
    before = before' ∧ rest = rest' := by
  have hstate := prefixCode_writeBlock.comap env.jsonOfState hjson.state
  have hoption := @PrefixCode.option _ _ _ _ [1] [0] hstate (fun _ _ hmark => by simp at hmark)
  refine hoption before before' rest rest' h h' ?_
  cases before <;> cases before' <;> exact heq

/-- The bytes tell everything but the proof and how the operation is meant. -/
theorem canonicalRecordBytes_eq_iff {env : Platform} (hjson : env.FaithfulJson)
    {r r' : VectorRecordV1} (hr : r.Fits env) (hr' : r'.Fits env) :
    canonicalRecordBytes env r = canonicalRecordBytes env r' ↔ r.worded = r'.worded := by
  constructor
  · intro heq
    simp only [canonicalRecordBytes, List.append_assoc] at heq
    obtain ⟨hschema, heq⟩ := prefixCode_writeBlock _ _ _ _ hr.schema hr'.schema heq
    obtain ⟨hrecord, heq⟩ := prefixCode_writeBlock _ _ _ _ hr.recordId hr'.recordId heq
    obtain ⟨hvector, heq⟩ := prefixCode_writeBlock _ _ _ _ hr.vectorId hr'.vectorId heq
    obtain ⟨hbefore, heq⟩ := before_of_bytes hjson heq hr.before hr'.before
    obtain ⟨hafter, heq⟩ := prefixCode_writeBlock _ _ _ _ hr.after hr'.after heq
    obtain ⟨htag, heq⟩ := prefixCode_writeBlock _ _ _ _ hr.operation hr'.operation heq
    obtain ⟨hparameters, heq⟩ :=
      prefixCode_writeBlock _ _ _ _ hr.parameterBytes hr'.parameterBytes heq
    obtain ⟨hcertification, heq⟩ :=
      prefixCode_writeBlock _ _ _ _ hr.certification hr'.certification heq
    have htime := prefixCode_writeBeU64.eq_of_write_eq trivial trivial heq
    have hvalue := @value_of_bytes env hjson.number r.parameters r'.parameters [] []
      hr.parameters hr'.parameters (by rw [hparameters])
    simp only [VectorRecordV1.worded, strBytes_injective hschema, strBytes_injective hrecord,
      strBytes_injective hvector, hbefore, hjson.state hafter, strBytes_injective htag, hvalue.1,
      hjson.certification hcertification, htime]
  · intro heq
    rw [← canonicalRecordBytes_worded env r, heq, canonicalRecordBytes_worded]

/-- Two records that differ in their operations alone, of which one imitates the other. -/
def VectorRecordV1.Mistaken (r r' : VectorRecordV1) : Prop :=
  (r.operation.Imitates r'.operation ∨ r'.operation.Imitates r.operation) ∧
    { r with operation := r'.operation, proof := "" } = r'.content

/-- The bytes of a record bind its content, but for a custom operation under the word of a
fixed kind: two records are told apart exactly when they are not mistaken for each other. -/
theorem canonicalRecordBytes_bind_iff {env : Platform} (hjson : env.FaithfulJson)
    {r r' : VectorRecordV1} (hr : r.Fits env) (hr' : r'.Fits env) :
    (canonicalRecordBytes env r = canonicalRecordBytes env r' → r.content = r'.content) ↔
      ¬ r.Mistaken r' := by
  rw [canonicalRecordBytes_eq_iff hjson hr hr']
  have htag := @OperationKind.tag_eq_iff r.operation r'.operation
  simp only [VectorRecordV1.worded, VectorRecordV1.content, VectorRecordV1.Mistaken,
    VectorRecordV1.mk.injEq, OperationKind.custom.injEq, true_and, and_true]
  constructor
  · rintro hbind ⟨himitates, hschema, hrecord, hvector, hbefore, hafter, hrest⟩
    have hsame := hbind ⟨hschema, hrecord, hvector, hbefore, hafter, htag.mpr (Or.inr himitates),
      hrest⟩
    obtain ⟨_, _, _, _, _, hoperation, _⟩ := hsame
    rcases himitates with himitates | himitates
    · exact himitates.2 hoperation
    · exact himitates.2 hoperation.symm
  · rintro hmistaken ⟨hschema, hrecord, hvector, hbefore, hafter, hword, hrest⟩
    refine ⟨hschema, hrecord, hvector, hbefore, hafter, ?_, hrest⟩
    rcases htag.mp hword with hoperation | himitates
    · exact hoperation
    · exact absurd ⟨himitates, hschema, hrecord, hvector, hbefore, hafter, hrest⟩ hmistaken

/-- A vector with one component. -/
def sampleState : VectorStateV1 := VectorStateV1.new "a" "o" "main" [5] .standard 0

/-- Parameters with a text and a list. -/
def sampleParameters : Value := .object [("components", .array [.ofU64 5]), ("to", .string "b")]

/-- A record of some operation on the sample vector. -/
def sampleRecord (operation : OperationKind) : VectorRecordV1 where
  schema := "v.kernelx/VectorRecordV1"
  recordId := "r"
  vectorId := "a"
  before := none
  after := sampleState
  operation := operation
  parameters := sampleParameters
  certification := sampleState.certification
  timestampMs := 0
  proof := "p"

theorem sampleRecord_fits {operation : OperationKind} (h : ShortStr operation.tag) :
    (sampleRecord operation).Fits textPlatform where
  schema := (by decide +kernel : ShortStr "v.kernelx/VectorRecordV1")
  recordId := (by decide +kernel : ShortStr "r")
  vectorId := (by decide +kernel : ShortStr "a")
  before := fun _ h => by cases h
  after := (by decide +kernel : (textPlatform.jsonOfState sampleState).length < 2 ^ 64)
  operation := h
  parameters := by
    simp only [sampleRecord, sampleParameters, Value.Fits, Value.EntriesFit, Value.ItemsFit,
      Value.ofU64]
    decide +kernel
  parameterBytes :=
    (by decide +kernel : (canonicalJsonBytes textPlatform sampleParameters).length < 2 ^ 64)
  certification := (by decide +kernel :
    (textPlatform.jsonOfCertification sampleState.certification).length < 2 ^ 64)

theorem canonicalRecordBytes_bind_iff_drain :
    canonicalRecordBytes textPlatform (sampleRecord .transfer) ≠
      canonicalRecordBytes textPlatform (sampleRecord (.custom "DRAIN")) := by
  intro heq
  have hbind := canonicalRecordBytes_bind_iff textPlatform_faithful
    (@sampleRecord_fits .transfer (by decide +kernel))
    (@sampleRecord_fits (.custom "DRAIN") (by decide +kernel))
  have hsame := hbind.mpr (fun hmistaken => absurd hmistaken.1 (by decide)) heq
  exact absurd (congrArg VectorRecordV1.operation hsame) (by decide)

/-- The bytes of a record bind its content, if the JSON writers are faithful. -/
def RecordBytesBind : Prop :=
  ∀ env : Platform, env.FaithfulJson → ∀ r r' : VectorRecordV1, r.Fits env → r'.Fits env →
    canonicalRecordBytes env r = canonicalRecordBytes env r' → r.content = r'.content

/-- A transfer and a custom operation `TRANSFER` have one record. -/
theorem recordBytesBind_fails : ¬ RecordBytesBind := by
  intro hbind
  have hsame := hbind textPlatform textPlatform_faithful (sampleRecord .transfer)
    (sampleRecord (.custom "TRANSFER")) (sampleRecord_fits (by decide +kernel))
    (sampleRecord_fits (by decide +kernel)) rfl
  exact absurd (congrArg VectorRecordV1.operation hsame) (by decide)

end VKernelX
