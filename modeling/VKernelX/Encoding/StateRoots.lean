/-
  Encoding/StateRoots.lean --- the live state root commits to the set of states.

  The states are sorted by vector id, so the order in which the store lists them is forgotten;
  what is left is a counted list of self-delimiting records.
-/
import VKernelX.Encoding.Writers

set_option autoImplicit false

namespace VKernelX

/-! ## The writers of `state.rs` -/

namespace StateEncoding

theorem prefixCode_writeU128 : PrefixCode (fun _ : U128 => True) writeU128 := by
  refine .of_width (fun v => length_beBytes 16 v.toNat) (fun a b _ _ h => ?_)
  exact BitVec.eq_of_toNat_eq (beBytes_inj 16 a.isLt b.isLt h)

theorem prefixCode_writeStr : PrefixCode ShortStr writeStr := prefixCode_text

theorem prefixCode_writeVecU128 :
    PrefixCode (fun l : List U128 => l.length < 2 ^ 64) writeVecU128 :=
  (prefixCode_length.counted prefixCode_writeU128).mono (fun _ hl => ⟨hl, fun _ _ => trivial⟩)

theorem prefixCode_writeStrMap : PrefixCode ShortMap writeStrMap :=
  prefixCode_map prefixCode_writeStr

theorem prefixCode_writeU16 :
    PrefixCode (fun _ : UInt16 => True) (fun v => writeBeU64 v.toUInt64) :=
  prefixCode_writeBeU64.comap UInt16.toUInt64 (fun _ _ => UInt16.toUInt64_inj.mp)

theorem prefixCode_writeU32 :
    PrefixCode (fun _ : UInt32 => True) (fun v => writeBeU64 v.toUInt64) :=
  prefixCode_writeBeU64.comap UInt32.toUInt64 (fun _ _ => UInt32.toUInt64_inj.mp)

theorem vectorTypeTag_injective : Function.Injective vectorTypeTag := by
  intro a b h
  cases a <;> cases b <;> first | rfl | exact absurd h (by decide)

theorem prefixCode_writeVectorType : PrefixCode (fun _ : VectorType => True) writeVectorType := by
  refine (prefixCode_writeStr.comap vectorTypeTag vectorTypeTag_injective).mono (fun a _ => ?_)
  cases a <;> decide +kernel

theorem vectorStatusTag_injective : Function.Injective vectorStatusTag := by
  intro a b h
  cases a <;> cases b <;> first | rfl | exact absurd h (by decide)

theorem prefixCode_writeVectorStatus :
    PrefixCode (fun _ : VectorStatus => True) writeVectorStatus := by
  refine (prefixCode_writeStr.comap vectorStatusTag vectorStatusTag_injective).mono
    (fun a _ => ?_)
  cases a <;> decide +kernel

/-- The flag of an optional part decides whether it is there. -/
theorem prefixCode_writeOption {α : Type} {F : α → Prop} {write : α → List UInt8}
    (h : PrefixCode F write) : PrefixCode (fun o : Option α => ∀ a ∈ o, F a) (writeOption write) :=
  h.option (fun _ _ heq => absurd (List.head_eq_of_cons_eq heq) (by decide))

/-! ## Vector states -/

end StateEncoding

/-- Every text of the certification is short. -/
structure CertificationState.Short (c : CertificationState) : Prop where
  reason : ∀ s ∈ c.reason, ShortStr s

/-- Every text and list of the projection is short. -/
structure ProjectionState.Short (p : ProjectionState) : Prop where
  escrowId : ShortStr p.escrowId
  projectedComponents : p.projectedComponents.length < 2 ^ 64
  settledComponents : p.settledComponents.length < 2 ^ 64
  outcomeTag : ∀ s ∈ p.outcomeTag, ShortStr s

/-- Every text of the origin is short. -/
structure OriginState.Short (o : OriginState) : Prop where
  seed : ShortStr o.seed
  proofHash : ShortStr o.proofHash

/-- Every text, list and map of the state is shorter than 2^64. -/
structure VectorStateV1.Short (s : VectorStateV1) : Prop where
  schema : ShortStr s.schema
  vectorId : ShortStr s.vectorId
  ownerPubkey : ShortStr s.ownerPubkey
  spaceId : ShortStr s.spaceId
  components : s.components.length < 2 ^ 64
  typeMetadata : ShortMap s.typeMetadata
  certification : s.certification.Short
  projection : ∀ p ∈ s.projection, p.Short
  origin : ∀ o ∈ s.origin, o.Short

namespace StateEncoding

theorem prefixCode_writeCertificationState :
    PrefixCode CertificationState.Short writeCertificationState := by
  intro a b rest rest' ha hb heq
  simp only [writeCertificationState, List.append_assoc] at heq
  obtain ⟨hcertified, heq⟩ := prefixCode_writeBool _ _ _ _ trivial trivial heq
  obtain ⟨hratio, heq⟩ := prefixCode_writeU16 _ _ _ _ trivial trivial heq
  obtain ⟨hthreshold, heq⟩ := prefixCode_writeU16 _ _ _ _ trivial trivial heq
  obtain ⟨hchecked, heq⟩ := prefixCode_writeBeU64 _ _ _ _ trivial trivial heq
  obtain ⟨hreason, hrest⟩ := prefixCode_writeOption prefixCode_writeStr _ _ _ _ ha.reason
    hb.reason heq
  refine ⟨?_, hrest⟩
  cases a
  cases b
  rw [CertificationState.mk.injEq]
  exact ⟨hcertified, hratio, hthreshold, hchecked, hreason⟩

theorem prefixCode_writeProjectionState :
    PrefixCode ProjectionState.Short writeProjectionState := by
  intro a b rest rest' ha hb heq
  simp only [writeProjectionState, List.append_assoc] at heq
  obtain ⟨hescrow, heq⟩ := prefixCode_writeStr _ _ _ _ ha.escrowId hb.escrowId heq
  obtain ⟨hprojected, heq⟩ := prefixCode_writeVecU128 _ _ _ _ ha.projectedComponents
    hb.projectedComponents heq
  obtain ⟨hsettled, heq⟩ := prefixCode_writeVecU128 _ _ _ _ ha.settledComponents
    hb.settledComponents heq
  obtain ⟨hstarted, heq⟩ := prefixCode_writeBeU64 _ _ _ _ trivial trivial heq
  obtain ⟨hsettlement, heq⟩ := prefixCode_writeOption prefixCode_writeBeU64 _ _ _ _
    (fun _ _ => trivial) (fun _ _ => trivial) heq
  obtain ⟨houtcome, hrest⟩ := prefixCode_writeOption prefixCode_writeStr _ _ _ _ ha.outcomeTag
    hb.outcomeTag heq
  refine ⟨?_, hrest⟩
  cases a
  cases b
  rw [ProjectionState.mk.injEq]
  exact ⟨hescrow, hprojected, hsettled, hstarted, hsettlement, houtcome⟩

theorem prefixCode_writeOriginState : PrefixCode OriginState.Short writeOriginState := by
  intro a b rest rest' ha hb heq
  simp only [writeOriginState, List.append_assoc] at heq
  obtain ⟨hseed, heq⟩ := prefixCode_writeStr _ _ _ _ ha.seed hb.seed heq
  obtain ⟨hnonce, heq⟩ := prefixCode_writeBeU64 _ _ _ _ trivial trivial heq
  obtain ⟨hdifficulty, heq⟩ := prefixCode_writeU32 _ _ _ _ trivial trivial heq
  obtain ⟨hproof, hrest⟩ := prefixCode_writeStr _ _ _ _ ha.proofHash hb.proofHash heq
  refine ⟨?_, hrest⟩
  cases a
  cases b
  rw [OriginState.mk.injEq]
  exact ⟨hseed, hnonce, hdifficulty, hproof⟩

theorem prefixCode_canonicalVectorStateBytes :
    PrefixCode VectorStateV1.Short canonicalVectorStateBytes := by
  intro a b rest rest' ha hb heq
  simp only [canonicalVectorStateBytes, List.append_assoc] at heq
  obtain ⟨hschema, heq⟩ := prefixCode_writeStr _ _ _ _ ha.schema hb.schema heq
  obtain ⟨hid, heq⟩ := prefixCode_writeStr _ _ _ _ ha.vectorId hb.vectorId heq
  obtain ⟨howner, heq⟩ := prefixCode_writeStr _ _ _ _ ha.ownerPubkey hb.ownerPubkey heq
  obtain ⟨hspace, heq⟩ := prefixCode_writeStr _ _ _ _ ha.spaceId hb.spaceId heq
  obtain ⟨htype, heq⟩ := prefixCode_writeVectorType _ _ _ _ trivial trivial heq
  obtain ⟨hstatus, heq⟩ := prefixCode_writeVectorStatus _ _ _ _ trivial trivial heq
  obtain ⟨hcomponents, heq⟩ := prefixCode_writeVecU128 _ _ _ _ ha.components hb.components heq
  obtain ⟨hmetadata, heq⟩ := prefixCode_writeStrMap _ _ _ _ ha.typeMetadata hb.typeMetadata heq
  obtain ⟨hcertification, heq⟩ := prefixCode_writeCertificationState _ _ _ _ ha.certification
    hb.certification heq
  obtain ⟨hprojection, heq⟩ := prefixCode_writeOption prefixCode_writeProjectionState _ _ _ _
    ha.projection hb.projection heq
  obtain ⟨horigin, heq⟩ := prefixCode_writeOption prefixCode_writeOriginState _ _ _ _
    ha.origin hb.origin heq
  obtain ⟨hversion, heq⟩ := prefixCode_writeBeU64 _ _ _ _ trivial trivial heq
  obtain ⟨hcreated, heq⟩ := prefixCode_writeBeU64 _ _ _ _ trivial trivial heq
  obtain ⟨hupdated, hrest⟩ := prefixCode_writeBeU64 _ _ _ _ trivial trivial heq
  refine ⟨?_, hrest⟩
  cases a
  cases b
  rw [VectorStateV1.mk.injEq]
  exact ⟨hschema, hid, howner, hspace, htype, hstatus, hcomponents, hmetadata, hcertification,
    hprojection, horigin, hversion, hcreated, hupdated⟩

/-- The length in front of a state has a fixed width, so it may even be cut off. -/
theorem prefixCode_writeState : PrefixCode VectorStateV1.Short writeState := by
  intro a b rest rest' ha hb heq
  simp only [writeState, List.append_assoc] at heq
  obtain ⟨-, heq⟩ := prefixCode_writeBeU64 _ _ _ _ trivial trivial heq
  exact prefixCode_canonicalVectorStateBytes _ _ _ _ ha hb heq

end StateEncoding

/-! ## The sorted states -/

theorem orderStates_perm (states : List VectorStateV1) : (orderStates states).Perm states :=
  List.perm_insertionSort _ states

theorem orderStates_pairwise (states : List VectorStateV1) :
    (orderStates states).Pairwise (fun a b => stateSortKey a ≤ stateSortKey b) := by
  have : Std.Total (fun a b : VectorStateV1 => stateSortKey a ≤ stateSortKey b) :=
    ⟨fun a b => le_total _ _⟩
  have : IsTrans VectorStateV1 (fun a b => stateSortKey a ≤ stateSortKey b) :=
    ⟨fun _ _ _ hab hbc => le_trans hab hbc⟩
  exact List.pairwise_insertionSort _ states

/-- With distinct vector ids the sort forgets the order of its input. -/
theorem orderStates_eq_of_perm {states states' : List VectorStateV1}
    (hids : (states.map (·.vectorId)).Nodup) (hperm : states.Perm states') :
    orderStates states = orderStates states' := by
  refine List.Perm.eq_of_pairwise (fun a b ha hb hab hba => ?_) (orderStates_pairwise states)
    (orderStates_pairwise states')
    ((orderStates_perm states).trans (hperm.trans (orderStates_perm states').symm))
  have hkey := le_antisymm hab hba
  simp only [stateSortKey, EmbeddingLike.apply_eq_iff_eq, Prod.mk.injEq] at hkey
  have ha : a ∈ states := (orderStates_perm states).mem_iff.mp ha
  have hb : b ∈ states := hperm.mem_iff.mpr ((orderStates_perm states').mem_iff.mp hb)
  exact List.inj_on_of_nodup_map hids ha hb hkey.1

/-! ## The root's bytes -/

/-- Fewer than 2^64 states, each with short parts and all under distinct ids. -/
structure ShortStates (states : List VectorStateV1) : Prop where
  ids : (states.map (·.vectorId)).Nodup
  length : states.length < 2 ^ 64
  short : ∀ s ∈ states, s.Short

/-- The bytes that `compute_state_root` hashes tell exactly the set of states and the clock. -/
theorem stateRootBytes_eq_iff {states states' : List VectorStateV1} (hs : ShortStates states)
    (hs' : ShortStates states') (clock clock' : UInt64) :
    stateRootBytes states clock = stateRootBytes states' clock' ↔
      states.Perm states' ∧ clock = clock' := by
  have hperm := orderStates_perm states
  have hperm' := orderStates_perm states'
  constructor
  · intro heq
    simp only [stateRootBytes, List.append_assoc, List.append_cancel_left_eq] at heq
    obtain ⟨hlength, heq⟩ := prefixCode_length _ _ _ _ (hperm.length_eq ▸ hs.length)
      (hperm'.length_eq ▸ hs'.length) heq
    obtain ⟨hclock, heq⟩ := prefixCode_writeBeU64 _ _ _ _ trivial trivial heq
    have hordered : orderStates states = orderStates states' :=
      (StateEncoding.prefixCode_writeState.flatMap
        (fun s hmem => hs.short s (hperm.mem_iff.mp hmem))
        (fun s hmem => hs'.short s (hperm'.mem_iff.mp hmem)) hlength
        (congrArg (· ++ []) heq)).1
    exact ⟨hperm.symm.trans (hordered ▸ hperm'), hclock⟩
  · rintro ⟨hstates, rfl⟩
    simp only [stateRootBytes, orderStates_eq_of_perm hs.ids hstates]

/-- A fresh vector, with nothing in it. -/
def freshVector (vectorId : String) : VectorStateV1 := .new vectorId "pk" "space" [] .standard 1

/-- A fresh vector is short when its id is. -/
theorem freshVector_short {vectorId : String} (h : ShortStr vectorId) :
    (freshVector vectorId).Short where
  schema := (by decide +kernel : ShortStr stateSchemaV1)
  vectorId := h
  ownerPubkey := (by decide +kernel : ShortStr "pk")
  spaceId := (by decide +kernel : ShortStr "space")
  components := (by decide : ([] : List U128).length < 2 ^ 64)
  typeMetadata := ⟨(by decide +kernel : (∅ : BTreeMap String String).size < 2 ^ 64),
    (by decide +kernel : ∀ entry ∈ (∅ : BTreeMap String String).toList,
      ShortStr entry.1 ∧ ShortStr entry.2)⟩
  certification := ⟨by
    intro s hs
    obtain rfl : s = "not yet certified" := (Option.some.inj hs).symm
    decide +kernel⟩
  projection := nofun
  origin := nofun

theorem stateRootBytes_eq_iff_swapped :
    stateRootBytes [freshVector "a", freshVector "b"] 7 =
        stateRootBytes [freshVector "b", freshVector "a"] 7 ∧
      stateRootBytes [freshVector "a", freshVector "b"] 7 ≠
        stateRootBytes [freshVector "b", freshVector "a"] 8 := by
  have ha : (freshVector "a").Short := freshVector_short (by decide +kernel)
  have hb : (freshVector "b").Short := freshVector_short (by decide +kernel)
  have hab : ShortStates [freshVector "a", freshVector "b"] :=
    ⟨by decide, by decide, by simp [ha, hb]⟩
  have hba : ShortStates [freshVector "b", freshVector "a"] :=
    ⟨by decide, by decide, by simp [ha, hb]⟩
  constructor
  · exact (stateRootBytes_eq_iff hab hba 7 7).mpr ⟨List.Perm.swap _ _ _, rfl⟩
  · intro heq
    exact absurd ((stateRootBytes_eq_iff hab hba 7 8).mp heq).2 (by decide)

end VKernelX
