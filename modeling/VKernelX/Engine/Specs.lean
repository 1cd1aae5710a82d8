/-
  Engine/Specs.lean --- one lemma for each operation on vector states: what an `Ok` result
  says about the arguments and about the new state.
-/
import VKernelX.Engine.Steps

set_option autoImplicit false

namespace VKernelX

variable {env : Platform}

/-! ## Event states -/

/-- Only values that fit in 64 bits enter an event. -/
theorem component_le_of_event {s : VectorStateV1} {v : VectorState}
    (h : vectorV1ToEventState s = .ok v) (i : ℕ) : s.component i ≤ u64Max := by
  refine amountAt_le ?_ i
  simp only [vectorV1ToEventState, Outcome.bind_eq_ok_iff] at h
  obtain ⟨components, hcomponents, -⟩ := h
  generalize s.components = xs at hcomponents ⊢
  induction xs generalizing components with
  | nil => simp
  | cons x xs ih =>
    simp only [List.mapM_cons, Outcome.bind_eq_ok_iff, Outcome.okOr_eq_ok_iff] at hcomponents
    obtain ⟨n, hn, ns, hns, _⟩ := hcomponents
    refine List.forall_mem_cons.mpr ⟨?_, ih ns hns⟩
    by_contra hlt
    rw [u64TryFrom_eq_none_iff.mpr (by omega)] at hn
    cases hn

/-! ## Transition events -/

/-- What a built transition event carries over from its arguments. -/
structure TransitionFields (eng : KernelEngine) (after : VectorStateV1)
    (operation : OperationType) (timestamp : UInt64) (parentHashes : List String)
    (e : VectorEvent) : Prop where
  parentHashes_eq : e.parentHashes = parentHashes
  regionId_eq : e.regionId = after.spaceId
  entityId_eq : e.entityId = after.vectorId
  operation_eq : e.operation = operation
  logicalClock_eq : e.logicalClock = after.version
  timestamp_eq : e.timestamp = timestamp
  signature_eq : e.signature = ""
  vectorAfter_eq : vectorV1ToEventState after = .ok e.vectorAfter
  sequence_eq : ∃ sequence, eng.nextEventSequenceForEntity after.vectorId after.spaceId =
      .ok sequence ∧
    e.eventId = canonicalEventId after.vectorId after.spaceId operation after.version sequence

theorem buildTransitionEvent_fields {eng : KernelEngine} {before : Option VectorStateV1}
    {after : VectorStateV1} {operation : OperationType} {timestamp : UInt64}
    {parentHashes : List String} {e : VectorEvent}
    (h : buildTransitionEvent env eng before after operation after.version timestamp
      parentHashes = .ok e) :
    TransitionFields eng after operation timestamp parentHashes e ∧
      eventStateBefore before after = .ok e.vectorBefore := by
  simp only [buildTransitionEvent, Outcome.bind_eq_ok_iff] at h
  obtain ⟨vectorBefore, hbefore, vectorAfter, hafter, sequence, hsequence, he⟩ := h
  obtain rfl := Except.ok.inj he
  exact ⟨⟨rfl, rfl, rfl, rfl, rfl, rfl, rfl, hafter, sequence, hsequence, rfl⟩, hbefore⟩

/-! ## Certification -/

theorem certifyState_ok {s : VectorStateV1} {nowMs : UInt64} {certification : CertificationState}
    (h : certifyState env s true true nowMs = .ok certification) :
    certification.threshold = s.certification.threshold ∧
      certification.certified = decide (s.certification.threshold ≤ certification.authRatio) ∧
      (s.components ≠ [] → 700 ≤ certification.authRatio) := by
  simp only [certifyState, computeAuthRatio, Outcome.bind_eq_ok_iff] at h
  obtain ⟨ratio, ⟨magnitude, _, hratio⟩, hcertification⟩ := h
  obtain rfl := Except.ok.inj hratio
  obtain rfl := Except.ok.inj hcertification
  refine ⟨rfl, rfl, ?_⟩
  intro hne
  rw [if_neg hne]
  by_cases hzero : magnitude = 0
  · rw [if_pos hzero]
    exact (by decide : (700 : UInt16) ≤ UInt16.ofNat (min (100 + 200 + 300 + 100) 1000))
  · rw [if_neg hzero]
    exact (by decide : (700 : UInt16) ≤ UInt16.ofNat (min (400 + 200 + 300 + 100) 1000))

/-! ## The fields no operation touches -/

/-- Two states of one vector: identity, owner, space, tags and threshold agree. -/
structure SameVector (s after : VectorStateV1) : Prop where
  vectorId : after.vectorId = s.vectorId
  ownerPubkey : after.ownerPubkey = s.ownerPubkey
  spaceId : after.spaceId = s.spaceId
  typeMetadata : after.typeMetadata = s.typeMetadata
  threshold : after.certification.threshold = s.certification.threshold

/-- A state that a certification closes: its flag follows from ratio and threshold, and
the ratio is that of a verified non-empty vector. -/
structure FreshlyCertified (after : VectorStateV1) : Prop where
  certified : after.certification.certified =
    decide (after.certification.threshold ≤ after.certification.authRatio)
  ratio : after.components ≠ [] → 700 ≤ after.certification.authRatio

theorem freshlyCertified_of {s : VectorStateV1} {nowMs : UInt64}
    {certification : CertificationState}
    (h : certifyState env s true true nowMs = .ok certification) {after : VectorStateV1}
    (hcertification : after.certification = certification)
    (hcomponents : after.components = s.components) : FreshlyCertified after := by
  obtain ⟨hthreshold, hcertified, hratio⟩ := certifyState_ok h
  refine ⟨?_, ?_⟩
  · rw [hcertification, hcertified, hthreshold]
  · rw [hcertification, hcomponents]
    exact hratio

/-! ## Operations on one vector -/

/-- What every operation on one vector does: it keeps the vector's identity, counts the
version up and certifies the result. -/
structure Advances (env : Platform) (s after : VectorStateV1) : Prop where
  same : SameVector s after
  version : u64Succ (ε := KernelXError) env.overflowChecks s.version = .ok after.version
  certified : FreshlyCertified after

theorem certifyNext_ok {now : ℕ → UInt64} {s after : VectorStateV1}
    (h : certifyNext env now s = .ok after) :
    Advances env s after ∧ after.components = s.components ∧ after.projection = s.projection ∧
      after.updatedAtMs = now 1 := by
  simp only [certifyNext, Outcome.bind_eq_ok_iff] at h
  obtain ⟨certification, hcertification, version, hversion, hafter⟩ := h
  obtain rfl := Except.ok.inj hafter
  exact ⟨⟨⟨rfl, rfl, rfl, rfl, (certifyState_ok hcertification).1⟩, hversion,
    freshlyCertified_of hcertification rfl rfl⟩, rfl, rfl, rfl⟩

theorem drainNext_ok {now : ℕ → UInt64} {basisPoints : UInt16} {s after : VectorStateV1}
    (h : drainNext env now basisPoints s = .ok after) :
    Advances env s after ∧ after.components.length = s.components.length ∧
      after.projection = s.projection ∧ after.updatedAtMs = now 1 := by
  simp only [drainNext, applyDrain, Outcome.bind_eq_ok_iff] at h
  obtain ⟨⟨drained, remaining⟩, ⟨_, _, hamounts⟩, certification, hcertification, version,
    hversion, hafter⟩ := h
  obtain ⟨_, rfl⟩ := Prod.mk.inj (Except.ok.inj hamounts)
  obtain rfl := Except.ok.inj hafter
  exact ⟨⟨⟨rfl, rfl, rfl, rfl, (certifyState_ok hcertification).1⟩, hversion,
    freshlyCertified_of hcertification rfl rfl⟩, by simp, rfl, rfl⟩

/-- What a projection does to the amounts: the projected slice was covered and has left
the balance, and the projection holds it, unsettled. -/
structure Projects (projected : List U128) (s after : VectorStateV1) : Prop where
  shape : projected.length = s.components.length
  length_eq : after.components.length = s.components.length
  covered : ∀ i, amountAt projected i ≤ s.component i
  component_eq : ∀ i, after.component i = s.component i - amountAt projected i
  projection_eq : ∃ projection, after.projection = some projection ∧
    projection.projectedComponents = projected ∧ projection.settlementAtMs = none

theorem projectNext_ok {now : ℕ → UInt64} {projected : List U128} {escrowId : String}
    {s after : VectorStateV1} (h : projectNext env now projected escrowId s = .ok after) :
    Advances env s after ∧ Projects projected s after ∧ after.updatedAtMs = now 0 := by
  simp only [projectNext, projectVector, Outcome.bind_eq_ok_iff,
    Outcome.require_eq_ok_iff] at h
  obtain ⟨mid, ⟨_, hlength, _, hcovered, version, hversion, hmid⟩, certification,
    hcertification, hafter⟩ := h
  obtain rfl := Except.ok.inj hmid
  obtain rfl := Except.ok.inj hafter
  refine ⟨⟨⟨rfl, rfl, rfl, rfl, (certifyState_ok hcertification).1⟩, hversion,
    freshlyCertified_of hcertification rfl rfl⟩, ⟨hlength, ?_, ?_, ?_, ?_⟩, rfl⟩
  · simp [hlength]
  · exact amountAt_le_of_zip hlength (by simpa using hcovered)
  · intro i
    have hget := getD_map_zip hlength.symm (fun cp => saturatingSub cp.1 cp.2) (by decide) i
    simp only [VectorStateV1.component, amountAt, hget, toNat_saturatingSub]
  · exact ⟨_, rfl, rfl, rfl⟩

/-- The settlement loop, entry by entry: a principal with its gain covers its loss, and
the slot at its position, from `index` on, grows by the net amount. -/
theorem settleLoop_ok {index : ℕ} {entries : List ((U128 × U128) × U128)}
    {restored settled restored' settled' : List U128}
    (hslots : index + entries.length ≤ restored.length)
    (h : settleLoop index entries restored settled = .ok (restored', settled')) :
    restored'.length = restored.length ∧
      (∀ j (hj : j < entries.length),
        (entries[j]).2.toNat ≤ min ((entries[j]).1.1.toNat + (entries[j]).1.2.toNat) u128Max ∧
        amountAt restored' (index + j) = min (amountAt restored (index + j) +
          (min ((entries[j]).1.1.toNat + (entries[j]).1.2.toNat) u128Max -
            (entries[j]).2.toNat)) u128Max) ∧
      ∀ i, i < index ∨ index + entries.length ≤ i →
        amountAt restored' i = amountAt restored i := by
  induction entries generalizing index restored settled with
  | nil =>
    obtain ⟨rfl, _⟩ := Prod.mk.inj (Except.ok.inj h)
    exact ⟨rfl, fun j hj => absurd hj (Nat.not_lt_zero j), fun _ _ => rfl⟩
  | cons entry entries ih =>
    obtain ⟨⟨principal, gain⟩, loss⟩ := entry
    have hindex : index < restored.length := by
      rw [List.length_cons] at hslots
      omega
    rw [settleLoop] at h
    simp only [List.getElem?_eq_getElem hindex] at h
    split at h
    · cases h
    · rename_i hcovered
      have hcovered' : loss.toNat ≤ min (principal.toNat + gain.toNat) u128Max := by
        rw [← toNat_saturatingAdd]
        exact Nat.le_of_not_lt hcovered
      have hnet : (saturatingAdd principal gain - loss).toNat =
          min (principal.toNat + gain.toNat) u128Max - loss.toNat := by
        rw [BitVec.toNat_sub_of_le (by rwa [BitVec.le_def, toNat_saturatingAdd]),
          toNat_saturatingAdd]
      have hset : ∀ i, amountAt (restored.set index
          (saturatingAdd restored[index] (saturatingAdd principal gain - loss))) i =
          if i = index then min (amountAt restored index +
            (min (principal.toNat + gain.toNat) u128Max - loss.toNat)) u128Max
          else amountAt restored i := by
        intro i
        simp only [amountAt, List.getD_eq_getElem?_getD, List.getElem?_set, hindex, if_true]
        by_cases hi : i = index
        · subst hi
          simp [hindex, hnet]
        · rw [if_neg (Ne.symm hi), if_neg hi]
      obtain ⟨hlength, hentries, hothers⟩ := ih (by
        rw [List.length_set]
        rw [List.length_cons] at hslots
        omega) h
      rw [List.length_set] at hlength
      refine ⟨hlength, ?_, ?_⟩
      · intro j hj
        cases j with
        | zero =>
          refine ⟨hcovered', ?_⟩
          rw [Nat.add_zero, hothers index (Or.inl (Nat.lt_succ_self index)), hset, if_pos rfl]
          rfl
        | succ j =>
          rw [List.length_cons] at hj
          obtain ⟨hcov, hamount⟩ := hentries j (by omega)
          rw [hset, if_neg (by omega)] at hamount
          have hpos : index + (j + 1) = index + 1 + j := by omega
          rw [hpos]
          exact ⟨hcov, hamount⟩
      · intro i hi
        rw [List.length_cons] at hi
        rw [hothers i (by omega), hset, if_neg (by omega)]

/-- What a settlement does to the amounts: each principal with its gain covers its loss,
each component grows by the net amount, and the projection is marked settled. -/
structure Settles (outcome : SettlementOutcome) (projection : ProjectionState)
    (s after : VectorStateV1) : Prop where
  length_eq : after.components.length = s.components.length
  covered : ∀ i, amountAt outcome.losses i ≤
    min (amountAt projection.projectedComponents i + amountAt outcome.gains i) u128Max
  component_eq : ∀ i, after.component i = min (s.component i +
    (min (amountAt projection.projectedComponents i + amountAt outcome.gains i) u128Max -
      amountAt outcome.losses i)) u128Max
  projection_eq : ∃ settled, after.projection = some settled ∧
    settled.projectedComponents = projection.projectedComponents ∧
    settled.settlementAtMs ≠ none

theorem reconstructNext_ok {now : ℕ → UInt64} {outcome : SettlementOutcome}
    {s after : VectorStateV1} {projection : ProjectionState}
    (hprojection : s.projection = some projection)
    (hshape : projection.projectedComponents.length = s.components.length)
    (h : reconstructNext env now outcome s = .ok after) :
    Advances env s after ∧ Settles outcome projection s after ∧ after.updatedAtMs = now 0 := by
  simp only [reconstructNext, reconstructVector, Outcome.bind_eq_ok_iff,
    Outcome.okOr_eq_ok_iff, Outcome.require_eq_ok_iff] at h
  obtain ⟨mid, ⟨projection', hprojection', _, ⟨hgains, hlosses⟩, ⟨restored, settled⟩, hloop,
    version, hversion, hmid⟩, certification, hcertification, hafter⟩ := h
  obtain rfl := Option.some.inj (hprojection.symm.trans hprojection')
  obtain rfl := Except.ok.inj hmid
  obtain rfl := Except.ok.inj hafter
  have hentriesLength : ((projection.projectedComponents.zip outcome.gains).zip
      outcome.losses).length = s.components.length := by
    rw [List.length_zip, List.length_zip]
    omega
  obtain ⟨hlength, hentries, hothers⟩ := settleLoop_ok (by omega) hloop
  -- Entry by entry inside the list; nothing happens past its end.
  have hall : ∀ i, amountAt outcome.losses i ≤
      min (amountAt projection.projectedComponents i + amountAt outcome.gains i) u128Max ∧
      amountAt restored i = min (s.component i +
        (min (amountAt projection.projectedComponents i + amountAt outcome.gains i) u128Max -
          amountAt outcome.losses i)) u128Max := by
    intro i
    by_cases hi : i < s.components.length
    · obtain ⟨hcovered, hamount⟩ := hentries i (by omega)
      have hp : i < projection.projectedComponents.length := by omega
      have hg : i < outcome.gains.length := by omega
      have hl : i < outcome.losses.length := by omega
      rw [Nat.zero_add] at hamount
      simp only [List.getElem_zip] at hcovered hamount
      have hat : ∀ (l : List U128) (h : i < l.length), amountAt l i = l[i].toNat := by
        intro l h
        simp [amountAt, h]
      rw [hat _ hl, hat _ hp, hat _ hg]
      exact ⟨hcovered, hamount⟩
    · have hzero : ∀ l : List U128, l.length = s.components.length → amountAt l i = 0 :=
        fun l hl => amountAt_of_length_le (by omega)
      rw [hothers i (Or.inr (by omega)), hzero outcome.losses (by omega),
        hzero projection.projectedComponents (by omega), hzero outcome.gains (by omega),
        VectorStateV1.component, hzero s.components rfl]
      simp
  refine ⟨⟨⟨rfl, rfl, rfl, rfl, (certifyState_ok hcertification).1⟩, hversion,
    freshlyCertified_of hcertification rfl rfl⟩, ⟨hlength, fun i => (hall i).1,
    fun i => (hall i).2, ?_⟩, rfl⟩
  exact ⟨_, rfl, rfl, by simp⟩

/-- Settling needs a projection. -/
theorem reconstructNext_projection {now : ℕ → UInt64} {outcome : SettlementOutcome}
    {s after : VectorStateV1} (h : reconstructNext env now outcome s = .ok after) :
    ∃ projection, s.projection = some projection := by
  simp only [reconstructNext, reconstructVector, Outcome.bind_eq_ok_iff,
    Outcome.okOr_eq_ok_iff] at h
  obtain ⟨_, ⟨projection, hprojection, _⟩, _⟩ := h
  exact ⟨projection, hprojection⟩

/-! ## Transfer -/

/-- What a transfer does to the two states it was given. -/
structure Transfers (amount : List U128) (sender receiver afterFrom afterTo : VectorStateV1) :
    Prop where
  same_from : SameVector sender afterFrom
  same_to : SameVector receiver afterTo
  version_from : afterFrom.version = sender.version
  version_to : afterTo.version = receiver.version
  projection_from : afterFrom.projection = sender.projection
  projection_to : afterTo.projection = receiver.projection
  length_from : afterFrom.components.length = sender.components.length
  length_to : afterTo.components.length = receiver.components.length
  covered : ∀ i, amountAt amount i ≤ sender.component i
  component_from : ∀ i, afterFrom.component i = sender.component i - amountAt amount i
  component_to : ∀ i, afterTo.component i =
    min (receiver.component i + amountAt amount i) u128Max
  certified_from : FreshlyCertified afterFrom
  certified_to : FreshlyCertified afterTo

theorem transferNext_canonical {now : ℕ → UInt64} {amount : List U128}
    {sender receiver afterFrom afterTo : VectorStateV1}
    (h : transferNext env now amount sender receiver = .ok (afterFrom, afterTo)) :
    CanonicalState afterFrom ∧ CanonicalState afterTo := by
  simp only [transferNext, Outcome.bind_eq_ok_iff, validateState_eq_ok_iff] at h
  obtain ⟨_, _, _, _, _, _, _, hfrom, _, hto, heq⟩ := h
  obtain ⟨rfl, rfl⟩ := Prod.mk.inj (Except.ok.inj heq)
  exact ⟨hfrom, hto⟩

theorem transferNext_ok {now : ℕ → UInt64} {amount : List U128}
    {sender receiver afterFrom afterTo : VectorStateV1}
    (h : transferNext env now amount sender receiver = .ok (afterFrom, afterTo)) :
    Transfers amount sender receiver afterFrom afterTo := by
  simp only [transferNext, transferComponents, VectorStateV1.ensureSameShape,
    Outcome.bind_eq_ok_iff, Outcome.require_eq_ok_iff] at h
  obtain ⟨⟨midFrom, midTo⟩, ⟨_, hshape, _, hlength, _, hcovered, hmid⟩, senderCert, hsenderCert,
    receiverCert, hreceiverCert, _, _, _, _, hafter⟩ := h
  obtain ⟨rfl, rfl⟩ := Prod.mk.inj (Except.ok.inj hmid)
  obtain ⟨rfl, rfl⟩ := Prod.mk.inj (Except.ok.inj hafter)
  refine {
    same_from := ⟨rfl, rfl, rfl, rfl, (certifyState_ok hsenderCert).1⟩
    same_to := ⟨rfl, rfl, rfl, rfl, (certifyState_ok hreceiverCert).1⟩
    version_from := rfl
    version_to := rfl
    projection_from := rfl
    projection_to := rfl
    length_from := by simp [hlength]
    length_to := by simp [← hshape, hlength]
    covered := amountAt_le_of_zip hlength.symm (by simpa using hcovered)
    component_from := ?_
    component_to := ?_
    certified_from := freshlyCertified_of hsenderCert rfl rfl
    certified_to := freshlyCertified_of hreceiverCert rfl rfl }
  · intro i
    have hget := getD_map_zip hlength (fun ca => saturatingSub ca.1 ca.2) (by decide) i
    simp only [VectorStateV1.component, amountAt, hget, toNat_saturatingSub]
  · intro i
    have hget := getD_map_zip (hshape.symm.trans hlength)
      (fun ca => saturatingAdd ca.1 ca.2) (by decide) i
    simp only [VectorStateV1.component, amountAt, hget, toNat_saturatingAdd]

/-! ## Creation -/

/-- A newly created vector. -/
structure Created (now : ℕ → UInt64) (request : OriginRequest) (s : VectorStateV1) : Prop where
  vectorId : s.vectorId = request.vectorId
  ownerPubkey : s.ownerPubkey = request.ownerPubkey
  spaceId : s.spaceId = request.spaceId
  components : s.components = request.components
  typeMetadata : s.typeMetadata = ∅
  threshold : s.certification.threshold = 700
  projection : s.projection = none
  version : s.version = 1
  createdAtMs : s.createdAtMs = now 0
  certified : FreshlyCertified s

theorem originState_canonical {now : ℕ → UInt64} {request : OriginRequest} {s : VectorStateV1}
    (h : originState env now request = .ok s) : CanonicalState s := by
  simp only [originState, Outcome.bind_eq_ok_iff, validateState_eq_ok_iff] at h
  obtain ⟨_, _, _, _, _, _, _, hcanonical, hs⟩ := h
  obtain rfl := Except.ok.inj hs
  exact hcanonical

theorem originState_ok {now : ℕ → UInt64} {request : OriginRequest} {s : VectorStateV1}
    (h : originState env now request = .ok s) : Created now request s := by
  simp only [originState, createOriginVector, Outcome.bind_eq_ok_iff] at h
  obtain ⟨mid, ⟨_, _, hmid⟩, _, _, certification, hcertification, _, _, hs⟩ := h
  obtain rfl := Except.ok.inj hmid
  obtain rfl := Except.ok.inj hs
  exact {
    vectorId := rfl
    ownerPubkey := rfl
    spaceId := rfl
    components := rfl
    typeMetadata := rfl
    threshold := (certifyState_ok hcertification).1
    projection := rfl
    version := rfl
    createdAtMs := rfl
    certified := freshlyCertified_of hcertification rfl rfl }

/-! ## Sound states -/

/-- A state as the engine stores it: checked, with the default threshold, no type metadata,
and a projection of its own shape if any. -/
structure SoundState (s : VectorStateV1) : Prop where
  canonical : CanonicalState s
  threshold : s.certification.threshold = 700
  typeMetadata : s.typeMetadata = ∅
  shape : ∀ projection, s.projection = some projection →
    projection.projectedComponents.length = s.components.length

theorem SoundState.of_same {s after : VectorStateV1} (h : SoundState s)
    (hsame : SameVector s after) (hcanonical : CanonicalState after)
    (hshape : ∀ projection, after.projection = some projection →
      projection.projectedComponents.length = after.components.length) : SoundState after where
  canonical := hcanonical
  threshold := hsame.threshold.trans h.threshold
  typeMetadata := hsame.typeMetadata.trans h.typeMetadata
  shape := hshape

/-- What every operation on one vector makes of a sound state. -/
theorem update_next_ok {now : ℕ → UInt64} {c : Call} {u : Update}
    (hupdate : c.update? env now = some u) {s after : VectorStateV1}
    (h : u.next s = .ok after) (hsound : SoundState s) (hcanonical : CanonicalState after) :
    Advances env s after ∧ SoundState after := by
  cases c with
  | certify vectorId =>
    obtain rfl := Option.some.inj hupdate
    obtain ⟨hadvances, hcomponents, hprojection, _⟩ := certifyNext_ok h
    refine ⟨hadvances, hsound.of_same hadvances.same hcanonical ?_⟩
    rw [hcomponents, hprojection]
    exact hsound.shape
  | drain vectorId basisPoints =>
    obtain rfl := Option.some.inj hupdate
    obtain ⟨hadvances, hlength, hprojection, _⟩ := drainNext_ok h
    refine ⟨hadvances, hsound.of_same hadvances.same hcanonical ?_⟩
    rw [hlength, hprojection]
    exact hsound.shape
  | project vectorId projected escrowId =>
    obtain rfl := Option.some.inj hupdate
    obtain ⟨hadvances, hprojects, _⟩ := projectNext_ok h
    refine ⟨hadvances, hsound.of_same hadvances.same hcanonical ?_⟩
    obtain ⟨projection, hprojection, hprojected, _⟩ := hprojects.projection_eq
    intro projection' hprojection'
    obtain rfl := Option.some.inj (hprojection.symm.trans hprojection')
    rw [hprojected, hprojects.length_eq]
    exact hprojects.shape
  | reconstruct vectorId outcome =>
    obtain rfl := Option.some.inj hupdate
    obtain ⟨projection, hprojection⟩ := reconstructNext_projection h
    have hshape := hsound.shape projection hprojection
    obtain ⟨hadvances, hsettles, _⟩ := reconstructNext_ok hprojection hshape h
    refine ⟨hadvances, hsound.of_same hadvances.same hcanonical ?_⟩
    obtain ⟨settled, hsettled, hprojected, _⟩ := hsettles.projection_eq
    intro projection' hprojection'
    obtain rfl := Option.some.inj (hsettled.symm.trans hprojection')
    rw [hprojected, hsettles.length_eq]
    exact hshape
  | originCreate _ => cases hupdate
  | transfer _ _ _ => cases hupdate
  | createRegion _ _ => cases hupdate

theorem Transfers.sound {amount : List U128} {sender receiver afterFrom afterTo : VectorStateV1}
    (h : Transfers amount sender receiver afterFrom afterTo) (hsender : SoundState sender)
    (hreceiver : SoundState receiver) (hfrom : CanonicalState afterFrom)
    (hto : CanonicalState afterTo) : SoundState afterFrom ∧ SoundState afterTo := by
  refine ⟨hsender.of_same h.same_from hfrom ?_, hreceiver.of_same h.same_to hto ?_⟩
  · rw [h.projection_from, h.length_from]
    exact hsender.shape
  · rw [h.projection_to, h.length_to]
    exact hreceiver.shape

theorem Created.sound {now : ℕ → UInt64} {request : OriginRequest} {s : VectorStateV1}
    (h : Created now request s) (hcanonical : CanonicalState s) : SoundState s where
  canonical := hcanonical
  threshold := h.threshold
  typeMetadata := h.typeMetadata
  shape := by
    intro projection hprojection
    rw [h.projection] at hprojection
    cases hprojection

/-! ## Region creation -/

theorem buildRegionGenesisEvent_parents {request : RegionCreateRequest}
    {actorPublicKey : String} {clock timestamp sequence : UInt64} {e : VectorEvent}
    (h : buildRegionGenesisEvent env request actorPublicKey clock timestamp sequence = .ok e) :
    e.parentHashes = [] := by
  simp only [buildRegionGenesisEvent, Outcome.bind_eq_ok_iff] at h
  obtain ⟨_, _, he⟩ := h
  obtain rfl := Except.ok.inj he
  rfl

theorem buildRegionGenesisEvent_operation {request : RegionCreateRequest}
    {actorPublicKey : String} {clock timestamp sequence : UInt64} {e : VectorEvent}
    (h : buildRegionGenesisEvent env request actorPublicKey clock timestamp sequence = .ok e) :
    e.operation = regionCreateOperation := by
  simp only [buildRegionGenesisEvent, Outcome.bind_eq_ok_iff] at h
  obtain ⟨_, _, he⟩ := h
  obtain rfl := Except.ok.inj he
  rfl

theorem regionEvent_built {now : ℕ → UInt64} {request : RegionCreateRequest}
    {actorPublicKey : String} {eng : KernelEngine} {e : VectorEvent}
    (h : regionEvent env now request actorPublicKey eng = .ok e) :
    buildRegionGenesisEvent env request actorPublicKey eng.nextLogicalClock (now 0) 1 = .ok e := by
  simp only [regionEvent, Outcome.bind_eq_ok_iff] at h
  obtain ⟨_, _, _, _, _, _, _, _, _, _, e', he', _, _, _, _, heq⟩ := h
  obtain rfl := Except.ok.inj heq
  exact he'

end VKernelX
