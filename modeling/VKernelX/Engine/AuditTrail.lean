/-
  Engine/AuditTrail.lean --- the records as an audit trail.

  A record holds the state before an operation, the operation's name and its parameters.  That
  is enough to work out the amounts after it: an auditor who has nothing but the record gets
  the amounts the record says were stored.  Creations are the records without a state before.
-/
import VKernelX.Engine.Certification
import VKernelX.Engine.RecordProofs

set_option autoImplicit false

namespace VKernelX

/-! ## The auditor -/

/-- A list of amounts read back from a record's parameters. -/
def amountsOf : Value → Option (List U128)
  | .array items => items.mapM (fun item =>
      match item with
      | .number (.posInt n) => some (BitVec.ofNat 128 n.toNat)
      | _ => none)
  | _ => none

/-- Take amounts away, each from its component. -/
def debited (components amount : List U128) : List U128 :=
  (components.zip amount).map (fun ca => saturatingSub ca.1 ca.2)

/-- Add amounts, each to its component. -/
def credited (components amount : List U128) : List U128 :=
  (components.zip amount).map (fun ca => saturatingAdd ca.1 ca.2)

/-- What a settlement leaves of the components of a vector with a projection. -/
def settledComponents (before : VectorStateV1) (gains losses : List U128) :
    Option (List U128) := do
  let projection ← before.projection
  match settleLoop 0 ((projection.projectedComponents.zip gains).zip losses)
    before.components [] with
  | .ok (restored, _) => some restored
  | .error _ => none

theorem settledComponents_eq {before : VectorStateV1} {projection : ProjectionState}
    {gains losses restored settled : List U128} (hprojection : before.projection = some projection)
    (h : settleLoop 0 ((projection.projectedComponents.zip gains).zip losses)
      before.components [] = .ok (restored, settled)) :
    settledComponents before gains losses = some restored := by
  simp only [settledComponents, hprojection, h, Option.bind_eq_bind, Option.bind_some]

/-- What a drain leaves of the components. -/
def drainedComponents (before : VectorStateV1) (basisPoints : UInt16) : Option (List U128) :=
  match applyDrain before.components basisPoints before.certification.authRatio
    before.certification.threshold with
  | .ok (_, remaining) => some remaining
  | .error _ => none

/-- The components after an operation, from the state before it and the parameters of its
record alone. -/
def auditComponents (before : VectorStateV1) :
    OperationKind → Value → Option (List U128)
  | .certify, _ => some before.components
  | .drain, .object ((_, .number (.posInt basisPoints)) :: _) =>
      drainedComponents before (UInt16.ofNat basisPoints.toNat)
  | .project, .object [(_, projected)] => (amountsOf projected).map (debited before.components)
  | .reconstruct, .object [(_, gains), (_, losses), _] =>
      (amountsOf gains).bind (fun gained =>
        (amountsOf losses).bind (settledComponents before gained))
  | .transfer, .object [(_, amount), (_, .string direction), _] =>
      (amountsOf amount).map
        (if direction = "out" then debited before.components else credited before.components)
  | _, _ => none

/-- A record that can be audited. -/
structure Auditable (env : Platform) (r : VectorRecordV1) : Prop where
  creation : r.before = none ↔ r.operation = .originCreate
  same : ∀ before, r.before = some before → SameIdentity before r.after
  recomputed : ∀ before, r.before = some before →
    auditComponents before r.operation r.parameters = some r.after.components
  certified : r.certification = r.after.certification ∧ CertifiedState env r.after

/-- Amounts that fit in 64 bits are read back as they were written. -/
theorem amountsOf_u64Values {xs : List U128} (h : ∀ x ∈ xs, x.toNat ≤ u64Max) :
    amountsOf (u64Values xs) = some xs := by
  rw [u64Values, amountsOf]
  induction xs with
  | nil => rfl
  | cons x xs ih =>
    obtain ⟨hx, hxs⟩ := List.forall_mem_cons.mp h
    have hback : BitVec.ofNat 128 (UInt64.ofNat x.toNat).toNat = x := by
      rw [UInt64.toNat_ofNat', Nat.mod_eq_of_lt (by simp only [u64Max] at hx; omega)]
      exact BitVec.ofNat_toNat 128 x
    rw [List.map_cons, List.mapM_cons, ih hxs]
    show (some (BitVec.ofNat 128 (UInt64.ofNat x.toNat).toNat) >>= fun a => some (a :: xs)) = _
    rw [hback]
    rfl

section

variable {env : Platform}

/-! ## The records of the operations -/

/-- What the audit of an operation's record needs: whom it is about and what comes out. -/
structure Audits (r : VectorRecordV1) (before after : VectorStateV1) : Prop where
  before_eq : r.before = some before
  after_eq : r.after = after
  operation_ne : r.operation ≠ .originCreate
  recomputed : auditComponents before r.operation r.parameters = some after.components

theorem audits_update {now : ℕ → UInt64} {c : Call} {u : Update} {before after : VectorStateV1}
    {r : VectorRecordV1} (hupdate : c.update? env now = some u)
    (hnext : u.next before = .ok after) (hrecord : u.record before after = .ok r) :
    Audits r before after := by
  cases c with
  | certify vectorId =>
    obtain rfl := Option.some.inj hupdate
    obtain rfl := Except.ok.inj hrecord
    obtain ⟨_, hcomponents, _⟩ := certifyNext_ok hnext
    exact ⟨rfl, rfl, OperationKind.noConfusion, congrArg some hcomponents.symm⟩
  | drain vectorId basisPoints =>
    obtain rfl := Option.some.inj hupdate
    obtain ⟨drained, hdrain⟩ := drainNext_components hnext
    simp only [drainRecord, Outcome.bind_eq_ok_iff] at hrecord
    obtain ⟨_, _, hr⟩ := hrecord
    obtain rfl := Except.ok.inj hr
    refine ⟨rfl, rfl, OperationKind.noConfusion, ?_⟩
    have hrate : UInt16.ofNat (UInt64.ofNat basisPoints.toNat).toNat = basisPoints := by
      have := basisPoints.toNat_lt
      rw [UInt64.toNat_ofNat', Nat.mod_eq_of_lt (by omega)]
      exact UInt16.ofNat_toNat
    show drainedComponents before (UInt16.ofNat (UInt64.ofNat basisPoints.toNat).toNat) = _
    rw [hrate, drainedComponents, hdrain]
  | project vectorId projected escrowId =>
    obtain rfl := Option.some.inj hupdate
    simp only [projectRecord, Outcome.bind_eq_ok_iff] at hrecord
    obtain ⟨amounts, hamounts, hr⟩ := hrecord
    obtain rfl := Except.ok.inj hr
    have hfit := le_u64Max_of_ofU128s hamounts
    obtain rfl := eq_u64Values_of_ofU128s hamounts
    simp only [projectNext, projectVector, Outcome.bind_eq_ok_iff] at hnext
    obtain ⟨_, ⟨_, _, _, _, _, _, hmid⟩, _, _, hafter⟩ := hnext
    obtain rfl := Except.ok.inj hmid
    obtain rfl := Except.ok.inj hafter
    refine ⟨rfl, rfl, OperationKind.noConfusion, ?_⟩
    show (amountsOf (u64Values projected)).map (debited before.components) = _
    rw [amountsOf_u64Values hfit]
    rfl
  | reconstruct vectorId outcome =>
    obtain rfl := Option.some.inj hupdate
    simp only [reconstructRecord, Outcome.bind_eq_ok_iff] at hrecord
    obtain ⟨gains, hgains, losses, hlosses, hr⟩ := hrecord
    obtain rfl := Except.ok.inj hr
    have hfitGains := le_u64Max_of_ofU128s hgains
    have hfitLosses := le_u64Max_of_ofU128s hlosses
    obtain rfl := eq_u64Values_of_ofU128s hgains
    obtain rfl := eq_u64Values_of_ofU128s hlosses
    simp only [reconstructNext, reconstructVector, Outcome.bind_eq_ok_iff,
      Outcome.okOr_eq_ok_iff] at hnext
    obtain ⟨_, ⟨projection, hprojection, _, _, ⟨restored, settled⟩, hloop, _, _, hmid⟩, _, _,
      hafter⟩ := hnext
    obtain rfl := Except.ok.inj hmid
    obtain rfl := Except.ok.inj hafter
    refine ⟨rfl, rfl, OperationKind.noConfusion, ?_⟩
    show (amountsOf (u64Values outcome.gains)).bind (fun gained =>
      (amountsOf (u64Values outcome.losses)).bind (settledComponents before gained)) = _
    rw [amountsOf_u64Values hfitGains, amountsOf_u64Values hfitLosses]
    exact settledComponents_eq hprojection hloop
  | originCreate _ => cases hupdate
  | transfer _ _ _ => cases hupdate
  | createRegion _ _ => cases hupdate

theorem audits_transferSide {direction : String} {before after : VectorStateV1}
    {amount : List U128} {nowMs : UInt64} {r : VectorRecordV1}
    (h : transferSideRecord env direction before after amount nowMs = .ok r)
    (hcomponents : after.components = if direction = "out" then debited before.components amount
      else credited before.components amount) (certification : CertificationState) :
    Audits { r with certification := certification } before after := by
  simp only [transferSideRecord, transferParams, Outcome.bind_eq_ok_iff] at h
  obtain ⟨params, ⟨amounts, hamounts, hparams⟩, hr⟩ := h
  obtain rfl := Except.ok.inj hparams
  obtain rfl := Except.ok.inj hr
  have hfit := le_u64Max_of_ofU128s hamounts
  obtain rfl := eq_u64Values_of_ofU128s hamounts
  refine ⟨rfl, rfl, OperationKind.noConfusion, ?_⟩
  show (amountsOf (u64Values amount)).map (if direction = "out" then debited before.components
    else credited before.components) = _
  rw [amountsOf_u64Values hfit, hcomponents]
  split <;> rfl

theorem transferNext_components {now : ℕ → UInt64} {amount : List U128}
    {sender receiver afterFrom afterTo : VectorStateV1}
    (h : transferNext env now amount sender receiver = .ok (afterFrom, afterTo)) :
    afterFrom.components = debited sender.components amount ∧
      afterTo.components = credited receiver.components amount := by
  simp only [transferNext, transferComponents, Outcome.bind_eq_ok_iff] at h
  obtain ⟨⟨_, _⟩, ⟨_, _, _, _, _, _, hmid⟩, _, _, _, _, _, _, _, _, hafter⟩ := h
  obtain ⟨rfl, rfl⟩ := Prod.mk.inj (Except.ok.inj hmid)
  obtain ⟨rfl, rfl⟩ := Prod.mk.inj (Except.ok.inj hafter)
  exact ⟨rfl, rfl⟩

/-- The record of an operation on a stored vector, with the certification of the new state. -/
theorem Auditable.of_audits {r : VectorRecordV1} {before after : VectorStateV1}
    (h : Audits r before after) (hidentity : SameIdentity before after)
    (hcertified : CertifiedState env after)
    (hcertification : r.certification = after.certification) : Auditable env r where
  creation := by
    rw [h.before_eq]
    exact ⟨fun hnone => absurd hnone (by simp), fun horigin => absurd horigin h.operation_ne⟩
  same := by
    intro before' hbefore'
    obtain rfl := Option.some.inj (h.before_eq.symm.trans hbefore')
    rw [h.after_eq]
    exact hidentity
  recomputed := by
    intro before' hbefore'
    obtain rfl := Option.some.inj (h.before_eq.symm.trans hbefore')
    rw [h.after_eq]
    exact h.recomputed
  certified := by
    rw [h.after_eq]
    exact ⟨hcertification, hcertified⟩

theorem OfferedBy.auditable {eng : KernelEngine} {now : ℕ → UInt64} {c : Call}
    {rs : List VectorRecordV1} (hsound : SoundStates eng.store)
    (h : OfferedBy env eng now c rs) : ∀ r ∈ rs, Auditable env r := by
  cases h with
  | none => exact List.forall_mem_nil _
  | update hupdate hplan hrecord =>
    obtain ⟨hbefore, hnext, hcanonical⟩ := Update.plan_eq_ok_iff.mp hplan
    have hstate := hsound _ _ hbefore
    have hcertified := (update_next_selfCertified hupdate hnext).certified
      (update_next_ok hupdate hnext hstate hcanonical).2
    exact List.forall_mem_singleton.mpr (.of_audits (audits_update hupdate hnext hrecord)
      (update_next_identity hupdate hnext hstate hcanonical) hcertified
      (update_record_ok hupdate hplan hrecord).2.2)
  | @origin request s hplan =>
    have hcertified := (originState_selfCertified hplan).certified
      ((originState_ok hplan).sound (originState_canonical hplan))
    have hbefore : (originRecord env request.difficulty now s).before = Option.none := rfl
    refine List.forall_mem_singleton.mpr ⟨⟨fun _ => rfl, fun _ => hbefore⟩, ?_, ?_,
      rfl, hcertified⟩
    · intro before h
      rw [hbefore] at h
      cases h
    · intro before h
      rw [hbefore] at h
      cases h
  | transfer hplan hrecords =>
    obtain ⟨hsender, hreceiver, hnext⟩ := transferPlan_eq_ok_iff.mp hplan
    obtain ⟨hfrom, hto⟩ := transferNext_components hnext
    obtain ⟨hsameFrom, hsameTo⟩ := transferNext_identity hnext
    obtain ⟨hselfFrom, hselfTo⟩ := transferNext_selfCertified hnext
    obtain ⟨hcanonicalFrom, hcanonicalTo⟩ := transferNext_canonical hnext
    obtain ⟨hsoundFrom, hsoundTo⟩ := (transferNext_ok hnext).sound (hsound _ _ hsender)
      (hsound _ _ hreceiver) hcanonicalFrom hcanonicalTo
    simp only [TransferPlan.records, transferRecords, transferRecord,
      Outcome.bind_eq_ok_iff] at hrecords
    obtain ⟨⟨sender, receiver⟩, ⟨_, _, _, _, out, hout, inn, hin, hpair⟩, heq⟩ := hrecords
    obtain ⟨rfl, rfl⟩ := Prod.mk.inj (Except.ok.inj hpair)
    obtain ⟨rfl, rfl⟩ := Prod.mk.inj (Except.ok.inj heq)
    exact forall_mem_pair
      (.of_audits (audits_transferSide hout hfrom _) hsameFrom (hselfFrom.certified hsoundFrom) rfl)
      (.of_audits (audits_transferSide hin hto _) hsameTo (hselfTo.certified hsoundTo) rfl)

/-! ## Runs -/

/-- Every stored record has passed the policy and can be audited: from the state before it and
its parameters alone the amounts after it come out. -/
theorem reachable_recordsAuditable {policy : ConsensusPolicy} {eng : KernelEngine}
    (h : ReachableEngine env policy eng) :
    ∀ r ∈ eng.store.listRecords, acceptRecord r policy = true ∧ Auditable env r := by
  have hstored : ∀ (id : String) (r : VectorRecordV1), eng.store.records[id]? = some r →
      acceptRecord r policy = true ∧ Auditable env r := by
    refine Reachable.invariant_of_reachable _ _ (I := fun eng => ∀ (id : String)
      (r : VectorRecordV1), eng.store.records[id]? = some r →
        acceptRecord r policy = true ∧ Auditable env r) ?_ ?_ h
    · intro id r hr
      simp [KernelEngine.initial, MemoryStore.empty] at hr
    · intro eng c hreach hI id r hr
      have hends : CallEnds env eng c.now c.call _ _ := call_ends eng c.now c.call
      obtain ⟨rs, hoffered, hrecords, _⟩ := hends.offered
      rw [engineStep, hrecords] at hr
      rcases BTreeMap.of_lookup_insertMany hr with hr | hr
      · exact hI id r hr
      · obtain ⟨r', hr', heq⟩ := List.mem_map.mp hr
        obtain ⟨rfl, rfl⟩ := Prod.mk.inj heq
        obtain ⟨hmem, haccepted⟩ := List.mem_filter.mp hr'
        rw [ReachableEngine.consensus hreach] at haccepted
        exact ⟨haccepted, hoffered.auditable (ReachableEngine.soundStates hreach) r' hmem⟩
  intro r hr
  obtain ⟨id, hid⟩ := BTreeMap.mem_values.mp hr
  exact hstored id r hid

end

theorem reachable_recordsAuditable_transfer :
    (engineAfter samplePlatform transferredVectors).store.listRecords.length = 4 ∧
      ∀ r ∈ (engineAfter samplePlatform transferredVectors).store.listRecords,
        acceptRecord r ConsensusPolicy.default = true ∧ Auditable samplePlatform r :=
  ⟨by decide +kernel,
    reachable_recordsAuditable (engineAfter_reachable samplePlatform transferredVectors)⟩

end VKernelX
