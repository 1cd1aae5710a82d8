/-
  Engine/Ledger.lean --- when a call's records are new entries of the ledger.

  A record is stored under the hash of operation name, vector id and a discriminator, and
  replaces whatever was stored under it.  The text that is hashed can be read off the record
  itself, so the id of every stored record is known; a call adds its records exactly when no
  stored record was made from the same text.
-/
import VKernelX.Engine.Writes

set_option autoImplicit false

namespace VKernelX

/-! ## Discriminators -/

/-- A list of amounts as `json!` writes it when no amount exceeds 64 bits. -/
def u64Values (xs : List U128) : Value :=
  .array (xs.map (fun x => Value.ofU64 (UInt64.ofNat x.toNat)))

theorem eq_u64Values_of_ofU128s {xs : List U128} {v : Value} (h : Value.ofU128s xs = .ok v) :
    v = u64Values xs := by
  simp only [Value.ofU128s, Outcome.bind_eq_ok_iff] at h
  obtain ⟨items, hitems, hv⟩ := h
  obtain rfl := Except.ok.inj hv
  clear hv
  rw [u64Values]
  congr 1
  induction xs generalizing items with
  | nil => exact (Except.ok.inj hitems).symm
  | cons x xs ih =>
    simp only [List.mapM_cons, Outcome.bind_eq_ok_iff] at hitems
    obtain ⟨w, hw, ws, hws, heq⟩ := hitems
    obtain rfl := Except.ok.inj heq
    rw [List.map_cons, ih ws hws]
    congr 1
    rw [Outcome.unwrap_eq_ok_iff, Option.map_eq_some_iff] at hw
    obtain ⟨n, hn, rfl⟩ := hw
    rw [u64TryFrom_eq_some_iff] at hn
    rw [hn, UInt64.ofNat_toNat]

/-- The parameters of a `drain` record. -/
def drainParams (basisPoints : UInt16) (remaining : List U128) : Value :=
  .object [("basis_points", Value.ofU64 (UInt64.ofNat basisPoints.toNat)),
    ("remaining", u64Values remaining)]

/-- The parameters of a `project` record. -/
def projectParams (projected : List U128) : Value :=
  .object [("projected_components", u64Values projected)]

/-- The parameters of a `reconstruct` record. -/
def reconstructParams (outcome : SettlementOutcome) : Value :=
  .object [("gains", u64Values outcome.gains), ("losses", u64Values outcome.losses),
    ("outcome_tag", .string outcome.outcomeTag)]

/-- The parameters of one side of a `transfer`. -/
def transferSideParams (direction : String) (amount : List U128) (version : UInt64) : Value :=
  .object [("amount", u64Values amount), ("direction", .string direction),
    ("version", Value.ofU64 version)]

/-- The discriminator of a `certify` record. -/
def certifyDiscriminator (version : UInt64) (authRatio : UInt16) : String :=
  "version=" ++ decimal version.toNat ++ ";auth=" ++ decimal authRatio.toNat

/-- The discriminator of an `origin_create` record. -/
def originDiscriminator (difficulty : ℕ) (version : UInt64) : String :=
  "difficulty=" ++ decimal difficulty ++ ";version=" ++ decimal version.toNat

/-! ## The text behind a record id -/

/-- The difficulty in the parameters of an `origin_create` record. -/
def difficultyOf : Value → ℕ
  | .object [(_, .number (.posInt n))] => n.toNat
  | _ => 0

/-- The direction in the parameters of a `transfer` record. -/
def directionOf : Value → String
  | .object [_, (_, .string direction), _] => direction
  | _ => ""

section

variable (env : Platform)

/-- The text a record's id was hashed from, read off the record. -/
def VectorRecordV1.idText (r : VectorRecordV1) : String :=
  match r.operation with
  | .originCreate => recordIdText "origin" r.vectorId
      (originDiscriminator (difficultyOf r.parameters) r.after.version)
  | .certify => recordIdText "certify" r.vectorId
      (certifyDiscriminator r.after.version r.after.certification.authRatio)
  | .transfer => recordIdText ("transfer-" ++ directionOf r.parameters) r.vectorId
      (env.jsonOfValue r.parameters)
  | .drain => recordIdText "drain" r.vectorId (env.jsonOfValue r.parameters)
  | .project => recordIdText "project" r.vectorId (env.jsonOfValue r.parameters)
  | .reconstruct => recordIdText "reconstruct" r.vectorId (env.jsonOfValue r.parameters)
  | _ => ""

/-- The id of a record is the hash of its text. -/
def VectorRecordV1.IdDerived (r : VectorRecordV1) : Prop :=
  r.recordId = env.blake3Hex (strBytes (r.idText env))

/-- The auth ratio certification finds for a state. -/
def authRatioOf (s : VectorStateV1) : UInt16 :=
  match computeAuthRatio env s true true with
  | .ok ratio => ratio
  | .error _ => 0

/-- What a drain leaves of the components. -/
def drainRemaining (basisPoints : UInt16) (s : VectorStateV1) : List U128 :=
  match applyDrain s.components basisPoints s.certification.authRatio
    s.certification.threshold with
  | .ok (_, remaining) => remaining
  | .error _ => []

/-- The texts from which a call on an engine derives the ids of its records: operation name,
vector id and discriminator. -/
def Call.recordTexts (eng : KernelEngine) : Call → List String
  | .originCreate request => [recordIdText "origin" request.vectorId
      (originDiscriminator request.difficulty.toNat 1)]
  | .certify vectorId => (eng.store.getState vectorId).toList.map (fun s =>
      recordIdText "certify" vectorId (certifyDiscriminator (s.version + 1) (authRatioOf env s)))
  | .transfer fromId toId amount =>
      (eng.store.getState fromId).toList.map (fun s => recordIdText "transfer-out" fromId
        (env.jsonOfValue (transferSideParams "out" amount s.version))) ++
      (eng.store.getState toId).toList.map (fun s => recordIdText "transfer-in" toId
        (env.jsonOfValue (transferSideParams "in" amount s.version)))
  | .drain vectorId basisPoints => (eng.store.getState vectorId).toList.map (fun s =>
      recordIdText "drain" vectorId
        (env.jsonOfValue (drainParams basisPoints (drainRemaining basisPoints s))))
  | .project vectorId projected _ => [recordIdText "project" vectorId
      (env.jsonOfValue (projectParams projected))]
  | .reconstruct vectorId outcome => [recordIdText "reconstruct" vectorId
      (env.jsonOfValue (reconstructParams outcome))]
  | .createRegion _ _ => []

end

/-- The number of records of a call that goes through. -/
def Call.recordCount : Call → ℕ
  | .transfer _ _ _ => 2
  | .createRegion _ _ => 0
  | _ => 1

section

variable {env : Platform}

/-! ## Records of calls that go through -/

theorem u64Succ_eq {n m : UInt64} (h : u64Succ (ε := KernelXError) env.overflowChecks n = .ok m) :
    m = n + 1 := by
  unfold u64Succ at h
  split at h
  · exact (Except.ok.inj h).symm
  · rename_i hmax
    split at h
    · cases h
    · obtain rfl := Except.ok.inj h
      have := n.toNat_lt
      apply UInt64.toNat_inj.mp
      rw [UInt64.toNat_add, UInt64.toNat_one, UInt64.toNat_zero]
      omega

/-- The ratio of a certification is that of the certified state's amounts. -/
theorem authRatio_certifyState {s : VectorStateV1} {nowMs : UInt64}
    {certification : CertificationState}
    (h : certifyState env s true true nowMs = .ok certification) :
    certification.authRatio = authRatioOf env s := by
  simp only [certifyState, Outcome.bind_eq_ok_iff] at h
  obtain ⟨ratio, hratio, hcertification⟩ := h
  obtain rfl := Except.ok.inj hcertification
  rw [authRatioOf, hratio]

theorem update_recordCount {now : ℕ → UInt64} {c : Call} {u : Update}
    (hupdate : c.update? env now = some u) : c.recordCount = 1 := by
  cases c <;> first | rfl | cases hupdate

/-- The record of an update: its id is derived, its text is the call's, and it carries the
certification of the new state. -/
theorem update_record_ok {eng : KernelEngine} {now : ℕ → UInt64} {c : Call} {u : Update}
    {before after : VectorStateV1} {r : VectorRecordV1} (hupdate : c.update? env now = some u)
    (hplan : u.plan eng = .ok (before, after)) (hrecord : u.record before after = .ok r) :
    r.IdDerived env ∧ [r.idText env] = c.recordTexts env eng ∧
      r.certification = after.certification := by
  obtain ⟨hbefore, hnext, _⟩ := Update.plan_eq_ok_iff.mp hplan
  cases c with
  | certify vectorId =>
    obtain rfl := Option.some.inj hupdate
    obtain rfl := Except.ok.inj hrecord
    simp only [certifyNext, Outcome.bind_eq_ok_iff] at hnext
    obtain ⟨certification, hcertification, version, hversion, hafter⟩ := hnext
    obtain rfl := Except.ok.inj hafter
    refine ⟨rfl, ?_, rfl⟩
    rw [Call.recordTexts, MemoryStore.getState, hbefore]
    show [recordIdText "certify" vectorId
        (certifyDiscriminator version certification.authRatio)] = _
    rw [u64Succ_eq hversion, authRatio_certifyState hcertification]
    rfl
  | drain vectorId basisPoints =>
    obtain rfl := Option.some.inj hupdate
    simp only [drainRecord, Outcome.bind_eq_ok_iff] at hrecord
    obtain ⟨remaining, hremaining, hr⟩ := hrecord
    obtain rfl := Except.ok.inj hr
    obtain rfl := eq_u64Values_of_ofU128s hremaining
    simp only [drainNext, Outcome.bind_eq_ok_iff] at hnext
    obtain ⟨⟨drained, left⟩, hdrain, certification, _, version, _, hafter⟩ := hnext
    obtain rfl := Except.ok.inj hafter
    have hleft : drainRemaining basisPoints before = left := by
      rw [drainRemaining, hdrain]
    refine ⟨rfl, ?_, rfl⟩
    rw [Call.recordTexts, MemoryStore.getState, hbefore, ← hleft]
    rfl
  | project vectorId projected escrowId =>
    obtain rfl := Option.some.inj hupdate
    simp only [projectRecord, Outcome.bind_eq_ok_iff] at hrecord
    obtain ⟨amounts, hamounts, hr⟩ := hrecord
    obtain rfl := Except.ok.inj hr
    obtain rfl := eq_u64Values_of_ofU128s hamounts
    exact ⟨rfl, rfl, rfl⟩
  | reconstruct vectorId outcome =>
    obtain rfl := Option.some.inj hupdate
    simp only [reconstructRecord, Outcome.bind_eq_ok_iff] at hrecord
    obtain ⟨gains, hgains, losses, hlosses, hr⟩ := hrecord
    obtain rfl := Except.ok.inj hr
    obtain rfl := eq_u64Values_of_ofU128s hgains
    obtain rfl := eq_u64Values_of_ofU128s hlosses
    exact ⟨rfl, rfl, rfl⟩
  | originCreate _ => cases hupdate
  | transfer _ _ _ => cases hupdate
  | createRegion _ _ => cases hupdate

/-- The record of a creation. -/
theorem originRecord_ok (eng : KernelEngine) {now : ℕ → UInt64} {request : OriginRequest}
    {s : VectorStateV1} (h : originState env now request = .ok s) :
    (originRecord env request.difficulty now s).IdDerived env ∧
      [(originRecord env request.difficulty now s).idText env] =
        (Call.originCreate request).recordTexts env eng ∧
      (originRecord env request.difficulty now s).certification = s.certification := by
  have hcreated := originState_ok h
  have htext : (originRecord env request.difficulty now s).idText env =
      recordIdText "origin" s.vectorId
        (originDiscriminator request.difficulty.toNat s.version) := by
    show recordIdText "origin" s.vectorId (originDiscriminator
      (UInt64.ofNat request.difficulty.toNat).toNat s.version) = _
    have hsmall := request.difficulty.toNat_lt
    rw [UInt64.toNat_ofNat', Nat.mod_eq_of_lt (by omega)]
  refine ⟨?_, ?_, rfl⟩
  · rw [VectorRecordV1.IdDerived, htext]
    rfl
  · rw [htext, hcreated.vectorId, hcreated.version]
    rfl

/-- One side's record of a transfer. -/
theorem transferSideRecord_ok {direction : String} {before after : VectorStateV1}
    {amount : List U128} {nowMs : UInt64} {r : VectorRecordV1}
    (h : transferSideRecord env direction before after amount nowMs = .ok r)
    (certification : CertificationState) :
    VectorRecordV1.IdDerived env { r with certification := certification } ∧
      VectorRecordV1.idText env { r with certification := certification } =
        recordIdText ("transfer-" ++ direction) after.vectorId
          (env.jsonOfValue (transferSideParams direction amount after.version)) := by
  simp only [transferSideRecord, transferParams, Outcome.bind_eq_ok_iff] at h
  obtain ⟨params, ⟨amounts, hamounts, hparams⟩, hr⟩ := h
  obtain rfl := Except.ok.inj hparams
  obtain rfl := Except.ok.inj hr
  obtain rfl := eq_u64Values_of_ofU128s hamounts
  exact ⟨rfl, rfl⟩

/-- The two records of a transfer. -/
theorem transfer_records_ok {eng : KernelEngine} (hkeyed : WellKeyed eng.store)
    {now : ℕ → UInt64} {fromId toId : String} {amount : List U128} {plan : TransferPlan}
    {sr rr : VectorRecordV1} (hplan : transferPlan env eng now fromId toId amount = .ok plan)
    (hrecords : plan.records env now amount = .ok (sr, rr)) :
    (sr.IdDerived env ∧ rr.IdDerived env) ∧
      [sr.idText env, rr.idText env] = (Call.transfer fromId toId amount).recordTexts env eng ∧
      sr.certification = plan.afterFrom.certification ∧
      rr.certification = plan.afterTo.certification := by
  obtain ⟨hsender, hreceiver, hnext⟩ := transferPlan_eq_ok_iff.mp hplan
  have htransfers := transferNext_ok hnext
  simp only [TransferPlan.records, transferRecords, transferRecord,
    Outcome.bind_eq_ok_iff] at hrecords
  obtain ⟨⟨sender, receiver⟩, ⟨_, _, _, _, out, hout, inn, hin, hpair⟩, heq⟩ := hrecords
  obtain ⟨rfl, rfl⟩ := Prod.mk.inj (Except.ok.inj hpair)
  obtain ⟨rfl, rfl⟩ := Prod.mk.inj (Except.ok.inj heq)
  obtain ⟨hderivedOut, htextOut⟩ := transferSideRecord_ok hout plan.afterFrom.certification
  obtain ⟨hderivedIn, htextIn⟩ := transferSideRecord_ok hin plan.afterTo.certification
  refine ⟨⟨hderivedOut, hderivedIn⟩, ?_, rfl, rfl⟩
  rw [Call.recordTexts, MemoryStore.getState, MemoryStore.getState, hsender, hreceiver]
  simp only [htextOut, htextIn, htransfers.same_from.vectorId, htransfers.same_to.vectorId,
    htransfers.version_from, htransfers.version_to, (hkeyed.states _ _ hsender).1,
    (hkeyed.states _ _ hreceiver).1]
  rfl

/-! ## What a call makes of the ledger -/

/-- The entries a policy makes of the records it is offered. -/
def acceptedEntries (policy : ConsensusPolicy) (rs : List VectorRecordV1) :
    List (String × VectorRecordV1) :=
  (rs.filter (fun r => acceptRecord r policy)).map (fun r => (r.recordId, r))

theorem records_withRecord_eq (eng : KernelEngine) (r : VectorRecordV1) :
    (eng.withRecord r).store.records =
      BTreeMap.insertMany eng.store.records (acceptedEntries eng.consensus [r]) := by
  rw [KernelEngine.records_withRecord, acceptedEntries]
  by_cases h : acceptRecord r eng.consensus = true
  · simp [h]
  · simp [h]

theorem records_withRecord_withRecord (eng : KernelEngine) (r r' : VectorRecordV1) :
    ((eng.withRecord r).withRecord r').store.records =
      BTreeMap.insertMany eng.store.records (acceptedEntries eng.consensus [r, r']) := by
  rw [records_withRecord_eq, records_withRecord_eq, KernelEngine.consensus_withRecord,
    BTreeMap.insertMany, BTreeMap.insertMany, BTreeMap.insertMany, ← List.foldl_append,
    acceptedEntries, acceptedEntries, acceptedEntries, ← List.map_append, ← List.filter_append]
  rfl

/-- A record of a state the engine has just certified. -/
def Certifies (r : VectorRecordV1) : Prop :=
  ∃ s, FreshlyCertified s ∧ SoundState s ∧ r.certification = s.certification

/-- The default policy accepts a record of a certified state. -/
theorem Certifies.accepted {r : VectorRecordV1} (h : Certifies r) :
    acceptRecord r ConsensusPolicy.default = true := by
  obtain ⟨s, hcertified, hsound, hr⟩ := h
  have hratio := hcertified.ratio hsound.canonical.components
  have hflag : s.certification.certified = true := by
    rw [hcertified.certified, hsound.threshold, decide_eq_true hratio]
  rw [acceptRecord, hr, hflag]
  exact decide_eq_true hratio

/-- What a call that ended some way has made of the ledger: it offered records with derived
ids, and if it returned `Ok`, these are the records of its texts. -/
structure Offers (env : Platform) (eng : KernelEngine) (c : Call) (ok : Prop)
    (rs : List VectorRecordV1) (records : BTreeMap String VectorRecordV1) : Prop where
  derived : ∀ r ∈ rs, r.IdDerived env
  records_eq : records =
    BTreeMap.insertMany eng.store.records (acceptedEntries eng.consensus rs)
  complete : ok → rs.map (VectorRecordV1.idText env) = c.recordTexts env eng ∧
    rs.length = c.recordCount ∧ ∀ r ∈ rs, Certifies r

theorem forall_mem_pair {α : Type} {P : α → Prop} {a b : α} (ha : P a) (hb : P b) :
    ∀ x ∈ [a, b], P x :=
  List.forall_mem_cons.mpr ⟨ha, List.forall_mem_singleton.mpr hb⟩

/-- The records a call offers to the policy: none, or all of its own. -/
inductive OfferedBy (env : Platform) (eng : KernelEngine) (now : ℕ → UInt64) :
    Call → List VectorRecordV1 → Prop where
  | none (c : Call) : OfferedBy env eng now c []
  | update {c : Call} {u : Update} {before after : VectorStateV1} {r : VectorRecordV1}
      (hupdate : c.update? env now = some u) (hplan : u.plan eng = .ok (before, after))
      (hrecord : u.record before after = .ok r) : OfferedBy env eng now c [r]
  | origin {request : OriginRequest} {s : VectorStateV1}
      (hplan : originState env now request = .ok s) :
      OfferedBy env eng now (.originCreate request) [originRecord env request.difficulty now s]
  | transfer {fromId toId : String} {amount : List U128} {plan : TransferPlan}
      {sr rr : VectorRecordV1} (hplan : transferPlan env eng now fromId toId amount = .ok plan)
      (hrecords : plan.records env now amount = .ok (sr, rr)) :
      OfferedBy env eng now (.transfer fromId toId amount) [sr, rr]

/-- However a call ends, the ledger has got the accepted ones among the records it offered;
a call that returns `Ok` has offered them all. -/
theorem CallEnds.offered {eng eng' : KernelEngine} {now : ℕ → UInt64} {c : Call}
    {r : Outcome KernelXError Reply} (h : CallEnds env eng now c r eng') :
    ∃ rs, OfferedBy env eng now c rs ∧
      eng'.store.records =
        BTreeMap.insertMany eng.store.records (acceptedEntries eng.consensus rs) ∧
      (r.IsOk → rs.length = c.recordCount) := by
  cases h with
  | @update c u _ _ hupdate h =>
    cases h with
    | rejected _ => exact ⟨[], .none c, rfl, fun hok => absurd hok (Outcome.not_isOk_error _)⟩
    | unrecorded before after _ _ =>
      exact ⟨[], .none c, rfl, fun hok => absurd hok (Outcome.not_isOk_error _)⟩
    | unappended before after r hplan hrecord _ =>
      exact ⟨[r], .update hupdate hplan hrecord, records_withRecord_eq _ r,
        fun hok => absurd hok (Outcome.not_isOk_error _)⟩
    | done before after r e hplan hrecord _ =>
      exact ⟨[r], .update hupdate hplan hrecord, records_withRecord_eq _ r,
        fun _ => (update_recordCount hupdate).symm⟩
  | @origin request _ _ h =>
    cases h with
    | rejected _ => exact ⟨[], .none _, rfl, fun hok => absurd hok (Outcome.not_isOk_error _)⟩
    | unappended s hplan _ =>
      exact ⟨_, .origin hplan, records_withRecord_eq _ _,
        fun hok => absurd hok (Outcome.not_isOk_error _)⟩
    | done s e hplan _ =>
      exact ⟨_, .origin hplan, records_withRecord_eq _ _, fun _ => rfl⟩
  | @transfer fromId toId amount _ _ h =>
    cases h with
    | rejected _ => exact ⟨[], .none _, rfl, fun hok => absurd hok (Outcome.not_isOk_error _)⟩
    | unrecorded plan _ _ =>
      exact ⟨[], .none _, rfl, fun hok => absurd hok (Outcome.not_isOk_error _)⟩
    | unappended plan sr rr hplan hrecords _ =>
      exact ⟨_, .transfer hplan hrecords, records_withRecord_withRecord _ sr rr,
        fun hok => absurd hok (Outcome.not_isOk_error _)⟩
    | halfway plan sr rr es hplan hrecords _ _ =>
      exact ⟨_, .transfer hplan hrecords, records_withRecord_withRecord _ sr rr,
        fun hok => absurd hok (Outcome.not_isOk_error _)⟩
    | done plan sr rr es er hplan hrecords _ _ =>
      exact ⟨_, .transfer hplan hrecords, records_withRecord_withRecord _ sr rr, fun _ => rfl⟩
  | region h =>
    refine ⟨[], .none _, ?_, fun _ => rfl⟩
    cases h <;> rfl

theorem OfferedBy.derived {eng : KernelEngine} {now : ℕ → UInt64} {c : Call}
    {rs : List VectorRecordV1} (hkeyed : WellKeyed eng.store)
    (h : OfferedBy env eng now c rs) : ∀ r ∈ rs, r.IdDerived env := by
  cases h with
  | none => exact List.forall_mem_nil _
  | update hupdate hplan hrecord =>
    exact List.forall_mem_singleton.mpr (update_record_ok hupdate hplan hrecord).1
  | origin hplan => exact List.forall_mem_singleton.mpr (originRecord_ok eng hplan).1
  | transfer hplan hrecords =>
    obtain ⟨⟨hsr, hrr⟩, _⟩ := transfer_records_ok hkeyed hplan hrecords
    exact forall_mem_pair hsr hrr

/-- Where a call offers all of its records, they are the records of its texts, and each is of
a state that was just certified. -/
theorem OfferedBy.complete {eng : KernelEngine} {now : ℕ → UInt64} {c : Call}
    {rs : List VectorRecordV1} (hkeyed : WellKeyed eng.store) (hsound : SoundStates eng.store)
    (h : OfferedBy env eng now c rs) (hlength : rs.length = c.recordCount) :
    rs.map (VectorRecordV1.idText env) = c.recordTexts env eng ∧ ∀ r ∈ rs, Certifies r := by
  cases h with
  | none =>
    cases c with
    | createRegion request actorPublicKey => exact ⟨rfl, List.forall_mem_nil _⟩
    | _ => cases hlength
  | update hupdate hplan hrecord =>
    obtain ⟨_, htexts, hcertification⟩ := update_record_ok hupdate hplan hrecord
    obtain ⟨hbefore, hnext, hcanonical⟩ := Update.plan_eq_ok_iff.mp hplan
    obtain ⟨hadvances, hsoundAfter⟩ :=
      update_next_ok hupdate hnext (hsound _ _ hbefore) hcanonical
    exact ⟨htexts, List.forall_mem_singleton.mpr
      ⟨_, hadvances.certified, hsoundAfter, hcertification⟩⟩
  | origin hplan =>
    obtain ⟨_, htexts, hcertification⟩ := originRecord_ok eng hplan
    have hcreated := originState_ok hplan
    exact ⟨htexts, List.forall_mem_singleton.mpr ⟨_, hcreated.certified,
      hcreated.sound (originState_canonical hplan), hcertification⟩⟩
  | transfer hplan hrecords =>
    obtain ⟨_, htexts, hcertFrom, hcertTo⟩ := transfer_records_ok hkeyed hplan hrecords
    obtain ⟨hsender, hreceiver, hnext⟩ := transferPlan_eq_ok_iff.mp hplan
    have htransfers := transferNext_ok hnext
    obtain ⟨hfrom, hto⟩ := transferNext_canonical hnext
    obtain ⟨hsoundFrom, hsoundTo⟩ :=
      htransfers.sound (hsound _ _ hsender) (hsound _ _ hreceiver) hfrom hto
    exact ⟨htexts, forall_mem_pair ⟨_, htransfers.certified_from, hsoundFrom, hcertFrom⟩
      ⟨_, htransfers.certified_to, hsoundTo, hcertTo⟩⟩

theorem CallEnds.offers {eng eng' : KernelEngine} {now : ℕ → UInt64} {c : Call}
    {r : Outcome KernelXError Reply} (hkeyed : WellKeyed eng.store)
    (hsound : SoundStates eng.store) (h : CallEnds env eng now c r eng') :
    ∃ rs, Offers env eng c r.IsOk rs eng'.store.records := by
  obtain ⟨rs, hoffered, hrecords, hlength⟩ := h.offered
  refine ⟨rs, hoffered.derived hkeyed, hrecords, fun hok => ?_⟩
  obtain ⟨htexts, hcertified⟩ := hoffered.complete hkeyed hsound (hlength hok)
  exact ⟨htexts, hlength hok, hcertified⟩

/-! ## Complete ledgers -/

/-- Every record is stored under its id, and the id is derived from the record's text. -/
def IdsDerived (env : Platform) (store : MemoryStore) : Prop :=
  ∀ (id : String) (r : VectorRecordV1), store.records[id]? = some r →
    r.recordId = id ∧ r.IdDerived env

theorem ReachableEngine.idsDerived {policy : ConsensusPolicy} {eng : KernelEngine}
    (h : ReachableEngine env policy eng) : IdsDerived env eng.store := by
  refine Reachable.invariant_of_reachable _ _ (I := fun eng => IdsDerived env eng.store) ?_ ?_ h
  · intro id r hr
    simp [KernelEngine.initial, MemoryStore.empty] at hr
  · intro eng c hreach hI id r hr
    have hends : CallEnds env eng c.now c.call _ _ := call_ends eng c.now c.call
    obtain ⟨rs, hoffers⟩ := hends.offers (ReachableEngine.wellKeyed hreach)
      (ReachableEngine.soundStates hreach)
    rw [engineStep, hoffers.records_eq] at hr
    rcases BTreeMap.of_lookup_insertMany hr with hr | hr
    · exact hI id r hr
    · obtain ⟨r', hr', heq⟩ := List.mem_map.mp hr
      obtain ⟨rfl, rfl⟩ := Prod.mk.inj heq
      exact ⟨rfl, hoffers.derived r' (List.mem_filter.mp hr').1⟩

/-- A call has added its records: the ledger has grown by their number, and every record
stored before is still stored. -/
def RecordsAdded (eng eng' : KernelEngine) (c : Call) : Prop :=
  eng'.store.listRecords.length = eng.store.listRecords.length + c.recordCount ∧
    ∀ (id : String) (r : VectorRecordV1), eng.store.records[id]? = some r →
      eng'.store.records[id]? = some r

/-- The two directions of a transfer have different texts. -/
theorem recordIdText_out_ne_in (fromId toId discriminator discriminator' : String) :
    recordIdText "transfer-out" fromId discriminator ≠
      recordIdText "transfer-in" toId discriminator' := by
  intro h
  have hchar := congrArg (fun s => s.toList[9]?) h
  simp [recordIdText] at hchar

theorem nodup_optionMap {α β : Type} (x : Option α) (f : α → β) : (x.toList.map f).Nodup := by
  cases x <;> simp

theorem recordTexts_nodup (eng : KernelEngine) (c : Call) : (c.recordTexts env eng).Nodup := by
  cases c with
  | certify vectorId => exact nodup_optionMap _ _
  | drain vectorId basisPoints => exact nodup_optionMap _ _
  | transfer fromId toId amount =>
    refine List.nodup_append.mpr ⟨nodup_optionMap _ _, nodup_optionMap _ _, ?_⟩
    intro text hout text' hin heq
    obtain ⟨s, _, rfl⟩ := List.mem_map.mp hout
    obtain ⟨s', _, hs'⟩ := List.mem_map.mp hin
    exact recordIdText_out_ne_in _ _ _ _ (heq.trans hs'.symm)
  | originCreate request => exact List.nodup_singleton _
  | project vectorId projected escrowId => exact List.nodup_singleton _
  | reconstruct vectorId outcome => exact List.nodup_singleton _
  | createRegion request actorPublicKey => exact List.nodup_nil

/-- Under the default policy a call that returned `Ok` has added its records exactly when no
stored record was made from one of the call's texts. -/
theorem records_added_iff (hfree : env.CollisionFree) {eng : KernelEngine}
    (hreach : ReachableEngine env ConsensusPolicy.default eng) {now : ℕ → UInt64} {c : Call}
    (hok : (eng.call env now c).1.IsOk) :
    RecordsAdded eng (eng.call env now c).2 c ↔
      ∀ r ∈ eng.store.listRecords, r.idText env ∉ c.recordTexts env eng := by
  have hends : CallEnds env eng now c _ _ := call_ends eng now c
  obtain ⟨rs, hoffers⟩ := hends.offers hreach.wellKeyed hreach.soundStates
  obtain ⟨htexts, hlength, hcertified⟩ := hoffers.complete hok
  have hderived := hreach.idsDerived
  have hdigest : ∀ {text text' : String},
      env.blake3Hex (strBytes text) = env.blake3Hex (strBytes text') → text = text' :=
    fun h => strBytes_injective (hfree h)
  -- The policy accepts every record, so all of them are inserted.
  have hentries : acceptedEntries eng.consensus rs = rs.map (fun r => (r.recordId, r)) := by
    rw [acceptedEntries, hreach.consensus, List.filter_eq_self.mpr]
    exact fun r hr => (hcertified r hr).accepted
  have hrecords := hoffers.records_eq
  rw [hentries] at hrecords
  have hdistinct : ((rs.map (fun r => (r.recordId, r))).map Prod.fst).Nodup := by
    have hids : (rs.map (fun r => (r.recordId, r))).map Prod.fst =
        (rs.map (VectorRecordV1.idText env)).map (fun text => env.blake3Hex (strBytes text)) := by
      rw [List.map_map, List.map_map]
      exact List.map_congr_left (fun r hr => hoffers.derived r hr)
    rw [hids, htexts]
    exact (recordTexts_nodup eng c).map (fun _ _ => hdigest)
  -- The key of a record is free exactly when no stored record has its text.
  have hfresh : (∀ entry ∈ rs.map (fun r => (r.recordId, r)),
      eng.store.records[entry.1]? = none) ↔
        ∀ r ∈ eng.store.listRecords, r.idText env ∉ c.recordTexts env eng := by
    rw [← htexts]
    constructor
    · intro hnone r hr htext
      obtain ⟨id, hid⟩ := BTreeMap.mem_values.mp hr
      obtain ⟨rfl, hidDerived⟩ := hderived id r hid
      obtain ⟨r', hr', heq⟩ := List.mem_map.mp htext
      have hsame : r'.recordId = r.recordId := by
        rw [hoffers.derived r' hr', hidDerived, heq]
      have hfree' := hnone _ (List.mem_map.mpr ⟨r', hr', rfl⟩)
      rw [hsame, hid] at hfree'
      cases hfree'
    · intro htext entry hentry
      obtain ⟨r, hr, rfl⟩ := List.mem_map.mp hentry
      rw [← Option.not_isSome_iff_eq_none, Option.isSome_iff_exists]
      rintro ⟨r', hr'⟩
      obtain ⟨hid, hidDerived⟩ := hderived _ r' hr'
      refine htext r' (BTreeMap.mem_values.mpr ⟨_, hr'⟩) (List.mem_map.mpr ⟨r, hr, ?_⟩)
      exact hdigest ((hoffers.derived r hr).symm.trans (hid.symm.trans hidDerived))
  rw [← hfresh, RecordsAdded, MemoryStore.listRecords, MemoryStore.listRecords,
    BTreeMap.length_values, BTreeMap.length_values, hrecords, ← hlength]
  constructor
  · rintro ⟨hsize, _⟩
    exact BTreeMap.fresh_of_size_insertMany (by rw [hsize, List.length_map])
  · intro h
    obtain ⟨hsize, hkept⟩ := BTreeMap.insertMany_of_fresh hdistinct h
    rw [List.length_map] at hsize
    exact ⟨hsize, hkept⟩

end

/-- One stored vector whose balance of 5 was drained by 100 basis points, which rounds to
nothing. -/
def drainedVector : List TimedCall := oneVector ++ [callAt 2 (.drain "a" 100)]

/-- A platform for draining it again. -/
abbrev drainPlatform : Platform := platformFor (drainedVector ++ [callAt 3 (.drain "a" 100)])

theorem drainPlatform_collisionFree : drainPlatform.CollisionFree :=
  platformFor_collisionFree _ (by decide +kernel)

theorem records_added_iff_drain :
    RecordsAdded (engineAfter drainPlatform oneVector)
        ((engineAfter drainPlatform oneVector).call drainPlatform (fun _ => 2)
          (.drain "a" 100)).2 (.drain "a" 100) ↔
      ∀ r ∈ (engineAfter drainPlatform oneVector).store.listRecords,
        r.idText drainPlatform ∉
          (Call.drain "a" 100).recordTexts drainPlatform (engineAfter drainPlatform oneVector) :=
  records_added_iff drainPlatform_collisionFree (engineAfter_reachable drainPlatform oneVector)
    (by decide +kernel)

/-- Every call that returns `Ok` adds its records. -/
def LedgerComplete : Prop :=
  ∀ (env : Platform) (eng : KernelEngine), env.CollisionFree →
    ReachableEngine env ConsensusPolicy.default eng → ∀ (now : ℕ → UInt64) (c : Call),
      (eng.call env now c).1.IsOk → RecordsAdded eng (eng.call env now c).2 c

/-- The second drain leaves the same amounts, so its record replaces the first one's. -/
theorem ledgerComplete_fails_on_drain : ¬ LedgerComplete := by
  intro h
  have hrun : ((engineAfter drainPlatform drainedVector).call drainPlatform (fun _ => 3)
      (.drain "a" 100)).1.IsOk ∧
      ((engineAfter drainPlatform drainedVector).call drainPlatform (fun _ => 3)
        (.drain "a" 100)).2.store.listRecords.length =
          (engineAfter drainPlatform drainedVector).store.listRecords.length := by
    decide +kernel
  have hadded := h drainPlatform _ drainPlatform_collisionFree
    (engineAfter_reachable drainPlatform drainedVector) (fun _ => 3) (.drain "a" 100) hrun.1
  have hcount := hadded.1
  rw [hrun.2] at hcount
  exact absurd hcount (by simp [Call.recordCount])

end VKernelX
