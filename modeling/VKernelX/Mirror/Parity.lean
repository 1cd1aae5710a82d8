/-
  Mirror/Parity.lean --- the two kernels in lock step.

  Both kernels start from the same created vectors and are given the same calls.  As long as
  every amount stays below 2^64 they stay in step, up to the first transfer of a positive
  amount from a vector to itself: the mirror leaves that vector as it was, the kernel credits
  it.
-/
import VKernelX.Engine.Conservation
import VKernelX.Mirror.Transfers

set_option autoImplicit false

namespace VKernelX

open Mirror (VectorKernel)

/-! ## Shared calls -/

/-- The calls both kernels know, with the arguments the kernel takes. -/
inductive SharedCall where
  | transfer (fromId toId : String) (amount : List U128)
  | drain (vectorId : String) (basisPoints : UInt16)
  | project (vectorId : String) (projected : List U128) (escrowId : String)
  | reconstruct (vectorId : String) (outcome : SettlementOutcome)

namespace SharedCall

/-- The call as the kernel gets it. -/
def call : SharedCall → Call
  | transfer fromId toId amount => .transfer fromId toId amount
  | drain vectorId basisPoints => .drain vectorId basisPoints
  | project vectorId projected escrowId => .project vectorId projected escrowId
  | reconstruct vectorId outcome => .reconstruct vectorId outcome

/-- The call as the mirror gets it. -/
def mirror (now : ℕ → ℤ) : SharedCall → Mirror.KernelProc Unit
  | transfer fromId toId amount =>
      (fun _ => ()) <$> Mirror.transfer now fromId toId (ints amount)
  | drain vectorId basisPoints => (fun _ => ()) <$> Mirror.drain now vectorId basisPoints.toNat
  | project vectorId projected escrowId =>
      (fun _ => ()) <$> Mirror.project now vectorId (ints projected) escrowId
  | reconstruct vectorId outcome => (fun _ => ()) <$>
      Mirror.reconstruct now vectorId (ints outcome.gains) (ints outcome.losses) outcome.outcomeTag

/-- The amounts among the arguments. -/
def amounts : SharedCall → List U128
  | transfer _ _ amount => amount
  | drain _ _ => []
  | project _ projected _ => projected
  | reconstruct _ outcome => outcome.gains ++ outcome.losses

end SharedCall

/-- A call with what each kernel reads from its clock meanwhile. -/
structure TwinCall where
  call : SharedCall
  now : ℕ → UInt64
  mirrorNow : ℕ → ℤ

/-- The two kernels side by side. -/
structure Twin where
  eng : KernelEngine
  mirror : VectorKernel

section

variable (env : Platform)

/-- The call on the kernel. -/
def Twin.run (t : Twin) (c : TwinCall) : Outcome KernelXError Reply × KernelEngine :=
  t.eng.call env c.now c.call.call

/-- The call on the mirror. -/
def Twin.runMirror (t : Twin) (c : TwinCall) : Outcome Mirror.PyError Unit × VectorKernel :=
  (c.call.mirror c.mirrorNow).exec t.mirror

/-- The call on both. -/
def twinStep (t : Twin) (c : TwinCall) : Twin := ⟨(t.run env c).2, (t.runMirror c).2⟩

end

/-! ## Agreement -/

/-- Both kernels accept, or both reject. -/
inductive SameVerdict : Outcome KernelXError Reply → Outcome Mirror.PyError Unit → Prop where
  | accepted {reply : Reply} : SameVerdict (.ok reply) (.ok ())
  | rejected {e : KernelXError} {e' : Mirror.PyError} :
      SameVerdict (.error (.err e)) (.error (.err e'))

/-- Both kernels hold the same vectors. -/
def SameVectors (t : Twin) : Prop :=
  ∀ id, Option.Rel Mirrored t.eng.store.states[id]? (t.mirror.lookup id)

/-- The kernels decide alike on the call, and hold the same vectors after it. -/
structure Agrees (env : Platform) (t : Twin) (c : TwinCall) : Prop where
  verdict : SameVerdict (t.run env c).1 (t.runMirror c).1
  vectors : SameVectors (twinStep env t c)

/-- Every value of the call stays below 2^64: its arguments, the amounts it leaves in the
mirror, and the numbers of the events it appends. -/
structure ValuesFit (t : Twin) (c : TwinCall) : Prop where
  arguments : ∀ a ∈ c.call.amounts, a.toNat < 2 ^ 64
  vectors : ∀ (id : String) (m : Mirror.VectorStateV1),
    (t.runMirror c).2.lookup id = some m → m.Small
  events : t.eng.store.listEvents.length + 2 < 2 ^ 64

/-- A transfer from a stored vector to itself of an amount that it covers and that is not
zero. -/
inductive SelfTransfer (t : Twin) : SharedCall → Prop where
  | mk {id : String} {amount : List U128} {s : VectorStateV1}
      (hstored : t.eng.store.states[id]? = some s)
      (hlength : amount.length = s.components.length)
      (hcovered : (amount.zip s.components).all (fun ab => ab.1 ≤ ab.2) = true)
      (hamount : ∃ a ∈ amount, a ≠ 0) : SelfTransfer t (.transfer id id amount)

/-! ## Twins -/

/-- Kernels whose vectors were created alike. -/
inductive SameCreated (env : Platform) (policy : ConsensusPolicy) : Twin → Prop where
  | initial : SameCreated env policy ⟨KernelEngine.initial policy, Objects.empty⟩
  /-- Each kernel asks for its own proof of work. -/
  | create {t : Twin} (h : SameCreated env policy t) (now : ℕ → UInt64) (request : OriginRequest)
      (hnames : ShortNames request.vectorId request.spaceId)
      (hdimensions : request.components.length < 2 ^ 64)
      (hok : (t.eng.call env now (.originCreate request)).1.IsOk)
      (sha256Hex : List UInt8 → String) (mirrorNow : ℕ → ℤ) (seed : String)
      (nonce difficulty : ℤ)
      (hmirror : ((Mirror.createOrigin sha256Hex mirrorNow request.vectorId request.ownerPubkey
        request.spaceId (ints request.components) seed nonce difficulty).exec t.mirror).1.IsOk) :
      SameCreated env policy ⟨(t.eng.call env now (.originCreate request)).2,
        ((Mirror.createOrigin sha256Hex mirrorNow request.vectorId request.ownerPubkey
          request.spaceId (ints request.components) seed nonce difficulty).exec t.mirror).2⟩

/-- Kernels in step: what the steps keep. -/
structure Twins (env : Platform) (policy : ConsensusPolicy) (t : Twin) : Prop where
  created : CreatedVectors env policy t.eng
  separate : t.mirror.Separate
  same : SameVectors t
  mirrorStates : ∀ (id : String) (m : Mirror.VectorStateV1), t.mirror.lookup id = some m →
    Mirror.Sound m ∧ m.Small

section

variable {env : Platform} {policy : ConsensusPolicy} {t : Twin}

theorem ValuesFit.arguments_le {c : TwinCall} (h : ValuesFit t c) :
    ∀ a ∈ c.call.amounts, a.toNat ≤ u64Max := by
  intro a ha
  have := h.arguments a ha
  rw [u64Max]
  omega

theorem SameVectors.none_iff (h : SameVectors t) {id : String} :
    t.eng.store.states[id]? = none ↔ t.mirror.lookup id = none := by
  have hrel := h id
  cases hs : t.eng.store.states[id]? <;> cases hm : t.mirror.lookup id <;>
    rw [hs, hm] at hrel <;> simp_all

/-- A vector of the mirror is one of the kernel too. -/
theorem Twins.twin (h : Twins env policy t) (hroom : t.eng.store.listEvents.length + 2 < 2 ^ 64)
    {id : String} {m : Mirror.VectorStateV1} (hm : t.mirror.lookup id = some m) :
    ∃ s, t.eng.store.states[id]? = some s ∧ TwinVector s m := by
  have hrel := h.same id
  rw [hm] at hrel
  cases hs : t.eng.store.states[id]? with
  | none => rw [hs] at hrel; cases hrel
  | some s =>
    rw [hs, Option.rel_some_some] at hrel
    obtain ⟨hsound, hsmall⟩ := h.mirrorStates id m hm
    have hcreated := h.created.states id s hs
    have hcount := eventCount_le t.eng s.vectorId s.spaceId
    have hversion := hcreated.version
    exact ⟨s, rfl, {
      mirrored := hrel
      sound := h.created.reachable.soundStates id s hs
      mirrorSound := hsound
      small := hsmall
      dimensions := hcreated.dimensions
      authRatio := hcreated.authRatio
      version := by omega }⟩

/-! ## Creations -/

theorem originState_status {now : ℕ → UInt64} {request : OriginRequest} {s : VectorStateV1}
    (h : originState env now request = .ok s) : s.status = .active := by
  simp only [originState, createOriginVector, Outcome.bind_eq_ok_iff] at h
  obtain ⟨_, ⟨_, _, hmid⟩, _, _, _, _, _, _, hs⟩ := h
  obtain rfl := Except.ok.inj hmid
  obtain rfl := Except.ok.inj hs
  rfl

theorem twins_initial (env : Platform) (policy : ConsensusPolicy) :
    Twins env policy ⟨KernelEngine.initial policy, Objects.empty⟩ where
  created := createdVectors_initial env policy
  separate := Objects.separate_empty
  same := by
    intro id
    simp [KernelEngine.initial, MemoryStore.empty, Objects.lookup, Objects.empty]
  mirrorStates := by
    intro id m hm
    simp [Objects.lookup, Objects.empty] at hm

/-- A vector created in both kernels is the same in both. -/
theorem Twins.create (h : Twins env policy t) {now : ℕ → UInt64} {request : OriginRequest}
    (hnames : ShortNames request.vectorId request.spaceId)
    (hdimensions : request.components.length < 2 ^ 64)
    (hok : (t.eng.call env now (.originCreate request)).1.IsOk) {origin : Mirror.OriginState}
    (mirrorNow : ℕ → ℤ) :
    Twins env policy ⟨(t.eng.call env now (.originCreate request)).2,
      (t.mirror.alloc (Mirror.certified (mirrorNow 1)
        { Mirror.VectorStateV1.new request.vectorId request.ownerPubkey request.spaceId
            (ints request.components) .origin (mirrorNow 0) with
          origin := some origin })).assign request.vectorId t.mirror.heap.length⟩ := by
  have hcreatedVectors := h.created.origin hok hnames hdimensions
  obtain ⟨s, e, hplan, hevent, hcall⟩ := origin_of_ok hok
  have hcreated := originState_ok hplan
  have hcanonical := originState_canonical hplan
  have hstates : (t.eng.call env now (.originCreate request)).2.store.states =
      t.eng.store.states.insert request.vectorId s := by
    rw [hcall, ← hcreated.vectorId]
    simp
  have hfits : s.FitsEvent := (hcreatedVectors.states request.vectorId s (by
    rw [hstates, BTreeMap.lookup_insert, if_pos rfl])).fits
  refine ⟨hcreatedVectors, h.separate.assign_alloc _ _, fun id => ?_, fun id m hm => ?_⟩
  · simp only [hstates, BTreeMap.lookup_insert, h.separate.lookup_assign_alloc]
    split
    · refine .some ⟨?_, (originState_status hplan).symm, ?_⟩
      · rw [hcreated.components]
        rfl
      · rw [hcreated.projection]
        exact .none
    · exact h.same id
  · rw [h.separate.lookup_assign_alloc] at hm
    split at hm
    · obtain rfl := Option.some.inj hm
      refine ⟨Mirror.sound_certified rfl ?_ ?_ ?_ rfl (mirrorNow 1), ?_⟩
      · rw [← hcreated.vectorId]
        exact hcanonical.vectorId
      · rw [← hcreated.ownerPubkey]
        exact hcanonical.ownerPubkey
      · rw [← hcreated.spaceId]
        exact hcanonical.spaceId
      · intro x hx
        obtain ⟨a, ha, rfl⟩ : ∃ a ∈ request.components, (a.toNat : ℤ) = x := by
          simpa [Mirror.VectorStateV1.amounts, Mirror.certified, Mirror.VectorStateV1.new, ints]
            using hx
        have := hfits a (by rwa [hcreated.components])
        rw [u64Max] at this
        omega
    · exact h.mirrorStates id m hm

/-- Kernels whose vectors were created alike are in step. -/
theorem SameCreated.twins (h : SameCreated env policy t) : Twins env policy t := by
  induction h with
  | initial => exact twins_initial env policy
  | create _ now request hnames hdimensions hok sha256Hex mirrorNow seed nonce difficulty hmirror
      ih =>
    obtain ⟨origin, hmirror'⟩ := Mirror.createOrigin_of_ok hmirror
    rw [hmirror']
    exact ih.create hnames hdimensions hok mirrorNow

/-! ## One step -/

theorem Mirror.small_certified {m : Mirror.VectorStateV1} {now : ℤ} :
    (Mirror.certified now m).Small ↔ m.Small := Iff.rfl

/-- A call that both kernels turn down. -/
theorem Twins.rejected (h : Twins env policy t) {c : TwinCall} {e : KernelXError}
    {e' : Mirror.PyError} (hrun : t.run env c = (.error (.err e), t.eng))
    (hmirror : t.runMirror c = (.error (.err e'), t.mirror)) :
    Agrees env t c ∧ Twins env policy (twinStep env t c) := by
  have hstep : twinStep env t c = t := by rw [twinStep, hrun, hmirror]
  refine ⟨⟨?_, ?_⟩, ?_⟩
  · rw [hrun, hmirror]
    exact .rejected
  · rw [hstep]
    exact h.same
  · rwa [hstep]

/-- A call that both kernels carry out. -/
theorem Twins.accepted {c : TwinCall} (hfit : ValuesFit t c) {reply : Reply} {eng : KernelEngine}
    {k : VectorKernel} (hrun : t.run env c = (.ok reply, eng))
    (hmirror : t.runMirror c = (.ok (), k))
    (hcreated : CreatedVectors env policy eng) (hseparate : k.Separate)
    (hsame : SameVectors ⟨eng, k⟩)
    (hsound : ∀ (id : String) (m : Mirror.VectorStateV1), k.lookup id = some m → Mirror.Sound m) :
    Agrees env t c ∧ Twins env policy (twinStep env t c) := by
  have hstep : twinStep env t c = ⟨eng, k⟩ := by rw [twinStep, hrun, hmirror]
  have hsmall := hfit.vectors
  rw [hmirror] at hsmall
  refine ⟨⟨?_, ?_⟩, ?_⟩
  · rw [hrun, hmirror]
    exact .accepted
  · rw [hstep]
    exact hsame
  · rw [hstep]
    exact ⟨hcreated, hseparate, hsame, fun id m hm => ⟨hsound id m hm, hsmall id m hm⟩⟩

/-- An operation on one vector that makes the same of it in both kernels. -/
theorem Twins.update (hfree : env.CollisionFree) (h : Twins env policy t) {c : TwinCall}
    (hfit : ValuesFit t c) (hc : c.call.call.IsMutation) {u : Update}
    (hupdate : c.call.call.update? env c.now = some u) {now : ℤ}
    {next : Mirror.VectorStateV1 → Outcome Mirror.PyError Mirror.VectorStateV1}
    (hmirror : c.call.mirror c.mirrorNow =
      (fun _ => ()) <$> Mirror.updateObject u.vectorId now next)
    (hnext : ∀ s m, TwinVector s m → (∀ mafter, next m = .ok mafter → mafter.Small) →
      SameNext m (u.next s) (next m))
    (hrecord : ∀ before after, after.FitsEvent → ∃ r, u.record before after = .ok r) :
    Agrees env t c ∧ Twins env policy (twinStep env t c) := by
  have hends := Mirror.updateObject_ends h.separate u.vectorId now next
  rcases hexec : (Mirror.updateObject u.vectorId now next).exec t.mirror with ⟨result, k⟩
  rw [hexec] at hends
  have hrunMirror : t.runMirror c = (result.map (fun _ => ()), k) := by
    rw [Twin.runMirror, hmirror, Proc.exec_map, hexec]
  cases hends with
  | unknown hlookup =>
    have hplan : u.plan t.eng = .error (.err .vectorNotFound) := by
      rw [Update.plan, MemoryStore.getState, h.same.none_iff.mpr hlookup]
      rfl
    exact h.rejected (call_of_plan_error hupdate hplan) hrunMirror
  | @raised m f hlookup hraised =>
    obtain ⟨s, hs, htwin⟩ := h.twin hfit.events hlookup
    have hsame := hnext s m htwin
      (fun mafter hmafter => absurd (hraised.symm.trans hmafter) (by simp))
    rw [hraised] at hsame
    generalize hu : u.next s = r at hsame
    cases hsame with
    | @rejected e e' =>
      have hplan : u.plan t.eng = .error (.err e) := by
        rw [Update.plan, MemoryStore.getState, hs, Outcome.okOr, Outcome.ok_bind, hu]
        rfl
      exact h.rejected (call_of_plan_error hupdate hplan) hrunMirror
  | @done m mafter ref k' hlookup hok hseparate hafter =>
    obtain ⟨s, hs, htwin⟩ := h.twin hfit.events hlookup
    have hsmall : mafter.Small := Mirror.small_certified.mp (hfit.vectors u.vectorId
      (Mirror.certified now mafter) (by rw [hrunMirror, hafter, if_pos rfl]))
    have hsame := hnext s m htwin (fun mafter' hmafter' => by
      rwa [← Except.ok.inj (hok.symm.trans hmafter')])
    rw [hok] at hsame
    generalize hu : u.next s = r at hsame
    cases hsame with
    | @changed after _ hcanonical hmirrored hname =>
      have hplan : u.plan t.eng = .ok (s, after) :=
        Update.plan_eq_ok_iff.mpr ⟨hs, hu, hcanonical⟩
      have hfits := hmirrored.fits hsmall
      obtain ⟨r, hr⟩ := hrecord s after hfits
      obtain ⟨es, hcall, hcreated⟩ := call_accepted hfree h.created hc (.update hupdate hplan hr)
        (List.forall_mem_singleton.mpr hfits) (by
          have := hfit.events
          rw [List.length_singleton]
          omega)
      have hvector : after.vectorId = u.vectorId :=
        (update_next_identity hupdate hu htwin.sound hcanonical).vectorId.trans
          (h.created.reachable.wellKeyed.states _ _ hs).1
      refine Twins.accepted hfit hcall hrunMirror hcreated hseparate (fun id => ?_)
        (fun id m' hm' => ?_)
      · simp only [Work.states_finish, List.map_cons, List.map_nil, BTreeMap.insertMany_cons,
          BTreeMap.insertMany_nil, BTreeMap.lookup_insert, hvector, hafter]
        split
        · exact .some ⟨hmirrored.components, hmirrored.status, hmirrored.projection⟩
        · exact h.same id
      · rw [hafter] at hm'
        split at hm'
        · obtain rfl := Option.some.inj hm'
          exact htwin.mirrorSound.certified hname now
        · exact (h.mirrorStates id m' hm').1

/-- The records of a transfer are made when its amounts fit. -/
theorem exists_transferRecords (env : Platform) (now : ℕ → UInt64) {amount : List U128}
    (hamount : ∀ a ∈ amount, a.toNat ≤ u64Max) (sender receiver : VectorStateV1)
    {afterFrom afterTo : VectorStateV1} (hfrom : amountSum afterFrom.components < 2 ^ 128)
    (hto : amountSum afterTo.components < 2 ^ 128) :
    ∃ rs, transferRecords env now amount sender receiver afterFrom afterTo = .ok rs := by
  obtain ⟨amounts, hamounts⟩ := exists_ofU128s hamount
  have hside : ∀ direction before after nowMs, ∃ r,
      transferSideRecord env direction before after amount nowMs = .ok r := by
    intro direction before after nowMs
    exact ⟨_, by rw [transferSideRecord, transferParams, hamounts]; rfl⟩
  obtain ⟨senderCert, hsenderCert⟩ := certifyState_of_lt env hfrom (now (2 + 0))
  obtain ⟨receiverCert, hreceiverCert⟩ := certifyState_of_lt env hto (now (2 + 1))
  obtain ⟨out, hout⟩ := hside "out" sender afterFrom (now (2 + 2))
  obtain ⟨into, hinto⟩ := hside "in" receiver afterTo (now (2 + 3))
  exact ⟨_, by simp only [transferRecords, transferRecord, hsenderCert, hreceiverCert, hout,
    hinto, Outcome.ok_bind]; rfl⟩

/-- A transfer, unless it is one of a positive amount from a vector to itself. -/
theorem Twins.transfer (hfree : env.CollisionFree) (h : Twins env policy t)
    {fromId toId : String} {amount : List U128} {now : ℕ → UInt64} {mirrorNow : ℕ → ℤ}
    (hfit : ValuesFit t ⟨.transfer fromId toId amount, now, mirrorNow⟩)
    (hself : ¬ SelfTransfer t (.transfer fromId toId amount)) :
    Agrees env t ⟨.transfer fromId toId amount, now, mirrorNow⟩ ∧
      Twins env policy (twinStep env t ⟨.transfer fromId toId amount, now, mirrorNow⟩) := by
  have hends := Mirror.transfer_ends h.separate mirrorNow fromId toId (ints amount)
  rcases hexec : (Mirror.transfer mirrorNow fromId toId (ints amount)).exec t.mirror with
    ⟨result, k⟩
  rw [hexec] at hends
  have hrunMirror : t.runMirror ⟨.transfer fromId toId amount, now, mirrorNow⟩ =
      (result.map (fun _ => ()), k) := by
    rw [Twin.runMirror, SharedCall.mirror, Proc.exec_map, hexec]
  cases hends with
  | unknown hlookup =>
    have hplan : transferPlan env t.eng now fromId toId amount = .error (.err .vectorNotFound) := by
      rw [transferPlan, MemoryStore.getState, MemoryStore.getState]
      rcases hlookup with hfrom | hto
      · rw [h.same.none_iff.mpr hfrom]
        rfl
      · rw [h.same.none_iff.mpr hto]
        cases t.eng.store.states[fromId]? <;> rfl
    exact h.rejected (call_of_transferPlan_error hplan) hrunMirror
  | @raised m n message hsender hreceiver hamount =>
    obtain ⟨s, hs, htwin⟩ := h.twin hfit.events hsender
    obtain ⟨r, hr, htwin'⟩ := h.twin hfit.events hreceiver
    obtain ⟨e, he⟩ := transferNext_rejected htwin.mirrored.components htwin'.mirrored.components
      env now hamount
    have hplan : transferPlan env t.eng now fromId toId amount = .error (.err e) := by
      rw [transferPlan, MemoryStore.getState, MemoryStore.getState, hs, hr, Outcome.okOr,
        Outcome.ok_bind, Outcome.okOr, Outcome.ok_bind, he]
      rfl
    exact h.rejected (call_of_transferPlan_error hplan) hrunMirror
  | @done m n refs k' hsender hreceiver hamount hseparate hafter =>
    obtain ⟨s, hs, htwin⟩ := h.twin hfit.events hsender
    obtain ⟨r, hr, htwin'⟩ := h.twin hfit.events hreceiver
    have hargs : ∀ a ∈ amount, a.toNat ≤ u64Max := hfit.arguments_le
    have hself' : fromId = toId → m = n ∧ ∀ a ∈ ints amount, a = 0 := by
      rintro rfl
      obtain rfl := Option.some.inj (hsender.symm.trans hreceiver)
      refine ⟨rfl, fun x hx => ?_⟩
      obtain ⟨a, ha, rfl⟩ := List.mem_map.mp hx
      by_contra hne
      obtain ⟨⟨_, hlength⟩, hcovered⟩ := (transferable_ints_iff htwin.mirrored.components
        htwin.mirrored.components).mp hamount
      exact hself (.mk hs hlength.symm hcovered ⟨a, ha, fun hzero => hne (by rw [hzero]; rfl)⟩)
    simp only [Mirror.transferred_eq hamount htwin'.mirrorSound hself'] at hafter
    have hsmall : (Mirror.credited (ints amount) n).Small := Mirror.small_certified.mp
      (hfit.vectors toId (Mirror.certified (mirrorNow 1) (Mirror.credited (ints amount) n))
        (by rw [hrunMirror, hafter, if_pos rfl]))
    obtain ⟨afterFrom, afterTo, hnext, ⟨hfitsFrom, hmirroredFrom⟩, hfitsTo, hmirroredTo⟩ :=
      htwin.transfer htwin' env now hargs hsmall hamount
    have htransfers := transferNext_ok hnext
    have hplan : transferPlan env t.eng now fromId toId amount =
        .ok ⟨s, r, afterFrom, afterTo⟩ := transferPlan_eq_ok_iff.mpr ⟨hs, hr, hnext⟩
    obtain ⟨⟨sr, rr⟩, hrecords⟩ := exists_transferRecords env now hargs s r
      (amountSum_lt_of_fitsEvent hfitsFrom (by rw [htransfers.length_from]; exact htwin.dimensions))
      (amountSum_lt_of_fitsEvent hfitsTo (by rw [htransfers.length_to]; exact htwin'.dimensions))
    obtain ⟨es, hcall, hcreated⟩ := call_accepted hfree h.created
      (show (Call.transfer fromId toId amount).IsMutation from trivial) (.transfer hplan hrecords)
      (List.forall_mem_cons.mpr ⟨hfitsFrom, List.forall_mem_singleton.mpr hfitsTo⟩) hfit.events
    have hvectorFrom : afterFrom.vectorId = fromId :=
      htransfers.same_from.vectorId.trans (h.created.reachable.wellKeyed.states _ _ hs).1
    have hvectorTo : afterTo.vectorId = toId :=
      htransfers.same_to.vectorId.trans (h.created.reachable.wellKeyed.states _ _ hr).1
    refine Twins.accepted hfit hcall hrunMirror hcreated hseparate (fun id => ?_)
      (fun id m' hm' => ?_)
    · simp only [Work.states_finish, List.map_cons, List.map_nil, BTreeMap.insertMany_cons,
        BTreeMap.insertMany_nil, BTreeMap.lookup_insert, hvectorFrom, hvectorTo, hafter]
      split
      · exact .some ⟨hmirroredTo.components, hmirroredTo.status, hmirroredTo.projection⟩
      · split
        · exact .some ⟨hmirroredFrom.components, hmirroredFrom.status, hmirroredFrom.projection⟩
        · exact h.same id
    · rw [hafter] at hm'
      split at hm'
      · obtain rfl := Option.some.inj hm'
        exact htwin'.mirrorSound.certified (Mirror.sameName_credited _ n) _
      · split at hm'
        · obtain rfl := Option.some.inj hm'
          exact htwin.mirrorSound.certified (Mirror.sameName_debited _ m) _
        · exact (h.mirrorStates id m' hm').1

/-- A transfer of a positive amount from a vector to itself credits the vector in the kernel
and leaves it as it was in the mirror. -/
theorem Twins.not_agrees (h : Twins env policy t)
    (hroom : t.eng.store.listEvents.length + 2 < 2 ^ 64) {c : TwinCall}
    (hself : SelfTransfer t c.call) : ¬ Agrees env t c := by
  obtain ⟨call, now, mirrorNow⟩ := c
  obtain ⟨hstored, hlength, hcovered, hpositive⟩ := hself
  rename_i id amount s
  rintro ⟨hverdict, hvectors⟩
  have hends := Mirror.transfer_ends h.separate mirrorNow id id (ints amount)
  rcases hexec : (Mirror.transfer mirrorNow id id (ints amount)).exec t.mirror with ⟨result, k⟩
  rw [hexec] at hends
  have hrunMirror : t.runMirror ⟨.transfer id id amount, now, mirrorNow⟩ =
      (result.map (fun _ => ()), k) := by
    rw [Twin.runMirror, SharedCall.mirror, Proc.exec_map, hexec]
  have hagain := hvectors id
  rw [twinStep, hrunMirror] at hagain
  rw [hrunMirror] at hverdict
  cases hends with
  | unknown hlookup =>
    rw [or_self, ← h.same.none_iff, hstored] at hlookup
    cases hlookup
  | @raised m n message hsender hreceiver hamount =>
    obtain rfl := Option.some.inj (hsender.symm.trans hreceiver)
    obtain ⟨s', hs', htwin⟩ := h.twin hroom hsender
    obtain rfl := Option.some.inj (hstored.symm.trans hs')
    exact hamount ((transferable_ints_iff htwin.mirrored.components
      htwin.mirrored.components).mpr ⟨⟨rfl, hlength.symm⟩, hcovered⟩)
  | @done m n refs k' hsender hreceiver hamount hseparate hafter =>
    obtain ⟨s', hs', htwin⟩ := h.twin hroom hsender
    obtain rfl := Option.some.inj (hstored.symm.trans hs')
    obtain rfl := Option.some.inj (hsender.symm.trans hreceiver)
    have hok : (t.eng.call env now (.transfer id id amount)).1.IsOk := by
      cases hreply : (t.eng.call env now (.transfer id id amount)).1 with
      | ok reply => exact Outcome.isOk_ok _
      | error f =>
        rw [Twin.run, SharedCall.call, hreply] at hverdict
        cases hverdict
    obtain ⟨plan, _, hplan, _, _, hto, hadd, hstates⟩ :=
      transfer_ok_states h.created.reachable hok
    obtain rfl := Option.some.inj (hstored.symm.trans hplan)
    have hafterTo : (t.run env ⟨.transfer id id amount, now, mirrorNow⟩).2.store.states[id]? =
        some plan.afterTo := by
      rw [Twin.run, SharedCall.call, hstates, TransferPlan.store, KernelEngine.states_withState,
        BTreeMap.lookup_insert, if_pos hto]
    simp only [hafterTo, hafter, Mirror.transferred, if_true, Option.rel_some_some,
      Mirror.credited_debited hamount.1.2] at hagain
    have hcomponents : plan.afterTo.components = plan.receiver.components :=
      ints_injective (hagain.components.symm.trans htwin.mirrored.components)
    obtain ⟨a, ha, hne⟩ := hpositive
    refine hne (amountAt_eq_zero_iff.mp (fun i => ?_) a ha)
    have := hadd i
    rw [VectorStateV1.component, hcomponents, VectorStateV1.component] at this
    omega

/-! ## Runs -/

/-- One step of kernels in step. -/
theorem Twins.step (hfree : env.CollisionFree) (h : Twins env policy t) {c : TwinCall}
    (hfit : ValuesFit t c) (hself : ¬ SelfTransfer t c.call) :
    Agrees env t c ∧ Twins env policy (twinStep env t c) := by
  obtain ⟨call, now, mirrorNow⟩ := c
  cases call with
  | transfer fromId toId amount => exact h.transfer hfree hfit hself
  | drain vectorId basisPoints =>
    exact h.update hfree hfit trivial rfl rfl
      (fun s m htwin _ => htwin.drain env now basisPoints) (fun before after hfits => by
        obtain ⟨remaining, hremaining⟩ := exists_ofU128s hfits
        show ∃ r, drainRecord env vectorId basisPoints now before after = .ok r
        exact ⟨_, by rw [drainRecord, hremaining]; rfl⟩)
  | project vectorId projected escrowId =>
    have hprojected : ∀ a ∈ projected, a.toNat ≤ u64Max := hfit.arguments_le
    obtain ⟨amounts, hamounts⟩ := exists_ofU128s hprojected
    exact h.update hfree hfit trivial rfl rfl
      (fun s m htwin _ => htwin.project env now projected escrowId (mirrorNow 0))
      (fun before after _ => by
        show ∃ r, projectRecord env vectorId projected now before after = .ok r
        exact ⟨_, by rw [projectRecord, hamounts]; rfl⟩)
  | reconstruct vectorId outcome =>
    obtain ⟨hgains, hlosses⟩ := List.forall_mem_append.mp hfit.arguments_le
    obtain ⟨gains, hgainsValue⟩ := exists_ofU128s hgains
    obtain ⟨losses, hlossesValue⟩ := exists_ofU128s hlosses
    exact h.update hfree hfit trivial rfl rfl
      (fun s m htwin hsmall => htwin.reconstruct env now hgains (mirrorNow 0) hsmall)
      (fun before after _ => by
        show ∃ r, reconstructRecord env vectorId outcome now before after = .ok r
        exact ⟨_, by rw [reconstructRecord, hgainsValue, Outcome.ok_bind, hlossesValue]; rfl⟩)

/-- Kernels whose vectors were created alike, given the same calls with values below 2^64,
agree in a run exactly when no call of it transfers a positive amount from a vector to
itself. -/
theorem kernels_agree_iff (hfree : env.CollisionFree) (hstart : SameCreated env policy t)
    (calls : List TwinCall)
    (hfit : AllSteps (twinStep env) t (fun _ t c => ValuesFit t c) calls) :
    AllSteps (twinStep env) t (fun _ t c => Agrees env t c) calls ↔
      AllSteps (twinStep env) t (fun _ t c => ¬ SelfTransfer t c.call) calls := by
  have htwins := hstart.twins
  clear hstart
  induction calls generalizing t with
  | nil => exact iff_of_true AllSteps.nil AllSteps.nil
  | cons c calls ih =>
    rw [allSteps_cons] at hfit
    rw [allSteps_cons, allSteps_cons]
    by_cases hself : SelfTransfer t c.call
    · exact iff_of_false (fun hagrees => htwins.not_agrees hfit.1.events hself hagrees.1)
        (fun hnone => hnone.1 hself)
    · obtain ⟨hagrees, hnext⟩ := htwins.step hfree hfit.1 hself
      exact and_congr (iff_of_true hagrees hself) (ih hfit.2 hnext)

end

/-! ## A vector that pays itself -/

instance (m : Mirror.VectorStateV1) : Decidable m.Small :=
  inferInstanceAs (Decidable (∀ x ∈ m.amounts, x < 2 ^ 64))

/-- The objects are all the vectors there can be. -/
theorem valuesFit_of_heap {t : Twin} {c : TwinCall}
    (h : c.call.amounts.all (fun a => a.toNat < 2 ^ 64) = true ∧
      (∀ m ∈ (t.runMirror c).2.heap, m.Small) ∧ t.eng.store.listEvents.length + 2 < 2 ^ 64) :
    ValuesFit t c where
  arguments := by simpa using h.1
  vectors := by
    intro id m hm
    obtain ⟨ref, _, href⟩ := Option.bind_eq_some_iff.mp hm
    exact h.2.1 m (List.mem_of_getElem? href)
  events := h.2.2

/-- A call made while both clocks stand still at `n`. -/
def twinCallAt (n : ℕ) (c : SharedCall) : TwinCall where
  call := c
  now := fun _ => UInt64.ofNat n
  mirrorNow := fun _ => n

/-- Both kernels with one vector of balance 5. -/
def oneTwin (env : Platform) : Twin where
  eng := ((KernelEngine.initial ConsensusPolicy.default).call env (fun _ => 1)
    (.originCreate (sampleOrigin "a" [5]))).2
  mirror := ((Mirror.createOrigin (fun _ => "0") (fun _ => 1) "a" "o" "s" (ints [5]) "seed" 0
    0).exec Objects.empty).2

theorem oneTwin_sameCreated {env : Platform}
    (hok : ((KernelEngine.initial ConsensusPolicy.default).call env (fun _ => 1)
      (.originCreate (sampleOrigin "a" [5]))).1.IsOk) :
    SameCreated env ConsensusPolicy.default (oneTwin env) :=
  .create .initial (fun _ => 1) (sampleOrigin "a" [5]) (by simp only [ShortNames]; decide)
    (by decide) hok (fun _ => "0") (fun _ => 1) "seed" 0 0 (by decide +kernel)

theorem kernels_agree_iff_escrowed :
    AllSteps (twinStep (platformFor escrowedVector)) (oneTwin (platformFor escrowedVector))
        (fun _ t c => Agrees (platformFor escrowedVector) t c)
        [twinCallAt 2 (.project "a" [2] "x")] ↔
      AllSteps (twinStep (platformFor escrowedVector)) (oneTwin (platformFor escrowedVector))
        (fun _ t c => ¬ SelfTransfer t c.call) [twinCallAt 2 (.project "a" [2] "x")] :=
  kernels_agree_iff (platformFor_collisionFree _ (by decide +kernel))
    (oneTwin_sameCreated (by decide +kernel)) _
    (allSteps_cons.mpr ⟨valuesFit_of_heap (by decide +kernel), AllSteps.nil⟩)

/-- The mirror agrees with the kernel in every run. -/
def KernelsAgree : Prop :=
  ∀ env : Platform, env.CollisionFree → ∀ (policy : ConsensusPolicy) (t : Twin),
    SameCreated env policy t → ∀ calls : List TwinCall,
      AllSteps (twinStep env) t (fun _ t c => ValuesFit t c) calls →
        AllSteps (twinStep env) t (fun _ t c => Agrees env t c) calls

theorem SameVectors.components {t : Twin} (h : SameVectors t) (id : String) :
    (t.eng.store.states[id]?).map (fun s => ints s.components) =
      (t.mirror.lookup id).map (fun m => m.components) := by
  have hrel := h id
  generalize t.eng.store.states[id]? = s at hrel
  generalize t.mirror.lookup id = m at hrel
  cases hrel with
  | none => rfl
  | some hmirrored => exact congrArg some hmirrored.components.symm

/-- A platform for a vector that pays itself. -/
abbrev selfPlatform : Platform := platformFor (oneVector ++ [callAt 2 (.transfer "a" "a" [2])])

/-- A vector of balance 5 that sends 2 to itself has 7 in the kernel and 5 in the mirror. -/
theorem kernelsAgree_fails : ¬ KernelsAgree := by
  intro h
  have hagrees := h selfPlatform (platformFor_collisionFree _ (by decide +kernel)) _
    (oneTwin selfPlatform) (oneTwin_sameCreated (by decide +kernel))
    [twinCallAt 2 (.transfer "a" "a" [2])]
    (allSteps_cons.mpr ⟨valuesFit_of_heap (by decide +kernel), AllSteps.nil⟩)
  exact absurd ((allSteps_cons.mp hagrees).1.vectors.components "a") (by decide +kernel)

end VKernelX
