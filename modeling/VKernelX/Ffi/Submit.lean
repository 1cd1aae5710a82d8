/-
  Ffi/Submit.lean --- what a submit request does to the state behind a handle.

  The id of a request is recorded when the operation and a replay of the history have gone
  through, and the request is then validated once more for the reply.  By then its id is taken,
  so no request is ever answered with `Ok`.  What was written before an error stays written.
-/
import VKernelX.Engine.Atomicity
import VKernelX.Ffi.Requests

set_option autoImplicit false

namespace VKernelX

open LockProc

section

variable {env : Platform} {serde : Serde}

/-! ## How a request ends -/

/-- The endings of a submit request, where a second lock passes. -/
inductive SubmitEnds (env : Platform) (serde : Serde) (m : KernelHandle) (now : ℕ → UInt64)
    (request : SubmitEventRequest) :
    Except Halt (Except String SubmitReply × KernelHandle) → Prop where
  /-- turned down by validation -/
  | refused (e : String) (hinvalid : ¬ ∃ c, ValidRequest env serde m.value request c) :
      SubmitEnds env serde m now request (.ok (.error e, m))
  /-- the call, its replay or the search for new events fails -/
  | stopped (label : String) (c : Call) (e : String)
      (hvalid : ValidRequest env serde m.value request c)
      (hcollect : operationResult (m.value.engine.call env now c).1 >>=
        collect env label m.value.engine (m.value.engine.call env now c).2 =
          .error (.err e)) :
      SubmitEnds env serde m now request (.ok (.error e,
        { m with value := { m.value with engine := (m.value.engine.call env now c).2 } }))
  /-- the call panics, or writing its reply does -/
  | aborted (label : String) (c : Call) (hvalid : ValidRequest env serde m.value request c)
      (hcollect : operationResult (m.value.engine.call env now c).1 >>=
        collect env label m.value.engine (m.value.engine.call env now c).2 =
          .error .panicked) :
      SubmitEnds env serde m now request (.error .aborted)
  /-- carried out, and then found to be a duplicate of itself -/
  | duplicate (label : String) (c : Call) (reply : OperationReply)
      (hvalid : ValidRequest env serde m.value request c)
      (hcollect : operationResult (m.value.engine.call env now c).1 >>=
        collect env label m.value.engine (m.value.engine.call env now c).2 = .ok reply) :
      SubmitEnds env serde m now request
        (.ok (.error ("duplicate request_id: " ++ request.requestId),
          { m with value := {
              engine := (m.value.engine.call env now c).2
              lastError := none
              seenRequestIds := m.value.seenRequestIds.insert request.requestId } }))

/-- Where a second lock passes, the last error is overwritten. -/
theorem run_writeLastError_passes (lastError : Option String) (m : KernelHandle) :
    (writeLastError .passes lastError).run m =
      .ok ((), { m with value := { m.value with lastError := lastError } }) := by
  rw [writeLastError, run_locking_passes]
  rfl

theorem executeSubmitRequest_ends (m : KernelHandle) (now : ℕ → UInt64)
    (request : SubmitEventRequest) :
    SubmitEnds env serde m now request
      ((executeSubmitRequest .passes env serde now request).run m) := by
  obtain ⟨value, held⟩ := m
  have hends := @submitOperation_ends env serde value now request
  rw [executeSubmitRequest, run_locking_passes, run_guarded_bind]
  generalize (submitOperation env serde now request).exec value = result at hends
  cases hends with
  | refused e hinvalid => exact .refused e hinvalid
  | stopped label c e hvalid hcollect => exact .stopped label c e hvalid hcollect
  | aborted label c hvalid hcollect => exact .aborted label c hvalid hcollect
  | recorded label c reply hvalid hcollect =>
    dsimp only
    rw [clearLastError, run_bind_of_ok (run_writeLastError_passes none _), run_guarded_bind,
      Proc.exec_query, hvalid.duplicate Std.ExtTreeSet.mem_insert_self]
    exact .duplicate label c reply hvalid hcollect

/-! ## The truth of a reply -/

/-- The operation a request asks for has been executed on the engine. -/
def ExecutedBy (env : Platform) (serde : Serde) (now : ℕ → UInt64) (request : SubmitEventRequest)
    (m m' : KernelHandle) : Prop :=
  ∃ c, request.Asks serde c ∧ (m.value.engine.call env now c).1.IsOk ∧
    m'.value.engine = (m.value.engine.call env now c).2

/-- The id of a request has been recorded. -/
def RecordedBy (request : SubmitEventRequest) (m m' : KernelHandle) : Prop :=
  request.requestId ∉ m.value.seenRequestIds ∧ request.requestId ∈ m'.value.seenRequestIds

/-- A reply tells the truth: it is `Ok` exactly if the operation was executed and the id was
recorded, and after an `Err` engine and ids are as they were. -/
structure TellsTruth (env : Platform) (serde : Serde) (now : ℕ → UInt64)
    (request : SubmitEventRequest) (m : KernelHandle)
    (r : Except Halt (Except String SubmitReply × KernelHandle)) : Prop where
  ok_iff : ∀ answer m', r = .ok (answer, m') → ((∃ reply, answer = .ok reply) ↔
    ExecutedBy env serde now request m m' ∧ RecordedBy request m m')
  err : ∀ e m', r = .ok (.error e, m') → SameStore m.value.engine m'.value.engine ∧
    m'.value.seenRequestIds = m.value.seenRequestIds

/-- A call on vectors leaves something in the store, and returns: an event of it is refused
after it has written, or it is carried out and its reply can be written. -/
structure Call.LeavesTrace (env : Platform) (eng : KernelEngine) (now : ℕ → UInt64) (c : Call) :
    Prop where
  checked : c.Checked env eng
  notPanics : ¬ c.Panics env eng
  writes : c.EventRefused eng ∧ ¬ c.Idle env eng now ∨ ¬ c.EventRefused eng ∧ ¬ c.Unwritable eng

/-- A request is valid, and the call it asks for leaves something in the store. -/
def LeavesTrace (env : Platform) (serde : Serde) (now : ℕ → UInt64)
    (request : SubmitEventRequest) (m : KernelHandle) : Prop :=
  ∃ c, ValidRequest env serde m.value request c ∧ c.LeavesTrace env m.value.engine now

/-- A call that does not return tells nothing. -/
theorem tellsTruth_of_halt {now : ℕ → UInt64} {request : SubmitEventRequest} {m : KernelHandle}
    (halt : Halt) : TellsTruth env serde now request m (.error halt) := by
  constructor
  · intro answer m' h
    cases h
  · intro e m' h
    cases h

/-- Where nothing is recorded, what is left of the truth is the store after an `Err`. -/
theorem tellsTruth_iff_of_unrecorded {now : ℕ → UInt64} {request : SubmitEventRequest}
    {m m' : KernelHandle} {e : String}
    (hseen : m'.value.seenRequestIds = m.value.seenRequestIds) :
    TellsTruth env serde now request m (.ok (.error e, m')) ↔
      SameStore m.value.engine m'.value.engine := by
  constructor
  · exact fun h => (h.err e m' rfl).1
  · intro h
    constructor
    · intro answer m'' hreturned
      obtain ⟨rfl, rfl⟩ := Prod.mk.inj (Except.ok.inj hreturned)
      constructor
      · rintro ⟨reply, hreply⟩
        cases hreply
      · rintro ⟨_, hfresh, hrecorded⟩
        rw [hseen] at hrecorded
        exact absurd hrecorded hfresh
    · intro e' m'' hreturned
      obtain ⟨_, rfl⟩ := Prod.mk.inj (Except.ok.inj hreturned)
      exact ⟨h, hseen⟩

theorem ValidRequest.leavesTrace_iff {now : ℕ → UInt64} {request : SubmitEventRequest}
    {m : KernelHandle} {c : Call} (hvalid : ValidRequest env serde m.value request c) :
    LeavesTrace env serde now request m ↔ c.LeavesTrace env m.value.engine now := by
  refine ⟨?_, fun h => ⟨c, hvalid, h⟩⟩
  rintro ⟨c', hvalid', h⟩
  rwa [hvalid.asks.unique hvalid'.asks]

theorem SubmitEnds.tellsTruth_iff {policy : ConsensusPolicy} (hfree : env.CollisionFree)
    {m : KernelHandle} (hreach : ReachableEngine env policy m.value.engine)
    (hshort : m.value.engine.NamesShort) {now : ℕ → UInt64} {request : SubmitEventRequest}
    (hnames : ∀ c, request.Asks serde c → c.NamesShort)
    {r : Except Halt (Except String SubmitReply × KernelHandle)}
    (h : SubmitEnds env serde m now request r) :
    TellsTruth env serde now request m r ↔ ¬ LeavesTrace env serde now request m := by
  cases h with
  | refused e hinvalid =>
    refine Iff.trans (tellsTruth_iff_of_unrecorded rfl) ?_
    exact iff_of_true (.refl _) (fun ⟨c, hvalid, _⟩ => hinvalid ⟨c, hvalid⟩)
  | aborted label c hvalid hcollect =>
    rw [hvalid.leavesTrace_iff]
    refine iff_of_true (tellsTruth_of_halt _) (fun htrace => ?_)
    have hvectors := hvalid.asks.onVectors
    rcases operationResult_panicked hreach hvectors (operationResult_of_collect hcollect) with
      hpanics | ⟨hdone, hunwritable⟩
    · exact htrace.notPanics hpanics
    · rcases htrace.writes with ⟨hrefused, _⟩ | ⟨_, hwritable⟩
      · exact hdone.notRefused hrefused
      · exact hwritable hunwritable
  | stopped label c e hvalid hcollect =>
    refine Iff.trans (tellsTruth_iff_of_unrecorded rfl) ?_
    rw [hvalid.leavesTrace_iff]
    have hvectors := hvalid.asks.onVectors
    rcases hresult : operationResult (m.value.engine.call env now c).1 with f | reply
    · -- the call returned an error, so it is one that is not carried out
      rw [hresult] at hcollect
      obtain rfl := Except.error.inj hcollect
      have herr : (m.value.engine.call env now c).1.IsErr :=
        isErr_operationResult_iff.mp (hresult ▸ Outcome.isErr_err e)
      have hatomic := (call_ends m.value.engine now c).atomic_iff hfree hreach hshort
        (hnames c hvalid.asks) (fun _ _ heq => absurd heq (hvectors.ne_createRegion _ _))
      rw [forall_prop_of_true herr] at hatomic
      rw [hatomic, not_iff_not]
      refine ⟨fun h => ⟨h.checked, h.notPanics, Or.inl ⟨h.refused, h.notIdle⟩⟩, fun h => ?_⟩
      rcases h.writes with ⟨hrefused, hidle⟩ | ⟨hrefused, _⟩
      · exact ⟨h.checked, h.notPanics, hrefused, hidle⟩
      · exact absurd ((call_isOk_iff hfree hreach hshort (hnames c hvalid.asks)
          hvectors.ne_createRegion).mpr ⟨h.checked, h.notPanics, hrefused⟩) herr.not_isOk
    · -- the call went through, so its event is stored
      obtain ⟨hreply, hdone, hwritable⟩ := operationResult_ok hreach hvectors hresult
      refine iff_of_false (fun h => ?_)
        (not_not_intro ⟨hdone.checked, hdone.notPanics, Or.inr ⟨hdone.notRefused, hwritable⟩⟩)
      exact (call_ends m.value.engine now c).changes_events ⟨reply, hreply⟩ h.events
  | duplicate label c reply hvalid hcollect =>
    rw [hvalid.leavesTrace_iff]
    obtain ⟨engineReply, hresult, _⟩ := Outcome.bind_eq_ok_iff.mp hcollect
    obtain ⟨_, hdone, hwritable⟩ := operationResult_ok hreach hvalid.asks.onVectors hresult
    refine iff_of_false (fun h => ?_)
      (not_not_intro ⟨hdone.checked, hdone.notPanics, Or.inr ⟨hdone.notRefused, hwritable⟩⟩)
    have hseen := (h.err _ _ rfl).2
    refine hvalid.fresh ?_
    rw [← hseen]
    exact Std.ExtTreeSet.mem_insert_self

/-- In every reachable handle state the reply of a submit request tells the truth exactly if the
request leaves no trace. -/
theorem submitReply_tellsTruth_iff (hfree : env.CollisionFree) {m : KernelHandle}
    (hreach : ReachableHandle .passes env serde m) (hshort : m.value.engine.NamesShort)
    (now : ℕ → UInt64) (request : SubmitEventRequest)
    (hnames : ∀ c, request.Asks serde c → c.NamesShort) :
    TellsTruth env serde now request m
        ((executeSubmitRequest .passes env serde now request).run m) ↔
      ¬ LeavesTrace env serde now request m :=
  (executeSubmitRequest_ends m now request).tellsTruth_iff hfree hreach.reachableEngine hshort
    hnames

end

/-! ## A request on a fresh handle -/

/-- A request with a key of 32 bytes and some signature. -/
def sampleSubmit (requestId operation : String) (params : Value) : SubmitEventRequest where
  requestId := requestId
  operation := operation
  actorPublicKey := "0000000000000000000000000000000000000000000000000000000000000000"
  signature := "00"
  params := params

/-- The parameters of a creation that no proof of work stands in the way of. -/
def originParams (vectorId : String) (components : List UInt64) : Value := .object [
  ("vector_id", .string vectorId), ("owner_pubkey", .string "o"), ("space_id", .string "s"),
  ("components", .array (components.map Value.ofU64)), ("seed", .string "seed"),
  ("nonce", Value.ofU64 0), ("difficulty", Value.ofU64 0)]

/-- A request for a creation. -/
def creationRequest : SubmitEventRequest :=
  sampleSubmit "r" "origin_create" (originParams "a" [5])

/-- The engine call the creation asks for. -/
theorem creationRequest_asks :
    creationRequest.Asks sampleSerde (.originCreate (sampleOrigin "a" [5])) :=
  ⟨sampleSerde.originCreateOperation, rfl⟩

theorem creationRequest_namesShort (c : Call) (h : creationRequest.Asks sampleSerde c) :
    c.NamesShort := by
  rw [h.unique creationRequest_asks]
  show (strBytes "a").length + (strBytes "s").length < 2 ^ 63
  decide

theorem submitReply_tellsTruth_iff_creation :
    TellsTruth (separatedPlatform []) sampleSerde (fun _ => 1) creationRequest kernelInit
        ((executeSubmitRequest .passes (separatedPlatform []) sampleSerde (fun _ => 1)
          creationRequest).run kernelInit) ↔
      ¬ LeavesTrace (separatedPlatform []) sampleSerde (fun _ => 1) creationRequest kernelInit :=
  submitReply_tellsTruth_iff separatedPlatform_nil_collisionFree ⟨[], rfl⟩
    (initial_namesShort _) (fun _ => 1) creationRequest creationRequest_namesShort

/-- On every reachable handle the reply to every request tells the truth. -/
def RepliesTellTheTruth : Prop :=
  ∀ (env : Platform) (serde : Serde) (m : KernelHandle), ReachableHandle .passes env serde m →
    ∀ (now : ℕ → UInt64) (request : SubmitEventRequest),
      TellsTruth env serde now request m
        ((executeSubmitRequest .passes env serde now request).run m)

/-- The creation is carried out and its id recorded, and the answer is that it is a
duplicate. -/
theorem repliesTellTheTruth_fails : ¬ RepliesTellTheTruth := by
  intro h
  have htruth := h samplePlatform sampleSerde kernelInit ⟨[], rfl⟩ (fun _ => 1) creationRequest
  have hends := @executeSubmitRequest_ends samplePlatform sampleSerde kernelInit (fun _ => 1)
    creationRequest
  have hrun : ((executeSubmitRequest .passes samplePlatform sampleSerde (fun _ => 1)
      creationRequest).after kernelInit).map (fun m => decide ("r" ∈ m.value.seenRequestIds)) =
        some true := by
    decide +kernel
  obtain ⟨m', hm', hrecorded⟩ := Option.map_eq_some_iff.mp hrun
  obtain ⟨answer, hanswer⟩ := after_eq_some_iff.mp hm'
  rw [hanswer] at htruth hends
  -- Whatever is answered is an error.
  obtain ⟨e, rfl⟩ : ∃ e, answer = .error e := by
    cases hends <;> exact ⟨_, rfl⟩
  have hseen := (htruth.err e m' rfl).2
  rw [hseen] at hrecorded
  exact absurd (of_decide_eq_true hrecorded) (by decide)

end VKernelX
