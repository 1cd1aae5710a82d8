/-
  Ffi/Requests.lean --- what becomes of the operation behind a submit request.

  A request is read and validated, its operation is called, and what the call has stored is
  collected and replayed.  Which calls go through, and which of their replies can be written,
  is seen in the arguments and the state before.
-/
import VKernelX.Engine.Integrity
import VKernelX.Ffi.Replies
import VKernelX.Ffi.ReplayPaths
import VKernelX.Ffi.Runs
import VKernelX.Replay.Panics

set_option autoImplicit false

namespace VKernelX

/-! ## The calls a request can ask for -/

/-- The call is one on vectors, not the creation of a region. -/
def Call.OnVectors : Call → Prop
  | .createRegion _ _ => False
  | _ => True

theorem Call.OnVectors.ne_createRegion {c : Call} (h : c.OnVectors) :
    ∀ request actorPublicKey, c ≠ .createRegion request actorPublicKey := by
  rintro _ _ rfl
  exact h

theorem Reader.map_fromValue_eq_ok_iff {α β : Type} {r : Reader α} {f : α → β} {v : Value}
    {b : β} : (r.map f).fromValue v = .ok b ↔ ∃ a, r.fromValue v = .ok a ∧ f a = b := by
  show (r.fromValue v).map f = .ok b ↔ _
  cases r.fromValue v <;> simp [Except.map]

/-- The operation and the parameters of a request are read as a call. -/
def SubmitEventRequest.Asks (serde : Serde) (request : SubmitEventRequest) (c : Call) : Prop :=
  ∃ op, serde.readParams " parse error: " (operationName request.operation) request.params =
    .ok (op, c)

/-- A request that passes validation, and the call it asks for. -/
structure ValidRequest (env : Platform) (serde : Serde) (inner : KernelInner)
    (request : SubmitEventRequest) (c : Call) : Prop where
  requestId : isBlank request.requestId = false
  actorPublicKey : isBlank request.actorPublicKey = false
  signature : isBlank request.signature = false
  asks : request.Asks serde c
  fresh : request.requestId ∉ inner.seenRequestIds
  signed : ∃ key, verifyingKeyFromHex env request.actorPublicKey = .ok key ∧
    verifyEventSignature env key (canonicalSubmitRequestBytes env request) request.signature =
      .ok true

section

variable {env : Platform} {serde : Serde}

theorem operation_onVectors {name : String} {op : Operation} (h : serde.operation name = some op)
    {v : Value} {c : Call} (hread : op.reader.fromValue v = .ok c) : c.OnVectors := by
  unfold Serde.operation at h
  split_ifs at h <;> obtain rfl := Option.some.inj h <;>
    obtain ⟨params, _, rfl⟩ := Reader.map_fromValue_eq_ok_iff.mp hread <;> trivial

/-- Reading the parameters succeeds by the name and the parameters alone. -/
theorem readParams_eq_ok_iff {context name : String} {params : Value} {op : Operation}
    {c : Call} : serde.readParams context name params = .ok (op, c) ↔
      serde.operation name = some op ∧ op.reader.fromValue params = .ok c := by
  simp only [Serde.readParams, Outcome.bind_eq_ok_iff, Outcome.okOr_eq_ok_iff,
    Outcome.mapErr_eq_ok_iff, Outcome.ofResult_eq_ok_iff]
  constructor
  · rintro ⟨op', hop, c', hc, heq⟩
    obtain ⟨rfl, rfl⟩ := Prod.mk.inj (Except.ok.inj heq)
    exact ⟨hop, hc⟩
  · rintro ⟨hop, hc⟩
    exact ⟨op, hop, c, hc, rfl⟩

theorem SubmitEventRequest.Asks.onVectors {request : SubmitEventRequest} {c : Call}
    (h : request.Asks serde c) : c.OnVectors := by
  obtain ⟨op, hread⟩ := h
  obtain ⟨hop, hc⟩ := readParams_eq_ok_iff.mp hread
  exact operation_onVectors hop hc

/-- A request asks for one call. -/
theorem SubmitEventRequest.Asks.unique {request : SubmitEventRequest} {c c' : Call}
    (h : request.Asks serde c) (h' : request.Asks serde c') : c = c' := by
  obtain ⟨op, hread⟩ := h
  obtain ⟨op', hread'⟩ := h'
  exact (Prod.mk.inj (Except.ok.inj (hread.symm.trans hread'))).2

/-! ## Validation -/

theorem validateOperationShape_eq_ok_iff {request : SubmitEventRequest} {u : Unit} :
    serde.validateOperationShape request.operation request.params = .ok u ↔
      ∃ c, request.Asks serde c := by
  simp only [Serde.validateOperationShape, Outcome.bind_eq_ok_iff, Prod.exists,
    SubmitEventRequest.Asks, readParams_eq_ok_iff]
  constructor
  · rintro ⟨op, c, hread, _⟩
    exact ⟨c, op, hread⟩
  · rintro ⟨c, op, hread⟩
    exact ⟨op, c, hread, rfl⟩

/-- Validation accepts exactly the valid requests. -/
theorem validateSubmitRequest_isOk_iff {inner : KernelInner} {request : SubmitEventRequest} :
    (validateSubmitRequest env serde inner request).IsOk ↔
      ∃ c, ValidRequest env serde inner request c := by
  simp only [Outcome.IsOk, validateSubmitRequest, Outcome.bind_eq_ok_iff,
    Outcome.require_eq_ok_iff, validateOperationShape_eq_ok_iff, Outcome.mapErr_eq_ok_iff]
  constructor
  · rintro ⟨_, _, hid, _, hkey, _, hsignature, _, ⟨c, hc⟩, _, hfresh, key, hread, _, hverified,
      _, rfl, _⟩
    exact ⟨c, hid, hkey, hsignature, hc, hfresh, key, hread, hverified⟩
  · rintro ⟨c, hid, hkey, hsignature, hc, hfresh, key, hread, hverified⟩
    exact ⟨_, (), hid, (), hkey, (), hsignature, (), ⟨c, hc⟩, (), hfresh, key, hread, true,
      hverified, (), rfl, rfl⟩

/-- A valid request is a duplicate once its id is recorded. -/
theorem ValidRequest.duplicate {inner inner' : KernelInner} {request : SubmitEventRequest}
    {c : Call} (h : ValidRequest env serde inner request c)
    (hseen : request.requestId ∈ inner'.seenRequestIds) :
    validateSubmitRequest env serde inner' request =
      .error (.err ("duplicate request_id: " ++ request.requestId)) := by
  have hshape : serde.validateOperationShape request.operation request.params = .ok () :=
    validateOperationShape_eq_ok_iff.mpr ⟨c, h.asks⟩
  rw [validateSubmitRequest, Outcome.require_of h.requestId, Outcome.require_of h.actorPublicKey,
    Outcome.require_of h.signature, hshape]
  simp only [Outcome.ok_bind]
  rw [Outcome.require_of_not (not_not.mpr hseen)]
  rfl

theorem noPanic_readParams (context name : String) (params : Value) :
    (serde.readParams context name params).NoPanic :=
  Outcome.noPanic_bind (Outcome.noPanic_okOr _ _) (fun _ _ =>
    Outcome.noPanic_bind (Outcome.noPanic_mapErr_iff.mpr (Outcome.noPanic_ofResult _))
      (fun _ _ => Outcome.noPanic_ok _))

/-- Validation does not panic. -/
theorem noPanic_validateSubmitRequest (inner : KernelInner) (request : SubmitEventRequest) :
    (validateSubmitRequest env serde inner request).NoPanic := by
  refine Outcome.noPanic_bind (Outcome.noPanic_require _ _) (fun _ _ => ?_)
  refine Outcome.noPanic_bind (Outcome.noPanic_require _ _) (fun _ _ => ?_)
  refine Outcome.noPanic_bind (Outcome.noPanic_require _ _) (fun _ _ => ?_)
  refine Outcome.noPanic_bind (Outcome.noPanic_bind (noPanic_readParams _ _ _)
    (fun _ _ => Outcome.noPanic_ok _)) (fun _ _ => ?_)
  refine Outcome.noPanic_bind (Outcome.noPanic_require _ _) (fun _ _ => ?_)
  refine Outcome.noPanic_bind (noPanic_verifyingKeyFromHex _ _) (fun _ _ => ?_)
  refine Outcome.noPanic_bind (Outcome.noPanic_mapErr_iff.mpr
    (noPanic_verifyEventSignature _ _ _ _)) (fun _ _ => ?_)
  exact Outcome.noPanic_bind (Outcome.noPanic_require _ _) (fun _ _ => Outcome.noPanic_ok _)

/-! ## How an operation ends -/

/-- The endings of a submit request's operation, up to where its id is recorded. -/
inductive OperationEnds (env : Platform) (serde : Serde) (inner : KernelInner)
    (now : ℕ → UInt64) (request : SubmitEventRequest) :
    Outcome String OperationReply × KernelInner → Prop where
  /-- turned down by validation -/
  | refused (e : String) (hinvalid : ¬ ∃ c, ValidRequest env serde inner request c) :
      OperationEnds env serde inner now request (.error (.err e), inner)
  /-- the call, its replay or the search for new events fails -/
  | stopped (label : String) (c : Call) (e : String)
      (hvalid : ValidRequest env serde inner request c)
      (hcollect : operationResult (inner.engine.call env now c).1 >>=
        collect env label inner.engine (inner.engine.call env now c).2 = .error (.err e)) :
      OperationEnds env serde inner now request
        (.error (.err e), { inner with engine := (inner.engine.call env now c).2 })
  /-- the call panics, or writing its reply does -/
  | aborted (label : String) (c : Call) (hvalid : ValidRequest env serde inner request c)
      (hcollect : operationResult (inner.engine.call env now c).1 >>=
        collect env label inner.engine (inner.engine.call env now c).2 = .error .panicked) :
      OperationEnds env serde inner now request
        (.error .panicked, { inner with engine := (inner.engine.call env now c).2 })
  /-- carried out, replayed and recorded -/
  | recorded (label : String) (c : Call) (reply : OperationReply)
      (hvalid : ValidRequest env serde inner request c)
      (hcollect : operationResult (inner.engine.call env now c).1 >>=
        collect env label inner.engine (inner.engine.call env now c).2 = .ok reply) :
      OperationEnds env serde inner now request (.ok reply,
        { inner with
          engine := (inner.engine.call env now c).2
          seenRequestIds := inner.seenRequestIds.insert request.requestId })

theorem submitOperation_ends (inner : KernelInner) (now : ℕ → UInt64)
    (request : SubmitEventRequest) :
    OperationEnds env serde inner now request
      ((submitOperation env serde now request).exec inner) := by
  rw [exec_submitOperation]
  have hpanic := @noPanic_validateSubmitRequest env serde inner request
  have hvalid := @validateSubmitRequest_isOk_iff env serde inner request
  rcases hresult : validateSubmitRequest env serde inner request with (e | _) | validation
  · rw [hresult] at hvalid
    exact .refused e (fun h => Outcome.not_isOk_error _ (hvalid.mpr h))
  · exact absurd hresult hpanic
  · obtain ⟨c, hc⟩ := hvalid.mp ⟨validation, hresult⟩
    obtain ⟨op, hread⟩ := hc.asks
    simp only [Outcome.ok_bind, hread, exec_executeAndCollect]
    rcases hcollect : operationResult (inner.engine.call env now c).1 >>=
      collect env op.label inner.engine (inner.engine.call env now c).2 with (e | _) | reply
    · exact .stopped op.label c e hc hcollect
    · exact .aborted op.label c hc hcollect
    · exact .recorded op.label c reply hc hcollect

/-! ## What a call that returns `Ok` leads to -/

/-- A call that returns `Ok` has stored an event under a new hash. -/
theorem CallEnds.new_event {eng eng' : KernelEngine} {now : ℕ → UInt64} {c : Call}
    {r : Outcome KernelXError Reply} (h : CallEnds env eng now c r eng') (hok : r.IsOk) :
    ∃ e : VectorEvent, eng'.store.events[e.eventHash]? = some e ∧
      eng.store.events[e.eventHash]? = none := by
  cases h with
  | update hupdate h =>
    cases h with
    | done before after r e _ _ hevent =>
      exact ⟨e, KernelEngine.lookup_addEvent _ e,
        (transitionEvent_eq_ok_iff.mp hevent).2.appendable.hash_fresh⟩
    | _ => exact absurd hok (Outcome.not_isOk_error _)
  | origin h =>
    cases h with
    | done s e _ hevent =>
      exact ⟨e, KernelEngine.lookup_addEvent _ e,
        (transitionEvent_eq_ok_iff.mp hevent).2.appendable.hash_fresh⟩
    | _ => exact absurd hok (Outcome.not_isOk_error _)
  | transfer h =>
    cases h with
    | done plan sr rr es er _ _ hsender hreceiver =>
      have hfresh := (transitionEvent_eq_ok_iff.mp hreceiver).2.appendable.hash_fresh
      rw [KernelEngine.events_addEvent, BTreeMap.lookup_insert] at hfresh
      refine ⟨er, KernelEngine.lookup_addEvent _ er, ?_⟩
      split at hfresh
      · cases hfresh
      · exact hfresh
    | _ => exact absurd hok (Outcome.not_isOk_error _)
  | region h =>
    cases h with
    | done e region _ hadmits _ =>
      exact ⟨e, KernelEngine.lookup_addEvent _ e, hadmits.appendable.hash_fresh⟩
    | _ => exact absurd hok (Outcome.not_isOk_error _)

/-- The new events of a call that returned `Ok` are found. -/
theorem collectNewEvents_ne_nil {policy : ConsensusPolicy} {eng : KernelEngine}
    (hreach : ReachableEngine env policy eng) {now : ℕ → UInt64} {c : Call}
    (hok : (eng.call env now c).1.IsOk) :
    collectNewEvents eng.queryEvents (eng.call env now c).2.queryEvents ≠ [] := by
  obtain ⟨e, hstored, hfresh⟩ := (call_ends eng now c).new_event hok
  have hafter : e ∈ (eng.call env now c).2.queryEvents := by
    rw [(queryEvents_perm _).mem_iff, MemoryStore.listEvents, BTreeMap.mem_values]
    exact ⟨_, hstored⟩
  have hbefore : e.eventHash ∉ eng.queryEvents.map VectorEvent.eventHash := by
    intro hmem
    obtain ⟨e', he', hhash⟩ := List.mem_map.mp hmem
    rw [(queryEvents_perm _).mem_iff, hreach.wellKeyed.mem_listEvents_iff, hhash, hfresh] at he'
    cases he'
  refine List.ne_nil_of_mem (a := e) ?_
  rw [collectNewEvents, (sortEvents_perm _).mem_iff, List.mem_filter]
  exact ⟨hafter, decide_eq_true hbefore⟩

theorem CallEnds.changes_events {eng eng' : KernelEngine} {now : ℕ → UInt64} {c : Call}
    {r : Outcome KernelXError Reply} (h : CallEnds env eng now c r eng') (hok : r.IsOk) :
    eng'.store.events ≠ eng.store.events := by
  obtain ⟨e, hstored, hfresh⟩ := h.new_event hok
  intro heq
  rw [heq, hfresh] at hstored
  cases hstored

theorem noPanic_replayFromEvents (events : List VectorEvent) :
    (replayFromEvents env events).NoPanic := by
  unfold replayFromEvents
  extract_lets rest
  have hrest : ∀ ordered, (rest ordered).NoPanic := by
    intro ordered
    dsimp only [rest]
    split
    · exact Outcome.noPanic_ok _
    · exact Outcome.noPanic_bind (Outcome.noPanic_mapErr_iff.mpr (noPanic_replayEvents env _))
        (fun _ _ => Outcome.noPanic_ok _)
  split
  · exact Outcome.noPanic_bind (Outcome.noPanic_ok _) (fun ordered _ => hrest ordered)
  · exact Outcome.noPanic_bind (Outcome.noPanic_mapErr_iff.mpr (noPanic_topologicalOrder _))
      (fun ordered _ => hrest ordered)

theorem noPanic_engineReplaySummary (eng : KernelEngine) :
    (engineReplaySummary env eng).NoPanic := by
  refine Outcome.noPanic_bind (Outcome.noPanic_mapErr_iff.mpr
    (Outcome.noPanic_mapErr_iff.mpr (noPanic_replayEvents env _))) (fun replay _ => ?_)
  refine Outcome.noPanic_bind (noPanic_replayFromEvents _) (fun batch _ => ?_)
  exact Outcome.noPanic_bind (Outcome.noPanic_require _ _) (fun _ _ =>
    Outcome.noPanic_bind (Outcome.noPanic_require _ _) (fun _ _ => Outcome.noPanic_ok _))

theorem noPanic_collect (operation : String) (before eng : KernelEngine) (reply : Reply) :
    (collect env operation before eng reply).NoPanic :=
  Outcome.noPanic_bind (Outcome.noPanic_require _ _) (fun _ _ =>
    Outcome.noPanic_bind (noPanic_engineReplaySummary eng) (fun _ _ => Outcome.noPanic_ok _))

theorem operationResult_eq_ok_iff {r : Outcome KernelXError Reply} {reply : Reply} :
    operationResult r = .ok reply ↔ r = .ok reply ∧ reply.Writable := by
  rw [operationResult, Outcome.bind_eq_ok_iff]
  simp only [Outcome.mapErr_eq_ok_iff, Reply.json]
  constructor
  · rintro ⟨reply', hr, hjson⟩
    split at hjson
    · obtain rfl := Except.ok.inj hjson
      exact ⟨hr, ‹_›⟩
    · cases hjson
  · rintro ⟨hr, hwritable⟩
    exact ⟨reply, hr, if_pos hwritable⟩

theorem isErr_operationResult_iff {r : Outcome KernelXError Reply} :
    (operationResult r).IsErr ↔ r.IsErr := by
  rcases r with (e | _) | reply
  · exact iff_of_true (Outcome.isErr_err _) (Outcome.isErr_err _)
  · exact iff_of_false Outcome.not_isErr_panicked Outcome.not_isErr_panicked
  · refine iff_of_false ?_ (Outcome.not_isErr_ok _)
    show ¬ (reply.json).IsErr
    rw [Reply.json]
    split
    · exact Outcome.not_isErr_ok _
    · exact Outcome.not_isErr_panicked

/-- Collecting fails only if the call does, or where the replay does. -/
theorem collect_of_replay {policy : ConsensusPolicy} {eng : KernelEngine}
    (hreach : ReachableEngine env policy eng) {now : ℕ → UInt64} {c : Call}
    (hok : (eng.call env now c).1.IsOk) (operation : String) (reply : Reply)
    (hreplay : ((eng.call env now c).2.replayCanonicalHistory env).IsOk) :
    (collect env operation eng (eng.call env now c).2 reply).IsOk := by
  have hnew := collectNewEvents_ne_nil hreach hok
  have hevents : (eng.call env now c).2.queryEvents ≠ [] := by
    intro hnil
    rw [hnil] at hnew
    exact hnew rfl
  obtain ⟨summary, hsummary⟩ := (ReplayPathsAgree.of_events env hreplay hevents).summary
  simp only [collect, Outcome.require_of hnew, hsummary, Outcome.ok_bind]
  exact Outcome.isOk_ok _

section

variable {policy : ConsensusPolicy} {eng : KernelEngine} {now : ℕ → UInt64} {c : Call}

/-- A call that went through has a reply that is written exactly when no projection stands in
the way. -/
theorem reply_writable_iff (hreach : ReachableEngine env policy eng) (hvectors : c.OnVectors)
    {reply : Reply} (hreply : (eng.call env now c).1 = .ok reply) :
    reply.Writable ↔ ¬ c.Unwritable eng := by
  obtain ⟨w, es, hworks, happends, hcall⟩ :=
    works_of_ok hvectors.ne_createRegion ⟨reply, hreply⟩
  have hrefused := (carriedOut_of_ok hreach hvectors.ne_createRegion ⟨reply, hreply⟩).notRefused
  obtain rfl : w.reply = reply := by
    rw [hcall] at hreply
    exact Except.ok.inj hreply
  exact hworks.reply_writable_iff hreach hrefused

/-- The operation and the writing of its reply go through. -/
theorem operationResult_ok (hreach : ReachableEngine env policy eng) (hvectors : c.OnVectors)
    {reply : Reply} (h : operationResult (eng.call env now c).1 = .ok reply) :
    (eng.call env now c).1 = .ok reply ∧ c.CarriedOut env eng ∧ ¬ c.Unwritable eng := by
  obtain ⟨hreply, hwritable⟩ := operationResult_eq_ok_iff.mp h
  exact ⟨hreply, carriedOut_of_ok hreach hvectors.ne_createRegion ⟨reply, hreply⟩,
    (reply_writable_iff hreach hvectors hreply).mp hwritable⟩

/-- The operation or the writing of its reply panics. -/
theorem operationResult_panicked (hreach : ReachableEngine env policy eng)
    (hvectors : c.OnVectors)
    (h : operationResult (eng.call env now c).1 = .error .panicked) :
    c.Panics env eng ∨ c.CarriedOut env eng ∧ c.Unwritable eng := by
  rcases hresult : (eng.call env now c).1 with (e | _) | reply
  · rw [hresult] at h
    cases h
  · exact Or.inl ((call_panics_iff hreach now c).1.mp hresult)
  · refine Or.inr ⟨carriedOut_of_ok hreach hvectors.ne_createRegion ⟨reply, hresult⟩, ?_⟩
    by_contra hwritable
    rw [operationResult_eq_ok_iff.mpr
      ⟨hresult, (reply_writable_iff hreach hvectors hresult).mpr hwritable⟩] at h
    cases h

/-- It is the operation, or the writing of its reply, that panics, and not what comes after. -/
theorem operationResult_of_collect {operation : String}
    (h : operationResult (eng.call env now c).1 >>=
      collect env operation eng (eng.call env now c).2 = .error .panicked) :
    operationResult (eng.call env now c).1 = .error .panicked := by
  rcases hresult : operationResult (eng.call env now c).1 with f | reply
  · rw [hresult] at h
    obtain rfl := Except.error.inj h
    rfl
  · rw [hresult] at h
    exact absurd h (noPanic_collect _ _ _ _)

/-- A call that panics, or that is carried out with a reply that cannot be written, aborts. -/
theorem operationResult_of_panics (hreach : ReachableEngine env policy eng)
    (hpanics : c.Panics env eng) :
    operationResult (eng.call env now c).1 = .error .panicked := by
  rw [(call_panics_iff hreach now c).1.mpr hpanics]
  rfl

theorem operationResult_of_unwritable (hreach : ReachableEngine env policy eng)
    (hvectors : c.OnVectors) (hok : (eng.call env now c).1.IsOk) (h : c.Unwritable eng) :
    operationResult (eng.call env now c).1 = .error .panicked := by
  obtain ⟨reply, hreply⟩ := hok
  have hnot : ¬ reply.Writable := fun hw => (reply_writable_iff hreach hvectors hreply).mp hw h
  rw [hreply]
  show reply.json = _
  rw [Reply.json, if_neg hnot]

theorem operationResult_of_writable (hreach : ReachableEngine env policy eng)
    (hvectors : c.OnVectors) (hok : (eng.call env now c).1.IsOk) (h : ¬ c.Unwritable eng) :
    ∃ reply, operationResult (eng.call env now c).1 = .ok reply := by
  obtain ⟨reply, hreply⟩ := hok
  exact ⟨reply, operationResult_eq_ok_iff.mpr
    ⟨hreply, (reply_writable_iff hreach hvectors hreply).mpr h⟩⟩

end

end

end VKernelX
