/-
  Ffi/Runs.lean --- calls through a handle, and what they do to the engine behind it.

  Every entry point leaves the engine alone or makes calls of its public operations, one after
  the other.  So whatever calls a handle has seen, its engine is one that a run of the engine
  leads to.
-/
import VKernelX.Engine.Writes
import VKernelX.Model.Handle

set_option autoImplicit false

namespace VKernelX

open LockProc

/-! ## Runs -/

/-- A call of an entry point with the clock readings it gets. -/
structure TimedFfiCall where
  call : FfiCall
  now : ℕ → ℕ → UInt64

section

variable (relock : Relock) (env : Platform) (serde : Serde)

/-- Call an entry point.  If the call does not return, there is no handle any more to call the
next one with: the process is gone, or waits for good. -/
def handleStep (handle : Option KernelHandle) (c : TimedFfiCall) : Option KernelHandle :=
  handle.bind (c.call.proc relock env serde c.now).after

/-- The handles that calls lead to from a fresh one. -/
abbrev ReachableHandle (m : KernelHandle) : Prop :=
  Reachable (handleStep relock env serde) (some kernelInit) (some m)

/-- The handle that one call leads to from a fresh one, if the call returns. -/
def handleAfter (c : TimedFfiCall) : KernelHandle :=
  (handleStep relock env serde (some kernelInit) c).getD kernelInit

variable {relock env serde}

theorem handleAfter_reachable {c : TimedFfiCall}
    (hreturns : (handleStep relock env serde (some kernelInit) c).isSome) :
    ReachableHandle relock env serde (handleAfter relock env serde c) := by
  obtain ⟨m, hm⟩ := Option.isSome_iff_exists.mp hreturns
  refine ⟨[c], ?_⟩
  rw [handleAfter, hm]
  exact hm.symm

/-- What holds of a fresh handle and is kept by every call that returns. -/
theorem ReachableHandle.invariant {I : KernelHandle → Prop} (hinit : I kernelInit)
    (hstep : ∀ m (c : TimedFfiCall) a m', I m →
      (c.call.proc relock env serde c.now).run m = .ok (a, m') → I m')
    {m : KernelHandle} (h : ReachableHandle relock env serde m) : I m := by
  refine Reachable.invariant _ _
    (I := fun handle : Option KernelHandle => ∀ m, handle = some m → I m) ?_ ?_ h m rfl
  · rintro _ ⟨⟩
    exact hinit
  · intro handle c hI m' hm'
    obtain ⟨m, rfl, hafter⟩ := Option.bind_eq_some_iff.mp hm'
    obtain ⟨a, hrun⟩ := after_eq_some_iff.mp hafter
    exact hstep m c a m' (hI m rfl) hrun

end

section

variable {env : Platform} {serde : Serde}

/-! ## One operation -/

/-- The call's outcome as the closure of an operation returns it. -/
def operationResult (r : Outcome KernelXError Reply) : Outcome String Reply := do
  let reply ← r.mapErr KernelXError.text
  reply.json

/-- What is made of an operation that went through: new events, and a replay of the history. -/
def collect (env : Platform) (operation : String) (before eng : KernelEngine) (reply : Reply) :
    Outcome String OperationReply := do
  let newEvents := collectNewEvents before.queryEvents eng.queryEvents
  Outcome.require (newEvents ≠ [])
    (operation ++ " completed without emitting a canonical event")
  let replay ← engineReplaySummary env eng
  return {
    operation := operation
    result := reply
    records := newEvents
    eventCount := UInt64.ofNat eng.queryEvents.length
    latestClock := replay.latestClock
    replay := replay }

/-- `execute_and_collect` calls the engine once, and all that comes after only looks at it. -/
theorem exec_executeAndCollect (operation : String) (now : ℕ → UInt64) (c : Call)
    (inner : KernelInner) :
    (executeAndCollect env operation (engineOperation env now c)).exec inner =
      (operationResult (inner.engine.call env now c).1 >>=
          collect env operation inner.engine (inner.engine.call env now c).2,
        { inner with engine := (inner.engine.call env now c).2 }) := by
  have hrun : (onEngine (engineOperation env now c)).exec inner =
      (operationResult (inner.engine.call env now c).1,
        { inner with engine := (inner.engine.call env now c).2 }) := rfl
  rw [executeAndCollect, Proc.exec_read_bind, Proc.exec_bind, hrun]
  cases operationResult (inner.engine.call env now c).1 with
  | error f => rfl
  | ok reply =>
    simp only [Proc.exec_read_bind, Proc.exec_lift_bind, Proc.exec_query_bind, Outcome.ok_bind,
      collect]
    cases Outcome.require (collectNewEvents inner.engine.queryEvents
        (inner.engine.call env now c).2.queryEvents ≠ [])
      (operation ++ " completed without emitting a canonical event") with
    | error f => rfl
    | ok _ =>
      simp only [Outcome.ok_bind]
      cases engineReplaySummary env (inner.engine.call env now c).2 <;> rfl

theorem executeAndCollect_inner (operation : String) (now : ℕ → UInt64) (c : Call)
    (inner : KernelInner) :
    ((executeAndCollect env operation (engineOperation env now c)).exec inner).2 =
      { inner with engine := (inner.engine.call env now c).2 } := by
  rw [exec_executeAndCollect]

/-- A submit request that is turned down before it gets to the engine changes nothing;
otherwise it makes one call, and records its id if that is collected. -/
theorem exec_submitOperation (now : ℕ → UInt64) (request : SubmitEventRequest)
    (inner : KernelInner) :
    (submitOperation env serde now request).exec inner =
      match (do
        let _ ← validateSubmitRequest env serde inner request
        serde.readParams " parse error: " (operationName request.operation) request.params) with
      | .error f => (.error f, inner)
      | .ok (op, c) =>
          match (executeAndCollect env op.label (engineOperation env now c)).exec inner with
          | (.error f, inner') => (.error f, inner')
          | (.ok reply, inner') => (.ok reply, { inner' with
              seenRequestIds := inner'.seenRequestIds.insert request.requestId }) := by
  rw [submitOperation, Proc.exec_query_bind]
  cases validateSubmitRequest env serde inner request with
  | error f => rfl
  | ok _ =>
    simp only [Outcome.ok_bind, Proc.exec_lift_bind]
    cases serde.readParams " parse error: " (operationName request.operation) request.params with
    | error f => rfl
    | ok read =>
      obtain ⟨op, c⟩ := read
      simp only [Proc.exec_bind]
      rcases (executeAndCollect env op.label (engineOperation env now c)).exec inner with
        ⟨_ | reply, inner'⟩ <;> rfl

/-- Whether a submit request is carried out or not, its effect on the engine is that of one
call, or none. -/
theorem engine_submitOperation (now : ℕ → UInt64) (request : SubmitEventRequest)
    (inner : KernelInner) :
    ((submitOperation env serde now request).exec inner).2.engine = inner.engine ∨
      ∃ c, ((submitOperation env serde now request).exec inner).2.engine =
        (inner.engine.call env now c).2 := by
  rw [exec_submitOperation]
  split
  · exact Or.inl rfl
  · rename_i op c _
    right
    refine ⟨c, ?_⟩
    have hinner := @executeAndCollect_inner env op.label now c inner
    rcases hexec : (executeAndCollect env op.label (engineOperation env now c)).exec inner with
      ⟨_ | _, inner'⟩ <;> rw [hexec] at hinner <;> obtain rfl := hinner <;> rfl

/-! ## What every entry point keeps -/

section

variable {Q : KernelEngine → Prop} {relock : Relock}

/-- A property of the engine that calls of its operations keep. -/
def KeptByCalls (env : Platform) (Q : KernelEngine → Prop) : Prop :=
  ∀ (eng : KernelEngine) (now : ℕ → UInt64) (c : Call), Q eng → Q (eng.call env now c).2

/-- The call keeps a property of the engine. -/
abbrev KeepsEngine (Q : KernelEngine → Prop) {α : Type} (x : HandleProc α) : Prop :=
  Keeps (fun inner => Q inner.engine) x

theorem keeps_writeLastError (lastError : Option String) :
    KeepsEngine Q (writeLastError relock lastError) :=
  keeps_locking (keeps_overwrite (fun _ h => h))

theorem keeps_failWith (msg : String) : KeepsEngine Q (failWith relock msg) :=
  (keeps_writeLastError _).bind (fun _ => keeps_pure _)

theorem keeps_withInput {α : Type} (input : Except String α) {body : α → HandleProc FfiReply}
    (hbody : ∀ a, KeepsEngine Q (body a)) : KeepsEngine Q (withInput relock input body) := by
  cases input with
  | error e => exact keeps_failWith e
  | ok a => exact hbody a

/-- A query of the engine, once the error is cleared. -/
theorem keeps_queryBody {body : KernelInner → HandleProc FfiReply}
    (hbody : ∀ inner, KeepsEngine Q (body inner)) :
    KeepsEngine Q (withInner relock do
      let inner ← peek
      clearLastError relock
      body inner) :=
  keeps_locking (keeps_peek.bind (fun inner =>
    (keeps_writeLastError none).bind (fun _ => hbody inner)))

theorem keeps_replyFound (writable : Bool) (reply : FfiReply) :
    KeepsEngine Q (replyFound writable reply) := by
  cases writable with
  | true => exact keeps_pure _
  | false => exact keeps_throw _

theorem keeps_kernelComputeStateRoot : KeepsEngine Q (kernelComputeStateRoot relock env) := by
  unfold kernelComputeStateRoot
  exact keeps_locking (keeps_peek.bind (fun _ => keeps_pure _))

theorem keeps_executeRequests
    (hsubmit : ∀ now request, KeepsEngine Q (executeSubmitRequest relock env serde now request))
    (requests : List (SubmitEventRequest × (ℕ → UInt64))) (results : List SubmitReply) :
    KeepsEngine Q (executeRequests relock env serde requests results) := by
  induction requests generalizing results with
  | nil => exact (keeps_writeLastError none).bind (fun _ => keeps_pure _)
  | cons r rest ih =>
    refine (hsubmit r.2 r.1).bind (fun reply => ?_)
    cases reply with
    | error e => exact keeps_failWith e
    | ok reply => exact ih _

/-- What submit requests and the operations that stand alone keep, every entry point keeps. -/
theorem FfiCall.keeps
    (hsubmit : ∀ now request, KeepsEngine Q (executeSubmitRequest relock env serde now request))
    (hoperation : ∀ op now input, KeepsEngine Q (kernelOperation relock env op now input))
    (now : ℕ → ℕ → UInt64) (c : FfiCall) : KeepsEngine Q (c.proc relock env serde now) := by
  cases c with
  | submitEvent input =>
    refine keeps_withInput input (fun text => keeps_withInput _ (fun request => ?_))
    refine (hsubmit _ request).bind (fun r => ?_)
    cases r with
    | error e => exact keeps_failWith e
    | ok reply => exact keeps_pure _
  | executeOperation input =>
    exact keeps_withInput input (fun text => keeps_withInput _ (fun requests =>
      keeps_executeRequests hsubmit _ []))
  | originCreate input => exact hoperation _ _ input
  | transfer input => exact hoperation _ _ input
  | drain input => exact hoperation _ _ input
  | project input => exact hoperation _ _ input
  | reconstruct input => exact hoperation _ _ input
  | certify input => exact hoperation _ _ input
  | replay =>
    refine keeps_locking ((keeps_guarded (fun inner h => h)).bind (fun r => ?_))
    cases r <;> exact (keeps_writeLastError _).bind (fun _ => keeps_pure _)
  | computeStateRoot => exact keeps_kernelComputeStateRoot
  | currentStateRoot => exact keeps_kernelComputeStateRoot
  | verifyRecord input =>
    refine keeps_withInput input (fun text => keeps_withInput _ (fun e => ?_))
    dsimp only
    split
    · exact (keeps_writeLastError none).bind (fun _ => keeps_pure _)
    · exact keeps_failWith _
  | queryVector input =>
    refine keeps_withInput input (fun text => keeps_withInput _ (fun request => ?_))
    refine keeps_queryBody (fun inner => ?_)
    split
    · exact keeps_replyFound _ _
    · exact keeps_pure _
  | queryVectors => exact keeps_queryBody (fun inner => keeps_replyFound _ _)
  | queryRecords => exact keeps_queryBody (fun inner => keeps_replyFound _ _)
  | queryEventByHash input =>
    refine keeps_withInput input (fun text => keeps_withInput _ (fun request => ?_))
    refine keeps_queryBody (fun inner => ?_)
    split
    · exact keeps_pure _
    · exact keeps_pure _

variable (hQ : KeptByCalls env Q)

include hQ

theorem KeptByCalls.executeSubmitRequest (now : ℕ → UInt64) (request : SubmitEventRequest) :
    KeepsEngine Q (executeSubmitRequest relock env serde now request) := by
  refine keeps_locking ((keeps_guarded (fun inner h => ?_)).bind (fun r => ?_))
  · rcases @engine_submitOperation env serde now request inner with heq | ⟨c, heq⟩
    · rwa [heq]
    · rw [heq]
      exact hQ _ now c h
  · cases r with
    | error e => exact keeps_pure _
    | ok result =>
      refine (keeps_writeLastError none).bind (fun _ => ?_)
      refine (keeps_guarded (fun inner h => h)).bind (fun r => ?_)
      cases r <;> exact keeps_pure _

theorem KeptByCalls.kernelOperation (op : Operation) (now : ℕ → UInt64)
    (input : Except String String) : KeepsEngine Q (kernelOperation relock env op now input) := by
  refine keeps_withInput input (fun text => keeps_withInput _ (fun call => keeps_locking ?_))
  refine (keeps_guarded (fun inner h => ?_)).bind (fun r => ?_)
  · rw [executeAndCollect_inner]
    exact hQ _ now call h
  · cases r with
    | error e => exact keeps_failWith e
    | ok result => exact (keeps_writeLastError none).bind (fun _ => keeps_pure _)

end

theorem keptByCalls_reachableEngine (policy : ConsensusPolicy) :
    KeptByCalls env (ReachableEngine env policy) :=
  fun _ now c heng => Reachable.tail _ _ heng ⟨c, now⟩

/-- The engine behind a handle is one that calls of its operations lead to. -/
theorem ReachableHandle.reachableEngine {relock : Relock} {m : KernelHandle}
    (h : ReachableHandle relock env serde m) :
    ReachableEngine env ConsensusPolicy.default m.value.engine := by
  have hQ := @keptByCalls_reachableEngine env ConsensusPolicy.default
  refine ReachableHandle.invariant
    (I := fun m => ReachableEngine env ConsensusPolicy.default m.value.engine) ⟨[], rfl⟩ ?_ h
  intro m c a m' hm hrun
  exact (FfiCall.keeps hQ.executeSubmitRequest hQ.kernelOperation c.now c.call m a m' hm hrun).1

end

end VKernelX
