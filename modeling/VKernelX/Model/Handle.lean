/-
  Model/Handle.lean --- the entry points of `ffi.rs` that take a handle.

  The state behind a handle is guarded by a mutex, and the helpers that set and clear the last
  error lock it themselves.  What a second lock in one call does is a parameter of every entry
  point.  Every entry point is an `extern "C"` function, which a panic does not leave: it aborts
  the process.  So no lock is ever found poisoned, and the branches for a poisoned lock are not
  modelled.  The pointer has been checked for null, and an input string is what `from_c_string`
  makes of it.
-/
import VKernelX.Foundation.Mutex
import VKernelX.Model.Ffi

set_option autoImplicit false

namespace VKernelX

open LockProc

/-- `KernelHandle`. -/
abbrev KernelHandle : Type := Mutex KernelInner

/-- `kernel_init`. -/
def kernelInit : KernelHandle := { value := .new, held := false }

/-- A call through a handle. -/
abbrev HandleProc (α : Type) : Type := LockProc KernelInner α

/-- The reply of `execute_submit_request`. -/
structure SubmitReply where
  requestValidation : RequestValidation
  requestId : String
  operation : String
  result : OperationReply

/-- The reply of `kernel_compute_state_root`. -/
structure StateRootReply where
  stateRoot : StateRoot
  eventCount : UInt64

/-- What an entry point returns: `err_json`, or the reply it writes. -/
inductive FfiReply where
  | err (error : String)
  | submitted (reply : SubmitReply)
  | executed (replies : List SubmitReply)
  | operation (reply : OperationReply)
  | replay (summary : ReplaySummary)
  | replayFailed (stateRoot : StateRoot) (error : String)
  | stateRoot (reply : StateRootReply)
  | verified
  | vector (s : VectorStateV1)
  | vectors (states : List VectorStateV1)
  | records (records : List VectorRecordV1)
  | event (e : VectorEvent)
  | notFound

section

variable (relock : Relock)

/-- Overwrite the last error. -/
def writeLastError (lastError : Option String) : HandleProc Unit :=
  locking relock (overwrite (fun inner => { inner with lastError := lastError }))

/-- `set_last_error`. -/
def setLastError (msg : String) : HandleProc Unit := writeLastError relock (some msg)

/-- `clear_last_error`. -/
def clearLastError : HandleProc Unit := writeLastError relock none

/-- Note an error and return it. -/
def failWith (msg : String) : HandleProc FfiReply := do
  setLastError relock msg
  return .err msg

/-- Lock the handle for the rest of an entry point. -/
def withInner (body : HandleProc FfiReply) : HandleProc FfiReply := locking relock body

/-- Go on with an input that could be read. -/
def withInput {α : Type} (input : Except String α) (body : α → HandleProc FfiReply) :
    HandleProc FfiReply :=
  match input with
  | .error e => failWith relock e
  | .ok a => body a

variable (env : Platform) (serde : Serde)

/-! ## Submitting -/

/-- `execute_submit_request`.  The validation of the reply is made once more, after the id
has been recorded. -/
def executeSubmitRequest (now : ℕ → UInt64) (request : SubmitEventRequest) :
    HandleProc (Except String SubmitReply) :=
  locking relock do
    match ← guarded (submitOperation env serde now request) with
    | .error e => return .error e
    | .ok result =>
        clearLastError relock
        match ← guarded (Proc.query (ε := String) (fun inner =>
            validateSubmitRequest env serde inner request)) with
        | .error e => return .error e
        | .ok validation => return .ok {
            requestValidation := validation
            requestId := request.requestId
            operation := request.operation
            result := result }

/-- `kernel_submit_event`. -/
def kernelSubmitEvent (now : ℕ → UInt64) (input : Except String String) : HandleProc FfiReply :=
  withInput relock input fun text =>
  withInput relock ((serde.submitRequest.fromStr text).mapError
      (fun e => "submit request parse error: " ++ e)) fun request => do
    match ← executeSubmitRequest relock env serde now request with
    | .ok reply => return .submitted reply
    | .error e => failWith relock e

/-- `parse_submit_request_list`: a list, or an object with a list under `requests`. -/
def parseSubmitRequestList (text : String) : Except String (List SubmitEventRequest) :=
  match serde.submitRequests.fromStr text with
  | .ok requests => .ok requests
  | .error _ => do
      let value ← (serde.value.fromStr text).mapError (fun e => "submit batch parse error: " ++ e)
      match value with
      | .object entries =>
          match entries.lookup "requests" with
          | some requests =>
              (serde.submitRequests.fromValue requests).mapError
                (fun e => "submit batch request parse error: " ++ e)
          | none => .error "missing requests array"
      | _ => .error "missing requests array"

/-- The loop of `kernel_execute_operation`; every request gets its own clock readings. -/
def executeRequests : List (SubmitEventRequest × (ℕ → UInt64)) → List SubmitReply →
    HandleProc FfiReply
  | [], results => do
      clearLastError relock
      return .executed results
  | (request, now) :: rest, results => do
      match ← executeSubmitRequest relock env serde now request with
      | .ok reply => executeRequests rest (results ++ [reply])
      | .error e => failWith relock e

/-- `kernel_execute_operation`; the i-th request reads the clock `now i`. -/
def kernelExecuteOperation (now : ℕ → ℕ → UInt64) (input : Except String String) :
    HandleProc FfiReply :=
  withInput relock input fun text =>
  withInput relock (parseSubmitRequestList serde text) fun requests =>
    executeRequests relock env serde (requests.zipIdx.map (fun r => (r.1, now r.2))) []

/-! ## Single operations -/

/-- `kernel_origin_create`, `kernel_transfer`, `kernel_drain`, `kernel_project`,
`kernel_reconstruct` and `kernel_certify`, by their operation. -/
def kernelOperation (op : Operation) (now : ℕ → UInt64) (input : Except String String) :
    HandleProc FfiReply :=
  withInput relock input fun text =>
  withInput relock ((op.reader.fromStr text).mapError
      (fun e => op.label ++ " parse error: " ++ e)) fun call =>
  withInner relock do
    match ← guarded (executeAndCollect env op.label (engineOperation env now call)) with
    | .ok result => do
        clearLastError relock
        return .operation result
    | .error e => failWith relock e

def kernelOriginCreate := kernelOperation relock env serde.originCreateOperation
def kernelTransfer := kernelOperation relock env serde.transferOperation
def kernelDrain := kernelOperation relock env serde.drainOperation
def kernelProject := kernelOperation relock env serde.projectOperation
def kernelReconstruct := kernelOperation relock env serde.reconstructOperation
def kernelCertify := kernelOperation relock env serde.certifyOperation

/-! ## Replay and roots -/

/-- `kernel_replay`. -/
def kernelReplay : HandleProc FfiReply :=
  withInner relock do
    match ← guarded (Proc.query (fun inner => engineReplaySummary env inner.engine)) with
    | .ok summary => do
        clearLastError relock
        return .replay summary
    | .error e => do
        setLastError relock e
        return .replayFailed (computeStateRoot env [] 0) e

/-- `kernel_compute_state_root`, and `kernel_current_state_root`, which calls it.  The
in-memory store always has a root. -/
def kernelComputeStateRoot : HandleProc FfiReply :=
  withInner relock do
    let inner ← peek
    return .stateRoot {
      stateRoot := inner.engine.currentStateRoot env
      eventCount := UInt64.ofNat inner.engine.queryEvents.length }

/-! ## Records -/

/-- What `validate_event_internal` finds out about an event. -/
structure EventValidation where
  structureOk : Bool
  payloadHashOk : Bool
  eventHashOk : Bool
  signatureOk : Bool
  dagOk : Bool

/-- `validate_event_internal`. -/
def validateEventInternal (e : VectorEvent) : EventValidation where
  structureOk := decide (validateEvent env e).IsOk
  payloadHashOk := canonicalPayloadHash env e == e.payloadHash
  eventHashOk := canonicalEventHash env e == e.eventHash
  signatureOk :=
    if e.actorPublicKey ≠ "" ∧ e.signature ≠ "" then
      match verifyingKeyFromHex env e.actorPublicKey with
      | .ok key =>
          match verifyEventSignature env key (canonicalEventPayloadBytes e) e.signature with
          | .ok ok => ok
          | .error _ => false
      | .error _ => false
    else false
  dagOk := decide (validateDag [e]).IsOk

/-- The event in the input of `kernel_verify_record`: the input itself, or its member
`record`. -/
def parseRecord (text : String) : Except String VectorEvent :=
  match serde.event.fromStr text with
  | .ok e => .ok e
  | .error _ => do
      let value ← (serde.value.fromStr text).mapError (fun e => "record parse error: " ++ e)
      match value with
      | .object entries =>
          match entries.lookup "record" with
          | some raw =>
              (serde.event.fromValue raw).mapError (fun e => "record inner parse error: " ++ e)
          | none => .error "record JSON did not contain a VectorEvent or record field"
      | _ => .error "record JSON did not contain a VectorEvent or record field"

/-- `kernel_verify_record`. -/
def kernelVerifyRecord (input : Except String String) : HandleProc FfiReply :=
  withInput relock input fun text =>
  withInput relock (parseRecord serde text) fun e => do
    let validation := validateEventInternal env e
    if validation.payloadHashOk && validation.eventHashOk && validation.dagOk &&
        validation.signatureOk then
      clearLastError relock
      return .verified
    else failWith relock "record verification failed"

/-! ## Queries -/

/-- What a query found, once it is known that `json!` can write it. -/
def replyFound (writable : Bool) (reply : FfiReply) : HandleProc FfiReply :=
  if writable then pure reply else throw .aborted

/-- `kernel_query_vector`. -/
def kernelQueryVector (input : Except String String) : HandleProc FfiReply :=
  withInput relock input fun text =>
  withInput relock ((serde.queryVector.fromStr text).mapError
      (fun e => "query_vector parse error: " ++ e)) fun request =>
  withInner relock do
    let inner ← peek
    clearLastError relock
    match inner.engine.store.getState request.vectorId with
    | some s => replyFound (decide s.Writable) (.vector s)
    | none => return .notFound

/-- `kernel_query_vectors`. -/
def kernelQueryVectors : HandleProc FfiReply :=
  withInner relock do
    let inner ← peek
    clearLastError relock
    let states := inner.engine.store.listStates
    replyFound (states.all (fun s => decide s.Writable)) (.vectors states)

/-- Whether `json!` can write a record. -/
def VectorRecordV1.writable (r : VectorRecordV1) : Bool :=
  decide r.after.Writable && r.before.toList.all (fun s => decide s.Writable)

/-- `kernel_query_records`. -/
def kernelQueryRecords : HandleProc FfiReply :=
  withInner relock do
    let inner ← peek
    clearLastError relock
    let records := inner.engine.store.listRecords
    replyFound (records.all VectorRecordV1.writable) (.records records)

/-- `kernel_query_event_by_hash`. -/
def kernelQueryEventByHash (input : Except String String) : HandleProc FfiReply :=
  withInput relock input fun text =>
  withInput relock ((serde.queryEventByHash.fromStr text).mapError
      (fun e => "query_event_by_hash parse error: " ++ e)) fun request =>
  withInner relock do
    let inner ← peek
    clearLastError relock
    match inner.engine.store.getEventByHash request.eventHash with
    | some e => return .event e
    | none => return .notFound

/-! ## Entry points -/

/-- A call of an entry point that takes a handle, with its input. -/
inductive FfiCall where
  | submitEvent (input : Except String String)
  | executeOperation (input : Except String String)
  | originCreate (input : Except String String)
  | transfer (input : Except String String)
  | drain (input : Except String String)
  | project (input : Except String String)
  | reconstruct (input : Except String String)
  | certify (input : Except String String)
  | replay
  | computeStateRoot
  | currentStateRoot
  | verifyRecord (input : Except String String)
  | queryVector (input : Except String String)
  | queryVectors
  | queryRecords
  | queryEventByHash (input : Except String String)

/-- The entry point behind a call.  `now i` are the clock readings of the i-th operation in
it. -/
def FfiCall.proc (now : ℕ → ℕ → UInt64) : FfiCall → HandleProc FfiReply
  | .submitEvent input => kernelSubmitEvent relock env serde (now 0) input
  | .executeOperation input => kernelExecuteOperation relock env serde now input
  | .originCreate input => kernelOriginCreate relock env serde (now 0) input
  | .transfer input => kernelTransfer relock env serde (now 0) input
  | .drain input => kernelDrain relock env serde (now 0) input
  | .project input => kernelProject relock env serde (now 0) input
  | .reconstruct input => kernelReconstruct relock env serde (now 0) input
  | .certify input => kernelCertify relock env serde (now 0) input
  | .replay => kernelReplay relock env
  | .computeStateRoot => kernelComputeStateRoot relock env
  | .currentStateRoot => kernelComputeStateRoot relock env
  | .verifyRecord input => kernelVerifyRecord relock env serde input
  | .queryVector input => kernelQueryVector relock serde input
  | .queryVectors => kernelQueryVectors relock
  | .queryRecords => kernelQueryRecords relock
  | .queryEventByHash input => kernelQueryEventByHash relock serde input

end

end VKernelX
