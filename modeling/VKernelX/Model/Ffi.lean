/-
  Model/Ffi.lean --- submit requests and replay summaries of `ffi.rs`.

  What the foreign interface does with the state behind a handle, as procedures on that
  state.  A JSON reply is a structure with the reply's members; writing it matters only where
  `json!` panics, on an amount above `u64::MAX`.
-/
import VKernelX.Model.Engine

set_option autoImplicit false

namespace VKernelX

/-! ## Requests -/

/-- `SubmitEventRequest`. -/
structure SubmitEventRequest where
  requestId : String
  operation : String
  actorPublicKey : String
  signature : String
  params : Value

/-- `TransferRequest`. -/
structure TransferRequest where
  fromId : String
  toId : String
  amount : List U128

/-- `DrainRequest`. -/
structure DrainRequest where
  vectorId : String
  basisPoints : UInt16

/-- `ProjectRequest`. -/
structure ProjectRequest where
  vectorId : String
  projectedComponents : List U128
  escrowId : String

/-- `ReconstructRequest`. -/
structure ReconstructRequest where
  vectorId : String
  outcomeTag : String
  gains : List U128
  losses : List U128

/-- `CertifyRequest`, and `QueryVectorRequest`, which has the same fields. -/
structure VectorIdRequest where
  vectorId : String

/-- `QueryEventByHashRequest`. -/
structure QueryEventByHashRequest where
  eventHash : String

/-- `serde_json`'s reader of one type: from a text, and from a value. -/
structure Reader (α : Type) where
  fromStr : String → Except String α
  fromValue : Value → Except String α

/-- The readers that `serde` derives. -/
structure Serde where
  value : Reader Value
  submitRequest : Reader SubmitEventRequest
  submitRequests : Reader (List SubmitEventRequest)
  originCreate : Reader OriginRequest
  transfer : Reader TransferRequest
  drain : Reader DrainRequest
  project : Reader ProjectRequest
  reconstruct : Reader ReconstructRequest
  certify : Reader VectorIdRequest
  queryVector : Reader VectorIdRequest
  queryEventByHash : Reader QueryEventByHashRequest
  event : Reader VectorEvent

/-- `KernelInner`. -/
structure KernelInner where
  engine : KernelEngine
  lastError : Option String
  seenRequestIds : Std.ExtTreeSet String

/-- What `kernel_init` puts behind a handle. -/
def KernelInner.new : KernelInner where
  engine := KernelEngine.new
  lastError := none
  seenRequestIds := ∅

/-! ## Operations by name -/

/-- `operation_name`. -/
def operationName (operation : String) : String := toAsciiLowercase (trim operation)

/-- The arguments of an operation as a call of the engine. -/
def TransferRequest.call (params : TransferRequest) : Call :=
  .transfer params.fromId params.toId params.amount

def DrainRequest.call (params : DrainRequest) : Call :=
  .drain params.vectorId params.basisPoints

def ProjectRequest.call (params : ProjectRequest) : Call :=
  .project params.vectorId params.projectedComponents params.escrowId

def ReconstructRequest.call (params : ReconstructRequest) : Call :=
  .reconstruct params.vectorId ⟨params.outcomeTag, params.gains, params.losses⟩

def VectorIdRequest.call (params : VectorIdRequest) : Call := .certify params.vectorId

/-- An operation of the interface: the label of its errors, and how its parameters are
read. -/
structure Operation where
  label : String
  reader : Reader Call

/-- A reader followed by a conversion. -/
def Reader.map {α β : Type} (r : Reader α) (f : α → β) : Reader β where
  fromStr := fun input => (r.fromStr input).map f
  fromValue := fun v => (r.fromValue v).map f

namespace Serde

variable (serde : Serde)

def originCreateOperation : Operation := ⟨"origin_create", serde.originCreate.map .originCreate⟩
def transferOperation : Operation := ⟨"transfer", serde.transfer.map TransferRequest.call⟩
def drainOperation : Operation := ⟨"drain", serde.drain.map DrainRequest.call⟩
def projectOperation : Operation := ⟨"project", serde.project.map ProjectRequest.call⟩
def reconstructOperation : Operation :=
  ⟨"reconstruct", serde.reconstruct.map ReconstructRequest.call⟩
def certifyOperation : Operation := ⟨"certify", serde.certify.map VectorIdRequest.call⟩

/-- The operation under a name.  The match in `validate_operation_shape` and the one in
`execute_submit_request` have the same arms. -/
def operation (name : String) : Option Operation :=
  if name = "origin_create" ∨ name = "create" ∨ name = "origin" then
    some serde.originCreateOperation
  else if name = "transfer" then some serde.transferOperation
  else if name = "drain" then some serde.drainOperation
  else if name = "project" then some serde.projectOperation
  else if name = "reconstruct" then some serde.reconstructOperation
  else if name = "certify" then some serde.certifyOperation
  else none

/-- Read an operation's parameters; `context` follows the label in an error. -/
def readParams (context name : String) (params : Value) :
    Outcome String (Operation × Call) := do
  let op ← Outcome.okOr ("unsupported operation: " ++ name) (serde.operation name)
  let call ← (Outcome.ofResult (op.reader.fromValue params)).mapErr
    (fun e => op.label ++ context ++ e)
  return (op, call)

/-- `validate_operation_shape`. -/
def validateOperationShape (operation : String) (params : Value) : Outcome String Unit := do
  let _ ← serde.readParams " params invalid: " (operationName operation) params
  return ()

end Serde

/-! ## Validation of a request -/

section

variable (env : Platform) (serde : Serde)

/-- `canonical_submit_request_bytes`: everything but the signature. -/
def canonicalSubmitRequestBytes (request : SubmitEventRequest) : List UInt8 :=
  strBytes (env.jsonOfMap ((((∅ : BTreeMap String String).insert "request_id"
    request.requestId).insert "operation" request.operation).insert "actor_public_key"
    request.actorPublicKey |>.insert "params" (env.jsonOfValue request.params)))

/-- The reply of `validate_submit_request`. -/
structure RequestValidation where
  requestId : String
  operation : String
  shapeOk : Bool
  signatureOk : Bool

/-- `validate_submit_request`. -/
def validateSubmitRequest (inner : KernelInner) (request : SubmitEventRequest) :
    Outcome String RequestValidation := do
  Outcome.require (isBlank request.requestId = false) "missing request_id"
  Outcome.require (isBlank request.actorPublicKey = false) "missing actor_public_key"
  Outcome.require (isBlank request.signature = false) "missing signature"
  serde.validateOperationShape request.operation request.params
  Outcome.require (request.requestId ∉ inner.seenRequestIds)
    ("duplicate request_id: " ++ request.requestId)
  let verifyingKey ← verifyingKeyFromHex env request.actorPublicKey
  let signatureOk ← (verifyEventSignature env verifyingKey
    (canonicalSubmitRequestBytes env request) request.signature).mapErr
    (fun e => "request signature verification error: " ++ e)
  Outcome.require (signatureOk = true) "request signature verification failed"
  return { requestId := request.requestId, operation := request.operation, shapeOk := true,
           signatureOk := true }

/-! ## Replay summaries -/

/-- `compute_heads`: the hashes no event refers to, sorted and without repetitions. -/
def computeHeads (events : List VectorEvent) : List String :=
  if events = [] then []
  else
    let referenced := events.flatMap VectorEvent.parentHashes
    let heads := (events.filter (fun e => e.eventHash ∉ referenced)).map VectorEvent.eventHash
    (heads.insertionSort (· ≤ ·)).destutter (· ≠ ·)

/-- The reply of a replay. -/
structure ReplaySummary where
  stateRoot : StateRoot
  replayHash : String
  appliedEventHashes : List String
  finalState : BTreeMap String VectorState
  eventCount : UInt64
  latestClock : UInt64
  heads : List String
  verified : Bool

/-- The summary of a replay that was carried out. -/
def ReplayResult.summary (result : ReplayResult) (heads : List String) : ReplaySummary where
  stateRoot := result.stateRoot
  replayHash := result.replayHash
  appliedEventHashes := result.appliedEventHashes
  finalState := result.finalState
  eventCount := UInt64.ofNat result.appliedEventHashes.length
  latestClock := result.stateRoot.logicalClock
  heads := heads
  verified := true

/-- The summary of no events at all. -/
def emptySummary : ReplaySummary where
  stateRoot := computeStateRoot env [] 0
  replayHash := ""
  appliedEventHashes := []
  finalState := ∅
  eventCount := 0
  latestClock := 0
  heads := []
  verified := true

/-- `replay_from_events`. -/
def replayFromEvents (events : List VectorEvent) : Outcome String ReplaySummary := do
  let ordered ← if events = [] then .ok []
    else (topologicalOrder events).mapErr (fun e => "batch ordering error: " ++ e)
  if ordered = [] then return emptySummary env
  else
    let result ← (replayEvents env ordered).mapErr (fun e => "replay error: " ++ e)
    return result.summary (computeHeads ordered)

/-- `engine_replay_summary`. -/
def engineReplaySummary (eng : KernelEngine) : Outcome String ReplaySummary := do
  let replay ← (eng.replayCanonicalHistory env).mapErr KernelXError.text
  let events := eng.queryEvents
  let heads := computeHeads events
  let canonicalReplay ← replayFromEvents env events
  Outcome.require (canonicalReplay.stateRoot = replay.stateRoot)
    "replay divergence detected between engine replay and canonical batch replay"
  Outcome.require (canonicalReplay.replayHash = replay.replayHash)
    "replay hash divergence detected between engine replay and canonical batch replay"
  return replay.summary heads

/-! ## Executing an operation -/

/-- Whether `json!` can write a list of amounts. -/
def AmountsWritable (xs : List U128) : Prop := ∀ x ∈ xs, x.toNat ≤ u64Max

instance (xs : List U128) : Decidable (AmountsWritable xs) := List.decidableBAll _ xs

/-- Whether every amount of a projection can be written. -/
def ProjectionState.Writable (p : ProjectionState) : Prop :=
  AmountsWritable p.projectedComponents ∧ AmountsWritable p.settledComponents

instance (p : ProjectionState) : Decidable p.Writable :=
  inferInstanceAs (Decidable (AmountsWritable _ ∧ AmountsWritable _))

/-- Whether every amount of a state can be written. -/
def VectorStateV1.Writable (s : VectorStateV1) : Prop :=
  AmountsWritable s.components ∧ ∀ p ∈ s.projection, p.Writable

instance (s : VectorStateV1) : Decidable s.Writable :=
  inferInstanceAs (Decidable (AmountsWritable _ ∧ ∀ p ∈ s.projection, p.Writable))

/-- Whether `json!` can write a reply of the engine. -/
def Reply.Writable : Reply → Prop
  | .vector s => s.Writable
  | .vectors afterFrom afterTo => afterFrom.Writable ∧ afterTo.Writable
  | .region _ => True

instance (reply : Reply) : Decidable reply.Writable :=
  match reply with
  | .vector s => inferInstanceAs (Decidable s.Writable)
  | .vectors afterFrom afterTo =>
      inferInstanceAs (Decidable (afterFrom.Writable ∧ afterTo.Writable))
  | .region _ => isTrue trivial

/-- `json!` on a reply of the engine. -/
def Reply.json (reply : Reply) : Outcome String Reply :=
  if reply.Writable then .ok reply else .error .panicked

/-- The closure an operation hands to `execute_and_collect`: call the engine and write its
reply. -/
def engineOperation (now : ℕ → UInt64) (c : Call) : Proc KernelEngine String Reply := fun eng =>
  let (r, eng') := eng.call env now c
  (do let reply ← r.mapErr KernelXError.text; reply.json, eng')

/-- Run a procedure on the engine behind the handle. -/
def onEngine {α : Type} (x : Proc KernelEngine String α) : Proc KernelInner String α :=
  fun inner =>
    let (r, eng') := x.exec inner.engine
    (r, { inner with engine := eng' })

/-- `collect_new_events`: the events whose hash was not there before, in canonical order. -/
def collectNewEvents (before after : List VectorEvent) : List VectorEvent :=
  sortEvents (after.filter (fun e => e.eventHash ∉ before.map VectorEvent.eventHash))

/-- The reply of `execute_and_collect`. -/
structure OperationReply where
  operation : String
  result : Reply
  records : List VectorEvent
  eventCount : UInt64
  latestClock : UInt64
  replay : ReplaySummary

/-- `execute_and_collect`. -/
def executeAndCollect (operation : String) (f : Proc KernelEngine String Reply) :
    Proc KernelInner String OperationReply := do
  let beforeEvents ← Proc.read (fun inner => inner.engine.queryEvents)
  let operationResult ← onEngine f
  let afterEvents ← Proc.read (fun inner => inner.engine.queryEvents)
  let newEvents := collectNewEvents beforeEvents afterEvents
  Proc.lift (Outcome.require (newEvents ≠ [])
    (operation ++ " completed without emitting a canonical event"))
  let replay ← Proc.query (fun inner => engineReplaySummary env inner.engine)
  return {
    operation := operation
    result := operationResult
    records := newEvents
    eventCount := UInt64.ofNat afterEvents.length
    latestClock := replay.latestClock
    replay := replay }

/-- `execute_submit_request` up to where it has recorded the request's id. -/
def submitOperation (now : ℕ → UInt64) (request : SubmitEventRequest) :
    Proc KernelInner String OperationReply := do
  let _ ← Proc.query (fun inner => validateSubmitRequest env serde inner request)
  let (op, call) ← Proc.lift
    (serde.readParams " parse error: " (operationName request.operation) request.params)
  let result ← executeAndCollect env op.label (engineOperation env now call)
  Proc.write (fun inner =>
    { inner with seenRequestIds := inner.seenRequestIds.insert request.requestId })
  return result

end

/-! ## Sample readers

Readers of values for sample runs.  No sample run reads a text. -/

/-- A member of an object. -/
def Value.member (v : Value) (key : String) : Except String Value :=
  match v with
  | .object entries =>
      match entries.lookup key with
      | some member => .ok member
      | none => .error ("missing field " ++ key)
  | _ => .error "expected an object"

def Value.readString : Value → Except String String
  | .string s => .ok s
  | _ => .error "expected a string"

/-- A number below a bound. -/
def Value.readNat (bound : ℕ) : Value → Except String ℕ
  | .number (.posInt n) => if n.toNat < bound then .ok n.toNat else .error "number out of range"
  | _ => .error "expected a number"

def Value.readAmounts : Value → Except String (List U128)
  | .array items => items.mapM (fun item => (item.readNat (2 ^ 64)).map (BitVec.ofNat 128))
  | _ => .error "expected a sequence"

def Value.readOrigin (v : Value) : Except String OriginRequest := do
  return {
    vectorId := ← (← v.member "vector_id").readString
    ownerPubkey := ← (← v.member "owner_pubkey").readString
    spaceId := ← (← v.member "space_id").readString
    components := ← (← v.member "components").readAmounts
    seed := ← (← v.member "seed").readString
    nonce := UInt64.ofNat (← (← v.member "nonce").readNat (2 ^ 64))
    difficulty := UInt32.ofNat (← (← v.member "difficulty").readNat (2 ^ 32)) }

def Value.readTransfer (v : Value) : Except String TransferRequest := do
  return {
    fromId := ← (← v.member "from_id").readString
    toId := ← (← v.member "to_id").readString
    amount := ← (← v.member "amount").readAmounts }

def Value.readDrain (v : Value) : Except String DrainRequest := do
  return {
    vectorId := ← (← v.member "vector_id").readString
    basisPoints := UInt16.ofNat (← (← v.member "basis_points").readNat (2 ^ 16)) }

def Value.readProject (v : Value) : Except String ProjectRequest := do
  return {
    vectorId := ← (← v.member "vector_id").readString
    projectedComponents := ← (← v.member "projected_components").readAmounts
    escrowId := ← (← v.member "escrow_id").readString }

def Value.readReconstruct (v : Value) : Except String ReconstructRequest := do
  return {
    vectorId := ← (← v.member "vector_id").readString
    outcomeTag := ← (← v.member "outcome_tag").readString
    gains := ← (← v.member "gains").readAmounts
    losses := ← (← v.member "losses").readAmounts }

def Value.readVectorId (v : Value) : Except String VectorIdRequest := do
  return { vectorId := ← (← v.member "vector_id").readString }

/-- A reader of values alone. -/
def Reader.ofValue {α : Type} (fromValue : Value → Except String α) : Reader α where
  fromStr := fun _ => .error "expected value at line 1 column 1"
  fromValue := fromValue

/-- The reader of a type that sample runs do not read. -/
def Reader.unread {α : Type} : Reader α := .ofValue (fun _ => .error "invalid type")

/-- The readers of the sample runs. -/
def sampleSerde : Serde where
  value := .unread
  submitRequest := .unread
  submitRequests := .unread
  originCreate := .ofValue Value.readOrigin
  transfer := .ofValue Value.readTransfer
  drain := .ofValue Value.readDrain
  project := .ofValue Value.readProject
  reconstruct := .ofValue Value.readReconstruct
  certify := .ofValue Value.readVectorId
  queryVector := .unread
  queryEventByHash := .unread
  event := .unread

end VKernelX
