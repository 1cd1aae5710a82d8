/-
  Model/Event.lean --- kernel errors, and the canonical events of `event.rs`.
-/
import VKernelX.Foundation.OrderedMap
import VKernelX.Foundation.Machine
import VKernelX.Foundation.Text

set_option autoImplicit false

namespace VKernelX

/-- `error.rs`, `KernelXError`. -/
inductive KernelXError where
  | zeroNormalization
  | notCertified
  | invalidState (reason : String)
  | signature
  | walletNotFound
  | vectorNotFound
  | insufficientBalance
  | dimensionMismatch
  | rejected (reason : String)
  | storage (reason : String)
  | originRejected
  | settlementRejected (reason : String)
  | replay (reason : String)
  | snapshot (reason : String)
  | serialization (reason : String)
  | validation (reason : String)
  deriving DecidableEq, Repr

/-- The text of an error. -/
def KernelXError.text : KernelXError → String
  | .zeroNormalization => "zero vector cannot be normalized"
  | .notCertified => "vector not certified"
  | .invalidState reason => "invalid vector state: " ++ reason
  | .signature => "signature verification failed"
  | .walletNotFound => "wallet not found"
  | .vectorNotFound => "vector not found"
  | .insufficientBalance => "insufficient balance"
  | .dimensionMismatch => "dimension mismatch"
  | .rejected reason => "operation rejected: " ++ reason
  | .storage reason => "storage error: " ++ reason
  | .originRejected => "origin proof rejected"
  | .settlementRejected reason => "settlement rejected: " ++ reason
  | .replay reason => "replay failed: " ++ reason
  | .snapshot reason => "snapshot error: " ++ reason
  | .serialization reason => "serialization error: " ++ reason
  | .validation reason => "validation error: " ++ reason

/-- `event.rs`, `OperationType`. -/
inductive OperationType where
  | originCreate
  | certify
  | transfer
  | drain
  | project
  | reconstruct
  | move
  | rotate
  | scale
  | normalize
  | constrain
  | query
  | record
  | other (name : String)
  deriving DecidableEq, Repr, Inhabited

/-- `OperationType::canonical_name`. -/
def OperationType.canonicalName : OperationType → String
  | .originCreate => "ORIGIN_CREATE"
  | .certify => "CERTIFY"
  | .transfer => "TRANSFER"
  | .drain => "DRAIN"
  | .project => "PROJECT"
  | .reconstruct => "RECONSTRUCT"
  | .move => "MOVE"
  | .rotate => "ROTATE"
  | .scale => "SCALE"
  | .normalize => "NORMALIZE"
  | .constrain => "CONSTRAIN"
  | .query => "QUERY"
  | .record => "RECORD"
  | .other _ => "OTHER"

/-- `event.rs`, `VectorState`: the vector as events carry it. -/
structure VectorState where
  components : List UInt64
  ownerPublicKey : String
  typeTag : String
  metadata : BTreeMap String String
  deriving DecidableEq, Inhabited

/-- `VectorState::zero`. -/
def VectorState.zero (dimensions : ℕ) (ownerPublicKey typeTag : String) : VectorState where
  components := List.replicate dimensions 0
  ownerPublicKey := ownerPublicKey
  typeTag := typeTag
  metadata := ∅

/-- `event.rs`, `VectorEvent`. -/
structure VectorEvent where
  eventId : String
  parentHashes : List String
  regionId : String
  entityId : String
  operation : OperationType
  vectorBefore : VectorState
  vectorAfter : VectorState
  authRatio : F64
  certified : Bool
  actorPublicKey : String
  logicalClock : UInt64
  timestamp : UInt64
  payloadHash : String
  eventHash : String
  signature : String
  deriving DecidableEq, Inhabited

/-- `VectorEvent::canonical_event_id`. -/
def canonicalEventId (entityId regionId : String) (operation : OperationType)
    (logicalClock sequence : UInt64) : String :=
  entityId ++ "::" ++ regionId ++ "::" ++ operation.canonicalName ++ "::" ++
    decimal logicalClock.toNat ++ "::" ++ decimal sequence.toNat

/-- An event id shows its separators, so it is never blank. -/
theorem isBlank_canonicalEventId (entityId regionId : String) (operation : OperationType)
    (logicalClock sequence : UInt64) :
    isBlank (canonicalEventId entityId regionId operation logicalClock sequence) = false := by
  apply isBlank_eq_false_of_mem (c := ':')
  · simp [canonicalEventId, String.toList_append]
  · decide

end VKernelX
