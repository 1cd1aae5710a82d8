/-
  Model/StateRoot.lean --- the root of the live state set, with the encoders of `state.rs`.

  `state.rs` has writers of its own under the names of `serialization.rs`; here they stand in
  a namespace.
-/
import VKernelX.Model.Serialization

set_option autoImplicit false

namespace VKernelX

namespace StateEncoding

/-- `write_u128`. -/
def writeU128 (v : U128) : List UInt8 := beBytes 16 v.toNat

/-- `write_str`. -/
def writeStr (value : String) : List UInt8 :=
  writeBeU64 (UInt64.ofNat (strBytes value).length) ++ strBytes value

/-- `write_vec_u128`. -/
def writeVecU128 (values : List U128) : List UInt8 :=
  writeBeU64 (UInt64.ofNat values.length) ++ values.flatMap writeU128

/-- `write_btreemap_str_str`. -/
def writeStrMap (map : BTreeMap String String) : List UInt8 :=
  writeBeU64 (UInt64.ofNat map.size) ++
    map.toList.flatMap (fun entry => writeStr entry.1 ++ writeStr entry.2)

/-- The tag of a vector type. -/
def vectorTypeTag : VectorType → String
  | .standard => "STANDARD"
  | .origin => "ORIGIN"
  | .projected => "PROJECTED"
  | .escrow => "ESCROW"
  | .settlement => "SETTLEMENT"
  | .locked => "LOCKED"

/-- `write_vector_type`. -/
def writeVectorType (value : VectorType) : List UInt8 := writeStr (vectorTypeTag value)

/-- The tag of a status. -/
def vectorStatusTag : VectorStatus → String
  | .active => "ACTIVE"
  | .projected => "PROJECTED"
  | .escrowed => "ESCROWED"
  | .settled => "SETTLED"
  | .archived => "ARCHIVED"

/-- `write_vector_status`. -/
def writeVectorStatus (value : VectorStatus) : List UInt8 := writeStr (vectorStatusTag value)

/-- An optional part: a flag, and the part if it is there. -/
def writeOption {α : Type} (write : α → List UInt8) (value : Option α) : List UInt8 :=
  match value with
  | some a => writeBool true ++ write a
  | none => writeBool false

/-- `write_certification_state`. -/
def writeCertificationState (value : CertificationState) : List UInt8 :=
  writeBool value.certified ++ writeBeU64 value.authRatio.toUInt64 ++
    writeBeU64 value.threshold.toUInt64 ++ writeBeU64 value.lastCheckedAtMs ++
    writeOption writeStr value.reason

/-- `write_projection_state`. -/
def writeProjectionState (value : ProjectionState) : List UInt8 :=
  writeStr value.escrowId ++ writeVecU128 value.projectedComponents ++
    writeVecU128 value.settledComponents ++ writeBeU64 value.startedAtMs ++
    writeOption writeBeU64 value.settlementAtMs ++ writeOption writeStr value.outcomeTag

/-- `write_origin_state`. -/
def writeOriginState (value : OriginState) : List UInt8 :=
  writeStr value.seed ++ writeBeU64 value.nonce ++ writeBeU64 value.difficulty.toUInt64 ++
    writeStr value.proofHash

/-- `canonical_vector_state_bytes`. -/
def canonicalVectorStateBytes (state : VectorStateV1) : List UInt8 :=
  writeStr state.schema ++ writeStr state.vectorId ++ writeStr state.ownerPubkey ++
    writeStr state.spaceId ++ writeVectorType state.vectorType ++
    writeVectorStatus state.status ++ writeVecU128 state.components ++
    writeStrMap state.typeMetadata ++ writeCertificationState state.certification ++
    writeOption writeProjectionState state.projection ++
    writeOption writeOriginState state.origin ++ writeBeU64 state.version ++
    writeBeU64 state.createdAtMs ++ writeBeU64 state.updatedAtMs

/-- One state of the root's bytes, after its length. -/
def writeState (state : VectorStateV1) : List UInt8 :=
  writeBeU64 (UInt64.ofNat (canonicalVectorStateBytes state).length) ++
    canonicalVectorStateBytes state

end StateEncoding

/-- The order in which `compute_state_root` writes states. -/
def stateSortKey (s : VectorStateV1) : String ×ₗ ℕ ×ₗ ℕ :=
  toLex (s.vectorId, toLex (s.version.toNat, s.updatedAtMs.toNat))

/-- The states in that order. -/
def orderStates (states : List VectorStateV1) : List VectorStateV1 :=
  states.insertionSort (fun a b => stateSortKey a ≤ stateSortKey b)

/-- The bytes that `compute_state_root` hashes. -/
def stateRootBytes (states : List VectorStateV1) (logicalClock : UInt64) : List UInt8 :=
  strBytes "v-kernelx/state-root-v1" ++ writeBeU64 (UInt64.ofNat (orderStates states).length) ++
    writeBeU64 logicalClock ++ (orderStates states).flatMap StateEncoding.writeState

/-- `compute_state_root`. -/
def computeStateRoot (env : Platform) (states : List VectorStateV1) (logicalClock : UInt64) :
    StateRoot where
  rootHash := env.blake3Hex (stateRootBytes states logicalClock)
  eventCount := UInt64.ofNat (orderStates states).length
  logicalClock := logicalClock

end VKernelX
