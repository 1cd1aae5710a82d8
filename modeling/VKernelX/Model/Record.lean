/-
  Model/Record.lean --- the vector records of `record.rs` and the acceptance policy of
  `consensus.rs`.
-/
import VKernelX.Model.Serialization

set_option autoImplicit false

namespace VKernelX

/-- `record.rs`, `OperationKind`. -/
inductive OperationKind where
  | originCreate
  | transfer
  | drain
  | project
  | reconstruct
  | certify
  | query
  | custom (name : String)
  deriving DecidableEq, Repr

/-- `record.rs`, `VectorRecordV1`. -/
structure VectorRecordV1 where
  schema : String
  recordId : String
  vectorId : String
  before : Option VectorStateV1
  after : VectorStateV1
  operation : OperationKind
  parameters : Value
  certification : CertificationState
  timestampMs : UInt64
  proof : String

section

variable (env : Platform)

mutual

/-- `canonical_json_bytes`.  The entries of an object are written in key order. -/
def canonicalJsonBytes : Value → List UInt8
  | .null => [0]
  | .bool b => [1, if b then 1 else 0]
  | .number n => 2 :: writeStr (env.jsonOfNumber n)
  | .string s => 3 :: writeStr s
  | .array items => 4 :: (writeBeU64 (UInt64.ofNat items.length) ++ canonicalItemBytes items)
  | .object entries =>
      5 :: (writeBeU64 (UInt64.ofNat entries.length) ++
        ((canonicalEntryBytes entries).insertionSort (fun a b => a.1 ≤ b.1)).flatMap
          (fun entry => writeStr entry.1 ++ entry.2))

/-- The items of an array, one after the other. -/
def canonicalItemBytes : List Value → List UInt8
  | [] => []
  | item :: items => canonicalJsonBytes item ++ canonicalItemBytes items

/-- Every entry of an object with its value's bytes. -/
def canonicalEntryBytes : List (String × Value) → List (String × List UInt8)
  | [] => []
  | (key, value) :: entries => (key, canonicalJsonBytes value) :: canonicalEntryBytes entries

end

/-- The operation tag of a record's bytes. -/
def OperationKind.tag : OperationKind → String
  | .originCreate => "ORIGIN_CREATE"
  | .transfer => "TRANSFER"
  | .drain => "DRAIN"
  | .project => "PROJECT"
  | .reconstruct => "RECONSTRUCT"
  | .certify => "CERTIFY"
  | .query => "QUERY"
  | .custom name => name

/-- A length-prefixed block of `record.rs`. -/
def writeBlock (bytes : List UInt8) : List UInt8 :=
  writeBeU64 (UInt64.ofNat bytes.length) ++ bytes

/-- `canonical_record_bytes`: every field but the proof. -/
def canonicalRecordBytes (r : VectorRecordV1) : List UInt8 :=
  writeBlock (strBytes r.schema) ++ writeBlock (strBytes r.recordId) ++
    writeBlock (strBytes r.vectorId) ++
    (match r.before with
      | some before => 1 :: writeBlock (env.jsonOfState before)
      | none => [0]) ++
    writeBlock (env.jsonOfState r.after) ++ writeBlock (strBytes r.operation.tag) ++
    writeBlock (canonicalJsonBytes env r.parameters) ++
    writeBlock (env.jsonOfCertification r.certification) ++ writeBeU64 r.timestampMs

/-- `VectorRecordV1::hash`.  The SHA-256 digest the source also computes is dropped there. -/
def VectorRecordV1.hash (r : VectorRecordV1) : String :=
  env.blake3Hex (canonicalRecordBytes env r)

/-- `VectorRecordV1::new`; `nowMs` is its reading of the clock. -/
def VectorRecordV1.new (recordId vectorId : String) (before : Option VectorStateV1)
    (after : VectorStateV1) (operation : OperationKind) (parameters : Value)
    (nowMs : UInt64) : VectorRecordV1 :=
  let r : VectorRecordV1 :=
    { schema := "v.kernelx/VectorRecordV1"
      recordId := recordId
      vectorId := vectorId
      before := before
      after := after
      operation := operation
      parameters := parameters
      certification := after.certification
      timestampMs := nowMs
      proof := "" }
  { r with proof := r.hash env }

/-- The text a record id is the hash of: operation name, vector id and discriminator. -/
def recordIdText (pre vectorId discriminator : String) : String :=
  pre ++ ":" ++ vectorId ++ ":" ++ discriminator

/-- `make_record_id`. -/
def makeRecordId (pre vectorId discriminator : String) : String :=
  env.blake3Hex (strBytes (recordIdText pre vectorId discriminator))

end

/-! ## Acceptance -/

/-- `consensus.rs`, `ConsensusPolicy`. -/
structure ConsensusPolicy where
  minAuthRatio : UInt16
  requireCertified : Bool
  deriving DecidableEq, Repr

/-- `ConsensusPolicy::default`. -/
def ConsensusPolicy.default : ConsensusPolicy := { minAuthRatio := 700, requireCertified := true }

/-- `accept_record`. -/
def acceptRecord (r : VectorRecordV1) (policy : ConsensusPolicy) : Bool :=
  if policy.requireCertified && !r.certification.certified then false
  else policy.minAuthRatio ≤ r.certification.authRatio

end VKernelX
