/-
  Model/State.lean --- the canonical vector state of `state.rs`.
-/
import VKernelX.Model.Event

set_option autoImplicit false

namespace VKernelX

/-- `STATE_SCHEMA_V1`. -/
def stateSchemaV1 : String := "v.kernelx/VectorStateV1"

/-- `state.rs`, `VectorType`. -/
inductive VectorType where
  | standard
  | origin
  | projected
  | escrow
  | settlement
  | locked
  deriving DecidableEq, Repr

/-- The derived `Debug` text of a vector type. -/
def VectorType.debugName : VectorType → String
  | .standard => "Standard"
  | .origin => "Origin"
  | .projected => "Projected"
  | .escrow => "Escrow"
  | .settlement => "Settlement"
  | .locked => "Locked"

/-- `state.rs`, `VectorStatus`. -/
inductive VectorStatus where
  | active
  | projected
  | escrowed
  | settled
  | archived
  deriving DecidableEq, Repr

/-- `state.rs`, `CertificationState`. -/
structure CertificationState where
  certified : Bool
  authRatio : UInt16
  threshold : UInt16
  lastCheckedAtMs : UInt64
  reason : Option String
  deriving DecidableEq, Repr

/-- `state.rs`, `ProjectionState`. -/
structure ProjectionState where
  escrowId : String
  projectedComponents : List U128
  settledComponents : List U128
  startedAtMs : UInt64
  settlementAtMs : Option UInt64
  outcomeTag : Option String
  deriving DecidableEq, Repr

/-- `state.rs`, `OriginState`. -/
structure OriginState where
  seed : String
  nonce : UInt64
  difficulty : UInt32
  proofHash : String
  deriving DecidableEq, Repr

/-- `state.rs`, `VectorStateV1`. -/
structure VectorStateV1 where
  schema : String
  vectorId : String
  ownerPubkey : String
  spaceId : String
  vectorType : VectorType
  status : VectorStatus
  components : List U128
  typeMetadata : BTreeMap String String
  certification : CertificationState
  projection : Option ProjectionState
  origin : Option OriginState
  version : UInt64
  createdAtMs : UInt64
  updatedAtMs : UInt64
  deriving DecidableEq

/-- `state.rs`, `StateRoot`. -/
structure StateRoot where
  rootHash : String
  eventCount : UInt64
  logicalClock : UInt64
  deriving DecidableEq, Repr

namespace VectorStateV1

/-- `VectorStateV1::new`. -/
def new (vectorId ownerPubkey spaceId : String) (components : List U128)
    (vectorType : VectorType) (timestampMs : UInt64) : VectorStateV1 where
  schema := stateSchemaV1
  vectorId := vectorId
  ownerPubkey := ownerPubkey
  spaceId := spaceId
  vectorType := vectorType
  status := .active
  components := components
  typeMetadata := ∅
  certification :=
    { certified := false
      authRatio := 0
      threshold := 700
      lastCheckedAtMs := timestampMs
      reason := some "not yet certified" }
  projection := none
  origin := none
  version := 1
  createdAtMs := timestampMs
  updatedAtMs := timestampMs

/-- `VectorStateV1::magnitude`. -/
def magnitude (overflowChecks : Bool) (s : VectorStateV1) : Outcome KernelXError U128 :=
  u128Sum overflowChecks s.components

/-- `VectorStateV1::ensure_same_shape`. -/
def ensureSameShape (s other : VectorStateV1) : Outcome KernelXError Unit :=
  Outcome.require (s.components.length = other.components.length) .dimensionMismatch

/-- Component `i` as a number. -/
def component (s : VectorStateV1) (i : ℕ) : ℕ := amountAt s.components i

end VectorStateV1

/-- `validate_canonical_state`; `validation.rs`, `validate_state` is this function. -/
def validateState (s : VectorStateV1) : Outcome KernelXError Unit := do
  Outcome.require (s.schema = stateSchemaV1) (.invalidState "schema mismatch")
  Outcome.require (s.components ≠ [])
    (.invalidState "a vector must contain at least one component")
  Outcome.require (¬ (s.ownerPubkey = "" ∨ s.vectorId = "" ∨ s.spaceId = ""))
    (.invalidState "vector_id, owner_pubkey, and space_id are required")

/-- What `validateState` accepts. -/
structure CanonicalState (s : VectorStateV1) : Prop where
  schema : s.schema = stateSchemaV1
  components : s.components ≠ []
  ownerPubkey : s.ownerPubkey ≠ ""
  vectorId : s.vectorId ≠ ""
  spaceId : s.spaceId ≠ ""

theorem validateState_eq_ok_iff {s : VectorStateV1} {u : Unit} :
    validateState s = .ok u ↔ CanonicalState s := by
  simp only [validateState, Outcome.bind_eq_ok_iff, Outcome.require_eq_ok_iff, not_or]
  constructor
  · rintro ⟨_, hschema, _, hcomponents, howner, hid, hspace⟩
    exact ⟨hschema, hcomponents, howner, hid, hspace⟩
  · rintro ⟨hschema, hcomponents, howner, hid, hspace⟩
    exact ⟨(), hschema, (), hcomponents, howner, hid, hspace⟩

theorem validateState_isErr_iff {s : VectorStateV1} :
    (validateState s).IsErr ↔ ¬ CanonicalState s := by
  rw [← validateState_eq_ok_iff (u := ()), validateState]
  simp only [Outcome.require]
  split
  · simp only [Outcome.ok_bind]
    split
    · simp only [Outcome.ok_bind]
      split <;> simp [Outcome.fail]
    · simp [Outcome.fail]
  · simp [Outcome.fail]

end VKernelX
