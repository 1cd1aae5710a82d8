/-
  Model/Mirror.lean --- the Python mirror of the kernel: `python/v_kernelx/model.py` and
  `python/v_kernelx/engine.py`.

  Python's integers have no bound, and a vector is an object that operations change in
  place: `states` maps vector ids to references.  Every operation also writes a record; the
  records are read by none of these operations and are left out.
-/
import VKernelX.Foundation.Objects
import VKernelX.Model.State

set_option autoImplicit false

namespace VKernelX.Mirror

/-! ## The data model -/

/-- `model.py`, `CertificationState`. -/
structure CertificationState where
  certified : Bool
  authRatio : ℤ
  threshold : ℤ
  lastCheckedAtMs : ℤ
  reason : Option String
  deriving DecidableEq, Repr

/-- `model.py`, `ProjectionState`. -/
structure ProjectionState where
  escrowId : String
  projectedComponents : List ℤ
  settledComponents : List ℤ
  startedAtMs : ℤ
  settlementAtMs : Option ℤ
  outcomeTag : Option String
  deriving DecidableEq, Repr

/-- `model.py`, `OriginState`. -/
structure OriginState where
  seed : String
  nonce : ℤ
  difficulty : ℤ
  proofHash : String
  deriving DecidableEq, Repr

/-- `model.py`, `VectorStateV1`.  The two enumerations have the members they have in
`state.rs`. -/
structure VectorStateV1 where
  schema : String
  vectorId : String
  ownerPubkey : String
  spaceId : String
  vectorType : VectorType
  status : VectorStatus
  components : List ℤ
  typeMetadata : BTreeMap String String
  certification : CertificationState
  projection : Option ProjectionState
  origin : Option OriginState
  version : ℤ
  createdAtMs : ℤ
  updatedAtMs : ℤ
  deriving DecidableEq

namespace VectorStateV1

/-- `VectorStateV1.new`. -/
def new (vectorId ownerPubkey spaceId : String) (components : List ℤ) (vectorType : VectorType)
    (now : ℤ) : VectorStateV1 where
  schema := stateSchemaV1
  vectorId := vectorId
  ownerPubkey := ownerPubkey
  spaceId := spaceId
  vectorType := vectorType
  status := .active
  components := components
  typeMetadata := ∅
  certification :=
    { certified := false
      authRatio := 0
      threshold := 700
      lastCheckedAtMs := now
      reason := some "not yet certified" }
  projection := none
  origin := none
  version := 1
  createdAtMs := now
  updatedAtMs := now

/-- `VectorStateV1.is_zero`. -/
def isZero (s : VectorStateV1) : Bool := s.components.all (fun v => v = 0)

end VectorStateV1

/-! ## The kernel -/

/-- The exceptions the operations raise. -/
inductive PyError where
  | keyError (key : String)
  | valueError (message : String)
  deriving DecidableEq, Repr

/-- `engine.py`, `VectorKernel`: its `states`. -/
abbrev VectorKernel : Type := Objects String VectorStateV1

/-- A method of the kernel. -/
abbrev KernelProc (α : Type) : Type := Proc VectorKernel PyError α

/-- `self.states[vector_id]`: a reference. -/
def stateRef (vectorId : String) : KernelProc ℕ :=
  Proc.query (fun k => Outcome.okOr (.keyError vectorId) k.names[vectorId]?)

/-- The object behind a reference as it is now. -/
def deref (ref : ℕ) : KernelProc VectorStateV1 :=
  Proc.query (fun k => Outcome.unwrap k.heap[ref]?)

/-- Assignments to attributes of the object behind a reference. -/
def modify (ref : ℕ) (f : VectorStateV1 → VectorStateV1) : KernelProc Unit :=
  Proc.write (fun k => k.modify ref f)

/-- `self.states[vector_id] = state`. -/
def storeRef (vectorId : String) (ref : ℕ) : KernelProc Unit :=
  Proc.write (fun k => k.assign vectorId ref)

/-- `_certify_state`. -/
def certifyState (now : ℤ) (s : VectorStateV1) : CertificationState :=
  let auth : ℤ := if s.ownerPubkey ≠ "" then 1000 else 0
  let auth := if s.isZero then max auth 100 else auth
  if s.schema ≠ stateSchemaV1 ∨ s.vectorId = "" ∨ s.spaceId = "" then
    { certified := false
      authRatio := 0
      threshold := 700
      lastCheckedAtMs := now
      reason := some "invalid canonical state" }
  else
    { certified := s.certification.threshold ≤ auth
      authRatio := auth
      threshold := s.certification.threshold
      lastCheckedAtMs := now
      reason := if s.certification.threshold ≤ auth then none else some "below threshold" }

/-- The state with a new certification. -/
def certified (now : ℤ) (s : VectorStateV1) : VectorStateV1 :=
  { s with certification := certifyState now s }

/-- `create_origin`; `sha256Hex` is `hashlib.sha256(bytes).hexdigest()`. -/
def createOrigin (sha256Hex : List UInt8 → String) (now : ℕ → ℤ)
    (vectorId ownerPubkey spaceId : String) (components : List ℤ) (seed : String)
    (nonce difficulty : ℤ) : KernelProc ℕ := do
  let proof := sha256Hex (strBytes (seed ++ ":" ++ toString nonce))
  Proc.lift (Outcome.require (difficulty ≤ (proof.toList.takeWhile (· = '0')).length)
    (.valueError "origin proof rejected"))
  let s := { VectorStateV1.new vectorId ownerPubkey spaceId components .origin (now 0) with
    origin := some { seed := seed, nonce := nonce, difficulty := difficulty, proofHash := proof } }
  let ref ← Proc.read (fun k => k.heap.length)
  Proc.write (fun k => k.alloc (certified (now 1) s))
  storeRef vectorId ref
  return ref

/-- `transfer`. -/
def transfer (now : ℕ → ℤ) (fromId toId : String) (amount : List ℤ) : KernelProc (ℕ × ℕ) := do
  let sender ← stateRef fromId
  let receiver ← stateRef toId
  let senderState ← deref sender
  let receiverState ← deref receiver
  Proc.lift (Outcome.require
    (senderState.components.length = receiverState.components.length ∧
      amount.length = senderState.components.length) (.valueError "dimension mismatch"))
  Proc.lift (Outcome.require
    ((amount.zip senderState.components).all (fun as => as.1 ≤ as.2) = true)
    (.valueError "insufficient balance"))
  -- The receiver's components are read after the sender's were assigned.
  modify sender (fun s =>
    { s with components := (s.components.zip amount).map (fun sa => sa.1 - sa.2) })
  modify receiver (fun r =>
    { r with components := (r.components.zip amount).map (fun ra => ra.1 + ra.2) })
  modify sender (certified (now 0))
  modify receiver (certified (now 1))
  storeRef fromId sender
  storeRef toId receiver
  return (sender, receiver)

/-! ## Operations on one vector

`drain`, `project` and `reconstruct` share one course: look the object up, check the
arguments, assign the new attributes, and certify the result. -/

/-- The shared course, from what a particular operation makes of the object. -/
def updateObject (vectorId : String) (now : ℤ)
    (next : VectorStateV1 → Outcome PyError VectorStateV1) : KernelProc ℕ := do
  let ref ← stateRef vectorId
  let s ← deref ref
  let after ← Proc.lift (next s)
  modify ref (fun _ => after)
  modify ref (certified now)
  storeRef vectorId ref
  return ref

/-- What `drain` makes of a vector. -/
def drainNext (basisPoints : ℤ) (s : VectorStateV1) : Outcome PyError VectorStateV1 := do
  Outcome.require (basisPoints ≤ 10000) (.valueError "drain too large")
  let discount :=
    if s.certification.threshold ≤ s.certification.authRatio then basisPoints / 2
    else basisPoints
  return { s with components := s.components.map (fun c => c - c * discount / 10000) }

/-- `drain`. -/
def drain (now : ℕ → ℤ) (vectorId : String) (basisPoints : ℤ) : KernelProc ℕ :=
  updateObject vectorId (now 0) (drainNext basisPoints)

/-- What `project` makes of a vector. -/
def projectNext (now : ℤ) (projectedComponents : List ℤ) (escrowId : String)
    (s : VectorStateV1) : Outcome PyError VectorStateV1 := do
  Outcome.require (projectedComponents.length = s.components.length)
    (.valueError "dimension mismatch")
  Outcome.require ((projectedComponents.zip s.components).all (fun pc => pc.1 ≤ pc.2) = true)
    (.valueError "insufficient balance")
  return { s with
    components := (s.components.zip projectedComponents).map (fun cp => cp.1 - cp.2)
    vectorType := .projected
    status := .projected
    projection := some {
      escrowId := escrowId
      projectedComponents := projectedComponents
      settledComponents := []
      startedAtMs := now
      settlementAtMs := none
      outcomeTag := none } }

/-- `project`. -/
def project (now : ℕ → ℤ) (vectorId : String) (projectedComponents : List ℤ)
    (escrowId : String) : KernelProc ℕ :=
  updateObject vectorId (now 1) (projectNext (now 0) projectedComponents escrowId)

/-- The first loop of `reconstruct`: what each principal settles to. -/
def settle : List ((ℤ × ℤ) × ℤ) → List ℤ → Outcome PyError (List ℤ)
  | [], settled => .ok settled
  | ((principal, gain), loss) :: rest, settled =>
      let value := principal + gain - loss
      if value < 0 then Outcome.fail (.valueError "settlement rejected")
      else settle rest (settled ++ [value])

/-- The second loop of `reconstruct`: the settled values are added from position `idx` on. -/
def addSettled : ℕ → List ℤ → List ℤ → List ℤ
  | _, [], components => components
  | idx, value :: rest, components =>
      addSettled (idx + 1) rest
        (match components[idx]? with
        | some c => components.set idx (c + value)
        | none => components ++ [value])

/-- What `reconstruct` makes of a vector. -/
def reconstructNext (now : ℤ) (gains losses : List ℤ) (outcomeTag : String)
    (s : VectorStateV1) : Outcome PyError VectorStateV1 := do
  let projection ← Outcome.okOr (.valueError "missing projection") s.projection
  Outcome.require (gains.length = losses.length ∧
    gains.length = projection.projectedComponents.length) (.valueError "dimension mismatch")
  let settled ← settle ((projection.projectedComponents.zip gains).zip losses) []
  return { s with
    components := addSettled 0 settled s.components
    projection := some { projection with
      settledComponents := settled
      settlementAtMs := some now
      outcomeTag := some outcomeTag }
    vectorType := .settlement
    status := .settled }

/-- `reconstruct`. -/
def reconstruct (now : ℕ → ℤ) (vectorId : String) (gains losses : List ℤ)
    (outcomeTag : String) : KernelProc ℕ :=
  updateObject vectorId (now 1) (reconstructNext (now 0) gains losses outcomeTag)

end VKernelX.Mirror
