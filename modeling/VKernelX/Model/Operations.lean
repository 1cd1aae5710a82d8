/-
  Model/Operations.lean --- the vector operations the engine coordinates:
  `certification.rs`, `drain.rs`, `projection.rs`, `reconstruction.rs`, `origin.rs` and
  `transfer.rs`.

  Each is a function from vector states to vector states.  A function that reads the
  clock takes its readings as arguments.
-/
import VKernelX.Model.Record

set_option autoImplicit false

namespace VKernelX

section

variable (env : Platform)

/-! ## Certification -/

/-- `compute_auth_ratio`. -/
def computeAuthRatio (s : VectorStateV1) (ownershipVerified structureVerified : Bool) :
    Outcome KernelXError UInt16 := do
  let magnitude ← s.magnitude env.overflowChecks
  let magnitudeScore := if magnitude = 0 then 100 else 400
  let directionScore := if s.components = [] then 0 else 200
  let ownershipScore := if ownershipVerified then 300 else 0
  let structureScore := if structureVerified then 100 else 0
  let total := magnitudeScore + directionScore + ownershipScore + structureScore
  return UInt16.ofNat (min total 1000)

/-- `certify_state`; `nowMs` is its reading of the clock. -/
def certifyState (s : VectorStateV1) (ownershipVerified structureVerified : Bool)
    (nowMs : UInt64) : Outcome KernelXError CertificationState := do
  let authRatio ← computeAuthRatio env s ownershipVerified structureVerified
  let threshold := s.certification.threshold
  return {
    certified := threshold ≤ authRatio
    authRatio := authRatio
    threshold := threshold
    lastCheckedAtMs := nowMs
    reason :=
      if threshold ≤ authRatio then none
      else some ("auth_ratio " ++ decimal authRatio.toNat ++ " below threshold " ++
        decimal threshold.toNat) }

/-! ## Drain -/

/-- `apply_drain`: the drained amounts and the remaining ones. -/
def applyDrain (amounts : List U128) (basisPoints authRatio threshold : UInt16) :
    Outcome KernelXError (List U128 × List U128) := do
  Outcome.require (basisPoints ≤ 10000) (.rejected "drain basis points must be <= 10000")
  let discount := if threshold ≤ authRatio then basisPoints / 2 else basisPoints
  let fee := fun amount : U128 =>
    saturatingMul amount (BitVec.ofNat 128 discount.toNat) / 10000
  return (amounts.map fee, amounts.map (fun amount => saturatingSub amount (fee amount)))

/-! ## Projection and reconstruction -/

/-- `project_vector`; `nowMs` is its reading of the clock. -/
def projectVector (s : VectorStateV1) (projectedComponents : List U128) (escrowId : String)
    (nowMs : UInt64) : Outcome KernelXError VectorStateV1 := do
  Outcome.require (projectedComponents.length = s.components.length) .dimensionMismatch
  Outcome.require ((projectedComponents.zip s.components).all (fun pc => pc.1 ≤ pc.2) = true)
    .insufficientBalance
  let version ← u64Succ env.overflowChecks s.version
  return { s with
    components := (s.components.zip projectedComponents).map
      (fun cp => saturatingSub cp.1 cp.2)
    status := .projected
    vectorType := .projected
    projection := some {
      escrowId := escrowId
      projectedComponents := projectedComponents
      settledComponents := []
      startedAtMs := nowMs
      settlementAtMs := none
      outcomeTag := none }
    updatedAtMs := nowMs
    version := version }

/-- `reconstruction.rs`, `SettlementOutcome`. -/
structure SettlementOutcome where
  outcomeTag : String
  gains : List U128
  losses : List U128
  deriving DecidableEq

/-- The loop of `reconstruct_vector`, from position `index` on: what each principal
settles to is collected in `settled` and added to the slot at its position. -/
def settleLoop : ℕ → List ((U128 × U128) × U128) → List U128 → List U128 →
    Outcome KernelXError (List U128 × List U128)
  | _, [], restored, settled => .ok (restored, settled)
  | index, ((principal, gain), loss) :: rest, restored, settled =>
      let afterGain := saturatingAdd principal gain
      if afterGain < loss then
        Outcome.fail (.settlementRejected "loss exceeds projected value")
      else
        let net := afterGain - loss
        let restored' :=
          match restored[index]? with
          | some slot => restored.set index (saturatingAdd slot net)
          | none => restored ++ [net]
        settleLoop (index + 1) rest restored' (settled ++ [net])

/-- `reconstruct_vector`; `nowMs` is its reading of the clock. -/
def reconstructVector (s : VectorStateV1) (outcome : SettlementOutcome) (nowMs : UInt64) :
    Outcome KernelXError VectorStateV1 := do
  let projection ← Outcome.okOr (.settlementRejected "missing projection") s.projection
  Outcome.require (projection.projectedComponents.length = outcome.gains.length ∧
    projection.projectedComponents.length = outcome.losses.length) .dimensionMismatch
  let (restored, settled) ← settleLoop 0
    ((projection.projectedComponents.zip outcome.gains).zip outcome.losses) s.components []
  let version ← u64Succ env.overflowChecks s.version
  return { s with
    components := restored
    projection := some { projection with
      settledComponents := settled
      settlementAtMs := some nowMs
      outcomeTag := some outcome.outcomeTag }
    vectorType := .settlement
    status := .settled
    updatedAtMs := nowMs
    version := version }

/-! ## Origin -/

/-- `origin_proof_hash`. -/
def originProofHash (seed : String) (nonce : UInt64) : String :=
  env.blake3Hex (strBytes seed ++ beBytes 8 nonce.toNat)

/-- `verify_origin`: the proof shows at least `difficulty` leading zero digits. -/
def verifyOrigin (seed : String) (nonce : UInt64) (difficulty : UInt32) : Bool :=
  let leadingZeroNibbles :=
    UInt32.ofNat ((originProofHash env seed nonce).toList.takeWhile (· = '0')).length
  difficulty ≤ leadingZeroNibbles

/-- `create_origin_vector`; `nowMs` is its reading of the clock. -/
def createOriginVector (vectorId ownerPubkey spaceId : String) (components : List U128)
    (seed : String) (nonce : UInt64) (difficulty : UInt32) (nowMs : UInt64) :
    Outcome KernelXError VectorStateV1 := do
  Outcome.require (verifyOrigin env seed nonce difficulty = true) .originRejected
  let s := VectorStateV1.new vectorId ownerPubkey spaceId components .origin nowMs
  return { s with
    origin := some {
      seed := seed
      nonce := nonce
      difficulty := difficulty
      proofHash := originProofHash env seed nonce }
    certification := { s.certification with
      certified := true
      authRatio := 1000
      reason := none } }

/-! ## Transfer -/

/-- `transfer_components`: the sender and the receiver after the transfer. -/
def transferComponents (sender receiver : VectorStateV1) (amount : List U128) :
    Outcome KernelXError (VectorStateV1 × VectorStateV1) := do
  sender.ensureSameShape receiver
  Outcome.require (sender.components.length = amount.length) .dimensionMismatch
  Outcome.require ((amount.zip sender.components).all (fun ab => ab.1 ≤ ab.2) = true)
    .insufficientBalance
  return (
    { sender with
      components := (sender.components.zip amount).map (fun ca => saturatingSub ca.1 ca.2)
      vectorType := .standard },
    { receiver with
      components := (receiver.components.zip amount).map (fun ca => saturatingAdd ca.1 ca.2)
      vectorType := .standard })

/-- The parameters of a transfer record. -/
def transferParams (direction : String) (amount : List U128) (version : UInt64) :
    Outcome KernelXError Value := do
  let amounts ← Value.ofU128s amount
  return .object [("amount", amounts), ("direction", .string direction),
    ("version", Value.ofU64 version)]

/-- One side of `transfer_record`. -/
def transferSideRecord (direction : String) (before after : VectorStateV1)
    (amount : List U128) (nowMs : UInt64) : Outcome KernelXError VectorRecordV1 := do
  let params ← transferParams direction amount after.version
  return VectorRecordV1.new env
    (makeRecordId env ("transfer-" ++ direction) after.vectorId (env.jsonOfValue params))
    after.vectorId (some before) after .transfer params nowMs

/-- `transfer_record`; it reads the clock four times. -/
def transferRecord (beforeFrom beforeTo afterFrom afterTo : VectorStateV1)
    (amount : List U128) (now : ℕ → UInt64) :
    Outcome KernelXError (VectorRecordV1 × VectorRecordV1) := do
  let senderCert ← certifyState env afterFrom true true (now 0)
  let receiverCert ← certifyState env afterTo true true (now 1)
  let sender ← transferSideRecord env "out" beforeFrom afterFrom amount (now 2)
  let receiver ← transferSideRecord env "in" beforeTo afterTo amount (now 3)
  return ({ sender with certification := senderCert },
    { receiver with certification := receiverCert })

end

end VKernelX
