/-
  Model/Snapshot.lean --- what a replay is held against: the snapshots of `snapshot.rs`, and
  `verify_replay`.
-/
import VKernelX.Model.Replay

set_option autoImplicit false

namespace VKernelX

/-- `CanonicalSerialize` for `BTreeMap<String, V>`, from the writer of `V`. -/
def canonicalMapBytes {β : Type} (write : β → List UInt8) (map : BTreeMap String β) :
    List UInt8 :=
  writeU64 (UInt64.ofNat map.size) ++
    map.toList.flatMap (fun entry => writeStr entry.1 ++ write entry.2)

/-- `StateRoot::canonical_bytes`. -/
def StateRoot.canonicalBytes (root : StateRoot) : List UInt8 :=
  writeStr root.rootHash ++ writeU64 root.eventCount ++ writeU64 root.logicalClock

section

variable (env : Platform)

/-- `canonical_state_root_hash`. -/
def canonicalStateRootHash (root : StateRoot) : String := env.blake3Hex root.canonicalBytes

/-- `canonical_tagged_hash`. -/
def canonicalTaggedHash (tag : String) (payload : List UInt8) : String :=
  env.blake3Hex (canonicalBlobBytes tag payload)

/-- `create_snapshot`. -/
def createSnapshot (replayResult : ReplayResult) (dagHeads : List String) (createdAt : UInt64) :
    Snapshot :=
  let stateBytes := canonicalMapBytes VectorState.canonicalBytes replayResult.finalState
  { snapshotId := canonicalTaggedHash env "snapshot-v1" stateBytes
    stateRoot := replayResult.stateRoot
    eventRoot := replayResult.replayHash
    replayHash := replayResult.replayHash
    eventCount := replayResult.stateRoot.eventCount
    logicalClock := replayResult.stateRoot.logicalClock
    dagHeads := dagHeads
    stateBytes := stateBytes
    createdAt := createdAt }

/-- `verify_snapshot`. -/
def verifySnapshot (snapshot : Snapshot) (currentState : BTreeMap String VectorState)
    (currentReplayHash : String) : Outcome String Bool :=
  let expectedStateBytes := canonicalMapBytes VectorState.canonicalBytes currentState
  let expectedSnapshotId := canonicalTaggedHash env "snapshot-v1" expectedStateBytes
  let expectedRootHash := canonicalStateRootHash env snapshot.stateRoot
  .ok (snapshot.snapshotId == expectedSnapshotId && snapshot.stateBytes == expectedStateBytes &&
    snapshot.replayHash == currentReplayHash && expectedRootHash != "")

/-- `replay.rs`, `verify_replay`. -/
def verifyReplay (events : List VectorEvent) (expectedStateRoot : StateRoot)
    (expectedReplayHash : String) : Outcome String Bool := do
  let result ← replayEvents env events
  return decide (result.stateRoot = expectedStateRoot) && result.replayHash == expectedReplayHash

end

end VKernelX
