/-
  Replay/SnapshotRoots.lean --- which fields of a snapshot its verification covers.

  A snapshot is held against a state and a replay hash by its id, its state bytes and its
  replay hash.  Of its state root only the hash is formed, and a hash is never empty; so the
  root, the event root, the count and the clock may hold anything.  Only where a snapshot was
  made does its root belong to the state: `create_snapshot` copies it from a replay.
-/
import VKernelX.Encoding.Commitments
import VKernelX.Replay.OrderIndependence

set_option autoImplicit false

namespace VKernelX

/-! ## Snapshots that fit together -/

/-- The root, the count, the clock and the event root of a snapshot belong to its state bytes
and its replay hash. -/
structure Snapshot.RootFits (env : Platform) (snapshot : Snapshot) : Prop where
  stateRoot : snapshot.stateRoot = computeStateRootFromCanonicalBytes env snapshot.stateBytes
    snapshot.eventCount snapshot.logicalClock
  eventCount : snapshot.stateRoot.eventCount = snapshot.eventCount
  logicalClock : snapshot.stateRoot.logicalClock = snapshot.logicalClock
  eventRoot : snapshot.eventRoot = snapshot.replayHash

/-- The snapshot of a replay fits together. -/
theorem createSnapshot_rootFits {env : Platform} {events : List VectorEvent} {r : ReplayResult}
    (h : replayEvents env events = .ok r) (dagHeads : List String) (createdAt : UInt64) :
    (createSnapshot env r dagHeads createdAt).RootFits env := by
  simp only [replayEvents, Outcome.bind_eq_ok_iff] at h
  obtain ⟨_, _, progress, _, heq⟩ := h
  obtain rfl := Except.ok.inj heq
  exact ⟨rfl, rfl, rfl, rfl⟩

/-! ## Verification -/

/-- The three comparisons of `verify_snapshot`. -/
structure Snapshot.Matches (env : Platform) (snapshot : Snapshot)
    (state : BTreeMap String VectorState) (replayHash : String) : Prop where
  snapshotId : snapshot.snapshotId =
    canonicalTaggedHash env "snapshot-v1" (canonicalStateMapBytes state)
  stateBytes : snapshot.stateBytes = canonicalStateMapBytes state
  replayHash : snapshot.replayHash = replayHash

/-- Verification is the three comparisons: the hash of the root is never empty. -/
theorem verifySnapshot_eq_true_iff {env : Platform} {snapshot : Snapshot}
    {state : BTreeMap String VectorState} {replayHash : String} :
    verifySnapshot env snapshot state replayHash = .ok true ↔
      snapshot.Matches env state replayHash := by
  have hroot : (canonicalStateRootHash env snapshot.stateRoot != "") = true :=
    bne_iff_ne.mpr (env.blake3Hex_ne_empty _)
  simp only [verifySnapshot, hroot, Bool.and_true, Except.ok.injEq, Bool.and_eq_true, beq_iff_eq]
  constructor
  · rintro ⟨⟨hid, hbytes⟩, hhash⟩
    exact ⟨hid, hbytes, hhash⟩
  · rintro ⟨hid, hbytes, hhash⟩
    exact ⟨⟨hid, hbytes⟩, hhash⟩

/-- A replay's own snapshot passes the comparisons with it. -/
theorem createSnapshot_matches (env : Platform) (r : ReplayResult) (dagHeads : List String)
    (createdAt : UInt64) :
    (createSnapshot env r dagHeads createdAt).Matches env r.finalState r.replayHash :=
  ⟨rfl, rfl, rfl⟩

/-- The snapshot is one that `create_snapshot` makes of the result of a replay. -/
def Snapshot.OfReplay (env : Platform) (snapshot : Snapshot) : Prop :=
  ∃ events r, replayEvents env events = .ok r ∧
    snapshot = createSnapshot env r snapshot.dagHeads snapshot.createdAt

theorem Snapshot.OfReplay.rootFits {env : Platform} {snapshot : Snapshot}
    (h : snapshot.OfReplay env) : snapshot.RootFits env := by
  obtain ⟨events, r, hreplay, heq⟩ := h
  rw [heq]
  exact createSnapshot_rootFits hreplay _ _

/-! ## Altered snapshots -/

/-- Another value for one field of a snapshot. -/
inductive Alteration where
  | snapshotId (value : String)
  | stateRoot (value : StateRoot)
  | eventRoot (value : String)
  | replayHash (value : String)
  | eventCount (value : UInt64)
  | logicalClock (value : UInt64)
  | dagHeads (value : List String)
  | stateBytes (value : List UInt8)
  | createdAt (value : UInt64)

/-- The snapshot with the field altered. -/
def Alteration.apply (snapshot : Snapshot) : Alteration → Snapshot
  | .snapshotId value => { snapshot with snapshotId := value }
  | .stateRoot value => { snapshot with stateRoot := value }
  | .eventRoot value => { snapshot with eventRoot := value }
  | .replayHash value => { snapshot with replayHash := value }
  | .eventCount value => { snapshot with eventCount := value }
  | .logicalClock value => { snapshot with logicalClock := value }
  | .dagHeads value => { snapshot with dagHeads := value }
  | .stateBytes value => { snapshot with stateBytes := value }
  | .createdAt value => { snapshot with createdAt := value }

/-- The field is one of the four that belong to the root and are compared with nothing. -/
def Alteration.Unchecked : Alteration → Prop
  | .stateRoot _ | .eventRoot _ | .eventCount _ | .logicalClock _ => True
  | _ => False

section

variable {env : Platform} {snapshot : Snapshot} {state : BTreeMap String VectorState}
  {replayHash : String}

/-- An unchecked field is not missed by the comparisons. -/
theorem Snapshot.Matches.alter (h : snapshot.Matches env state replayHash) {a : Alteration}
    (hunchecked : a.Unchecked) : (a.apply snapshot).Matches env state replayHash := by
  cases a with
  | stateRoot _ => exact ⟨h.snapshotId, h.stateBytes, h.replayHash⟩
  | eventRoot _ => exact ⟨h.snapshotId, h.stateBytes, h.replayHash⟩
  | eventCount _ => exact ⟨h.snapshotId, h.stateBytes, h.replayHash⟩
  | logicalClock _ => exact ⟨h.snapshotId, h.stateBytes, h.replayHash⟩
  | _ => exact hunchecked.elim

/-- A snapshot that fits together no longer does with another value in an unchecked field. -/
theorem Snapshot.RootFits.alter_iff (h : snapshot.RootFits env) {a : Alteration}
    (hunchecked : a.Unchecked) : (a.apply snapshot).RootFits env ↔ a.apply snapshot = snapshot := by
  refine ⟨fun haltered => ?_, fun heq => by rwa [heq]⟩
  cases a with
  | stateRoot value =>
    obtain rfl : value = snapshot.stateRoot := haltered.stateRoot.trans h.stateRoot.symm
    rfl
  | eventRoot value =>
    obtain rfl : value = snapshot.eventRoot := haltered.eventRoot.trans h.eventRoot.symm
    rfl
  | eventCount value =>
    obtain rfl : value = snapshot.eventCount := haltered.eventCount.symm.trans h.eventCount
    rfl
  | logicalClock value =>
    obtain rfl : value = snapshot.logicalClock := haltered.logicalClock.symm.trans h.logicalClock
    rfl
  | _ => exact hunchecked.elim

/-- Any other field is compared, or does not belong to the root. -/
theorem Snapshot.RootFits.alter (h : snapshot.RootFits env)
    (hmatches : snapshot.Matches env state replayHash) {a : Alteration}
    (hchecked : ¬ a.Unchecked) (haltered : (a.apply snapshot).Matches env state replayHash) :
    (a.apply snapshot).RootFits env := by
  cases a with
  | snapshotId _ => exact ⟨h.stateRoot, h.eventCount, h.logicalClock, h.eventRoot⟩
  | dagHeads _ => exact ⟨h.stateRoot, h.eventCount, h.logicalClock, h.eventRoot⟩
  | createdAt _ => exact ⟨h.stateRoot, h.eventCount, h.logicalClock, h.eventRoot⟩
  | replayHash value =>
    obtain rfl : value = snapshot.replayHash :=
      haltered.replayHash.trans hmatches.replayHash.symm
    exact h
  | stateBytes value =>
    obtain rfl : value = snapshot.stateBytes :=
      haltered.stateBytes.trans hmatches.stateBytes.symm
    exact h
  | _ => exact absurd trivial hchecked

end

/-- Verification covers the state root of every snapshot that it refuses or that
`create_snapshot` makes of a replay; and of a replay's snapshot with one field altered,
exactly if the field is not one of the four unchecked ones or keeps its value. -/
theorem verifySnapshot_covers_replays (env : Platform) :
    (∀ (snapshot : Snapshot) (state : BTreeMap String VectorState) (replayHash : String),
      (snapshot.Matches env state replayHash → snapshot.OfReplay env) →
        verifySnapshot env snapshot state replayHash = .ok true → snapshot.RootFits env) ∧
      ∀ events r, replayEvents env events = .ok r → ∀ dagHeads createdAt,
        (createSnapshot env r dagHeads createdAt).RootFits env ∧
        ∀ a : Alteration,
          (verifySnapshot env (a.apply (createSnapshot env r dagHeads createdAt)) r.finalState
              r.replayHash = .ok true →
            (a.apply (createSnapshot env r dagHeads createdAt)).RootFits env) ↔
          (a.Unchecked → a.apply (createSnapshot env r dagHeads createdAt) =
            createSnapshot env r dagHeads createdAt) := by
  refine ⟨fun snapshot state replayHash hmade hverifies => ?_,
    fun events r hreplay dagHeads createdAt => ?_⟩
  · exact (hmade (verifySnapshot_eq_true_iff.mp hverifies)).rootFits
  · have hfits := createSnapshot_rootFits hreplay dagHeads createdAt
    have hmatches := createSnapshot_matches env r dagHeads createdAt
    refine ⟨hfits, fun a => ?_⟩
    rw [verifySnapshot_eq_true_iff]
    constructor
    · intro hcovers hunchecked
      exact (hfits.alter_iff hunchecked).mp (hcovers (hmatches.alter hunchecked))
    · intro hkeeps haltered
      by_cases hunchecked : a.Unchecked
      · exact (hfits.alter_iff hunchecked).mpr (hkeeps hunchecked)
      · exact hfits.alter hmatches hunchecked haltered

/-- The snapshot of the replay of a creation, and the same with another event count. -/
theorem verifySnapshot_covers_replays_creation :
    ∃ r, replayEvents samplePlatform [sampleCreation "a"] = .ok r ∧
      (createSnapshot samplePlatform r [] 5).RootFits samplePlatform ∧
      (verifySnapshot samplePlatform (createSnapshot samplePlatform r [] 5) r.finalState
        r.replayHash = .ok true → (createSnapshot samplePlatform r [] 5).RootFits samplePlatform) ∧
      ¬ (verifySnapshot samplePlatform { createSnapshot samplePlatform r [] 5 with eventCount := 7 }
          r.finalState r.replayHash = .ok true →
        { createSnapshot samplePlatform r [] 5 with eventCount := 7 }.RootFits samplePlatform) := by
  have hcount : (replayEvents samplePlatform [sampleCreation "a"]).map
      (fun r => r.stateRoot.eventCount) = .ok 1 := by decide +kernel
  obtain ⟨r, hr, hone⟩ := Outcome.map_eq_ok_iff.mp hcount
  obtain ⟨hcovers, hreplays⟩ := verifySnapshot_covers_replays samplePlatform
  refine ⟨r, hr, (hreplays _ r hr [] 5).1, hcovers _ _ _ (fun _ => ⟨_, r, hr, rfl⟩),
    fun h => ?_⟩
  have hsame := congrArg Snapshot.eventCount
    (((hreplays _ r hr [] 5).2 (.eventCount 7)).mp h trivial)
  change 7 = r.stateRoot.eventCount at hsame
  rw [hone] at hsame
  exact absurd hsame (by decide)

/-- Verification covers the state root. -/
def SnapshotRootsCovered : Prop :=
  ∀ (env : Platform) (snapshot : Snapshot) (state : BTreeMap String VectorState)
    (replayHash : String),
    verifySnapshot env snapshot state replayHash = .ok true → snapshot.RootFits env

/-- The snapshot of the replay of no events, with another event count. -/
theorem snapshotRootsCovered_fails : ¬ SnapshotRootsCovered := by
  intro h
  have hverifies : verifySnapshot samplePlatform
      { createSnapshot samplePlatform ((ReplayProgress.start samplePlatform).result samplePlatform)
        [] 0 with eventCount := 7 } ∅ (canonicalReplayHash samplePlatform []) = .ok true :=
    verifySnapshot_eq_true_iff.mpr ⟨rfl, rfl, rfl⟩
  exact absurd (h _ _ _ _ hverifies).eventCount (by decide)

end VKernelX
