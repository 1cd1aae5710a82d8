/-
  Storage/Snapshots.lean --- when the snapshot store keeps every snapshot and finds the latest.

  A snapshot is stored under a digest of its state bytes alone, and the latest one is taken to
  be the one with the greatest digest.  Equal states overwrite one another, and the digest does
  not know which state came last.
-/
import VKernelX.Engine.Writes
import VKernelX.Model.Snapshot

set_option autoImplicit false

namespace VKernelX

/-! ## Snapshots of a growing history -/

/-- A snapshot of the result of a replay, together with what it is taken of. -/
structure SnapshotTaken (env : Platform) where
  events : List VectorEvent
  result : ReplayResult
  dagHeads : List String
  createdAt : UInt64
  replayed : replayEvents env events = .ok result

section

variable {env : Platform}

namespace SnapshotTaken

def snapshot (t : SnapshotTaken env) : Snapshot :=
  createSnapshot env t.result t.dagHeads t.createdAt

/-- The digest of the final state. -/
def stateDigest (t : SnapshotTaken env) : String :=
  canonicalTaggedHash env "snapshot-v1"
    (canonicalMapBytes VectorState.canonicalBytes t.result.finalState)

theorem snapshotId_snapshot (t : SnapshotTaken env) : t.snapshot.snapshotId = t.stateDigest := rfl

/-- One snapshot after another: the history has grown and time has passed. -/
structure Successive (t t' : SnapshotTaken env) : Prop where
  events : t.events ⊆ t'.events
  createdAt : t.createdAt < t'.createdAt
  logicalClock : t.result.stateRoot.logicalClock ≤ t'.result.stateRoot.logicalClock

end SnapshotTaken

/-- A store after the snapshots have been put. -/
def putSnapshots (store : MemoryStore) (ts : List (SnapshotTaken env)) : MemoryStore :=
  ts.foldl (fun store t => store.putSnapshot t.snapshot) store

/-- Every snapshot is still listed, and the latest one is the one put last. -/
structure SnapshotsKept (store : MemoryStore) (ts : List (SnapshotTaken env)) : Prop where
  listed : ∀ t ∈ ts, t.snapshot ∈ store.listSnapshots
  latest : store.loadLatestSnapshot = ts.getLast?.map SnapshotTaken.snapshot

/-- No two final states have the same digest, and that of the last one is the greatest. -/
structure DigestsSeparate (ts : List (SnapshotTaken env)) : Prop where
  nodup : (ts.map SnapshotTaken.stateDigest).Nodup
  last_greatest : ∀ last ∈ ts.getLast?, ∀ t ∈ ts, t.stateDigest ≤ last.stateDigest

/-! ## The store -/

theorem snapshots_putSnapshots (store : MemoryStore) (ts : List (SnapshotTaken env)) :
    (putSnapshots store ts).snapshots = BTreeMap.insertMany store.snapshots
      (ts.map (fun t => (t.stateDigest, t.snapshot))) := by
  induction ts generalizing store with
  | nil => rfl
  | cons t ts ih => exact ih (store.putSnapshot t.snapshot)

/-- Whatever is stored was put, under its own digest. -/
theorem of_lookup_putSnapshots {store : MemoryStore} (hempty : store.snapshots = ∅)
    {ts : List (SnapshotTaken env)} {digest : String} {snapshot : Snapshot}
    (h : (putSnapshots store ts).snapshots[digest]? = some snapshot) :
    ∃ t ∈ ts, t.stateDigest = digest ∧ t.snapshot = snapshot := by
  rw [snapshots_putSnapshots, hempty] at h
  rcases BTreeMap.of_lookup_insertMany h with h | h
  · simp at h
  · obtain ⟨t, ht, heq⟩ := List.mem_map.mp h
    exact ⟨t, ht, congrArg Prod.fst heq, congrArg Prod.snd heq⟩

/-- Two listed snapshots with the same id are the same one. -/
theorem eq_of_listed {store : MemoryStore} (hempty : store.snapshots = ∅)
    {ts : List (SnapshotTaken env)} {a b : Snapshot}
    (ha : a ∈ (putSnapshots store ts).listSnapshots)
    (hb : b ∈ (putSnapshots store ts).listSnapshots) (hid : a.snapshotId = b.snapshotId) :
    a = b := by
  obtain ⟨digest, hdigest⟩ := BTreeMap.mem_values.mp ha
  obtain ⟨digest', hdigest'⟩ := BTreeMap.mem_values.mp hb
  obtain ⟨t, _, rfl, rfl⟩ := of_lookup_putSnapshots hempty hdigest
  obtain ⟨t', _, rfl, rfl⟩ := of_lookup_putSnapshots hempty hdigest'
  rw [t.snapshotId_snapshot, t'.snapshotId_snapshot] at hid
  rw [hid, hdigest'] at hdigest
  exact (Option.some.inj hdigest).symm

theorem foldl_latestOf (snapshots : List Snapshot) (first : Snapshot) :
    snapshots.foldl MemoryStore.latestOf first ∈ first :: snapshots ∧
      ∀ s ∈ first :: snapshots,
        s.snapshotId ≤ (snapshots.foldl MemoryStore.latestOf first).snapshotId := by
  induction snapshots generalizing first with
  | nil => simp
  | cons s snapshots ih =>
    obtain ⟨hmem, hmax⟩ := ih (MemoryStore.latestOf first s)
    obtain ⟨hge, hges⟩ := List.forall_mem_cons.mp hmax
    have hpick : MemoryStore.latestOf first s = first ∧ s.snapshotId ≤ first.snapshotId ∨
        MemoryStore.latestOf first s = s ∧ first.snapshotId ≤ s.snapshotId := by
      unfold MemoryStore.latestOf
      split
      · rename_i hlt
        exact Or.inl ⟨rfl, le_of_lt hlt⟩
      · rename_i hle
        exact Or.inr ⟨rfl, not_lt.mp hle⟩
    rw [List.foldl_cons]
    rcases hpick with ⟨hpick, hle⟩ | ⟨hpick, hle⟩ <;> rw [hpick] at hmem hge hges ⊢
    · refine ⟨?_, List.forall_mem_cons.mpr ⟨hge, List.forall_mem_cons.mpr ⟨hle.trans hge, hges⟩⟩⟩
      rcases List.mem_cons.mp hmem with heq | hmem
      · rw [heq]
        exact List.mem_cons_self
      · exact List.mem_cons_of_mem _ (List.mem_cons_of_mem _ hmem)
    · exact ⟨List.mem_cons_of_mem _ hmem,
        List.forall_mem_cons.mpr ⟨hle.trans hge, List.forall_mem_cons.mpr ⟨hge, hges⟩⟩⟩

/-- `load_latest_snapshot` returns the listed snapshot with the greatest id. -/
theorem loadLatestSnapshot_spec (store : MemoryStore) :
    (store.loadLatestSnapshot = none → store.listSnapshots = []) ∧
      ∀ latest, store.loadLatestSnapshot = some latest → latest ∈ store.listSnapshots ∧
        ∀ s ∈ store.listSnapshots, s.snapshotId ≤ latest.snapshotId := by
  rw [MemoryStore.loadLatestSnapshot]
  cases store.listSnapshots with
  | nil => exact ⟨fun _ => rfl, nofun⟩
  | cons first snapshots =>
    refine ⟨nofun, ?_⟩
    rintro _ ⟨⟩
    exact foldl_latestOf snapshots first

/-! ## When history is kept -/

/-- Where every snapshot is still listed, no two of them had the same digest. -/
theorem SnapshotsKept.nodup {store : MemoryStore} (hempty : store.snapshots = ∅)
    {ts : List (SnapshotTaken env)} (hchain : ts.IsChain SnapshotTaken.Successive)
    (h : SnapshotsKept (putSnapshots store ts) ts) :
    (ts.map SnapshotTaken.stateDigest).Nodup := by
  have htimes : (ts.map SnapshotTaken.createdAt).Pairwise (· < ·) :=
    ((List.isChain_map _).mpr (hchain.imp (fun _ _ hab => hab.createdAt))).pairwise
  refine List.pairwise_map.mpr ((List.pairwise_map.mp htimes).imp_of_mem ?_)
  intro a b ha hb hlt hdigest
  have hsame := eq_of_listed hempty (h.listed a ha) (h.listed b hb) hdigest
  exact UInt64.ne_of_lt hlt (congrArg Snapshot.createdAt hsame)

/-- The snapshot store keeps a growing history and finds its latest snapshot exactly if the
digests of the states are distinct and the last one is the greatest. -/
theorem snapshotsKept_iff {store : MemoryStore} (hempty : store.snapshots = ∅)
    {ts : List (SnapshotTaken env)} (hchain : ts.IsChain SnapshotTaken.Successive) :
    SnapshotsKept (putSnapshots store ts) ts ↔ DigestsSeparate ts := by
  obtain ⟨hnone, hlatest⟩ := loadLatestSnapshot_spec (putSnapshots store ts)
  constructor
  · intro h
    refine ⟨h.nodup hempty hchain, fun last hlast t ht => ?_⟩
    have hloaded := h.latest
    rw [Option.mem_def.mp hlast] at hloaded
    exact (hlatest _ hloaded).2 _ (h.listed t ht)
  · intro h
    have hlisted : ∀ t ∈ ts, t.snapshot ∈ (putSnapshots store ts).listSnapshots := by
      intro t ht
      refine BTreeMap.mem_values.mpr ⟨t.stateDigest, ?_⟩
      rw [snapshots_putSnapshots]
      refine BTreeMap.lookup_insertMany_of_nodup ?_ (List.mem_map.mpr ⟨t, ht, rfl⟩)
      rw [List.map_map]
      exact h.nodup
    refine ⟨hlisted, ?_⟩
    cases hloaded : (putSnapshots store ts).loadLatestSnapshot with
    | none =>
      rcases ts with _ | ⟨t, ts⟩
      · rfl
      · have hmem := hlisted t List.mem_cons_self
        rw [hnone hloaded] at hmem
        cases hmem
    | some latest =>
      obtain ⟨hmem, hmax⟩ := hlatest latest hloaded
      obtain ⟨digest, hdigest⟩ := BTreeMap.mem_values.mp hmem
      obtain ⟨t, ht, _, rfl⟩ := of_lookup_putSnapshots hempty hdigest
      obtain ⟨last, hlast⟩ := Option.ne_none_iff_exists'.mp
        (mt List.getLast?_eq_none_iff.mp (List.ne_nil_of_mem ht))
      have hlistedLast := hlisted last (List.mem_of_getLast? hlast)
      have hid := le_antisymm (h.last_greatest last hlast t ht) (hmax _ hlistedLast)
      rw [hlast, Option.map_some, eq_of_listed hempty hmem hlistedLast hid]

end

/-! ## A certification between two snapshots -/

/-- A stored vector that is then certified, which changes nothing that events carry. -/
def certifiedVector : List TimedCall := oneVector ++ [callAt 2 (.certify "a")]

/-- The replay of the events of a run, on the platform of the certified one. -/
def certifiedReplay (calls : List TimedCall) : Outcome String ReplayResult :=
  replayEvents (platformFor certifiedVector)
    (engineAfter (platformFor certifiedVector) calls).store.loadEventsForReplay

/-- A snapshot taken after some calls. -/
def snapshotAfter (calls : List TimedCall) (createdAt : UInt64)
    (h : (certifiedReplay calls).IsOk) : SnapshotTaken (platformFor certifiedVector) :=
  match hreplay : certifiedReplay calls with
  | .ok result =>
      { events := (engineAfter (platformFor certifiedVector) calls).store.loadEventsForReplay
        result := result
        dagHeads := []
        createdAt := createdAt
        replayed := hreplay }
  | .error f => absurd h (by simp [hreplay])

/-- One snapshot before the certification and one after it. -/
def certifiedSnapshots : List (SnapshotTaken (platformFor certifiedVector)) :=
  [snapshotAfter oneVector 1 (by decide +kernel),
    snapshotAfter certifiedVector 2 (by decide +kernel)]

theorem certifiedSnapshots_isChain : certifiedSnapshots.IsChain SnapshotTaken.Successive := by
  refine List.isChain_pair.mpr ⟨?_, ?_, ?_⟩ <;> decide +kernel

theorem snapshotsKept_iff_certified :
    SnapshotsKept (putSnapshots MemoryStore.empty certifiedSnapshots) certifiedSnapshots ↔
      DigestsSeparate certifiedSnapshots :=
  snapshotsKept_iff rfl certifiedSnapshots_isChain

/-- The snapshot store keeps every growing history and finds its latest snapshot. -/
def SnapshotHistoryKept : Prop :=
  ∀ env : Platform, env.CollisionFree → ∀ ts : List (SnapshotTaken env),
    ts.IsChain SnapshotTaken.Successive → SnapshotsKept (putSnapshots MemoryStore.empty ts) ts

/-- The snapshot taken after the certification replaces the one taken before it. -/
theorem snapshotHistoryKept_fails : ¬ SnapshotHistoryKept := by
  intro h
  have hdigests : ((engineAfter samplePlatform certifiedVector).eventInputs.map
      shortDigest).Nodup := by decide +kernel
  have hkept := h _ (platformFor_collisionFree certifiedVector hdigests) certifiedSnapshots
    certifiedSnapshots_isChain
  exact absurd (hkept.nodup rfl certifiedSnapshots_isChain) (by decide +kernel)

end VKernelX
