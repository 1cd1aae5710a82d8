/-
  Ffi/ReplayPaths.lean --- the two replays of a replay summary.

  `engine_replay_summary` replays the store's order and compares it with a replay of a
  topological order of the same events.  Replay takes the same course on every listing of a
  well-formed graph, so the two agree as soon as there is an event.  On no events at all the
  second path makes up its own result.
-/
import VKernelX.Dag.TopologicalOrder
import VKernelX.Encoding.Commitments
import VKernelX.Engine.Integrity
import VKernelX.Model.Ffi
import VKernelX.Replay.OrderIndependence

set_option autoImplicit false

namespace VKernelX

section

variable (env : Platform)

theorem wellFormedDag_of_replayEvents {env : Platform} {events : List VectorEvent}
    {result : ReplayResult} (h : replayEvents env events = .ok result) :
    WellFormedDag events := by
  obtain ⟨u, hu, _⟩ := Outcome.bind_eq_ok_iff.mp h
  exact (validateDag_isOk_iff_wellFormed events).mp ⟨u, hu⟩

/-- A topological order is replayed with the result of the events as they are listed. -/
theorem replayFromEvents_of_ok {events : List VectorEvent} {result : ReplayResult}
    (hne : events ≠ []) (h : replayEvents env events = .ok result) :
    ∃ heads, replayFromEvents env events = .ok (result.summary heads) := by
  have hwf := wellFormedDag_of_replayEvents h
  obtain ⟨all, hall, hperm, hrun⟩ := topologicalOrder_of_wellFormed hwf
  have hordered : (all.map (eventAt events)).Perm events :=
    (hall.leastCausalOrder hwf.hash_nodup hperm).perm
  have hordered_ne : all.map (eventAt events) ≠ [] := by
    intro hnil
    rw [hnil] at hordered
    exact hne hordered.nil_eq.symm
  refine ⟨computeHeads (all.map (eventAt events)), ?_⟩
  rw [replayFromEvents, if_neg hne, hrun]
  simp only [Outcome.mapErr, Outcome.ok_bind, if_neg hordered_ne,
    ← replayEvents_eq_of_wellFormed env hordered.symm hwf, h]
  rfl

theorem replayFromEvents_nil : replayFromEvents env [] = .ok (emptySummary env) := rfl

/-- What the summary's own replay is, in terms of `replay_events`. -/
theorem replayCanonicalHistory_eq_ok_iff {eng : KernelEngine} {result : ReplayResult} :
    eng.replayCanonicalHistory env = .ok result ↔
      replayEvents env eng.store.loadEventsForReplay = .ok result := by
  rw [KernelEngine.replayCanonicalHistory, Outcome.mapErr_eq_ok_iff]

/-- The listing of a query and the one for replay have the same replay. -/
theorem replayEvents_queryEvents {eng : KernelEngine} {result : ReplayResult}
    (h : replayEvents env eng.store.loadEventsForReplay = .ok result) :
    replayEvents env eng.queryEvents = .ok result := by
  rw [replayEvents_eq_of_wellFormed env (sortEvents_perm _).symm
    (wellFormedDag_of_replayEvents h)] at h
  exact h

/-- The two replay paths of the interface agree on an engine's history, and its summary is
returned. -/
structure ReplayPathsAgree (eng : KernelEngine) : Prop where
  summary : (engineReplaySummary env eng).IsOk
  agree : ∃ batch result, replayFromEvents env eng.queryEvents = .ok batch ∧
    replayEvents env eng.store.loadEventsForReplay = .ok result ∧
    batch.stateRoot = result.stateRoot ∧ batch.replayHash = result.replayHash

theorem ReplayPathsAgree.of_events {eng : KernelEngine}
    (hok : (eng.replayCanonicalHistory env).IsOk) (hne : eng.queryEvents ≠ []) :
    ReplayPathsAgree env eng := by
  obtain ⟨result, hcanonical⟩ := hok
  have hresult := (replayCanonicalHistory_eq_ok_iff env).mp hcanonical
  obtain ⟨heads, hbatch⟩ := replayFromEvents_of_ok env hne (replayEvents_queryEvents env hresult)
  refine ⟨⟨result.summary (computeHeads eng.queryEvents), ?_⟩,
    ⟨_, result, hbatch, hresult, rfl, rfl⟩⟩
  simp only [engineReplaySummary, hcanonical, hbatch, Outcome.mapErr, Outcome.ok_bind]
  rw [Outcome.require_of (show (result.summary heads).stateRoot = result.stateRoot from rfl),
    Outcome.require_of (show (result.summary heads).replayHash = result.replayHash from rfl)]
  rfl

/-- With no events the batch path reports an empty replay hash, which is no digest. -/
theorem ReplayPathsAgree.queryEvents_ne_nil {eng : KernelEngine} (h : ReplayPathsAgree env eng) :
    eng.queryEvents ≠ [] := by
  intro hnil
  obtain ⟨batch, result, hbatch, hresult, _, hhash⟩ := h.agree
  rw [hnil, replayFromEvents_nil] at hbatch
  obtain rfl := Except.ok.inj hbatch
  obtain ⟨_, _, hdigest⟩ := commitments_of_replayEvents hresult
  exact env.blake3Hex_ne_empty _ (hdigest.symm.trans hhash.symm)

/-- Where replay goes through, the two paths agree exactly if there is an event. -/
theorem replayPathsAgree_iff (eng : KernelEngine)
    (hok : (eng.replayCanonicalHistory env).IsOk) :
    ReplayPathsAgree env eng ↔ eng.queryEvents ≠ [] :=
  ⟨ReplayPathsAgree.queryEvents_ne_nil env, ReplayPathsAgree.of_events env hok⟩

end

theorem replayPathsAgree_iff_oneVector :
    ReplayPathsAgree samplePlatform (engineAfter samplePlatform oneVector) ↔
      (engineAfter samplePlatform oneVector).queryEvents ≠ [] :=
  replayPathsAgree_iff samplePlatform _ (by decide +kernel)

/-- The two paths agree on every reachable engine whose replay goes through. -/
def ReplayPathsNeverDiverge : Prop :=
  ∀ env : Platform, env.CollisionFree → ∀ (policy : ConsensusPolicy) (eng : KernelEngine),
    ReachableEngine env policy eng → (eng.replayCanonicalHistory env).IsOk →
      ReplayPathsAgree env eng

/-- They do on the engine that has just been set up. -/
theorem replayPathsNeverDiverge_fails : ¬ ReplayPathsNeverDiverge := by
  intro h
  have hagree := h (platformFor []) (platformFor_collisionFree [] (by decide))
    ConsensusPolicy.default KernelEngine.new ⟨[], rfl⟩ (by decide +kernel)
  exact hagree.queryEvents_ne_nil _ rfl

end VKernelX
