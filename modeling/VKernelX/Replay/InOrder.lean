/-
  Replay/InOrder.lean --- histories that replay puts in the order in which they are given.

  Replay takes an event once its parents are taken, and among the events it could take it
  prefers the one with the smaller key.  So it takes a history in its own order when every
  event has its parents before it and loses against all the events it could overtake.
-/
import VKernelX.Replay.Ordering
import VKernelX.Foundation.Splits

set_option autoImplicit false

namespace VKernelX

/-- An event that replay takes right after the events before it: its parents are among them,
it is a root only if there are none, and it has no smaller key than an event it could have
been taken in place of. -/
structure FollowsOn (before : List VectorEvent) (e : VectorEvent) : Prop where
  parents_mem : ∀ p ∈ e.parentHashes, p ∈ before.map VectorEvent.eventHash
  rooted : before ≠ [] → e.parentHashes ≠ []
  preferred : ∀ earlier v later, before = earlier ++ v :: later →
    (∀ p ∈ e.parentHashes, p ∈ earlier.map VectorEvent.eventHash) →
    replaySortKey v ≤ replaySortKey e

/-- Every event of the history follows on the ones before it. -/
def ReplayOrdered (h : List VectorEvent) : Prop :=
  ∀ before e after, h = before ++ e :: after → FollowsOn before e

theorem replayOrdered_nil : ReplayOrdered [] := by
  intro before e after h
  simp at h

theorem replayOrdered_snoc {h : List VectorEvent} {e : VectorEvent} :
    ReplayOrdered (h ++ [e]) ↔ ReplayOrdered h ∧ FollowsOn h e := forall_split_snoc

/-- An event without parents is a history of its own. -/
theorem replayOrdered_singleton {e : VectorEvent} (h : e.parentHashes = []) :
    ReplayOrdered [e] := by
  refine replayOrdered_snoc.mpr ⟨replayOrdered_nil, ?_, fun hne => absurd rfl hne, ?_⟩
  · rw [h]
    exact nofun
  · intro earlier v later hsplit
    simp at hsplit

section

variable {h : List VectorEvent} (hordered : ReplayOrdered h)
  (hnodup : (h.map VectorEvent.eventHash).Nodup)

include hordered hnodup

/-- All parents are in the history. -/
theorem ReplayOrdered.ownParents_eq {e : VectorEvent} (he : e ∈ h) :
    ownParents h e.eventHash = e.parentHashes := by
  rw [ownParents, parentsIn_of_mem hnodup _ he]
  refine List.filter_eq_self.mpr (fun p hp => decide_eq_true ?_)
  obtain ⟨before, after, hsplit⟩ := List.append_of_mem he
  have hmem := (hordered before e after hsplit).parents_mem p hp
  rw [hsplit, List.map_append]
  exact List.mem_append_left _ hmem

/-- The first event is the only root. -/
theorem ReplayOrdered.rootHashes_length (hne : h ≠ []) : (rootHashes h).length = 1 := by
  obtain ⟨first, rest, rfl⟩ := List.exists_cons_of_ne_nil hne
  have hfirst : first.parentHashes = [] := by
    refine List.eq_nil_iff_forall_not_mem.mpr (fun p hp => ?_)
    have := (hordered [] first rest rfl).parents_mem p hp
    exact List.not_mem_nil this
  have hrest : (rest.map VectorEvent.eventHash).filter
      (fun hash => ownParents (first :: rest) hash = []) = [] := by
    refine List.filter_eq_nil_iff.mpr (fun hash hmem hroot => ?_)
    obtain ⟨e, he, rfl⟩ := List.mem_map.mp hmem
    have hnone := of_decide_eq_true hroot
    rw [hordered.ownParents_eq hnodup (List.mem_cons_of_mem first he)] at hnone
    obtain ⟨before, after, rfl⟩ := List.append_of_mem he
    exact (hordered (first :: before) e after rfl).rooted (List.cons_ne_nil _ _) hnone
  rw [rootHashes, List.map_cons, List.filter_cons_of_pos, hrest, List.length_singleton]
  rw [hordered.ownParents_eq hnodup List.mem_cons_self, hfirst]
  rfl

/-- The hashes of the history are the causal list of its graph. -/
theorem ReplayOrdered.causalList :
    CausalList (ReplayPrefers h) (h.map VectorEvent.eventHash) (ownParents h)
      (h.map VectorEvent.eventHash) := by
  refine {
    nodup := hnodup
    subset := fun _ hv => hv
    parentsFirst := ?_
    preferred := ?_
    maximal := fun _ hv _ => hv }
  · intro before hash after hsplit p hp
    obtain ⟨earlier, tail, hh, rfl, htail⟩ := List.map_eq_append_iff.mp hsplit
    obtain ⟨e, later, rfl, rfl, _⟩ := List.map_eq_cons_iff.mp htail
    rw [hordered.ownParents_eq hnodup (by rw [hh]; simp)] at hp
    exact (hordered earlier e later hh).parents_mem p hp
  · intro before hash after hsplit hash' hmem hnotin hne hparents
    obtain ⟨earlier, tail, hh, rfl, htail⟩ := List.map_eq_append_iff.mp hsplit
    obtain ⟨e, later, rfl, rfl, _⟩ := List.map_eq_cons_iff.mp htail
    obtain ⟨w, hw, rfl⟩ := List.mem_map.mp hmem
    have he : e ∈ h := by rw [hh]; simp
    rw [hordered.ownParents_eq hnodup hw] at hparents
    rw [ReplayPrefers, eventAt_eventHash hnodup he, eventAt_eventHash hnodup hw]
    -- What replay could take instead of `e` comes after it in the history.
    have hlater : w ∈ later := by
      rw [hh] at hw
      rcases List.mem_append.mp hw with hin | hin
      · exact absurd (List.mem_map_of_mem hin) hnotin
      · exact (List.mem_cons.mp hin).resolve_left (fun heq => hne (by rw [heq]))
    obtain ⟨middle, rest, rfl⟩ := List.append_of_mem hlater
    exact (hordered (earlier ++ e :: middle) w rest (by rw [hh]; simp)).preferred earlier e middle
      rfl hparents

/-- Replay takes such a history as it is. -/
theorem ReplayOrdered.orderEntityEvents (hparents : ∀ e ∈ h, e.parentHashes.Nodup) :
    VKernelX.orderEntityEvents h = .ok h := by
  by_cases hne : h = []
  · rw [hne]
    rfl
  · have hrun := orderEntityEvents_eq_ok hne hnodup hparents
      (hordered.rootHashes_length hnodup hne) (List.length_map _) (hordered.causalList hnodup)
    rwa [map_eventAt hnodup] at hrun

end

end VKernelX
