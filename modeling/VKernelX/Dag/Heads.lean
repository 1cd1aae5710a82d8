/-
  Dag/Heads.lean --- the heads of an accepted event graph are its complete frontier.

  The graph is finite and has no cycle, so going from child to child ends, and it ends at a
  hash that no event names as a parent.
-/
import VKernelX.Dag.Safety
import VKernelX.Model.Ffi

set_option autoImplicit false

namespace VKernelX

open Relation

/-! ## The heads -/

/-- The hashes no event names as a parent, before they are sorted. -/
def unnamedHashes (events : List VectorEvent) : List String :=
  (events.filter (fun e => e.eventHash ∉ events.flatMap VectorEvent.parentHashes)).map
    VectorEvent.eventHash

theorem mem_unnamedHashes {events : List VectorEvent} {hash : String} :
    hash ∈ unnamedHashes events ↔
      (∃ e ∈ events, e.eventHash = hash) ∧ ∀ e ∈ events, hash ∉ e.parentHashes := by
  simp only [unnamedHashes, List.mem_map, List.mem_filter, decide_eq_true_eq, List.mem_flatMap,
    not_exists, not_and]
  constructor
  · rintro ⟨e, ⟨he, hnone⟩, rfl⟩
    exact ⟨⟨e, he, rfl⟩, hnone⟩
  · rintro ⟨⟨e, he, rfl⟩, hnone⟩
    exact ⟨e, ⟨he, hnone⟩, rfl⟩

/-- On distinct hashes there are no repetitions for `dedup` to remove. -/
theorem computeHeads_eq {events : List VectorEvent}
    (hnodup : (events.map VectorEvent.eventHash).Nodup) :
    computeHeads events = (unnamedHashes events).insertionSort (· ≤ ·) := by
  rw [computeHeads]
  split
  · rename_i hnil
    subst hnil
    rfl
  · have hunnamed : (unnamedHashes events).Nodup :=
      hnodup.sublist (List.filter_sublist.map VectorEvent.eventHash)
    have hsorted : ((unnamedHashes events).insertionSort (· ≤ ·)).Nodup :=
      (List.perm_insertionSort _ _).nodup_iff.mpr hunnamed
    exact List.destutter_of_isChain _ _ hsorted.isChain

/-- The complete frontier of an event graph. -/
structure CompleteFrontier (events : List VectorEvent) (heads : List String) : Prop where
  increasing : heads.Pairwise (· < ·)
  mem_iff : ∀ hash, hash ∈ heads ↔
    (∃ e ∈ events, e.eventHash = hash) ∧ ∀ e ∈ events, hash ∉ e.parentHashes
  ne_nil_iff : heads ≠ [] ↔ events ≠ []
  reached : ∀ e ∈ events, ∃ head ∈ heads, ReflTransGen (ParentOf events) e.eventHash head

theorem WellFormedDag.completeFrontier {events : List VectorEvent} (h : WellFormedDag events) :
    CompleteFrontier events (computeHeads events) := by
  have hperm : (computeHeads events).Perm (unnamedHashes events) := by
    rw [computeHeads_eq h.hash_nodup]
    exact List.perm_insertionSort _ _
  have hmem : ∀ hash, hash ∈ computeHeads events ↔
      (∃ e ∈ events, e.eventHash = hash) ∧ ∀ e ∈ events, hash ∉ e.parentHashes := by
    intro hash
    rw [hperm.mem_iff, mem_unnamedHashes]
  have hreached : ∀ e ∈ events, ∃ head ∈ computeHeads events,
      ReflTransGen (ParentOf events) e.eventHash head := by
    intro e he
    have htarget : ∀ p hash, ParentOf events p hash → hash ∈ events.map VectorEvent.eventHash :=
      fun _ _ ⟨child, hchild, hhash, _⟩ => List.mem_map.mpr ⟨child, hchild, hhash⟩
    obtain ⟨head, hpath, hend⟩ := exists_reflTransGen_terminal htarget h.acyclic e.eventHash
    refine ⟨head, (hmem head).mpr ⟨?_, fun child hchild hnamed =>
      hend child.eventHash ⟨child, hchild, rfl, hnamed⟩⟩, hpath⟩
    rcases hpath.cases_tail with rfl | ⟨_, _, child, hchild, hhash, _⟩
    · exact ⟨e, he, rfl⟩
    · exact ⟨child, hchild, hhash⟩
  refine ⟨?_, hmem, ⟨?_, ?_⟩, hreached⟩
  · rw [computeHeads_eq h.hash_nodup] at hperm ⊢
    exact (List.sortedLT_iff_nodup_and_sortedLE.mpr ⟨hperm.nodup_iff.mpr
      (h.hash_nodup.sublist (List.filter_sublist.map VectorEvent.eventHash)),
      (List.pairwise_insertionSort _ _).sortedLE⟩).pairwise
  · rintro hheads rfl
    exact hheads rfl
  · intro hne
    obtain ⟨e, he⟩ := List.exists_mem_of_ne_nil events hne
    obtain ⟨head, hhead, _⟩ := hreached e he
    exact List.ne_nil_of_mem hhead

/-- The hash of an added event is new. -/
theorem WellFormedDag.hash_fresh {events : List VectorEvent} {e : VectorEvent}
    (h : WellFormedDag (events ++ [e])) : ∀ x ∈ events, x.eventHash ≠ e.eventHash := by
  intro x hx heq
  have hnodup := h.hash_nodup
  rw [List.map_append, List.nodup_append] at hnodup
  exact hnodup.2.2 _ (List.mem_map.mpr ⟨x, hx, rfl⟩) _ (by simp) heq

/-- Nothing in the old graph names the new event, and it does not name itself. -/
theorem WellFormedDag.mem_heads_append_iff {events : List VectorEvent} {e : VectorEvent}
    (h : WellFormedDag events) (h' : WellFormedDag (events ++ [e])) {hash : String} :
    hash ∈ computeHeads (events ++ [e]) ↔
      hash = e.eventHash ∨ hash ∈ computeHeads events ∧ hash ∉ e.parentHashes := by
  rw [h.completeFrontier.mem_iff, h'.completeFrontier.mem_iff]
  simp only [List.mem_append, List.mem_singleton]
  have hself : e.eventHash ∉ e.parentHashes := fun hnamed =>
    h'.acyclic e.eventHash (.single ⟨e, by simp, rfl, hnamed⟩)
  constructor
  · rintro ⟨⟨x, hx | rfl, rfl⟩, hnamed⟩
    · exact Or.inr ⟨⟨⟨x, hx, rfl⟩, fun y hy => hnamed y (Or.inl hy)⟩, hnamed e (Or.inr rfl)⟩
    · exact Or.inl rfl
  · rintro (rfl | ⟨⟨⟨x, hx, rfl⟩, hnamed⟩, hparent⟩)
    · refine ⟨⟨e, Or.inr rfl, rfl⟩, ?_⟩
      rintro x (hx | rfl) hnamed
      · obtain ⟨parent, hparent, hhash, _⟩ := h.parents_admissible x hx _ hnamed
        exact h'.hash_fresh parent hparent hhash
      · exact hself hnamed
    · refine ⟨⟨x, Or.inl hx, rfl⟩, ?_⟩
      rintro y (hy | rfl)
      · exact hnamed y hy
      · exact hparent

/-- The heads of an accepted list are its complete frontier, whatever the order of the list, and
an accepted new event replaces its parents among them by itself. -/
theorem computeHeads_frontier (events : List VectorEvent) (hvalid : (validateDag events).IsOk) :
    CompleteFrontier events (computeHeads events) ∧
      (∀ events', events'.Perm events → computeHeads events' = computeHeads events) ∧
      ∀ e, (validateDag (events ++ [e])).IsOk →
        computeHeads (events ++ [e]) =
          ((computeHeads events).filter (· ∉ e.parentHashes)).orderedInsert (· ≤ ·)
            e.eventHash := by
  have hwf := (validateDag_isOk_iff_wellFormed events).mp hvalid
  refine ⟨hwf.completeFrontier, ?_, ?_⟩
  · intro events' hperm
    have hwf' := hwf.perm hperm.symm
    refine hwf'.completeFrontier.increasing.sortedLT.eq_of_mem_iff
      hwf.completeFrontier.increasing.sortedLT (fun hash => ?_)
    simp only [hwf'.completeFrontier.mem_iff, hwf.completeFrontier.mem_iff, hperm.mem_iff]
  · intro e hnew
    have hwf' := (validateDag_isOk_iff_wellFormed _).mp hnew
    have hheads := hwf.completeFrontier.increasing.filter (p := (· ∉ e.parentHashes))
    have hperm := List.perm_orderedInsert (· ≤ ·) e.eventHash
      ((computeHeads events).filter (· ∉ e.parentHashes))
    have hnew : e.eventHash ∉ computeHeads events := by
      rw [hwf.completeFrontier.mem_iff]
      rintro ⟨⟨x, hx, heq⟩, _⟩
      exact hwf'.hash_fresh x hx heq
    have hincreasing : (((computeHeads events).filter (· ∉ e.parentHashes)).orderedInsert (· ≤ ·)
        e.eventHash).SortedLT := by
      refine List.sortedLT_iff_nodup_and_sortedLE.mpr
        ⟨?_, ((hheads.imp (fun hab => le_of_lt hab)).orderedInsert _ _).sortedLE⟩
      rw [hperm.nodup_iff, List.nodup_cons]
      exact ⟨fun hmem => hnew (List.mem_filter.mp hmem).1, hheads.imp (fun hab => ne_of_lt hab)⟩
    refine hwf'.completeFrontier.increasing.sortedLT.eq_of_mem_iff hincreasing (fun hash => ?_)
    rw [hwf.mem_heads_append_iff hwf', List.mem_orderedInsert, List.mem_filter,
      decide_eq_true_eq]

/-- An event with a hash and parents and nothing else in it. -/
def linkedEvent (eventHash : String) (parentHashes : List String) : VectorEvent :=
  { (default : VectorEvent) with eventHash := eventHash, parentHashes := parentHashes }

/-- One event and two children of it. -/
def forkedEvents : List VectorEvent :=
  [linkedEvent "a" [], linkedEvent "aa" ["a"], linkedEvent "ab" ["a"]]

/-- An event joins a head and an event that was none. -/
theorem computeHeads_frontier_forked :
    CompleteFrontier forkedEvents (computeHeads forkedEvents) ∧
      computeHeads (forkedEvents ++ [linkedEvent "aaa" ["a", "ab"]]) = ["aa", "aaa"] := by
  have hrank : ∀ e ∈ forkedEvents ++ [linkedEvent "aaa" ["a", "ab"]], ∀ p ∈ e.parentHashes,
      p.length < e.eventHash.length := by decide
  have hjoined : WellFormedDag (forkedEvents ++ [linkedEvent "aaa" ["a", "ab"]]) := by
    refine ⟨by decide, by decide, by decide, by decide, acyclic_of_rank String.length ?_⟩
    rintro p hash ⟨e, he, rfl, hp⟩
    exact hrank e he p hp
  have hforked : WellFormedDag forkedEvents := by
    refine ⟨by decide, by decide, by decide, by decide, acyclic_of_rank String.length ?_⟩
    rintro p hash ⟨e, he, rfl, hp⟩
    exact hrank e (List.mem_append_left _ he) p hp
  obtain ⟨hfrontier, _, hadd⟩ := computeHeads_frontier forkedEvents
    ((validateDag_isOk_iff_wellFormed _).mpr hforked)
  refine ⟨hfrontier, ?_⟩
  rw [hadd _ ((validateDag_isOk_iff_wellFormed _).mpr hjoined)]
  decide +kernel

end VKernelX
