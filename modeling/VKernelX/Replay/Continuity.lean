/-
  Replay/Continuity.lean --- when the histories that replay accepts are continuous.

  `apply_event` compares an event with the state of its entity, except that a region creation
  goes through a branch of its own that returns before the comparison.  So replay accepts a
  region creation in the middle of a history, where it rejects any other creation.
-/
import VKernelX.Replay.Causality

set_option autoImplicit false

namespace VKernelX

/-- The creation of a vector or of a region. -/
def IsCreation (e : VectorEvent) : Prop :=
  e.operation = .originCreate ∨ isRegionCreateEvent e = true

/-- A history that starts with a creation, creates nothing later, and in which every later
event takes up the state the event before it left. -/
structure ContinuousHistory (ordered : List VectorEvent) : Prop where
  starts : ∀ first rest, ordered = first :: rest → IsCreation first
  continues : ∀ before previous e after, ordered = before ++ previous :: e :: after →
    ¬ IsCreation e ∧ e.vectorBefore = previous.vectorAfter

/-- Every region creation is the first event of its entity: it names no parent among the
events of that entity. -/
def RegionsStartHistories (events : List VectorEvent) : Prop :=
  ∀ e ∈ events, isRegionCreateEvent e = true → ∀ p ∈ events, p.entityId = e.entityId →
    p.eventHash ∉ e.parentHashes

/-- What is accepted in turn is continuous, if no region creation comes later. -/
theorem AcceptedInTurn.continuousHistory {ordered : List VectorEvent} (h : AcceptedInTurn ordered)
    (hregions : ∀ first rest, ordered = first :: rest →
      ∀ e ∈ rest, isRegionCreateEvent e = false) : ContinuousHistory ordered where
  starts first rest hsplit := by
    cases h [] first rest hsplit with
    | region hregion => exact Or.inr hregion
    | origin _ hop _ => exact Or.inl hop
    | transition _ _ hbefore => cases hbefore
  continues before previous e after hsplit := by
    have hlater : isRegionCreateEvent e = false := by
      cases before with
      | nil => exact hregions previous (e :: after) hsplit e List.mem_cons_self
      | cons first before =>
        exact hregions first (before ++ previous :: e :: after) hsplit e (by simp)
    have haccepts := h (before ++ [previous]) e after (by rw [hsplit]; simp)
    rw [List.getLast?_append, List.getLast?_singleton, Option.some_or, Option.map_some]
      at haccepts
    cases haccepts with
    | region hregion => exact absurd hregion (by simp [hlater])
    | origin _ _ hnone => cases hnone
    | transition _ hop hbefore =>
      refine ⟨?_, (Option.some.inj hbefore).symm⟩
      rintro (hcreate | hregion)
      · exact hop hcreate
      · exact absurd hregion (by simp [hlater])

/-- With one root, only the first event of an entity has no parent in it. -/
theorem entityOrder_later_parent {events : List VectorEvent} (hwf : WellFormedDag events)
    {entityId : String} (hordered : orderEntityEvents (eventsOf entityId events) =
      .ok (entityOrder events entityId)) {first : VectorEvent} {rest : List VectorEvent}
    (hsplit : entityOrder events entityId = first :: rest) :
    ∀ e ∈ rest, ∃ p ∈ events, p.entityId = e.entityId ∧ p.eventHash ∈ e.parentHashes := by
  intro e he
  have hperm := entityOrder_perm hwf hordered
  have hmem : e ∈ eventsOf entityId events :=
    hperm.mem_iff.mp (by rw [hsplit]; exact List.mem_cons_of_mem _ he)
  have hnodup : ((eventsOf entityId events).map VectorEvent.eventHash).Nodup :=
    hwf.hash_nodup.sublist (List.filter_sublist.map _)
  obtain ⟨horder, hroot⟩ := entityOrder_spec hwf (List.ne_nil_of_mem hmem) hordered
  obtain ⟨hash, hhash⟩ := List.exists_mem_of_ne_nil _
    ((horder.root_first hnodup hroot hsplit).2 e he)
  rw [ownParents, parentsIn_of_mem hnodup _ hmem] at hhash
  obtain ⟨hparent, hown⟩ := List.mem_filter.mp hhash
  obtain ⟨p, hp, rfl⟩ := List.mem_map.mp (of_decide_eq_true hown)
  obtain ⟨hpmem, hpentity⟩ := List.mem_filter.mp hp
  have heentity := (List.mem_filter.mp hmem).2
  exact ⟨p, hpmem, (of_decide_eq_true hpentity).trans (of_decide_eq_true heentity).symm, hparent⟩

/-- The histories a replay applied are continuous exactly when every region creation starts
its entity's history. -/
theorem replayed_histories_continuous_iff (env : Platform) {events : List VectorEvent}
    {result : ReplayResult} (h : replayEvents env events = .ok result) :
    (∀ entityId, ContinuousHistory (eventsOf entityId (result.appliedFrom events))) ↔
      RegionsStartHistories events := by
  obtain ⟨hwf, hordered, haccepted, core, _, rfl⟩ := replayEvents_eq_ok_iff_accepted.mp h
  have hperm := appliedEvents_perm hwf hordered
  rw [appliedFrom_replayOutcome hwf hperm]
  constructor
  · intro hcontinuous e he hregion p hp hentity hparent
    obtain ⟨before, after, hsplit⟩ := List.mem_iff_append.mp (hperm.mem_iff.mpr he)
    have hpbefore := appliedEvents_causal hwf hordered hsplit hp hentity hparent
    have hown : p ∈ eventsOf e.entityId before :=
      List.mem_filter.mpr ⟨hpbefore, decide_eq_true hentity⟩
    obtain ⟨init, previous, hinit⟩ :=
      (List.eq_nil_or_concat (eventsOf e.entityId before)).resolve_left (List.ne_nil_of_mem hown)
    have hhistory : eventsOf e.entityId (appliedEvents events) =
        init ++ previous :: e :: eventsOf e.entityId after := by
      have happend : eventsOf e.entityId (appliedEvents events) =
          eventsOf e.entityId before ++ e :: eventsOf e.entityId after := by
        rw [hsplit]
        simp [eventsOf]
      rw [happend, hinit]
      simp
    exact ((hcontinuous e.entityId).continues _ _ _ _ hhistory).1 (Or.inr hregion)
  · intro hregions entityId
    rw [eventsOf_appliedEvents hwf hordered]
    refine (haccepted entityId).continuousHistory (fun first rest hsplit e he => ?_)
    obtain ⟨p, hp, hentity, hparent⟩ :=
      entityOrder_later_parent hwf (hordered entityId) hsplit e he
    have hmem : e ∈ events := by
      have := (entityOrder_perm hwf (hordered entityId)).mem_iff.mp
        (show e ∈ entityOrder events entityId by rw [hsplit]; exact List.mem_cons_of_mem _ he)
      exact (List.mem_filter.mp this).1
    by_contra hregion
    exact hregions e hmem (by simpa using hregion) p hp hentity hparent

/-! ## A region created in the middle of a history -/

/-- The creation of a vector, and after it the creation of a region under the same id. -/
def recreatedAsRegion : List VectorEvent :=
  [sampleCreation "a", sampleRegion "a" [(sampleCreation "a").eventHash]]

/-- Replay accepts that list, with the later creation. -/
theorem replayed_recreatedAsRegion :
    ∃ result, replayEvents samplePlatform recreatedAsRegion = .ok result ∧
      eventsOf "a" (result.appliedFrom recreatedAsRegion) = recreatedAsRegion := by
  have hrun : (replayEvents samplePlatform recreatedAsRegion).map
      (fun result => eventsOf "a" (result.appliedFrom recreatedAsRegion)) =
        .ok recreatedAsRegion := by decide +kernel
  exact Outcome.map_eq_ok_iff.mp hrun

theorem replayed_histories_continuous_iff_recreated :
    ∃ result, replayEvents samplePlatform recreatedAsRegion = .ok result ∧
      ((∀ entityId,
          ContinuousHistory (eventsOf entityId (result.appliedFrom recreatedAsRegion))) ↔
        RegionsStartHistories recreatedAsRegion) := by
  obtain ⟨result, hresult, _⟩ := replayed_recreatedAsRegion
  exact ⟨result, hresult, replayed_histories_continuous_iff samplePlatform hresult⟩

/-- The region creation is accepted as a later event of its entity. -/
theorem continuousHistories_fail_on_recreated :
    ¬ ∀ (events : List VectorEvent) (result : ReplayResult),
      replayEvents samplePlatform events = .ok result →
        ∀ entityId, ContinuousHistory (eventsOf entityId (result.appliedFrom events)) := by
  intro hall
  obtain ⟨result, hresult, hhistory⟩ := replayed_recreatedAsRegion
  have hcontinuous := hall _ _ hresult "a"
  rw [hhistory] at hcontinuous
  exact (hcontinuous.continues [] _ _ [] rfl).1 (Or.inr (by decide +kernel))

end VKernelX
