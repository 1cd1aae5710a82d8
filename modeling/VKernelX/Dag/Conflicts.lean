/-
  Dag/Conflicts.lean --- `detect_conflicts` against `validate_dag`.

  The one looks at every event by itself.  What it does not see is a parent in another region,
  and a cycle that passes through several events.
-/
import VKernelX.Dag.Safety

set_option autoImplicit false

namespace VKernelX

open Relation

/-! ## Conflicts -/

/-- An event list in which no event by itself is in conflict. -/
structure ConflictFree (events : List VectorEvent) : Prop where
  hash_ne : ∀ e ∈ events, e.eventHash ≠ ""
  hash_nodup : (events.map VectorEvent.eventHash).Nodup
  parents_nodup : ∀ e ∈ events, e.parentHashes.Nodup
  not_self : ∀ e ∈ events, e.eventHash ∉ e.parentHashes
  parents_listed : ∀ e ∈ events, ∀ p ∈ e.parentHashes, ∃ parent ∈ events, parent.eventHash = p

theorem ite_singleton_eq_nil_iff {α : Type} (c : Prop) [Decidable c] (a : α) :
    (if c then [a] else []) = [] ↔ ¬ c := by
  split <;> simp_all

/-- A parent list shows no conflict exactly when it has no repetition and every parent is
indexed. -/
theorem parentConflicts_eq_nil_iff {index : BTreeMap String ℕ} {eventHash : String}
    {parents seen : List String} :
    parentConflicts index eventHash parents seen = [] ↔
      parents.Nodup ∧ (∀ p ∈ parents, p ∉ seen) ∧ ∀ p ∈ parents, index[p]? ≠ none := by
  induction parents generalizing seen with
  | nil => simp [parentConflicts]
  | cons p parents ih =>
    rw [parentConflicts, List.append_eq_nil_iff, List.append_eq_nil_iff,
      ite_singleton_eq_nil_iff, ite_singleton_eq_nil_iff, ih]
    constructor
    · rintro ⟨⟨hseen, hindex⟩, hnodup, hfresh, hrest⟩
      refine ⟨List.nodup_cons.mpr ⟨fun hp => hfresh p hp List.mem_cons_self, hnodup⟩,
        List.forall_mem_cons.mpr ⟨hseen, ?_⟩, List.forall_mem_cons.mpr ⟨hindex, hrest⟩⟩
      exact fun q hq hqs => hfresh q hq (List.mem_cons_of_mem p hqs)
    · rintro ⟨hnodup, hfresh, hindexed⟩
      obtain ⟨hp, hnodup'⟩ := List.nodup_cons.mp hnodup
      refine ⟨⟨hfresh p List.mem_cons_self, hindexed p List.mem_cons_self⟩, hnodup', ?_,
        fun q hq => hindexed q (List.mem_cons_of_mem p hq)⟩
      intro q hq hmem
      rcases List.mem_cons.mp hmem with rfl | hmem
      · exact hp hq
      · exact hfresh q (List.mem_cons_of_mem p hq) hmem

/-- One event shows no conflict exactly when it is not its own parent and its parent list is in
order. -/
theorem eventConflicts_eq_nil_iff {events : List VectorEvent} {index : BTreeMap String ℕ}
    (hindex : eventIndex events = .ok index) {e : VectorEvent} :
    eventConflicts index e = [] ↔ e.eventHash ∉ e.parentHashes ∧ e.parentHashes.Nodup ∧
      ∀ p ∈ e.parentHashes, ∃ parent ∈ events, parent.eventHash = p := by
  have hlisted : ∀ p, index[p]? ≠ none ↔ ∃ parent ∈ events, parent.eventHash = p := by
    intro p
    rw [Ne, lookup_eventIndex_eq_none_iff hindex]
    push Not
    rfl
  rw [eventConflicts, List.append_eq_nil_iff, ite_singleton_eq_nil_iff, parentConflicts_eq_nil_iff]
  simp [hlisted]

/-- `detect_conflicts` finds nothing exactly in the conflict-free lists. -/
theorem detectConflicts_eq_nil_iff (events : List VectorEvent) :
    detectConflicts events = [] ↔ ConflictFree events := by
  rw [detectConflicts]
  cases hindex : eventIndex events with
  | error err =>
    refine ⟨fun h => by simp at h, fun h => ?_⟩
    obtain ⟨index, hok⟩ := eventIndex_eq_ok_iff.mpr ⟨h.hash_ne, h.hash_nodup⟩
    rw [hindex] at hok
    cases hok
  | ok index =>
    obtain ⟨hne, hnodup⟩ := eventIndex_eq_ok_iff.mp ⟨index, hindex⟩
    simp only [List.flatMap_eq_nil_iff, eventConflicts_eq_nil_iff hindex]
    constructor
    · intro h
      exact ⟨hne, hnodup, fun e he => (h e he).2.1, fun e he => (h e he).1,
        fun e he => (h e he).2.2⟩
    · intro h e he
      exact ⟨h.not_self e he, h.parents_nodup e he, h.parents_listed e he⟩

/-! ## The two checkers -/

/-- Every listed parent lies in its child's region. -/
def RegionsAgree (events : List VectorEvent) : Prop :=
  ∀ e ∈ events, ∀ parent ∈ events, parent.eventHash ∈ e.parentHashes →
    parent.regionId = e.regionId

/-- No cycle of parents passes through two events. -/
def NoLongCycle (events : List VectorEvent) : Prop :=
  ∀ a b, a ≠ b → TransGen (ParentOf events) a b → ¬ TransGen (ParentOf events) b a

/-- Without self-parents a cycle passes through two events. -/
theorem acyclic_of_noLongCycle {events : List VectorEvent}
    (hself : ∀ e ∈ events, e.eventHash ∉ e.parentHashes) (hlong : NoLongCycle events)
    (hash : String) : ¬ TransGen (ParentOf events) hash hash := by
  intro hcycle
  rcases (transGen_iff _ _ _).mp hcycle with hedge | ⟨b, hpath, hedge⟩
  · obtain ⟨e, he, rfl, hp⟩ := hedge
    exact hself e he hp
  · by_cases heq : hash = b
    · obtain ⟨e, he, rfl, hp⟩ := hedge
      exact hself e he (heq ▸ hp)
    · exact hlong hash b heq hpath (.single hedge)

/-- The well-formed graphs are the conflict-free ones whose regions agree and that have no
cycle through several events. -/
theorem wellFormedDag_iff_conflictFree (events : List VectorEvent) :
    WellFormedDag events ↔ ConflictFree events ∧ RegionsAgree events ∧ NoLongCycle events := by
  constructor
  · intro h
    refine ⟨⟨h.hash_ne, h.hash_nodup, h.parents_nodup, ?_, ?_⟩, ?_, ?_⟩
    · exact fun e he hself => h.acyclic e.eventHash (.single ⟨e, he, rfl, hself⟩)
    · intro e he p hp
      obtain ⟨parent, hparent, hhash, _⟩ := h.parents_admissible e he p hp
      exact ⟨parent, hparent, hhash⟩
    · intro e he parent hparent hp
      obtain ⟨parent', hparent', hhash, hregion⟩ := h.parents_admissible e he _ hp
      rwa [List.inj_on_of_nodup_map h.hash_nodup hparent' hparent hhash] at hregion
    · exact fun a b _ hab hba => h.acyclic a (hab.trans hba)
  · rintro ⟨h, hregions, hlong⟩
    refine ⟨h.hash_ne, h.hash_nodup, h.parents_nodup, ?_, acyclic_of_noLongCycle h.not_self hlong⟩
    intro e he p hp
    obtain ⟨parent, hparent, rfl⟩ := h.parents_listed e he p hp
    exact ⟨parent, hparent, rfl, hregions e he parent hparent hp⟩

/-- `validate_dag` accepts exactly the lists in which `detect_conflicts` finds nothing, whose
regions agree and which have no cycle through several events; whatever shows a conflict, it
rejects. -/
theorem validateDag_isOk_iff_detectConflicts (events : List VectorEvent) :
    ((validateDag events).IsOk ↔
      detectConflicts events = [] ∧ RegionsAgree events ∧ NoLongCycle events) ∧
    (detectConflicts events ≠ [] → (validateDag events).IsErr) := by
  have hiff : (validateDag events).IsOk ↔
      detectConflicts events = [] ∧ RegionsAgree events ∧ NoLongCycle events := by
    rw [validateDag_isOk_iff_wellFormed, wellFormedDag_iff_conflictFree,
      detectConflicts_eq_nil_iff]
  refine ⟨hiff, fun hconflict => ?_⟩
  exact (noPanic_validateDag events).isErr (fun hok => hconflict (hiff.mp hok).1)

end VKernelX
