/-
  Dag/Tables.lean --- what the index and the tables of an event list say about it.

  The graph of a list of events has the event hashes as vertices.  `parentsIn` reads the
  admitted parents of a hash off the list, and the tables built from the list represent
  that graph.
-/
import VKernelX.Model.Dag

set_option autoImplicit false

namespace VKernelX

/-! ## The index -/

theorem indexEvents_eq_ok_iff {events : List VectorEvent} {i : ℕ} {index : BTreeMap String ℕ} :
    (∃ index', indexEvents events i index = .ok index') ↔
      (∀ e ∈ events, e.eventHash ≠ "") ∧ (events.map VectorEvent.eventHash).Nodup ∧
        ∀ e ∈ events, index[e.eventHash]? = none := by
  induction events generalizing i index with
  | nil => simp [indexEvents]
  | cons e events ih =>
    rw [indexEvents]
    by_cases hempty : e.eventHash = ""
    · simp [hempty]
    by_cases hfresh : index[e.eventHash]? = none
    · rw [if_neg hempty, if_neg (by simpa using hfresh), ih]
      simp only [List.forall_mem_cons, List.map_cons, List.nodup_cons, BTreeMap.lookup_insert]
      constructor
      · rintro ⟨hne, hnodup, hnone⟩
        refine ⟨⟨hempty, hne⟩, ⟨?_, hnodup⟩, hfresh, ?_⟩
        · intro hmem
          obtain ⟨e', he', hhash⟩ := List.mem_map.mp hmem
          have := hnone e' he'
          rw [if_pos hhash.symm] at this
          cases this
        · intro e' he'
          have := hnone e' he'
          split at this
          · cases this
          · exact this
      · rintro ⟨⟨_, hne⟩, ⟨hnotin, hnodup⟩, _, hnone⟩
        refine ⟨hne, hnodup, ?_⟩
        intro e' he'
        rw [if_neg, hnone e' he']
        intro hhash
        exact hnotin (List.mem_map.mpr ⟨e', he', hhash.symm⟩)
    · rw [if_neg hempty, if_pos hfresh]
      constructor
      · rintro ⟨_, h⟩
        cases h
      · rintro ⟨_, _, hnone⟩
        exact absurd (hnone e List.mem_cons_self) hfresh

/-- What the index of a list holds: the position of each hash, on top of what was there. -/
theorem lookup_indexEvents {events : List VectorEvent} {i : ℕ} {index index' : BTreeMap String ℕ}
    (h : indexEvents events i index = .ok index') :
    (∀ hash, (∀ e ∈ events, e.eventHash ≠ hash) → index'[hash]? = index[hash]?) ∧
      ∀ j (hj : j < events.length), index'[(events[j]).eventHash]? = some (i + j) := by
  induction events generalizing i index with
  | nil =>
    rw [Except.ok.inj h]
    exact ⟨fun _ _ => rfl, fun j hj => absurd hj (Nat.not_lt_zero j)⟩
  | cons e events ih =>
    obtain ⟨hne, hnodup, hnone⟩ := indexEvents_eq_ok_iff.mp ⟨index', h⟩
    obtain ⟨hnotin, _⟩ := List.nodup_cons.mp hnodup
    rw [indexEvents, if_neg (hne e List.mem_cons_self),
      if_neg (by simpa using hnone e List.mem_cons_self)] at h
    obtain ⟨hother, hpos⟩ := ih h
    constructor
    · intro hash hhash
      rw [hother hash (fun e' he' => hhash e' (List.mem_cons_of_mem e he')),
        BTreeMap.lookup_insert_of_ne _ _ (hhash e List.mem_cons_self)]
    · intro j hj
      cases j with
      | zero =>
        rw [List.getElem_cons_zero, hother]
        · simp
        · intro e' he' hhash
          exact hnotin (List.mem_map.mpr ⟨e', he', hhash⟩)
      | succ j =>
        rw [List.getElem_cons_succ, hpos j (by simpa using hj)]
        congr 1
        omega

theorem eventIndex_eq_ok_iff {events : List VectorEvent} :
    (∃ index, eventIndex events = .ok index) ↔
      (∀ e ∈ events, e.eventHash ≠ "") ∧ (events.map VectorEvent.eventHash).Nodup := by
  rw [eventIndex, indexEvents_eq_ok_iff]
  simp

/-- Through the index, a hash leads to its event and to nothing else. -/
theorem indexedEvent_eq_some_iff {events : List VectorEvent} {index : BTreeMap String ℕ}
    (h : eventIndex events = .ok index) {hash : String} {e : VectorEvent} :
    indexedEvent events index hash = some e ↔ e ∈ events ∧ e.eventHash = hash := by
  obtain ⟨hother, hpos⟩ := lookup_indexEvents h
  constructor
  · intro he
    by_cases hex : ∃ e' ∈ events, e'.eventHash = hash
    · obtain ⟨e', he', rfl⟩ := hex
      obtain ⟨j, hj, rfl⟩ := List.mem_iff_getElem.mp he'
      rw [indexedEvent, hpos j hj] at he
      simp only [Nat.zero_add, Option.bind_some, List.getElem?_eq_getElem hj,
        Option.some.injEq] at he
      subst he
      exact ⟨he', rfl⟩
    · rw [indexedEvent, hother hash (fun e' he' hhash => hex ⟨e', he', hhash⟩)] at he
      simp at he
  · rintro ⟨he, rfl⟩
    obtain ⟨j, hj, rfl⟩ := List.mem_iff_getElem.mp he
    rw [indexedEvent, hpos j hj]
    simp [List.getElem?_eq_getElem hj]

/-- A hash has a position exactly when some event of the list has it. -/
theorem lookup_eventIndex_eq_none_iff {events : List VectorEvent} {index : BTreeMap String ℕ}
    (h : eventIndex events = .ok index) {hash : String} :
    index[hash]? = none ↔ ∀ e ∈ events, e.eventHash ≠ hash := by
  obtain ⟨hother, hpos⟩ := lookup_indexEvents h
  constructor
  · intro hnone e he hhash
    obtain ⟨j, hj, rfl⟩ := List.mem_iff_getElem.mp he
    subst hhash
    rw [hpos j hj] at hnone
    cases hnone
  · intro hnot
    rw [hother hash hnot]
    simp

/-! ## Parents -/

/-- The parents of a hash, as far as `admitted` lets them in. -/
def parentsIn (events : List VectorEvent) (admitted : VectorEvent → String → Bool)
    (hash : String) : List String :=
  ((events.find? (fun e => e.eventHash = hash)).map
    (fun e => e.parentHashes.filter (admitted e))).getD []

/-- Events with distinct hashes are found by their hash. -/
theorem find?_eventHash {events : List VectorEvent}
    (hnodup : (events.map VectorEvent.eventHash).Nodup) {e : VectorEvent} (he : e ∈ events) :
    events.find? (fun e' => e'.eventHash = e.eventHash) = some e :=
  find?_of_nodup_map hnodup he

theorem parentsIn_of_mem {events : List VectorEvent}
    (hnodup : (events.map VectorEvent.eventHash).Nodup)
    (admitted : VectorEvent → String → Bool) {e : VectorEvent} (he : e ∈ events) :
    parentsIn events admitted e.eventHash = e.parentHashes.filter (admitted e) := by
  rw [parentsIn, find?_eventHash hnodup he]
  rfl

/-- The graph of a list does not depend on the order of the list. -/
theorem parentsIn_perm {events events' : List VectorEvent} (hperm : events.Perm events')
    (hnodup : (events.map VectorEvent.eventHash).Nodup)
    (admitted : VectorEvent → String → Bool) :
    parentsIn events admitted = parentsIn events' admitted := by
  funext hash
  by_cases hex : ∃ e ∈ events, e.eventHash = hash
  · obtain ⟨e, he, rfl⟩ := hex
    have hnodup' := (hperm.map VectorEvent.eventHash).nodup_iff.mp hnodup
    rw [parentsIn_of_mem hnodup admitted he,
      parentsIn_of_mem hnodup' admitted (hperm.mem_iff.mp he)]
  · have hnone : ∀ l : List VectorEvent, l.Perm events →
        l.find? (fun e => e.eventHash = hash) = none := by
      intro l hl
      rw [List.find?_eq_none]
      intro e he hhash
      exact hex ⟨e, hl.mem_iff.mp he, by simpa using hhash⟩
    rw [parentsIn, parentsIn, hnone events (List.Perm.refl _), hnone events' hperm.symm]

/-! ## Events by hash -/

/-- The event of the list with a given hash. -/
def eventAt (events : List VectorEvent) (hash : String) : VectorEvent :=
  (events.find? (fun e => e.eventHash = hash)).getD default

theorem eventAt_eventHash {events : List VectorEvent}
    (hnodup : (events.map VectorEvent.eventHash).Nodup) {e : VectorEvent} (he : e ∈ events) :
    eventAt events e.eventHash = e := by
  rw [eventAt, find?_eventHash hnodup he]
  rfl

theorem map_eventAt {events : List VectorEvent}
    (hnodup : (events.map VectorEvent.eventHash).Nodup) :
    (events.map VectorEvent.eventHash).map (eventAt events) = events := by
  rw [List.map_map]
  refine (List.map_congr_left ?_).trans (List.map_id events)
  intro e he
  exact eventAt_eventHash hnodup he

theorem eventAt_perm {events events' : List VectorEvent} (hperm : events.Perm events')
    (hnodup : (events.map VectorEvent.eventHash).Nodup) : eventAt events = eventAt events' := by
  funext hash
  by_cases hex : ∃ e ∈ events, e.eventHash = hash
  · obtain ⟨e, he, rfl⟩ := hex
    rw [eventAt_eventHash hnodup he, eventAt_eventHash
      ((hperm.map VectorEvent.eventHash).nodup_iff.mp hnodup) (hperm.mem_iff.mp he)]
  · have hnone : ∀ l : List VectorEvent, l.Perm events →
        l.find? (fun e => e.eventHash = hash) = none := by
      intro l hl
      rw [List.find?_eq_none]
      intro e he hhash
      exact hex ⟨e, hl.mem_iff.mp he, by simpa using hhash⟩
    rw [eventAt, eventAt, hnone events (List.Perm.refl _), hnone events' hperm.symm]

/-! ## The tables -/

theorem linkParents_ok {check : String → Outcome String Bool} {eventHash : String}
    {parents seen : List String} {tables tables' : GraphTables String}
    (h : linkParents check eventHash parents seen tables = .ok tables') :
    parents.Nodup ∧ (∀ p ∈ parents, p ∉ seen) ∧ ∀ p ∈ parents, ∃ b, check p = .ok b := by
  induction parents generalizing seen tables with
  | nil => simp
  | cons p parents ih =>
    simp only [linkParents, Outcome.bind_eq_ok_iff, Outcome.require_eq_ok_iff] at h
    obtain ⟨_, hp, b, hb, hrest⟩ := h
    obtain ⟨hnodup, hseen, hadmits⟩ := ih hrest
    refine ⟨List.nodup_cons.mpr ⟨?_, hnodup⟩, ?_, ?_⟩
    · exact fun hmem => hseen p hmem List.mem_cons_self
    · rintro q (_ | ⟨_, hq⟩)
      · exact hp
      · exact fun hqs => hseen q hq (List.mem_cons_of_mem p hqs)
    · rintro q (_ | ⟨_, hq⟩)
      · exact ⟨b, hb⟩
      · exact hadmits q hq

theorem linkParents_eq {check : String → Outcome String Bool} {admitted : String → Bool}
    {eventHash : String} {parents seen : List String} (tables : GraphTables String)
    (hnodup : parents.Nodup) (hseen : ∀ p ∈ parents, p ∉ seen)
    (hadmits : ∀ p ∈ parents, check p = .ok (admitted p)) :
    linkParents check eventHash parents seen tables =
      .ok (((parents.filter admitted).map (fun p => (p, eventHash))).foldl
        (fun t e => t.addEdge e.1 e.2) tables) := by
  induction parents generalizing seen tables with
  | nil => rfl
  | cons p parents ih =>
    obtain ⟨hp, hnodup'⟩ := List.nodup_cons.mp hnodup
    have hseen' : ∀ q ∈ parents, q ∉ p :: seen := by
      intro q hq hmem
      rcases List.mem_cons.mp hmem with rfl | hmem
      · exact hp hq
      · exact hseen q (List.mem_cons_of_mem p hq) hmem
    rw [linkParents, Outcome.require_of (hseen p List.mem_cons_self),
      hadmits p List.mem_cons_self]
    refine (ih _ hnodup' hseen' (fun q hq => hadmits q (List.mem_cons_of_mem p hq))).trans ?_
    cases hb : admitted p <;> simp [hb]

/-- Building succeeds only when every parent list is duplicate-free and every parent
passes the checks. -/
theorem buildTables_ok {check : VectorEvent → String → Outcome String Bool}
    {events : List VectorEvent} {tables : GraphTables String}
    (h : buildTables check events = .ok tables) :
    ∀ e ∈ events, e.parentHashes.Nodup ∧ ∀ p ∈ e.parentHashes, ∃ b, check e p = .ok b := by
  unfold buildTables at h
  generalize (events.map VectorEvent.eventHash).foldl GraphTables.addNode GraphTables.empty
    = start at h
  induction events generalizing start with
  | nil => simp
  | cons e events ih =>
    rw [List.foldlM_cons, Outcome.bind_eq_ok_iff] at h
    obtain ⟨mid, hmid, hrest⟩ := h
    obtain ⟨hnodup, _, hadmits⟩ := linkParents_ok hmid
    rintro e' (_ | ⟨_, he'⟩)
    · exact ⟨hnodup, hadmits⟩
    · exact ih _ hrest e' he'

/-- The tables that building makes when every check passes. -/
theorem buildTables_represents {check : VectorEvent → String → Outcome String Bool}
    {admitted : VectorEvent → String → Bool} {events : List VectorEvent}
    (hhashes : (events.map VectorEvent.eventHash).Nodup)
    (hnodup : ∀ e ∈ events, e.parentHashes.Nodup)
    (hadmits : ∀ e ∈ events, ∀ p ∈ e.parentHashes, check e p = .ok (admitted e p))
    (hclosed : ∀ e ∈ events, ∀ p ∈ e.parentHashes, admitted e p = true →
      p ∈ events.map VectorEvent.eventHash) :
    ∃ tables, buildTables check events = .ok tables ∧
      tables.Represents (events.map VectorEvent.eventHash) (parentsIn events admitted) := by
  have hedges : edgeList (events.map VectorEvent.eventHash) (parentsIn events admitted) =
      events.flatMap (fun e =>
        (e.parentHashes.filter (admitted e)).map (fun p => (p, e.eventHash))) := by
    rw [edgeList, List.flatMap_map]
    refine List.flatMap_congr ?_
    intro e he
    rw [parentsIn_of_mem hhashes admitted he]
  have hbuild : ∀ l : List VectorEvent, (∀ e ∈ l, e ∈ events) → ∀ start,
      l.foldlM (fun tables e => linkParents (check e) e.eventHash e.parentHashes [] tables)
        start = .ok ((l.flatMap (fun e =>
          (e.parentHashes.filter (admitted e)).map (fun p => (p, e.eventHash)))).foldl
            (fun t e => t.addEdge e.1 e.2) start) := by
    intro l hl
    induction l with
    | nil => exact fun _ => rfl
    | cons e l ih =>
      intro start
      have he := hl e List.mem_cons_self
      rw [List.foldlM_cons, linkParents_eq start (hnodup e he) (by simp) (hadmits e he),
        List.flatMap_cons, List.foldl_append]
      exact ih (fun e' he' => hl e' (List.mem_cons_of_mem e he')) _
  refine ⟨_, hbuild events (fun _ he => he) _, ?_⟩
  rw [← hedges]
  refine GraphTables.represents_build hhashes ?_
  intro hash hmem p hp
  obtain ⟨e, he, rfl⟩ := List.mem_map.mp hmem
  rw [parentsIn_of_mem hhashes admitted he, List.mem_filter] at hp
  exact hclosed e he p hp.1 hp.2

end VKernelX
