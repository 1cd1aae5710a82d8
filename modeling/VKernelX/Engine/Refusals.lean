/-
  Engine/Refusals.lean --- when the event of a transition is refused.

  An event is refused for a name without a visible character, for an amount past 2^64, for want
  of a sequence number, or because its id is taken.  All four are seen before the call: in the
  names and amounts of the vectors it works on, and in the names of the stored events.
-/
import VKernelX.Engine.Acceptance
import VKernelX.Engine.Checks

set_option autoImplicit false

namespace VKernelX

/-! ## Names -/

/-- What is looked up in a stored event when the next one is made. -/
structure EventName where
  entityId : String
  regionId : String
  eventId : String
  deriving DecidableEq

/-- The name of an event. -/
def VectorEvent.name (e : VectorEvent) : EventName where
  entityId := e.entityId
  regionId := e.regionId
  eventId := e.eventId

/-- The names of the stored events. -/
def KernelEngine.eventNames (eng : KernelEngine) : List EventName :=
  eng.store.listEvents.map VectorEvent.name

/-- What decides whether an event is refused: the names of its vector, its operation and
clock, and at each position the larger of the amounts before and after. -/
structure EventDraft where
  vectorId : String
  spaceId : String
  ownerPubkey : String
  operation : OperationType
  logicalClock : UInt64
  amount : ℕ → ℕ

namespace EventDraft

/-- The number of the event among those of its vector. -/
def sequence (d : EventDraft) (names : List EventName) : ℕ :=
  names.countP (fun n => n.entityId = d.vectorId ∧ n.regionId = d.spaceId) + 1

/-- The name the event gets. -/
def name (d : EventDraft) (names : List EventName) : EventName where
  entityId := d.vectorId
  regionId := d.spaceId
  eventId := canonicalEventId d.vectorId d.spaceId d.operation d.logicalClock
    (UInt64.ofNat (d.sequence names))

/-- What an event is refused for, next to events of these names. -/
inductive Refused (names : List EventName) (d : EventDraft) : Prop where
  /-- a name without a visible character -/
  | blank (h : isBlank d.vectorId = true ∨ isBlank d.spaceId = true ∨
      isBlank d.ownerPubkey = true)
  /-- an amount that does not fit in 64 bits -/
  | wide (i : ℕ) (h : u64Max < d.amount i)
  /-- no sequence number left -/
  | sequence (h : 2 ^ 64 ≤ d.sequence names)
  /-- an id that is taken -/
  | taken (n : EventName) (hn : n ∈ names) (h : n.eventId = (d.name names).eventId)

/-- One of several events, made one after the other, is refused. -/
def AnyRefused (names : List EventName) : List EventDraft → Prop
  | [] => False
  | d :: ds => d.Refused names ∨ AnyRefused (d.name names :: names) ds

theorem Refused.perm {names names' : List EventName} {d : EventDraft} (h : d.Refused names)
    (hperm : names.Perm names') : d.Refused names' := by
  have hsequence : d.sequence names' = d.sequence names := by
    rw [EventDraft.sequence, EventDraft.sequence, hperm.countP_eq]
  cases h with
  | blank h => exact .blank h
  | wide i h => exact .wide i h
  | sequence h => exact .sequence (by rwa [hsequence])
  | taken n hn h =>
    refine .taken n (hperm.mem_iff.mp hn) ?_
    rwa [EventDraft.name, hsequence]

theorem name_perm {names names' : List EventName} (d : EventDraft) (hperm : names.Perm names') :
    d.name names = d.name names' := by
  rw [EventDraft.name, EventDraft.name, EventDraft.sequence, EventDraft.sequence,
    hperm.countP_eq]

/-- The order of the stored events does not matter. -/
theorem AnyRefused.perm {ds : List EventDraft} {names names' : List EventName}
    (h : AnyRefused names ds) (hperm : names.Perm names') : AnyRefused names' ds := by
  induction ds generalizing names names' with
  | nil => exact h.elim
  | cons d ds ih =>
    refine h.imp (fun h => h.perm hperm) (fun h => ih h ?_)
    rw [d.name_perm hperm]
    exact hperm.cons _

end EventDraft

/-! ## Transitions -/

/-- The amounts of a transition before it; a creation starts from nothing. -/
def Transition.amountBefore (t : Transition) (i : ℕ) : ℕ :=
  match t.before with
  | none => 0
  | some s => s.component i

/-- The draft of a transition's event. -/
def Transition.draft (t : Transition) : EventDraft where
  vectorId := t.after.vectorId
  spaceId := t.after.spaceId
  ownerPubkey := t.after.ownerPubkey
  operation := t.operation
  logicalClock := t.after.version
  amount := fun i => max (t.amountBefore i) (t.after.component i)

section

variable {env : Platform} {eng : KernelEngine}

theorem fitsEvent_iff {s : VectorStateV1} : s.FitsEvent ↔ ∀ i, s.component i ≤ u64Max := by
  constructor
  · exact fun h i => amountAt_le h i
  · intro h a ha
    obtain ⟨i, hi, rfl⟩ := List.getElem_of_mem ha
    simpa [VectorStateV1.component, amountAt, hi] using h i

theorem Transition.sequence_draft (t : Transition) (eng : KernelEngine) :
    t.draft.sequence eng.eventNames =
      eng.eventCount t.after.vectorId t.after.spaceId + 1 := by
  rw [EventDraft.sequence, KernelEngine.eventNames, List.countP_map]
  rfl

/-- The event of a transition carries the name of its draft. -/
theorem Transition.event_name {t : Transition} {e : VectorEvent} (h : t.event env eng = .ok e) :
    e.name = t.draft.name eng.eventNames := by
  obtain ⟨hbuild, _⟩ := transitionEvent_eq_ok_iff.mp h
  obtain ⟨hfields, _⟩ := buildTransitionEvent_fields hbuild
  obtain ⟨sequence, hsequence, hid⟩ := hfields.sequence_eq
  have hnumber : sequence = UInt64.ofNat (t.draft.sequence eng.eventNames) := by
    rw [t.sequence_draft]
    unfold KernelEngine.nextEventSequenceForEntity at hsequence
    dsimp only at hsequence
    split at hsequence
    · rw [← Except.ok.inj hsequence, KernelEngine.eventCount,
        (MemoryStore.loadEventsForReplay_perm _).countP_eq]
    · cases hsequence
  rw [VectorEvent.name, EventDraft.name, hfields.entityId_eq, hfields.regionId_eq, hid, hnumber]
  rfl

/-- An event that is appended was not refused. -/
theorem Transition.not_refused {t : Transition} {e : VectorEvent} (h : t.event env eng = .ok e) :
    ¬ t.draft.Refused eng.eventNames := by
  have hname := Transition.event_name h
  obtain ⟨hbuild, hadm⟩ := transitionEvent_eq_ok_iff.mp h
  obtain ⟨hfields, hbefore⟩ := buildTransitionEvent_fields hbuild
  rintro (hblank | ⟨i, hwide⟩ | hroom | ⟨n, hn, htaken⟩)
  · obtain ⟨_, hvalid⟩ := hadm.valid
    simp only [validateEvent, Outcome.bind_eq_ok_iff, Outcome.require_eq_ok_iff] at hvalid
    obtain ⟨_, _, _, hregion, _, hentity, _, hactor, _⟩ := hvalid
    rw [hfields.regionId_eq] at hregion
    rw [hfields.entityId_eq] at hentity
    have howner : e.actorPublicKey = t.after.ownerPubkey := by
      simp only [buildTransitionEvent, Outcome.bind_eq_ok_iff] at hbuild
      obtain ⟨_, _, _, _, _, _, he⟩ := hbuild
      obtain rfl := Except.ok.inj he
      rfl
    rw [howner] at hactor
    simp only [Transition.draft, hregion, hentity, hactor, Bool.false_eq_true, or_self] at hblank
  · have hafter := component_le_of_event hfields.vectorAfter_eq i
    have hstart : t.amountBefore i ≤ u64Max := by
      unfold Transition.amountBefore
      cases hs : t.before with
      | none => exact Nat.zero_le _
      | some s =>
        rw [hs] at hbefore
        exact component_le_of_event hbefore i
    simp only [Transition.draft, lt_max_iff] at hwide
    omega
  · obtain ⟨sequence, hsequence, _⟩ := hfields.sequence_eq
    rw [t.sequence_draft] at hroom
    unfold KernelEngine.nextEventSequenceForEntity at hsequence
    dsimp only at hsequence
    rw [if_neg] at hsequence
    · cases hsequence
    · rw [(MemoryStore.loadEventsForReplay_perm _).countP_eq]
      exact Nat.not_lt.mpr hroom
  · rw [KernelEngine.eventNames, List.mem_map] at hn
    obtain ⟨x, hx, rfl⟩ := hn
    rw [← hname] at htaken
    exact hadm.appendable.id_fresh x hx htaken

/-- One event more is one name more. -/
theorem Transition.eventNames_addEvent {t : Transition} {e : VectorEvent}
    (h : t.event env eng = .ok e) :
    (eng.addEvent e).eventNames.Perm (t.draft.name eng.eventNames :: eng.eventNames) := by
  rw [← Transition.event_name h]
  exact (listEvents_addEvent_perm
    (transitionEvent_eq_ok_iff.mp h).2.appendable.hash_fresh).map VectorEvent.name

/-- Events that are appended were not refused. -/
theorem Appends.not_refused {ts : List Transition} {es : List VectorEvent}
    (h : Appends env eng ts es) :
    ¬ EventDraft.AnyRefused eng.eventNames (ts.map Transition.draft) := by
  induction h with
  | nil => exact id
  | cons hevent _ ih =>
    rintro (hrefused | hany)
    · exact Transition.not_refused hevent hrefused
    · exact ih (hany.perm (Transition.eventNames_addEvent hevent).symm)

/-! ## Events that go through -/

/-- What the engine needs to know about the stored events: they are sealed and chained, and
their ids are as long as a text can be. -/
structure KnownEvents (env : Platform) (eng : KernelEngine) : Prop where
  graph : EventGraph env eng.store
  short : ∀ e ∈ eng.store.listEvents, ShortStr e.eventId

theorem Transition.parents_stored (h : WellKeyed eng.store) (t : Transition) :
    ∀ p ∈ t.parents eng, eng.store.events[p]? ≠ none := by
  intro p hp
  unfold Transition.parents at hp
  split at hp
  · cases hp
  · obtain ⟨q, hq, rfl, _⟩ := mem_latestParent hp
    rw [h.mem_listEvents_iff.mp hq]
    simp

/-- A transition whose event is not refused, and whose event's hash is not taken, gets its
event. -/
theorem Transition.exists_event_of_fresh (hkeyed : WellKeyed eng.store) {t : Transition}
    (ht : t.Shaped) (hrefused : ¬ t.draft.Refused eng.eventNames)
    (hfresh : ∀ e, e.eventHash = canonicalEventHash env e →
      e.eventId = (t.draft.name eng.eventNames).eventId →
      eng.store.events[e.eventHash]? = none) : ∃ e, t.event env eng = .ok e := by
  have hblank : ¬ (isBlank t.after.vectorId = true ∨ isBlank t.after.spaceId = true ∨
      isBlank t.after.ownerPubkey = true) := fun hblank => hrefused (.blank hblank)
  simp only [not_or, Bool.not_eq_true] at hblank
  have hfits : ∀ i, max (t.amountBefore i) (t.after.component i) ≤ u64Max :=
    fun i => Nat.le_of_not_lt (fun hwide => hrefused (.wide i hwide))
  have hbefore : ∀ s, t.before = some s → s.FitsEvent := by
    intro s hs
    refine fitsEvent_iff.mpr (fun i => ?_)
    have := hfits i
    rw [Transition.amountBefore, hs] at this
    exact (le_max_left _ _).trans this
  have hroom : eng.eventCount t.after.vectorId t.after.spaceId + 1 < 2 ^ 64 := by
    rw [← t.sequence_draft]
    exact Nat.lt_of_not_le (fun hroom => hrefused (.sequence hroom))
  obtain ⟨e, hbuild, hvalid, hsealed, hid⟩ := ht.built ⟨hblank.1, hblank.2.1, hblank.2.2⟩ hbefore
    (fitsEvent_iff.mpr (fun i => (le_max_right _ _).trans (hfits i))) hroom (t.parents eng)
  obtain ⟨hfields, _⟩ := buildTransitionEvent_fields hbuild
  have hname : e.eventId = (t.draft.name eng.eventNames).eventId := by
    rw [hid, EventDraft.name, t.sequence_draft]
    rfl
  refine ⟨e, transitionEvent_eq_ok_iff.mpr ⟨hbuild, hvalid, fun p hp => ?_, ⟨?_, ?_,
    hfresh e hsealed hname, fun x hx heq => ?_⟩⟩⟩
  · rw [hfields.parentHashes_eq] at hp
    exact t.parents_stored hkeyed p hp
  · rw [hid]
    exact ne_empty_of_isBlank_eq_false (isBlank_canonicalEventId ..)
  · rw [hsealed]
    exact env.blake3Hex_ne_empty _
  · exact hrefused (.taken x.name (List.mem_map_of_mem hx) (heq.trans hname))

/-- A transition whose event is not refused gets its event. -/
theorem Transition.exists_event (hfree : env.CollisionFree) (h : KnownEvents env eng)
    {t : Transition} (ht : t.Shaped) (hnames : ShortNames t.after.vectorId t.after.spaceId)
    (hrefused : ¬ t.draft.Refused eng.eventNames) : ∃ e, t.event env eng = .ok e := by
  refine Transition.exists_event_of_fresh h.graph.keyed ht hrefused (fun e hsealed hid => ?_)
  have hshort : ShortStr e.eventId := by
    rw [hid]
    exact hnames.shortStr _ _ _
  -- A stored event with the new hash would have the new id.
  by_contra hsome
  obtain ⟨x, hx⟩ := Option.ne_none_iff_exists'.mp hsome
  have hhash := h.graph.keyed.events _ _ hx
  have hmem : x ∈ eng.store.listEvents :=
    h.graph.keyed.mem_listEvents_iff.mpr (by rw [hhash]; exact hx)
  refine hrefused (.taken x.name (List.mem_map_of_mem hmem) ?_)
  rw [← hid]
  refine eventId_eq_of_hash hfree (h.short x hmem) hshort ?_
  rw [← (h.graph.checks x hmem).eventHash_eq, hhash, hsealed]

/-- The event of a transition is known from then on. -/
theorem KnownEvents.addEvent (h : KnownEvents env eng) {t : Transition} {e : VectorEvent}
    (hnames : ShortNames t.after.vectorId t.after.spaceId) (hevent : t.event env eng = .ok e) :
    KnownEvents env (eng.addEvent e) := by
  obtain ⟨hbuild, hadm⟩ := transitionEvent_eq_ok_iff.mp hevent
  obtain ⟨hfields, _⟩ := buildTransitionEvent_fields hbuild
  have hperm := listEvents_addEvent_perm hadm.appendable.hash_fresh
  have hchosen : ParentsChosen eng e := by
    rw [ParentsChosen, hfields.parentHashes_eq, hfields.entityId_eq]
    exact t.parents_chosen eng
  refine ⟨h.graph.addEvent hchosen hadm, fun x hx => ?_⟩
  rcases List.mem_cons.mp (hperm.mem_iff.mp hx) with rfl | hx
  · obtain ⟨sequence, _, hid⟩ := hfields.sequence_eq
    rw [hid]
    exact hnames.shortStr _ _ _
  · exact h.short x hx

/-- The events of transitions are appended exactly when none of them is refused. -/
theorem exists_appends_iff (hfree : env.CollisionFree) (h : KnownEvents env eng)
    {ts : List Transition} (hshaped : ∀ t ∈ ts, t.Shaped)
    (hnames : ∀ t ∈ ts, ShortNames t.after.vectorId t.after.spaceId) :
    (∃ es, Appends env eng ts es) ↔
      ¬ EventDraft.AnyRefused eng.eventNames (ts.map Transition.draft) := by
  refine ⟨fun ⟨es, happends⟩ => happends.not_refused, fun hnot => ?_⟩
  induction ts generalizing eng with
  | nil => exact ⟨[], .nil⟩
  | cons t ts ih =>
    obtain ⟨ht, hrest⟩ := List.forall_mem_cons.mp hshaped
    obtain ⟨htnames, hrestNames⟩ := List.forall_mem_cons.mp hnames
    rw [List.map_cons, EventDraft.AnyRefused, not_or] at hnot
    obtain ⟨e, hevent⟩ := Transition.exists_event hfree h ht htnames hnot.1
    obtain ⟨es, happends⟩ := ih (h.addEvent htnames hevent) hrest hrestNames
      (fun hany => hnot.2 (hany.perm (Transition.eventNames_addEvent hevent)))
    exact ⟨e :: es, .cons hevent happends⟩

end

end VKernelX
