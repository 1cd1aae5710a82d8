/-
  Storage/EventLog.lean --- the event log of the in-memory store only grows.

  Every stored event sits under its own hash, so the map is a set of events with distinct
  hashes; that no event id occurs twice is what the scan over the stored events keeps up.
-/
import VKernelX.Foundation.Runs
import VKernelX.Model.Storage

set_option autoImplicit false

namespace VKernelX

/-! ## Calls -/

/-- A call that writes to a store. -/
inductive StoreCall where
  | appendEvent (e : VectorEvent)
  | putState (s : VectorStateV1)
  | putRecord (r : VectorRecordV1)
  | putSnapshot (snapshot : Snapshot)

/-- The method a call runs. -/
def StoreCall.proc : StoreCall → Proc MemoryStore KernelXError Unit
  | .appendEvent e => Proc.update (fun store => store.appendEvent e)
  | .putState s => Proc.write (fun store => store.putState s)
  | .putRecord r => Proc.write (fun store => store.putRecord r)
  | .putSnapshot snapshot => Proc.write (fun store => store.putSnapshot snapshot)

/-- The store after a call. -/
def storeStep (store : MemoryStore) (c : StoreCall) : MemoryStore := (c.proc.exec store).2

/-- The store after calls on an empty one. -/
def storeRun (calls : List StoreCall) : MemoryStore := runFrom storeStep MemoryStore.empty calls

/-- The event a call adds, if it is an append that returns `Ok`. -/
def StoreCall.accepted (store : MemoryStore) (c : StoreCall) : List VectorEvent :=
  match c with
  | .appendEvent e => if (c.proc.exec store).1.IsOk then [e] else []
  | _ => []

/-- The events that appends on an empty store have returned `Ok` for. -/
def acceptedEvents (calls : List StoreCall) : List VectorEvent :=
  (calls.foldl (fun run c => (storeStep run.1 c, run.2 ++ c.accepted run.1))
    (MemoryStore.empty, [])).2

theorem acceptedEvents_snoc (calls : List StoreCall) (c : StoreCall) :
    acceptedEvents (calls ++ [c]) = acceptedEvents calls ++ c.accepted (storeRun calls) := by
  have hstore : ∀ (l : List StoreCall) (store : MemoryStore) (out : List VectorEvent),
      (l.foldl (fun run c => (storeStep run.1 c, run.2 ++ c.accepted run.1)) (store, out)).1 =
        runFrom storeStep store l := by
    intro l
    induction l with
    | nil => exact fun _ _ => rfl
    | cons c l ih => exact fun store out => ih _ _
  rw [acceptedEvents, List.foldl_append, List.foldl_cons, List.foldl_nil, hstore]
  rfl

/-- Later calls only add to what has been accepted. -/
theorem acceptedEvents_append (calls later : List StoreCall) :
    ∃ more, acceptedEvents (calls ++ later) = acceptedEvents calls ++ more := by
  induction later using List.reverseRecOn with
  | nil => exact ⟨[], by simp⟩
  | append_singleton later c ih =>
    obtain ⟨more, hmore⟩ := ih
    refine ⟨more ++ c.accepted (storeRun (calls ++ later)), ?_⟩
    rw [← List.append_assoc, acceptedEvents_snoc, hmore, List.append_assoc]

/-! ## One append -/

/-- An append returns `Ok` when the event is appendable and an error otherwise. -/
theorem exec_appendEvent (store : MemoryStore) (e : VectorEvent) :
    (StoreCall.appendEvent e).proc.exec store =
      match store.appendChecks e with
      | .ok _ => (.ok (), { store with events := store.events.insert e.eventHash e })
      | .error f => (.error f, store) := by
  rw [StoreCall.proc, Proc.exec_update, MemoryStore.appendEvent]
  cases store.appendChecks e <;> rfl

theorem isOk_appendEvent_iff {store : MemoryStore} {e : VectorEvent} :
    ((StoreCall.appendEvent e).proc.exec store).1.IsOk ↔ store.Appendable e := by
  rw [exec_appendEvent, ← MemoryStore.appendChecks_eq_ok_iff (u := ())]
  cases store.appendChecks e <;> simp

theorem storeStep_append {store : MemoryStore} {e : VectorEvent} (h : store.Appendable e) :
    storeStep store (.appendEvent e) =
      { store with events := store.events.insert e.eventHash e } := by
  rw [storeStep, exec_appendEvent, MemoryStore.appendChecks_eq_ok_iff (u := ()).mpr h]

theorem storeStep_append_of_not {store : MemoryStore} {e : VectorEvent}
    (h : ¬ store.Appendable e) : storeStep store (.appendEvent e) = store := by
  rw [storeStep, exec_appendEvent]
  cases hchecks : store.appendChecks e with
  | ok u => exact absurd (MemoryStore.appendChecks_eq_ok_iff.mp hchecks) h
  | error f => rfl

/-- What an append does to a store. -/
structure AppendLaw (store : MemoryStore) (e : VectorEvent) : Prop where
  err : ∀ f, ((StoreCall.appendEvent e).proc.exec store).1 = .error f →
    storeStep store (.appendEvent e) = store
  adds : ((StoreCall.appendEvent e).proc.exec store).1.IsOk →
    (storeStep store (.appendEvent e)).listEvents.Perm (e :: store.listEvents)
  others : storeStep store (.appendEvent e) =
    { store with events := (storeStep store (.appendEvent e)).events }

theorem appendLaw (store : MemoryStore) (e : VectorEvent) : AppendLaw store e := by
  by_cases happ : store.Appendable e
  · refine ⟨fun f hf => ?_, fun _ => ?_, ?_⟩
    · obtain ⟨u, hok⟩ := isOk_appendEvent_iff.mpr happ
      rw [hf] at hok
      cases hok
    · rw [storeStep_append happ]
      exact BTreeMap.values_insert_perm_of_none e happ.hash_fresh
    · rw [storeStep_append happ]
  · refine ⟨fun _ _ => storeStep_append_of_not happ,
      fun hok => absurd (isOk_appendEvent_iff.mp hok) happ, ?_⟩
    rw [storeStep_append_of_not happ]

/-! ## The log -/

/-- The stored events are under their own hashes, and no identity is empty or occurs twice. -/
structure SoundLog (store : MemoryStore) : Prop where
  keyed : ∀ (hash : String) (e : VectorEvent), store.events[hash]? = some e → e.eventHash = hash
  ids_nodup : (store.listEvents.map VectorEvent.eventId).Nodup
  id_ne : ∀ e ∈ store.listEvents, e.eventId ≠ ""
  hash_ne : ∀ e ∈ store.listEvents, e.eventHash ≠ ""

/-- A store is an event log of some events: it holds exactly these, under distinct non-empty
identities by which it finds them and nothing else, and replay reads them in order. -/
structure EventLog (store : MemoryStore) (accepted : List VectorEvent) : Prop where
  listed : store.listEvents.Perm accepted
  ids_nodup : (store.listEvents.map VectorEvent.eventId).Nodup
  hashes_nodup : (store.listEvents.map VectorEvent.eventHash).Nodup
  id_ne : ∀ e ∈ store.listEvents, e.eventId ≠ ""
  hash_ne : ∀ e ∈ store.listEvents, e.eventHash ≠ ""
  getEvent_eq : ∀ e ∈ accepted, store.getEvent e.eventId = some e
  getEvent_none : ∀ eventId, (∀ e ∈ accepted, e.eventId ≠ eventId) →
    store.getEvent eventId = none
  getEventByHash_eq : ∀ e ∈ accepted, store.getEventByHash e.eventHash = some e
  getEventByHash_none : ∀ eventHash, (∀ e ∈ accepted, e.eventHash ≠ eventHash) →
    store.getEventByHash eventHash = none
  replay_perm : store.loadEventsForReplay.Perm store.listEvents
  replay_sorted : store.loadEventsForReplay.Pairwise
    (fun a b => canonicalEventSortKey a ≤ canonicalEventSortKey b)

theorem SoundLog.eventLog {store : MemoryStore} {accepted : List VectorEvent}
    (h : SoundLog store) (hlisted : store.listEvents.Perm accepted) :
    EventLog store accepted where
  listed := hlisted
  ids_nodup := h.ids_nodup
  hashes_nodup := BTreeMap.nodup_map_values h.keyed
  id_ne := h.id_ne
  hash_ne := h.hash_ne
  getEvent_eq := fun e he => find?_of_nodup_map h.ids_nodup (hlisted.mem_iff.mpr he)
  getEvent_none := by
    intro eventId hnone
    rw [MemoryStore.getEvent, List.find?_eq_none]
    exact fun e he heq => hnone e (hlisted.mem_iff.mp he) (by simpa using heq)
  getEventByHash_eq := by
    intro e he
    obtain ⟨hash, hhash⟩ := BTreeMap.mem_values.mp (hlisted.mem_iff.mpr he)
    rwa [MemoryStore.getEventByHash, h.keyed hash e hhash]
  getEventByHash_none := by
    intro eventHash hnone
    rw [MemoryStore.getEventByHash, Option.eq_none_iff_forall_ne_some]
    intro e he
    exact hnone e (hlisted.mem_iff.mp (BTreeMap.mem_values.mpr ⟨eventHash, he⟩))
      (h.keyed eventHash e he)
  replay_perm := store.loadEventsForReplay_perm
  replay_sorted := List.pairwise_insertionSort _ store.listEvents

theorem SoundLog.congr {store store' : MemoryStore} (h : SoundLog store)
    (hevents : store'.events = store.events) : SoundLog store' := by
  have hlist : store'.listEvents = store.listEvents := by
    rw [MemoryStore.listEvents, MemoryStore.listEvents, hevents]
  exact ⟨hevents ▸ h.keyed, hlist ▸ h.ids_nodup, hlist ▸ h.id_ne, hlist ▸ h.hash_ne⟩

/-- An appendable event has identities of its own. -/
theorem SoundLog.append {store : MemoryStore} {e : VectorEvent} (h : SoundLog store)
    (happ : store.Appendable e) :
    SoundLog { store with events := store.events.insert e.eventHash e } := by
  have hperm : MemoryStore.listEvents
      { store with events := store.events.insert e.eventHash e } |>.Perm (e :: store.listEvents) :=
    BTreeMap.values_insert_perm_of_none e happ.hash_fresh
  refine ⟨?_, ?_, ?_, ?_⟩
  · intro hash e' he'
    rw [BTreeMap.lookup_insert] at he'
    split at he'
    · rename_i hhash
      obtain rfl := Option.some.inj he'
      exact hhash
    · exact h.keyed hash e' he'
  · rw [(hperm.map VectorEvent.eventId).nodup_iff, List.map_cons, List.nodup_cons]
    refine ⟨fun hmem => ?_, h.ids_nodup⟩
    obtain ⟨existing, hexisting, heq⟩ := List.mem_map.mp hmem
    exact happ.id_fresh existing hexisting heq
  · intro e' he'
    rcases List.mem_cons.mp (hperm.mem_iff.mp he') with rfl | he'
    · exact happ.eventId_ne
    · exact h.id_ne e' he'
  · intro e' he'
    rcases List.mem_cons.mp (hperm.mem_iff.mp he') with rfl | he'
    · exact happ.eventHash_ne
    · exact h.hash_ne e' he'

/-- One call keeps the log sound and lists what it accepts. -/
theorem SoundLog.step {store : MemoryStore} (h : SoundLog store) (c : StoreCall) :
    SoundLog (storeStep store c) ∧
      (storeStep store c).listEvents.Perm (store.listEvents ++ c.accepted store) := by
  have hsame : ∀ store' : MemoryStore, store'.events = store.events →
      SoundLog store' ∧ store'.listEvents.Perm (store.listEvents ++ []) := by
    intro store' hevents
    refine ⟨h.congr hevents, ?_⟩
    rw [MemoryStore.listEvents, hevents, List.append_nil]
    exact List.Perm.refl _
  cases c with
  | appendEvent e =>
    by_cases happ : store.Appendable e
    · rw [storeStep_append happ, StoreCall.accepted, if_pos (isOk_appendEvent_iff.mpr happ)]
      exact ⟨h.append happ, (BTreeMap.values_insert_perm_of_none e happ.hash_fresh).trans
        (List.perm_append_singleton e _).symm⟩
    · rw [storeStep_append_of_not happ, StoreCall.accepted,
        if_neg (fun hok => happ (isOk_appendEvent_iff.mp hok))]
      exact hsame store rfl
  | putState s => exact hsame _ rfl
  | putRecord r => exact hsame _ rfl
  | putSnapshot snapshot => exact hsame _ rfl

theorem soundLog_storeRun (calls : List StoreCall) :
    SoundLog (storeRun calls) ∧ (storeRun calls).listEvents.Perm (acceptedEvents calls) := by
  induction calls using List.reverseRecOn with
  | nil => exact ⟨⟨by simp [storeRun, MemoryStore.empty], List.nodup_nil, nofun, nofun⟩, .nil⟩
  | append_singleton calls c ih =>
    obtain ⟨hsound, hlisted⟩ := ih
    obtain ⟨hsound', hlisted'⟩ := hsound.step c
    rw [storeRun, runFrom_snoc, acceptedEvents_snoc]
    exact ⟨hsound', hlisted'.trans (hlisted.append_right _)⟩

/-- After every sequence of calls on an empty store it is the event log of the accepted events,
the next append adds its event or changes nothing, and later calls keep every accepted event. -/
theorem eventLog_appendOnly (calls : List StoreCall) :
    EventLog (storeRun calls) (acceptedEvents calls) ∧
      (∀ e, AppendLaw (storeRun calls) e) ∧
      ∀ later, ∀ e ∈ acceptedEvents calls, e ∈ (storeRun (calls ++ later)).listEvents ∧
        (storeRun (calls ++ later)).getEvent e.eventId = some e ∧
        (storeRun (calls ++ later)).getEventByHash e.eventHash = some e := by
  refine ⟨(soundLog_storeRun calls).1.eventLog (soundLog_storeRun calls).2, appendLaw _, ?_⟩
  intro later e he
  have hlog := (soundLog_storeRun (calls ++ later)).1.eventLog (soundLog_storeRun _).2
  have hmem : e ∈ acceptedEvents (calls ++ later) := by
    obtain ⟨more, hmore⟩ := acceptedEvents_append calls later
    rw [hmore]
    exact List.mem_append_left more he
  exact ⟨hlog.listed.mem_iff.mpr hmem, hlog.getEvent_eq e hmem, hlog.getEventByHash_eq e hmem⟩

end VKernelX
