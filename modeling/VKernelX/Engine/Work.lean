/-
  Engine/Work.lean --- what a successful call on vectors does, in one form for all of them.

  Such a call first works out states, records and transitions from the stored states, then
  writes the states, offers the records and appends an event for each transition.  The first
  part looks at the named vectors only; the last looks at the stored events only.
-/
import VKernelX.Engine.Frame
import VKernelX.Engine.Parents

set_option autoImplicit false

namespace VKernelX

/-! ## Transitions -/

/-- A change of one vector, as it becomes an event; a creation has no state before it. -/
structure Transition where
  before : Option VectorStateV1
  after : VectorStateV1
  operation : OperationType
  timestamp : UInt64

/-- The parents a transition's event gets. -/
def Transition.parents (t : Transition) (eng : KernelEngine) : List String :=
  match t.before with
  | none => []
  | some _ => eng.latestParentHashForEntity t.after.vectorId

/-- What a call on vectors is about to write, and what it will return. -/
structure Work where
  states : List VectorStateV1
  records : List VectorRecordV1
  transitions : List Transition
  reply : Reply

/-- Store several states. -/
def KernelEngine.withStates (eng : KernelEngine) (states : List VectorStateV1) : KernelEngine :=
  states.foldl KernelEngine.withState eng

/-- Offer several records. -/
def KernelEngine.withRecords (eng : KernelEngine) (records : List VectorRecordV1) :
    KernelEngine := records.foldl KernelEngine.withRecord eng

/-- Add several events. -/
def KernelEngine.addEvents (eng : KernelEngine) (events : List VectorEvent) : KernelEngine :=
  events.foldl KernelEngine.addEvent eng

section

variable (env : Platform)

/-- The event of a transition on an engine. -/
def Transition.event (t : Transition) (eng : KernelEngine) : Outcome KernelXError VectorEvent :=
  transitionEvent env eng t.before t.after t.operation t.timestamp (t.parents eng)

/-- The events of transitions, each made on the engine that holds the ones before it. -/
inductive Appends : KernelEngine → List Transition → List VectorEvent → Prop where
  | nil {eng : KernelEngine} : Appends eng [] []
  | cons {eng : KernelEngine} {t : Transition} {ts : List Transition} {e : VectorEvent}
      {es : List VectorEvent} (hevent : t.event env eng = .ok e)
      (hrest : Appends (eng.addEvent e) ts es) : Appends eng (t :: ts) (e :: es)

/-- The work of a call on vectors. -/
inductive Works (eng : KernelEngine) (now : ℕ → UInt64) : Call → Work → Prop where
  | update {c : Call} {u : Update} {before after : VectorStateV1} {r : VectorRecordV1}
      (hupdate : c.update? env now = some u) (hplan : u.plan eng = .ok (before, after))
      (hrecord : u.record before after = .ok r) :
      Works eng now c
        { states := [after], records := [r]
          transitions := [⟨some before, after, u.operation, after.updatedAtMs⟩]
          reply := .vector after }
  | origin {request : OriginRequest} {s : VectorStateV1}
      (hplan : originState env now request = .ok s) :
      Works eng now (.originCreate request)
        { states := [s], records := [originRecord env request.difficulty now s]
          transitions := [⟨none, s, .originCreate, s.createdAtMs⟩]
          reply := .vector s }
  | transfer {fromId toId : String} {amount : List U128} {plan : TransferPlan}
      {sr rr : VectorRecordV1} (hplan : transferPlan env eng now fromId toId amount = .ok plan)
      (hrecords : plan.records env now amount = .ok (sr, rr)) :
      Works eng now (.transfer fromId toId amount)
        { states := [plan.afterFrom, plan.afterTo], records := [sr, rr]
          transitions := [⟨some plan.sender, plan.afterFrom, .transfer, now 6⟩,
            ⟨some plan.receiver, plan.afterTo, .transfer, now 7⟩]
          reply := .vectors plan.afterFrom plan.afterTo }

/-- The engine after a piece of work and its events. -/
def Work.finish (w : Work) (eng : KernelEngine) (es : List VectorEvent) : KernelEngine :=
  ((eng.withStates w.states).withRecords w.records).addEvents es

end

variable {env : Platform}

/-! ## Calls and their work -/

/-- A successful call on vectors does its work. -/
theorem works_of_ok {eng : KernelEngine} {now : ℕ → UInt64} {c : Call}
    (hc : ∀ request actorPublicKey, c ≠ .createRegion request actorPublicKey)
    (hok : (eng.call env now c).1.IsOk) :
    ∃ w es, Works env eng now c w ∧ Appends env eng w.transitions es ∧
      eng.call env now c = (.ok w.reply, w.finish eng es) := by
  have hupdate : ∀ u, c.update? env now = some u → ∃ w es, Works env eng now c w ∧
      Appends env eng w.transitions es ∧ eng.call env now c = (.ok w.reply, w.finish eng es) := by
    intro u hu
    obtain ⟨before, after, r, e, hplan, hrecord, hevent, hcall⟩ := update_of_ok hu hok
    exact ⟨_, [e], .update hu hplan hrecord, .cons hevent .nil, hcall⟩
  cases c with
  | originCreate request =>
    obtain ⟨s, e, hplan, hevent, hcall⟩ := origin_of_ok hok
    exact ⟨_, [e], .origin hplan, .cons hevent .nil, hcall⟩
  | transfer fromId toId amount =>
    obtain ⟨plan, sr, rr, es, er, hplan, hrecords, hsender, hreceiver, hcall⟩ :=
      transfer_of_ok hok
    exact ⟨_, [es, er], .transfer hplan hrecords, .cons hsender (.cons hreceiver .nil), hcall⟩
  | certify _ => exact hupdate _ rfl
  | drain _ _ => exact hupdate _ rfl
  | project _ _ _ => exact hupdate _ rfl
  | reconstruct _ _ => exact hupdate _ rfl
  | createRegion request actorPublicKey => exact absurd rfl (hc request actorPublicKey)

/-- A transfer whose parts all succeed. -/
theorem call_of_transfer {eng : KernelEngine} {now : ℕ → UInt64} {fromId toId : String}
    {amount : List U128} {plan : TransferPlan} {sr rr : VectorRecordV1} {es er : VectorEvent}
    (hplan : transferPlan env eng now fromId toId amount = .ok plan)
    (hrecords : plan.records env now amount = .ok (sr, rr))
    (hsender : plan.senderEvent env eng now = .ok es)
    (hreceiver : plan.receiverEvent env (eng.addEvent es) now = .ok er) :
    eng.call env now (.transfer fromId toId amount) =
      (.ok (.vectors plan.afterFrom plan.afterTo),
        ((((plan.store eng).withRecord sr).withRecord rr).addEvent es).addEvent er) := by
  obtain ⟨result, eng', h, hcall⟩ := call_transfer_ends eng now fromId toId amount
  rw [hcall]
  cases h with
  | rejected hplan' => exact absurd (hplan.symm.trans hplan') (by simp)
  | unrecorded _ hplan' hrecords' =>
    obtain rfl := Except.ok.inj (hplan.symm.trans hplan')
    exact absurd (hrecords.symm.trans hrecords') (by simp)
  | unappended _ _ _ hplan' _ hsender' =>
    obtain rfl := Except.ok.inj (hplan.symm.trans hplan')
    exact absurd (hsender.symm.trans hsender') (by simp)
  | halfway _ _ _ _ hplan' _ hsender' hreceiver' =>
    obtain rfl := Except.ok.inj (hplan.symm.trans hplan')
    obtain rfl := Except.ok.inj (hsender.symm.trans hsender')
    exact absurd (hreceiver.symm.trans hreceiver') (by simp)
  | done _ _ _ _ _ hplan' hrecords' hsender' hreceiver' =>
    obtain rfl := Except.ok.inj (hplan.symm.trans hplan')
    obtain ⟨rfl, rfl⟩ := Prod.mk.inj (Except.ok.inj (hrecords.symm.trans hrecords'))
    obtain rfl := Except.ok.inj (hsender.symm.trans hsender')
    obtain rfl := Except.ok.inj (hreceiver.symm.trans hreceiver')
    rfl

/-- A creation whose parts succeed. -/
theorem call_of_origin {eng : KernelEngine} {now : ℕ → UInt64} {request : OriginRequest}
    {s : VectorStateV1} {e : VectorEvent} (hplan : originState env now request = .ok s)
    (hevent : originEvent env eng s = .ok e) :
    eng.call env now (.originCreate request) = (.ok (.vector s),
      ((eng.withState s).withRecord (originRecord env request.difficulty now s)).addEvent e) := by
  obtain ⟨result, eng', h, hcall⟩ := call_originCreate_ends eng now request
  rw [hcall]
  cases h with
  | rejected hplan' => exact absurd (hplan.symm.trans hplan') (by simp)
  | unappended _ hplan' hevent' =>
    obtain rfl := Except.ok.inj (hplan.symm.trans hplan')
    exact absurd (hevent.symm.trans hevent') (by simp)
  | done _ _ hplan' hevent' =>
    obtain rfl := Except.ok.inj (hplan.symm.trans hplan')
    obtain rfl := Except.ok.inj (hevent.symm.trans hevent')
    rfl

/-- Work whose events can be appended makes the call succeed. -/
theorem call_of_works {eng : KernelEngine} {now : ℕ → UInt64} {c : Call} {w : Work}
    {es : List VectorEvent} (hworks : Works env eng now c w)
    (happends : Appends env eng w.transitions es) :
    eng.call env now c = (.ok w.reply, w.finish eng es) := by
  cases hworks with
  | update hupdate hplan hrecord =>
    cases happends with
    | cons hevent hrest =>
      cases hrest
      exact call_of_update hupdate hplan hrecord hevent
  | origin hplan =>
    cases happends with
    | cons hevent hrest =>
      cases hrest
      exact call_of_origin hplan hevent
  | transfer hplan hrecords =>
    cases happends with
    | cons hsender hrest =>
      cases hrest with
      | cons hreceiver hrest =>
        cases hrest
        exact call_of_transfer hplan hrecords hsender hreceiver

/-! ## What work looks at -/

/-- Work depends on the states of the named vectors only. -/
theorem Works.congr {eng eng' : KernelEngine} {now : ℕ → UInt64} {c : Call} {w : Work}
    (h : Works env eng now c w)
    (hstates : ∀ id ∈ c.named, eng'.store.states[id]? = eng.store.states[id]?) :
    Works env eng' now c w := by
  cases h with
  | @update _ u before after r hupdate hplan hrecord =>
    refine .update hupdate ?_ hrecord
    rw [Update.plan_eq_ok_iff] at hplan ⊢
    rw [named_of_update hupdate] at hstates
    rw [hstates _ List.mem_cons_self]
    exact hplan
  | origin hplan => exact .origin hplan
  | transfer hplan hrecords =>
    refine .transfer ?_ hrecords
    rw [transferPlan_eq_ok_iff] at hplan ⊢
    rw [hstates _ (by simp [Call.named]), hstates _ (by simp [Call.named])]
    exact hplan

/-- The states and the transitions of work are of the named vectors. -/
theorem Works.named {eng : KernelEngine} {now : ℕ → UInt64} {c : Call} {w : Work}
    (h : Works env eng now c w) (hkeyed : WellKeyed eng.store) (hsound : SoundStates eng.store) :
    (∀ s ∈ w.states, s.vectorId ∈ c.named) ∧
      ∀ t ∈ w.transitions, t.after.vectorId ∈ c.named := by
  cases h with
  | @update _ u before after r hupdate hplan hrecord =>
    obtain ⟨hbefore, hnext, hcanonical⟩ := Update.plan_eq_ok_iff.mp hplan
    have hid : after.vectorId = u.vectorId :=
      (update_next_identity hupdate hnext (hsound _ _ hbefore) hcanonical).vectorId.trans
        (hkeyed.states _ _ hbefore).1
    simp [named_of_update hupdate, hid]
  | origin hplan => simp [Call.named, (originState_ok hplan).vectorId]
  | transfer hplan hrecords =>
    obtain ⟨hsender, hreceiver, hnext⟩ := transferPlan_eq_ok_iff.mp hplan
    obtain ⟨hfrom, hto⟩ := transferNext_identity hnext
    simp [Call.named, hfrom.vectorId.trans (hkeyed.states _ _ hsender).1,
      hto.vectorId.trans (hkeyed.states _ _ hreceiver).1]

/-! ## What finished work leaves -/

@[simp] theorem events_withStates (eng : KernelEngine) (states : List VectorStateV1) :
    (eng.withStates states).store.events = eng.store.events := by
  unfold KernelEngine.withStates
  induction states generalizing eng with
  | nil => rfl
  | cons s states ih => rw [List.foldl_cons, ih, KernelEngine.events_withState]

theorem states_withStates (eng : KernelEngine) (states : List VectorStateV1) :
    (eng.withStates states).store.states =
      BTreeMap.insertMany eng.store.states (states.map (fun s => (s.vectorId, s))) := by
  unfold KernelEngine.withStates
  induction states generalizing eng with
  | nil => rfl
  | cons s states ih => rw [List.foldl_cons, ih, KernelEngine.states_withState]; rfl

@[simp] theorem states_withRecords (eng : KernelEngine) (records : List VectorRecordV1) :
    (eng.withRecords records).store.states = eng.store.states := by
  unfold KernelEngine.withRecords
  induction records generalizing eng with
  | nil => rfl
  | cons r records ih => rw [List.foldl_cons, ih, KernelEngine.states_withRecord]

@[simp] theorem events_withRecords (eng : KernelEngine) (records : List VectorRecordV1) :
    (eng.withRecords records).store.events = eng.store.events := by
  unfold KernelEngine.withRecords
  induction records generalizing eng with
  | nil => rfl
  | cons r records ih => rw [List.foldl_cons, ih, KernelEngine.events_withRecord]

@[simp] theorem states_addEvents (eng : KernelEngine) (es : List VectorEvent) :
    (eng.addEvents es).store.states = eng.store.states := by
  unfold KernelEngine.addEvents
  induction es generalizing eng with
  | nil => rfl
  | cons e es ih => rw [List.foldl_cons, ih, KernelEngine.states_addEvent]

theorem events_addEvents (eng : KernelEngine) (es : List VectorEvent) :
    (eng.addEvents es).store.events =
      BTreeMap.insertMany eng.store.events (es.map (fun e => (e.eventHash, e))) := by
  unfold KernelEngine.addEvents
  induction es generalizing eng with
  | nil => rfl
  | cons e es ih => rw [List.foldl_cons, ih, KernelEngine.events_addEvent]; rfl

theorem Work.states_finish (w : Work) (eng : KernelEngine) (es : List VectorEvent) :
    (w.finish eng es).store.states =
      BTreeMap.insertMany eng.store.states (w.states.map (fun s => (s.vectorId, s))) := by
  rw [Work.finish, states_addEvents, states_withRecords, states_withStates]

theorem Work.events_finish (w : Work) (eng : KernelEngine) (es : List VectorEvent) :
    (w.finish eng es).store.events = (eng.addEvents es).store.events := by
  rw [Work.finish, events_addEvents, events_addEvents, events_withRecords, events_withStates]

/-- Appending looks at the stored events only. -/
theorem Appends.congr {eng eng' : KernelEngine} {ts : List Transition} {es : List VectorEvent}
    (h : Appends env eng ts es) (hevents : eng.store.events = eng'.store.events) :
    Appends env eng' ts es := by
  induction h generalizing eng' with
  | nil => exact .nil
  | @cons eng t ts e es hevent hrest ih =>
    refine .cons ?_ (ih ?_)
    · rw [← hevent, Transition.event, Transition.event, ← transitionEvent_congr hevents]
      congr 1
      unfold Transition.parents
      split
      · rfl
      · exact (latestParent_congr hevents _).symm
    · rw [KernelEngine.events_addEvent, KernelEngine.events_addEvent, hevents]

end VKernelX
