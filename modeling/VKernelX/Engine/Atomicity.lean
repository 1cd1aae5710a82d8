/-
  Engine/Atomicity.lean --- which failing calls leave the engine as it was.

  Everything that is checked before the first write fails without a trace.  The event is
  checked last, after states and records are stored, so a call whose event is rejected has
  written by then.  No other failure leaves a trace.
-/
import VKernelX.Engine.LateRejections
import VKernelX.Region.RoundTrip

set_option autoImplicit false

namespace VKernelX

/-! ## Late rejection -/

/-- States, records and events are the same. -/
structure SameStore (eng eng' : KernelEngine) : Prop where
  states : eng'.store.states = eng.store.states
  records : eng'.store.records = eng.store.records
  events : eng'.store.events = eng.store.events

theorem SameStore.refl (eng : KernelEngine) : SameStore eng eng := ⟨rfl, rfl, rfl⟩

section

variable {env : Platform} {policy : ConsensusPolicy} {eng : KernelEngine} {now : ℕ → UInt64}

/-- An update's new state differs from the stored one in its version. -/
theorem update_changes_states (hreach : ReachableEngine env policy eng) {c : Call} {u : Update}
    {before after : VectorStateV1} (hupdate : c.update? env now = some u)
    (hplan : u.plan eng = .ok (before, after)) :
    eng.store.states.insert after.vectorId after ≠ eng.store.states := by
  obtain ⟨hbefore, hnext, hcanonical⟩ := Update.plan_eq_ok_iff.mp hplan
  have hadvances := (update_next_ok hupdate hnext (hreach.soundStates _ _ hbefore) hcanonical).1
  intro hsame
  have hid : after.vectorId = u.vectorId :=
    hadvances.same.vectorId.trans (hreach.wellKeyed.states _ _ hbefore).1
  have hlookup : (eng.store.states.insert after.vectorId after)[u.vectorId]? = some after := by
    rw [BTreeMap.lookup_insert, if_pos hid]
  rw [hsame, hbefore] at hlookup
  obtain rfl := Option.some.inj hlookup
  exact u64Succ_ne _ hadvances.version rfl

/-- An admitted event changes the stored events. -/
theorem addEvent_changes_events {eng' : KernelEngine} {e : VectorEvent}
    (hfresh : eng.store.events[e.eventHash]? = none) :
    (eng'.addEvent e).store.events ≠ eng.store.events := by
  intro hsame
  have hlookup := eng'.lookup_addEvent e
  rw [hsame, hfresh] at hlookup
  cases hlookup

/-- Storing a vector and offering its record changes nothing exactly when both are stored. -/
theorem sameStore_written_iff {s : VectorStateV1} {r : VectorRecordV1} :
    SameStore eng ((eng.withState s).withRecord r) ↔
      eng.store.getState s.vectorId = some s ∧ eng.Keeps [r] := by
  have hrecords : ((eng.withState s).withRecord r).store.records =
      (eng.withRecords [r]).store.records := by
    simp only [KernelEngine.withRecords, List.foldl_cons, List.foldl_nil,
      KernelEngine.records_withRecord, KernelEngine.records_withState,
      KernelEngine.consensus_withState]
    rfl
  constructor
  · rintro ⟨hstates, hsame, _⟩
    rw [KernelEngine.states_withRecord, KernelEngine.states_withState,
      BTreeMap.insert_eq_self_iff] at hstates
    exact ⟨hstates, hrecords.symm.trans hsame⟩
  · rintro ⟨hstate, hkeeps⟩
    refine ⟨?_, hrecords.trans hkeeps, by simp⟩
    rw [KernelEngine.states_withRecord, KernelEngine.states_withState]
    exact BTreeMap.insert_eq_self_iff.mpr hstate

/-- The same for the two vectors of a transfer; of one vector the last copy counts. -/
theorem sameStore_transferred_iff {s s' : VectorStateV1} {r r' : VectorRecordV1} :
    SameStore eng ((((eng.withState s).withState s').withRecord r).withRecord r') ↔
      (s.vectorId ≠ s'.vectorId → eng.store.getState s.vectorId = some s) ∧
        eng.store.getState s'.vectorId = some s' ∧ eng.Keeps [r, r'] := by
  have hrecords : ((((eng.withState s).withState s').withRecord r).withRecord r').store.records =
      (eng.withRecords [r, r']).store.records := by
    simp only [KernelEngine.withRecords, List.foldl_cons, List.foldl_nil,
      KernelEngine.records_withRecord, KernelEngine.records_withState,
      KernelEngine.consensus_withRecord, KernelEngine.consensus_withState]
    rfl
  have hstates : ((((eng.withState s).withState s').withRecord r).withRecord r').store.states =
      (eng.store.states.insert s.vectorId s).insert s'.vectorId s' := by simp
  constructor
  · rintro ⟨hsameStates, hsame, _⟩
    rw [hstates] at hsameStates
    have hlookup : ∀ id, (if s'.vectorId = id then some s' else if s.vectorId = id then some s
        else eng.store.states[id]?) = eng.store.states[id]? := by
      intro id
      nth_rewrite 2 [← hsameStates]
      rw [BTreeMap.lookup_insert, BTreeMap.lookup_insert]
    refine ⟨fun hne => ?_, ?_, hrecords.symm.trans hsame⟩
    · have := hlookup s.vectorId
      rw [if_neg (Ne.symm hne), if_pos rfl] at this
      exact this.symm
    · have := hlookup s'.vectorId
      rw [if_pos rfl] at this
      exact this.symm
  · rintro ⟨hfrom, hto, hkeeps⟩
    refine ⟨?_, hrecords.trans hkeeps, by simp⟩
    rw [hstates]
    refine Std.ExtTreeMap.ext_getElem? (fun id => ?_)
    rw [BTreeMap.lookup_insert, BTreeMap.lookup_insert]
    split
    · rename_i heq
      rw [← heq]
      exact hto.symm
    · rename_i hne
      split
      · rename_i heq
        rw [← heq]
        exact (hfrom (by rw [heq]; exact Ne.symm hne)).symm
      · rfl

/-! ## Endings and late rejection -/

section Endings

variable {c : Call} {w : Work}

/-- A call without work is not rejected late. -/
theorem not_rejectedLate_of_works (hreach : ReachableEngine env policy eng)
    (h : ∀ w, ¬ Works env eng now c w) : ¬ c.RejectedLate env eng now := by
  rintro ⟨hchecked, hpanics, _, _⟩
  obtain ⟨w, hworks⟩ := (@works_iff env policy eng now hreach c).mpr ⟨hchecked, hpanics⟩
  exact h w hworks

/-- A call whose events are appended is not rejected late. -/
theorem not_rejectedLate_of_appends {es : List VectorEvent}
    (happends : (∃ es, Appends env eng w.transitions es) ↔ ¬ c.EventRefused eng)
    (h : Appends env eng w.transitions es) : ¬ c.RejectedLate env eng now :=
  fun hlate => happends.mp ⟨es, h⟩ hlate.refused

/-- A call with work none of whose events can be appended is rejected late unless idle. -/
theorem Works.rejectedLate_iff (hreach : ReachableEngine env policy eng)
    (hworks : Works env eng now c w)
    (happends : (∃ es, Appends env eng w.transitions es) ↔ ¬ c.EventRefused eng)
    (h : ∀ es, ¬ Appends env eng w.transitions es) :
    c.RejectedLate env eng now ↔ ¬ c.Idle env eng now := by
  obtain ⟨hchecked, hpanics⟩ := (@works_iff env policy eng now hreach c).mp ⟨w, hworks⟩
  have hrefused : c.EventRefused eng := by
    by_contra hnot
    obtain ⟨es, hes⟩ := happends.mpr hnot
    exact h es hes
  exact ⟨fun hlate => hlate.notIdle, fun hidle => ⟨hchecked, hpanics, hrefused, hidle⟩⟩

theorem UpdateEnds.atomic_iff (hreach : ReachableEngine env policy eng) {u : Update}
    (happends : ∀ w, Works env eng now c w →
      ((∃ es, Appends env eng w.transitions es) ↔ ¬ c.EventRefused eng))
    (hupdate : c.update? env now = some u) {r : Outcome KernelXError VectorStateV1}
    {eng' : KernelEngine} (h : UpdateEnds env eng u r eng') :
    (r.IsErr → SameStore eng eng') ↔ ¬ c.RejectedLate env eng now := by
  have hworks : ∀ w, Works env eng now c w → ∃ before after rec,
      u.plan eng = .ok (before, after) ∧ u.record before after = .ok rec := by
    intro w hworks
    cases hworks with
    | update hupdate' hplan hrecord =>
      obtain rfl := Option.some.inj (hupdate.symm.trans hupdate')
      exact ⟨_, _, _, hplan, hrecord⟩
    | origin _ => cases hupdate
    | transfer _ _ => cases hupdate
  have hidle : ¬ c.Idle env eng now := by
    cases c <;> cases hupdate <;> exact id
  cases h with
  | rejected hplan =>
    refine iff_of_true (fun _ => .refl eng) (not_rejectedLate_of_works hreach (fun w h => ?_))
    obtain ⟨_, _, _, hplan', _⟩ := hworks w h
    exact absurd (hplan.symm.trans hplan') (by simp)
  | unrecorded before after hplan hrecord =>
    refine iff_of_true (fun herr => ?_) (not_rejectedLate_of_works hreach (fun w h => ?_))
    · exact absurd ((Outcome.isErr_congr hrecord).mpr herr) (not_isErr_record hupdate before after)
    · obtain ⟨_, _, _, hplan', hrecord'⟩ := hworks w h
      obtain ⟨rfl, rfl⟩ := Prod.mk.inj (Except.ok.inj (hplan.symm.trans hplan'))
      exact absurd (hrecord.symm.trans hrecord') (by simp)
  | @unappended before after rec f hplan hrecord hevent =>
    have hwork := Works.update hupdate hplan hrecord
    have herr := (noPanic_transitionEvent env eng _ _ _ _ _).isErr_of_error hevent
    refine iff_of_false (fun hsame => ?_) (not_not_intro ?_)
    · have hstates := (hsame ((Outcome.isErr_congr hevent).mp herr)).states
      rw [KernelEngine.states_withRecord, KernelEngine.states_withState] at hstates
      exact update_changes_states hreach hupdate hplan hstates
    · refine (hwork.rejectedLate_iff hreach (happends _ hwork) (fun es hes => ?_)).mpr hidle
      cases hes with
      | cons hevent' _ => exact absurd (hevent.symm.trans hevent') (by simp)
  | done before after rec e hplan hrecord hevent =>
    have hwork := Works.update hupdate hplan hrecord
    exact iff_of_true (fun herr => absurd herr (Outcome.not_isErr_ok _))
      (not_rejectedLate_of_appends (happends _ hwork) (.cons hevent .nil))

theorem OriginEnds.atomic_iff (hreach : ReachableEngine env policy eng) {request : OriginRequest}
    (happends : ∀ w, Works env eng now (.originCreate request) w →
      ((∃ es, Appends env eng w.transitions es) ↔ ¬ (Call.originCreate request).EventRefused eng))
    {r : Outcome KernelXError VectorStateV1} {eng' : KernelEngine}
    (h : OriginEnds env eng now request r eng') :
    (r.IsErr → SameStore eng eng') ↔ ¬ (Call.originCreate request).RejectedLate env eng now := by
  cases h with
  | rejected hplan =>
    refine iff_of_true (fun _ => .refl eng) (not_rejectedLate_of_works hreach (fun w h => ?_))
    cases h with
    | update hupdate _ _ => cases hupdate
    | origin hplan' => exact absurd (hplan.symm.trans hplan') (by simp)
  | unappended s hplan hevent =>
    have hwork := @Works.origin env eng now request s hplan
    have herr := (noPanic_transitionEvent env eng _ _ _ _ _).isErr_of_error hevent
    have hvector := originState_vector hplan
    have hid : s.vectorId = request.vectorId := (originState_ok hplan).vectorId
    have hidle : (Call.originCreate request).Idle env eng now ↔ SameStore eng
        ((eng.withState s).withRecord (originRecord env request.difficulty now s)) := by
      rw [sameStore_written_iff, hid, hvector]
      rfl
    rw [hwork.rejectedLate_iff hreach (happends _ hwork) (fun es hes => ?_), not_not, hidle]
    · exact ⟨fun h => h ((Outcome.isErr_congr hevent).mp herr), fun h _ => h⟩
    · cases hes with
      | cons hevent' _ => exact absurd (hevent.symm.trans hevent') (by simp)
  | done s e hplan hevent =>
    have hwork := @Works.origin env eng now request s hplan
    exact iff_of_true (fun herr => absurd herr (Outcome.not_isErr_ok _))
      (not_rejectedLate_of_appends (happends _ hwork) (.cons hevent .nil))

/-- A transfer whose first event is turned down has written what was stored exactly if it is
idle. -/
theorem TransferPlan.idle_iff (hreach : ReachableEngine env policy eng) {fromId toId : String}
    {amount : List U128} {plan : TransferPlan} {sr rr : VectorRecordV1}
    (hplan : transferPlan env eng now fromId toId amount = .ok plan)
    (hrecords : plan.records env now amount = .ok (sr, rr))
    (hrefused : (plan.sender.draft .transfer plan.sender.version plan.sender.component).Refused
      eng.eventNames) :
    (Call.transfer fromId toId amount).Idle env eng now ↔
      SameStore eng (((plan.store eng).withRecord sr).withRecord rr) := by
  obtain ⟨hsender, hreceiver, hnext⟩ := transferPlan_eq_ok_iff.mp hplan
  obtain ⟨hfrom, hto⟩ := transferNext_moved (hreach.soundStates _ _ hsender)
    (hreach.soundStates _ _ hreceiver) hnext
  obtain ⟨hsameFrom, hsameTo⟩ := transferNext_identity hnext
  have hfromId := hsameFrom.vectorId.trans (hreach.wellKeyed.states _ _ hsender).1
  have htoId := hsameTo.vectorId.trans (hreach.wellKeyed.states _ _ hreceiver).1
  rw [TransferPlan.store, sameStore_transferred_iff, hfromId, htoId]
  simp only [Call.Idle, MemoryStore.getState, hsender, hreceiver, Option.some.injEq,
    exists_and_left, exists_eq_left', hrefused, true_and, ← hfrom, ← hto]
  refine and_congr_right (fun _ => and_congr_right (fun hkept => ?_))
  have hmade : transferRecords env now amount plan.sender plan.receiver plan.afterFrom
      plan.receiver = .ok (sr, rr) := by
    rw [← hrecords, TransferPlan.records, ← hkept]
  rw [hmade]
  constructor
  · exact fun h => h sr rr rfl
  · rintro h sr' rr' heq
    obtain ⟨rfl, rfl⟩ := Prod.mk.inj (Except.ok.inj heq)
    exact h

theorem TransferEnds.atomic_iff (hfree : env.CollisionFree)
    (hreach : ReachableEngine env policy eng) (hshort : eng.NamesShort) {fromId toId : String}
    {amount : List U128} {r : Outcome KernelXError (VectorStateV1 × VectorStateV1)}
    {eng' : KernelEngine} (h : TransferEnds env eng now fromId toId amount r eng') :
    (r.IsErr → SameStore eng eng') ↔
      ¬ (Call.transfer fromId toId amount).RejectedLate env eng now := by
  have happends : ∀ w, Works env eng now (.transfer fromId toId amount) w →
      ((∃ es, Appends env eng w.transitions es) ↔
        ¬ (Call.transfer fromId toId amount).EventRefused eng) :=
    fun w hworks => hworks.appends_iff hfree hreach hshort (by trivial)
  have hworks : ∀ w, Works env eng now (.transfer fromId toId amount) w → ∃ plan rs,
      transferPlan env eng now fromId toId amount = .ok plan ∧
        plan.records env now amount = .ok rs := by
    intro w hworks
    cases hworks with
    | update hupdate _ _ => cases hupdate
    | transfer hplan hrecords => exact ⟨_, _, hplan, hrecords⟩
  cases h with
  | rejected hplan =>
    refine iff_of_true (fun _ => .refl eng) (not_rejectedLate_of_works hreach (fun w h => ?_))
    obtain ⟨_, _, hplan', _⟩ := hworks w h
    exact absurd (hplan.symm.trans hplan') (by simp)
  | unrecorded plan hplan hrecords =>
    refine iff_of_true (fun herr => ?_) (not_rejectedLate_of_works hreach (fun w h => ?_))
    · have hnot : ¬ (plan.records env now amount).IsErr := not_isErr_transferRecords plan now amount
      exact absurd ((Outcome.isErr_congr hrecords).mpr herr) hnot
    · obtain ⟨_, _, hplan', hrecords'⟩ := hworks w h
      obtain rfl := Except.ok.inj (hplan.symm.trans hplan')
      exact absurd (hrecords.symm.trans hrecords') (by simp)
  | unappended plan sr rr hplan hrecords hsender =>
    have hwork := Works.transfer hplan hrecords
    have herr := (noPanic_transitionEvent env eng _ _ _ _ _).isErr_of_error hsender
    -- The sender's event is not made, so it is refused.
    have hrefused : (plan.sender.draft .transfer plan.sender.version
        plan.sender.component).Refused eng.eventNames := by
      rw [← plan.sender_draft hplan]
      by_contra hnot
      obtain ⟨es, hes⟩ := Transition.exists_event hfree (hshort.known hreach)
        (hwork.shaped hreach _ List.mem_cons_self)
        (hwork.shortNames hreach hshort (by trivial) _ List.mem_cons_self) hnot
      exact absurd (hsender.symm.trans hes) (by simp)
    rw [hwork.rejectedLate_iff hreach (happends _ hwork) (fun es hes => ?_), not_not,
      plan.idle_iff hreach hplan hrecords hrefused]
    · exact ⟨fun h => h ((Outcome.isErr_congr hsender).mp herr), fun h _ => h⟩
    · cases hes with
      | cons hsender' _ => exact absurd (hsender.symm.trans hsender') (by simp)
  | halfway plan sr rr es hplan hrecords hsender hreceiver =>
    have hwork := Works.transfer hplan hrecords
    have herr := (noPanic_transitionEvent env _ _ _ _ _ _).isErr_of_error hreceiver
    -- The sender's event is in the store by now, so the store has changed.
    have hfresh := (transitionEvent_eq_ok_iff.mp hsender).2.appendable.hash_fresh
    refine iff_of_false (fun hsame => ?_) (not_not_intro ?_)
    · exact addEvent_changes_events hfresh (hsame ((Outcome.isErr_congr hreceiver).mp herr)).events
    · refine (hwork.rejectedLate_iff hreach (happends _ hwork) (fun es' hes => ?_)).mpr ?_
      · cases hes with
        | cons hsender' hrest =>
          obtain rfl := Except.ok.inj (hsender.symm.trans hsender')
          cases hrest with
          | cons hreceiver' _ => exact absurd (hreceiver.symm.trans hreceiver') (by simp)
      · rintro ⟨sender, receiver, hsender', _, hrefused, _⟩
        obtain ⟨hstored, _⟩ := transferPlan_eq_ok_iff.mp hplan
        obtain rfl := Option.some.inj (hstored.symm.trans hsender')
        rw [← plan.sender_draft hplan] at hrefused
        have hevent : Transition.event env ⟨some plan.sender, plan.afterFrom, .transfer, now 6⟩
            eng = .ok es := hsender
        exact Transition.not_refused hevent hrefused
  | done plan sr rr es er hplan hrecords hsender hreceiver =>
    have hwork := Works.transfer hplan hrecords
    exact iff_of_true (fun herr => absurd herr (Outcome.not_isErr_ok _))
      (not_rejectedLate_of_appends (happends _ hwork) (.cons hsender (.cons hreceiver .nil)))

end Endings

theorem RegionEnds.atomic (hdigest : env.DigestsVisible) {request : RegionCreateRequest}
    {actorPublicKey : String} {r : Outcome KernelXError RegionState} {eng' : KernelEngine}
    (h : RegionEnds env eng now request actorPublicKey r eng') (herr : r.IsErr) :
    SameStore eng eng' := by
  cases h with
  | rejected _ => exact .refl eng
  | unappended _ _ _ => exact .refl eng
  | unreadable e hevent _ hregion =>
    obtain ⟨_, hregion', _⟩ := regionEvent_readable hdigest hevent
    exact absurd (hregion.symm.trans hregion') (by simp)
  | done e region _ _ _ => exact absurd herr (Outcome.not_isErr_ok _)

theorem CallEnds.atomic_iff (hfree : env.CollisionFree) (hreach : ReachableEngine env policy eng)
    (hshort : eng.NamesShort) {c : Call} (hc : c.NamesShort)
    (hdigest : ∀ request actorPublicKey, c = .createRegion request actorPublicKey →
      env.DigestsVisible)
    {r : Outcome KernelXError Reply} {eng' : KernelEngine} (h : CallEnds env eng now c r eng') :
    (r.IsErr → SameStore eng eng') ↔ ¬ c.RejectedLate env eng now := by
  have happends : ∀ w, Works env eng now c w →
      ((∃ es, Appends env eng w.transitions es) ↔ ¬ c.EventRefused eng) :=
    fun w hworks => hworks.appends_iff hfree hreach hshort hc
  cases h with
  | update hupdate h =>
    rw [Outcome.isErr_map_iff]
    exact h.atomic_iff hreach happends hupdate
  | origin h =>
    rw [Outcome.isErr_map_iff]
    exact h.atomic_iff hreach happends
  | transfer h =>
    rw [Outcome.isErr_map_iff]
    exact h.atomic_iff hfree hreach hshort
  | region h =>
    rw [Outcome.isErr_map_iff]
    exact iff_of_true (h.atomic (hdigest _ _ rfl)) (fun hlate => hlate.checked)

/-- A failing call leaves states, records and events alone exactly when it was not rejected
late. -/
theorem failure_atomic_iff (hfree : env.CollisionFree) (hdigest : env.DigestsVisible)
    (hreach : ReachableEngine env policy eng) (hshort : eng.NamesShort) (c : Call)
    (hc : c.NamesShort) :
    ((eng.call env now c).1.IsErr → SameStore eng (eng.call env now c).2) ↔
      ¬ c.RejectedLate env eng now :=
  (call_ends eng now c).atomic_iff hfree hreach hshort hc (fun _ _ _ => hdigest)

end

/-- A creation whose vector id is a blank: the checks before the first write only ask for
something, the event asks for a visible character. -/
def blankOrigin : Call := .originCreate (sampleOrigin " " [5])

theorem blankOrigin_namesShort : blankOrigin.NamesShort := by
  show (strBytes " ").length + (strBytes "s").length < 2 ^ 63
  decide

theorem failure_atomic_iff_blank :
    let env := separatedPlatform []
    let eng := KernelEngine.initial ConsensusPolicy.default
    ((eng.call env (fun _ => 1) blankOrigin).1.IsErr →
        SameStore eng (eng.call env (fun _ => 1) blankOrigin).2) ↔
      ¬ blankOrigin.RejectedLate env eng (fun _ => 1) :=
  failure_atomic_iff separatedPlatform_nil_collisionFree (separatedPlatform_digestsVisible [])
    ⟨[], rfl⟩ (initial_namesShort _) blankOrigin
    blankOrigin_namesShort

/-- Failing calls are atomic. -/
def FailuresAtomic : Prop :=
  ∀ (env : Platform) (policy : ConsensusPolicy) (eng : KernelEngine),
    env.CollisionFree → env.DigestsVisible → ReachableEngine env policy eng →
      ∀ (now : ℕ → UInt64) (c : Call),
        (eng.call env now c).1.IsErr → SameStore eng (eng.call env now c).2

/-- The creation fails, and the vector is stored. -/
theorem failuresAtomic_fails_on_blank : ¬ FailuresAtomic := by
  intro h
  have hsame := h (separatedPlatform []) _ (KernelEngine.initial ConsensusPolicy.default)
    separatedPlatform_nil_collisionFree (separatedPlatform_digestsVisible []) ⟨[], rfl⟩
    (fun _ => 1) blankOrigin (by decide +kernel)
  have hcount := congrArg (fun m => m.size) hsame.states
  exact absurd hcount (by decide +kernel)

end VKernelX
