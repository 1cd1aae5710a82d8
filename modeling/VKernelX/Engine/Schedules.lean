/-
  Engine/Schedules.lean --- schedules of calls on vectors.

  A call on vectors that succeeds reads the states of the vectors it names, and of the events
  only those of these vectors matter to it.  So what a schedule of such calls does is settled
  by the order of the calls of each vector; how the calls of different vectors interleave is
  immaterial.
-/
import VKernelX.Engine.Commutation
import VKernelX.Foundation.Schedules

set_option autoImplicit false

namespace VKernelX

variable {env : Platform}

/-! ## Successful calls -/

/-- A call that names the vectors it works on: any call but the creation of a region. -/
structure VectorCall extends TimedCall where
  named_ne : call.named ≠ []

variable (env) in
/-- A call's work on an engine, with the events it appends. -/
structure Finishes (eng : KernelEngine) (c : TimedCall) (w : Work) (es : List VectorEvent) :
    Prop where
  works : Works env eng c.now c.call w
  appends : Appends env eng w.transitions es

theorem Finishes.call_eq {eng : KernelEngine} {c : TimedCall} {w : Work} {es : List VectorEvent}
    (h : Finishes env eng c w es) : eng.call env c.now c.call = (.ok w.reply, w.finish eng es) :=
  call_of_works h.works h.appends

theorem Finishes.step_eq {eng : KernelEngine} {c : TimedCall} {w : Work} {es : List VectorEvent}
    (h : Finishes env eng c w es) : engineStep env eng c = w.finish eng es := by
  rw [engineStep, h.call_eq]

theorem VectorCall.finishes_of_ok {eng : KernelEngine} (c : VectorCall)
    (hok : (eng.call env c.now c.call).1.IsOk) : ∃ w es, Finishes env eng c.toTimedCall w es := by
  have hvector : ∀ request actorPublicKey, c.call ≠ .createRegion request actorPublicKey := by
    intro request actorPublicKey heq
    exact c.named_ne (by rw [heq]; rfl)
  obtain ⟨w, es, hworks, happends, _⟩ := works_of_ok hvector hok
  exact ⟨w, es, hworks, happends⟩

/-! ## What a successful call depends on -/

theorem Finishes.congr {eng eng' : KernelEngine} {c : TimedCall} {w : Work}
    {es : List VectorEvent} (h : Finishes env eng c w es)
    (hstates : ∀ id ∈ c.call.named, eng'.store.states[id]? = eng.store.states[id]?)
    (hevents : eng.store.events = eng'.store.events) : Finishes env eng' c w es :=
  ⟨h.works.congr hstates, h.appends.congr hevents⟩

/-- Finished work changes the named vectors only. -/
theorem Finishes.lookup_finish {policy : ConsensusPolicy} {eng : KernelEngine}
    (hreach : ReachableEngine env policy eng) {c : TimedCall} {w : Work} {es : List VectorEvent}
    (h : Finishes env eng c w es) {id : String} (hid : id ∉ c.call.named) (eng' : KernelEngine)
    (es' : List VectorEvent) :
    (w.finish eng' es').store.states[id]? = eng'.store.states[id]? := by
  rw [Work.states_finish, BTreeMap.lookup_insertMany_of_not_mem]
  intro hmem
  simp only [List.map_map, List.mem_map, Function.comp] at hmem
  obtain ⟨s, hs, rfl⟩ := hmem
  exact hid ((h.works.named hreach.wellKeyed hreach.soundStates).1 s hs)

/-- Engines that hold the same states and the same events. -/
structure SameStatesEvents (eng eng' : KernelEngine) : Prop where
  states : eng.store.states = eng'.store.states
  events : eng.store.events = eng'.store.events

theorem Work.finish_congr {eng eng' : KernelEngine} (h : SameStatesEvents eng eng') (w : Work)
    (es : List VectorEvent) : SameStatesEvents (w.finish eng es) (w.finish eng' es) := by
  constructor
  · rw [Work.states_finish, Work.states_finish, h.states]
  · rw [Work.events_finish, Work.events_finish]
    exact addEvents_congr h.events es

/-- Two successful calls on different vectors succeed in the other order with the same work and
the same events. -/
theorem Finishes.swap {policy : ConsensusPolicy} {eng : KernelEngine}
    (hreach : ReachableEngine env policy eng) {a b : TimedCall} {wa wb : Work}
    {ea eb : List VectorEvent} (hab : ∀ id ∈ a.call.named, id ∉ b.call.named)
    (ha : Finishes env eng a wa ea) (hb : Finishes env (wa.finish eng ea) b wb eb) :
    Finishes env eng b wb eb ∧ Finishes env (wb.finish eng eb) a wa ea ∧
      SameStatesEvents (wb.finish (wa.finish eng ea) eb) (wa.finish (wb.finish eng eb) ea) := by
  have hreachA : ReachableEngine env policy (wa.finish eng ea) := ha.step_eq ▸ hreach.tail _ _ a
  obtain ⟨hstatesA, hnamedA⟩ := ha.works.named hreach.wellKeyed hreach.soundStates
  obtain ⟨hstatesB, hnamedB⟩ := hb.works.named hreachA.wellKeyed hreachA.soundStates
  have hne : ∀ t ∈ wa.transitions, ∀ t' ∈ wb.transitions, t.after.vectorId ≠ t'.after.vectorId := by
    intro t ht t' ht' heq
    exact hab _ (hnamedA t ht) (heq ▸ hnamedB t' ht')
  obtain ⟨happendB, happendA, hevents⟩ := Appends.swap hreach.wellKeyed hne ha.appends
    (hb.appends.congr (Work.events_finish wa eng ea))
  have hfirst : Finishes env eng b wb eb :=
    ⟨hb.works.congr (fun id hid => (ha.lookup_finish hreach
      (fun hida => hab id hida hid) eng ea).symm), happendB⟩
  have hsecond : Finishes env (wb.finish eng eb) a wa ea :=
    ⟨ha.works.congr (fun id hid => hfirst.lookup_finish hreach (hab id hid) eng eb),
      happendA.congr (Work.events_finish wb eng eb).symm⟩
  refine ⟨hfirst, hsecond, ?_, ?_⟩
  · rw [Work.states_finish, Work.states_finish, Work.states_finish, Work.states_finish]
    refine BTreeMap.insertMany_comm _ (fun id hid hid' => ?_)
    simp only [List.map_map, List.mem_map, Function.comp] at hid hid'
    obtain ⟨s, hs, rfl⟩ := hid
    obtain ⟨s', hs', heq⟩ := hid'
    exact hab _ (hstatesA s hs) (heq ▸ hstatesB s' hs')
  · rw [Work.events_finish, Work.events_finish]
    exact (addEvents_congr (Work.events_finish wa eng ea) eb).trans
      (hevents.trans (addEvents_congr (Work.events_finish wb eng eb).symm ea))

/-! ## Schedules -/

section

variable (env)

/-- Make a call on vectors and go on. -/
def vectorStep (eng : KernelEngine) (c : VectorCall) : KernelEngine :=
  engineStep env eng c.toTimedCall

/-- What a call on vectors returns. -/
def vectorAnswer (eng : KernelEngine) (c : VectorCall) : Outcome KernelXError Reply :=
  (eng.call env c.now c.call).1

/-- The calls of a schedule, each with what it returns. -/
abbrev vectorAnswers : KernelEngine → List VectorCall →
    List (VectorCall × Outcome KernelXError Reply) :=
  answers (vectorStep env) (vectorAnswer env)

/-- Neighbouring calls on different vectors can be swapped as long as all calls succeed. -/
theorem swappable_vectorCalls (policy : ConsensusPolicy) :
    Swappable (vectorStep env) (vectorAnswer env) (fun c => c.call.named)
      (ReachableEngine env policy) Outcome.IsOk SameStatesEvents where
  inv _ c h := h.tail _ _ c.toTimedCall
  sim_refl _ := ⟨rfl, rfl⟩
  sim_trans _ _ _ h h' := ⟨h.states.trans h'.states, h.events.trans h'.events⟩
  sim_step := by
    intro eng eng' c _ hsim hok
    obtain ⟨w, es, hfinishes⟩ := c.finishes_of_ok hok
    have hfinishes' := hfinishes.congr (fun id _ => by rw [hsim.states]) hsim.events
    rw [vectorAnswer, vectorAnswer, hfinishes.call_eq, hfinishes'.call_eq, vectorStep, vectorStep,
      hfinishes.step_eq, hfinishes'.step_eq]
    exact ⟨rfl, w.finish_congr hsim es⟩
  swap := by
    intro eng a b hreach hab hokA hokB
    obtain ⟨wa, ea, hA⟩ := a.finishes_of_ok hokA
    rw [vectorStep, hA.step_eq] at hokB
    obtain ⟨wb, eb, hB⟩ := b.finishes_of_ok hokB
    obtain ⟨hB', hA', hsame⟩ := Finishes.swap hreach hab hA hB
    simp only [vectorAnswer, vectorStep, hA.step_eq, hB'.step_eq, hA.call_eq, hB'.call_eq,
      hA'.call_eq, hB.call_eq, hA'.step_eq, hB.step_eq, true_and]
    exact hsame

/-- The order of the calls of each vector settles everything.  Take two schedules of calls on
vectors that have, for every vector, the same calls in the same order.  If every call of the
first succeeds from a reachable engine, so does every call of the second; for every vector its
calls get the same answers in both, and both end with the same states and the same events. -/
theorem schedules_agree {policy : ConsensusPolicy} {eng : KernelEngine}
    (h : ReachableEngine env policy eng) {calls calls' : List VectorCall}
    (hsame : SameByName (fun c : VectorCall => c.call.named) calls calls')
    (hok : ∀ p ∈ vectorAnswers env eng calls, p.2.IsOk) :
    (∀ p ∈ vectorAnswers env eng calls', p.2.IsOk) ∧
      SameByName (fun p : VectorCall × Outcome KernelXError Reply => p.1.call.named)
        (vectorAnswers env eng calls) (vectorAnswers env eng calls') ∧
      SameStatesEvents (runFrom (vectorStep env) eng calls)
        (runFrom (vectorStep env) eng calls') := by
  have hrearranged := (rearranged_iff_sameByName (fun c _ => c.named_ne)
    (fun c _ => c.named_ne)).mpr hsame
  obtain ⟨hanswers, hend⟩ := (swappable_vectorCalls env policy).rearranged hrearranged h hok
  exact ⟨fun p hp => hok p (hanswers.perm.mem_iff.mpr hp), hanswers.sameByName, hend⟩

end

/-- A drain and a certification of one vector, with a projection of another before or between. -/
def drainFirst : VectorCall := ⟨callAt 2 (.drain "a" 5000), by decide⟩
def projectOther : VectorCall := ⟨callAt 2 (.project "b" [3] "x"), by decide⟩
def certifyLast : VectorCall := ⟨callAt 3 (.certify "a"), by decide⟩

theorem schedules_agree_interleaved :
    SameStatesEvents
      (runFrom (vectorStep samplePlatform) (engineAfter samplePlatform twoVectors)
        [drainFirst, projectOther, certifyLast])
      (runFrom (vectorStep samplePlatform) (engineAfter samplePlatform twoVectors)
        [projectOther, drainFirst, certifyLast]) := by
  have hindependent : Independent (fun c : VectorCall => c.call.named) drainFirst projectOther := by
    unfold Independent
    decide
  have hsame := (Rearranged.swap hindependent [certifyLast]).sameByName
  exact (schedules_agree samplePlatform (engineAfter_reachable samplePlatform twoVectors) hsame
    (by decide +kernel)).2.2

end VKernelX
