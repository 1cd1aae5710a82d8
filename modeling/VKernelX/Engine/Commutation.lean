/-
  Engine/Commutation.lean --- calls on disjoint vectors can be made in either order.

  The events of one call neither become parents of the other's events nor count in their
  sequence numbers, and two events that are fresh one after the other are fresh in either
  order.  So the transitions of the two calls can be swapped one by one.
-/
import VKernelX.Engine.Work

set_option autoImplicit false

namespace VKernelX

variable {env : Platform}

/-! ## Two transitions -/

theorem Transition.parents_chosen (t : Transition) (eng : KernelEngine) :
    t.parents eng = [] ∨ t.parents eng = eng.latestParentHashForEntity t.after.vectorId := by
  unfold Transition.parents
  split
  · exact Or.inl rfl
  · exact Or.inr rfl

theorem Transition.wellKeyed_addEvent {t : Transition} {eng : KernelEngine} {e : VectorEvent}
    (h : t.event env eng = .ok e) (hkeyed : WellKeyed eng.store) :
    WellKeyed (eng.addEvent e).store :=
  (EngineWrite.transition h (t.parents_chosen eng) rfl).wellKeyed hkeyed

/-- Adding events looks at the stored events only. -/
theorem addEvents_congr {eng eng' : KernelEngine} (h : eng.store.events = eng'.store.events)
    (es : List VectorEvent) :
    (eng.addEvents es).store.events = (eng'.addEvents es).store.events := by
  rw [events_addEvents, events_addEvents, h]

/-- Transitions of different vectors can be swapped. -/
theorem Transition.swap {eng : KernelEngine} (hkeyed : WellKeyed eng.store) {t t' : Transition}
    {e e' : VectorEvent} (hne : t.after.vectorId ≠ t'.after.vectorId)
    (h : t.event env eng = .ok e) (h' : t'.event env (eng.addEvent e) = .ok e') :
    t'.event env eng = .ok e' ∧ t.event env (eng.addEvent e') = .ok e ∧
      ((eng.addEvent e).addEvent e').store.events =
        ((eng.addEvent e').addEvent e).store.events := by
  obtain ⟨hbuild, hadm⟩ := transitionEvent_eq_ok_iff.mp h
  obtain ⟨hbuild', hadm'⟩ := transitionEvent_eq_ok_iff.mp h'
  have hentity : e.entityId = t.after.vectorId := (buildTransitionEvent_fields hbuild).1.entityId_eq
  have hentity' : e'.entityId = t'.after.vectorId :=
    (buildTransitionEvent_fields hbuild').1.entityId_eq
  have hparents' : e'.parentHashes = t'.parents (eng.addEvent e) :=
    (buildTransitionEvent_fields hbuild').1.parentHashes_eq
  have hfresh := hadm.appendable.hash_fresh
  -- The second event is fresh next to the first, so it is fresh without it and differs from it.
  have hhash : e.eventHash ≠ e'.eventHash := by
    intro heq
    have := hadm'.appendable.hash_fresh
    rw [KernelEngine.events_addEvent, BTreeMap.lookup_insert, if_pos heq] at this
    cases this
  have hfresh' : eng.store.events[e'.eventHash]? = none := by
    have := hadm'.appendable.hash_fresh
    rwa [KernelEngine.events_addEvent, BTreeMap.lookup_insert_of_ne _ _ hhash] at this
  have hids : ∀ existing ∈ (eng.addEvent e).store.listEvents, existing.eventId ≠ e'.eventId :=
    hadm'.appendable.id_fresh
  have hperm := listEvents_addEvent_perm hfresh
  have hperm' := listEvents_addEvent_perm hfresh'
  have hsame' : t'.parents (eng.addEvent e) = t'.parents eng := by
    unfold Transition.parents
    split
    · rfl
    · exact latestParent_addEvent_of_ne hfresh (by rwa [hentity])
  have hsame : t.parents (eng.addEvent e') = t.parents eng := by
    unfold Transition.parents
    split
    · rfl
    · exact latestParent_addEvent_of_ne hfresh' (by rw [hentity']; exact hne.symm)
  refine ⟨transitionEvent_eq_ok_iff.mpr ⟨?_, ?_⟩, transitionEvent_eq_ok_iff.mpr ⟨?_, ?_⟩, ?_⟩
  · rw [← hsame', ← buildTransitionEvent_addEvent_of_ne hfresh (by rwa [hentity]) env rfl]
    exact hbuild'
  · refine ⟨hadm'.valid, fun p hp => ?_, hadm'.appendable.eventId_ne,
      hadm'.appendable.eventHash_ne, hfresh', fun existing hexisting => ?_⟩
    · rw [hparents', hsame'] at hp
      rcases t'.parents_chosen eng with hnil | hlatest
      · rw [hnil] at hp
        cases hp
      · rw [hlatest] at hp
        obtain ⟨q, hq, rfl, _⟩ := mem_latestParent hp
        rw [hkeyed.mem_listEvents_iff.mp hq]
        simp
    · exact hids existing (hperm.mem_iff.mpr (List.mem_cons_of_mem e hexisting))
  · rw [hsame, buildTransitionEvent_addEvent_of_ne hfresh' (by rw [hentity']; exact hne.symm) env
      rfl]
    exact hbuild
  · refine ⟨hadm.valid, fun p hp => ?_, hadm.appendable.eventId_ne,
      hadm.appendable.eventHash_ne, ?_, fun existing hexisting => ?_⟩
    · rw [KernelEngine.events_addEvent, BTreeMap.lookup_insert]
      split
      · simp
      · exact hadm.parents p hp
    · rw [KernelEngine.events_addEvent, BTreeMap.lookup_insert_of_ne _ _ hhash.symm]
      exact hfresh
    · rcases List.mem_cons.mp (hperm'.mem_iff.mp hexisting) with rfl | hold
      · exact (hids e (hperm.mem_iff.mpr List.mem_cons_self)).symm
      · exact hadm.appendable.id_fresh existing hold
  · apply Std.ExtTreeMap.ext_getElem?
    intro hash
    simp only [KernelEngine.events_addEvent, BTreeMap.lookup_insert]
    by_cases heq : e.eventHash = hash
    · simp [heq, show e'.eventHash ≠ hash from fun h => hhash (heq.trans h.symm)]
    · simp [heq]

/-! ## Two lists of transitions -/

/-- One transition moves behind a list of transitions of other vectors. -/
theorem Appends.swap_one {eng : KernelEngine} (hkeyed : WellKeyed eng.store) {t : Transition}
    {e : VectorEvent} {ts : List Transition} {es : List VectorEvent}
    (hne : ∀ t' ∈ ts, t.after.vectorId ≠ t'.after.vectorId) (h : t.event env eng = .ok e)
    (hrest : Appends env (eng.addEvent e) ts es) :
    Appends env eng ts es ∧ t.event env (eng.addEvents es) = .ok e ∧
      ((eng.addEvent e).addEvents es).store.events =
        ((eng.addEvents es).addEvent e).store.events := by
  induction ts generalizing eng es with
  | nil =>
    cases hrest
    exact ⟨.nil, h, rfl⟩
  | cons t' ts ih =>
    obtain ⟨hfirst, hothers⟩ := List.forall_mem_cons.mp hne
    cases hrest with
    | @cons _ _ _ e' es hevent' hrest =>
      obtain ⟨hswap', hswap, hevents⟩ := Transition.swap hkeyed hfirst h hevent'
      obtain ⟨hlist, hlast, hend⟩ := ih (Transition.wellKeyed_addEvent hswap' hkeyed) hothers
        hswap (hrest.congr hevents)
      refine ⟨.cons hswap' hlist, hlast, ?_⟩
      exact (addEvents_congr hevents es).trans hend

/-- Two lists of transitions of different vectors can be swapped. -/
theorem Appends.swap {eng : KernelEngine} (hkeyed : WellKeyed eng.store)
    {ts ts' : List Transition} {es es' : List VectorEvent}
    (hne : ∀ t ∈ ts, ∀ t' ∈ ts', t.after.vectorId ≠ t'.after.vectorId)
    (h : Appends env eng ts es) (h' : Appends env (eng.addEvents es) ts' es') :
    Appends env eng ts' es' ∧ Appends env (eng.addEvents es') ts es ∧
      ((eng.addEvents es).addEvents es').store.events =
        ((eng.addEvents es').addEvents es).store.events := by
  induction h with
  | nil => exact ⟨h', .nil, rfl⟩
  | @cons eng t ts e es hevent hrest ih =>
    obtain ⟨hfirst, hothers⟩ := List.forall_mem_cons.mp hne
    obtain ⟨hlist, hback, hend⟩ := ih (Transition.wellKeyed_addEvent hevent hkeyed) hothers h'
    obtain ⟨hlist', hlast, hend'⟩ := Appends.swap_one hkeyed hfirst hevent hlist
    exact ⟨hlist', .cons hlast (hback.congr hend'), hend.trans (addEvents_congr hend' es)⟩

/-! ## Two calls -/

/-- Two calls on disjoint vectors that succeed in one order succeed in the other, with the
same replies, and leave the same states and the same events. -/
theorem disjoint_calls_commute (env : Platform) {policy : ConsensusPolicy} {eng : KernelEngine}
    (h : ReachableEngine env policy eng) {a b : TimedCall} (ha : a.call.IsMutation)
    (hb : b.call.IsMutation) (hdisjoint : ∀ id ∈ a.call.named, id ∉ b.call.named)
    {replyA replyB : Reply} (hA : (eng.call env a.now a.call).1 = .ok replyA)
    (hB : ((engineStep env eng a).call env b.now b.call).1 = .ok replyB) :
    (eng.call env b.now b.call).1 = .ok replyB ∧
      ((engineStep env eng b).call env a.now a.call).1 = .ok replyA ∧
      (engineStep env (engineStep env eng b) a).store.states =
        (engineStep env (engineStep env eng a) b).store.states ∧
      (engineStep env (engineStep env eng b) a).store.events =
        (engineStep env (engineStep env eng a) b).store.events := by
  have hvector : ∀ {c : Call}, c.IsMutation →
      ∀ request actorPublicKey, c ≠ .createRegion request actorPublicKey := by
    rintro c hc request actorPublicKey rfl
    exact hc
  obtain ⟨wa, ea, hworkA, happendA, hcallA⟩ := works_of_ok (hvector ha) ⟨replyA, hA⟩
  obtain ⟨wb, eb, hworkB, happendB, hcallB⟩ := works_of_ok (hvector hb) ⟨replyB, hB⟩
  have hstepA : engineStep env eng a = wa.finish eng ea := by rw [engineStep, hcallA]
  have hreachA : ReachableEngine env policy (engineStep env eng a) := h.tail _ _ a
  obtain ⟨hstatesA, hnamedA⟩ := hworkA.named h.wellKeyed h.soundStates
  obtain ⟨hstatesB, hnamedB⟩ := hworkB.named hreachA.wellKeyed hreachA.soundStates
  -- The second call finds its vectors as they were before the first.
  have hworkB' : Works env eng b.now b.call wb := by
    refine hworkB.congr (fun id hid => ?_)
    rw [hstepA, Work.states_finish, BTreeMap.lookup_insertMany_of_not_mem]
    intro hmem
    simp only [List.map_map, List.mem_map, Function.comp] at hmem
    obtain ⟨s, hs, rfl⟩ := hmem
    exact hdisjoint _ (hstatesA s hs) hid
  have hne : ∀ t ∈ wa.transitions, ∀ t' ∈ wb.transitions, t.after.vectorId ≠ t'.after.vectorId := by
    intro t ht t' ht' heq
    exact hdisjoint _ (hnamedA t ht) (heq ▸ hnamedB t' ht')
  obtain ⟨happendB', happendA', hevents⟩ := Appends.swap h.wellKeyed hne happendA
    (happendB.congr (by rw [hstepA, Work.events_finish]))
  have hcallB' := call_of_works hworkB' happendB'
  have hstepB : engineStep env eng b = wb.finish eng eb := by rw [engineStep, hcallB']
  have hworkA' : Works env (engineStep env eng b) a.now a.call wa := by
    refine hworkA.congr (fun id hid => ?_)
    rw [hstepB, Work.states_finish, BTreeMap.lookup_insertMany_of_not_mem]
    intro hmem
    simp only [List.map_map, List.mem_map, Function.comp] at hmem
    obtain ⟨s, hs, rfl⟩ := hmem
    exact hdisjoint _ hid (hstatesB s hs)
  have hcallA' := call_of_works hworkA'
    (happendA'.congr (by rw [hstepB, Work.events_finish]))
  have hstepBA : engineStep env (engineStep env eng b) a = wa.finish (engineStep env eng b) ea := by
    rw [engineStep, hcallA']
  have hstepAB : engineStep env (engineStep env eng a) b = wb.finish (engineStep env eng a) eb := by
    rw [engineStep, hcallB]
  refine ⟨?_, ?_, ?_, ?_⟩
  · rw [hcallB']
    rw [hcallB] at hB
    exact hB
  · rw [hcallA']
    rw [hcallA] at hA
    exact hA
  · rw [hstepBA, hstepAB, Work.states_finish, Work.states_finish, hstepA, hstepB,
      Work.states_finish, Work.states_finish]
    refine (BTreeMap.insertMany_comm _ (fun id hid hid' => ?_)).symm
    simp only [List.map_map, List.mem_map, Function.comp] at hid hid'
    obtain ⟨s, hs, rfl⟩ := hid
    obtain ⟨s', hs', heq⟩ := hid'
    exact hdisjoint _ (hstatesA s hs) (heq ▸ hstatesB s' hs')
  · rw [hstepBA, hstepAB, Work.events_finish, Work.events_finish, hstepA, hstepB]
    refine (addEvents_congr (Work.events_finish wb eng eb) ea).trans ?_
    exact hevents.symm.trans (addEvents_congr (Work.events_finish wa eng ea).symm eb)

/-- Two vectors of the same space. -/
def twoVectors : List TimedCall :=
  oneVector ++ [callAt 1 (.originCreate (sampleOrigin "b" [5]))]

theorem disjoint_calls_commute_two :
    ∃ eng, ReachableEngine samplePlatform ConsensusPolicy.default eng ∧
      (engineStep samplePlatform (engineStep samplePlatform eng (callAt 2 (.project "b" [3] "x")))
          (callAt 2 (.drain "a" 5000))).store.events =
        (engineStep samplePlatform (engineStep samplePlatform eng (callAt 2 (.drain "a" 5000)))
          (callAt 2 (.project "b" [3] "x"))).store.events := by
  have hA : ((engineAfter samplePlatform twoVectors).call samplePlatform (fun _ => 2)
      (.drain "a" 5000)).1.IsOk := by decide +kernel
  have hB : ((engineStep samplePlatform (engineAfter samplePlatform twoVectors)
      (callAt 2 (.drain "a" 5000))).call samplePlatform (fun _ => 2)
      (.project "b" [3] "x")).1.IsOk := by decide +kernel
  have hreach := engineAfter_reachable samplePlatform twoVectors
  generalize engineAfter samplePlatform twoVectors = eng at hA hB hreach
  obtain ⟨replyA, hA⟩ := hA
  obtain ⟨replyB, hB⟩ := hB
  have hdisjoint : ∀ id ∈ (callAt 2 (.drain "a" 5000)).call.named,
      id ∉ (callAt 2 (.project "b" [3] "x")).call.named := by decide
  have ha : (callAt 2 (.drain "a" 5000)).call.IsMutation := trivial
  have hb : (callAt 2 (.project "b" [3] "x")).call.IsMutation := trivial
  exact ⟨eng, hreach,
    (disjoint_calls_commute samplePlatform hreach ha hb hdisjoint hA hB).2.2.2⟩

end VKernelX
