/-
  Engine/Checks.lean --- what a call checks before its first write.

  A call on vectors gets past its early checks, panics, or works out what it writes; which of
  the three it is follows from its arguments and from the vectors it names.
-/
import VKernelX.Engine.Panics
import VKernelX.Engine.Work

set_option autoImplicit false

namespace VKernelX

open Outcome

/-- What a call on vectors checks before its first write. -/
def Call.Checked (env : Platform) (eng : KernelEngine) : Call → Prop
  | .originCreate request => request.Admitted env
  | .certify vectorId => ∃ s, eng.store.getState vectorId = some s
  | .transfer fromId toId amount => ∃ sender receiver,
      eng.store.getState fromId = some sender ∧ eng.store.getState toId = some receiver ∧
      CoveredBy amount sender ∧ receiver.components.length = amount.length
  | .drain vectorId basisPoints => ∃ s, eng.store.getState vectorId = some s ∧
      basisPoints.toNat ≤ 10000
  | .project vectorId projected _ => ∃ s, eng.store.getState vectorId = some s ∧
      CoveredBy projected s
  | .reconstruct vectorId outcome => ∃ s projection, eng.store.getState vectorId = some s ∧
      s.projection = some projection ∧ Fits outcome projection
  | .createRegion _ _ => False

section

variable {env : Platform} {policy : ConsensusPolicy} {eng : KernelEngine} {now : ℕ → UInt64}

/-- Only checked calls panic. -/
theorem Call.Panics.checked {c : Call} (h : c.Panics env eng) : c.Checked env eng := by
  cases c with
  | originCreate request => exact h.1
  | certify vectorId => exact h.imp (fun s hs => hs.1)
  | transfer fromId toId amount =>
    obtain ⟨sender, receiver, hsender, hreceiver, hcovered, hlength, _⟩ := h
    exact ⟨sender, receiver, hsender, hreceiver, hcovered, hlength⟩
  | drain vectorId basisPoints => exact h.imp (fun s hs => ⟨hs.1, hs.2.1⟩)
  | project vectorId projected escrowId => exact h.imp (fun s hs => ⟨hs.1, hs.2.1⟩)
  | reconstruct vectorId outcome =>
    obtain ⟨s, projection, hs, hprojection, hfits, _⟩ := h
    exact ⟨s, projection, hs, hprojection, hfits⟩
  | createRegion request actorPublicKey => exact h.elim

/-! ## Updates -/

/-- An update is turned down on what its next state is turned down on. -/
theorem Update.isErr_recorded_iff {u : Update} {Fit : VectorStateV1 → Prop}
    (hnext : ∀ s, eng.store.getState u.vectorId = some s → ((u.next s).IsErr ↔ ¬ Fit s))
    (hcanonical : ∀ s after, eng.store.getState u.vectorId = some s → u.next s = .ok after →
      CanonicalState after)
    (hrecord : ∀ before after, ¬ (u.record before after).IsErr) :
    (u.recorded eng).IsErr ↔ ¬ ∃ s, eng.store.getState u.vectorId = some s ∧ Fit s := by
  rw [Update.recorded, Update.plan]
  cases hs : eng.store.getState u.vectorId with
  | none => exact iff_of_true (isErr_err _) (by simp)
  | some s =>
    have hfit : (∃ s', some s = some s' ∧ Fit s') ↔ Fit s := by simp
    rw [hfit, ← hnext s hs]
    simp only [Outcome.okOr, Outcome.ok_bind]
    cases hafter : u.next s with
    | error f => exact (isErr_congr rfl)
    | ok after =>
      rw [Outcome.ok_bind, (validateState_eq_ok_iff (u := ())).mpr (hcanonical s after hs hafter)]
      exact iff_of_false (hrecord s after) (not_isErr_ok after)

theorem isErr_recorded_iff (hreach : ReachableEngine env policy eng) {c : Call} {u : Update}
    (hupdate : c.update? env now = some u) : (u.recorded eng).IsErr ↔ ¬ c.Checked env eng := by
  have hsound : ∀ s, eng.store.getState u.vectorId = some s → SoundState s :=
    fun s hs => hreach.soundStates _ s hs
  have hcanonical : ∀ s after, eng.store.getState u.vectorId = some s → u.next s = .ok after →
      CanonicalState after :=
    fun s after hs h => update_next_canonical hupdate (hsound s hs) h
  have hrecord : ∀ before after, ¬ (u.record before after).IsErr :=
    not_isErr_record hupdate
  cases c with
  | certify vectorId =>
    obtain rfl := Option.some.inj hupdate
    have hnext : ∀ s, eng.store.getState vectorId = some s →
        ((certifyNext env now s).IsErr ↔ ¬ True) :=
      fun s hs => iff_of_false (certifyNext_of_fit (hreach.not_sumOverflows hs)).2 (by simp)
    rw [Update.isErr_recorded_iff hnext hcanonical hrecord]
    simp only [Call.Checked, and_true]
  | drain vectorId basisPoints =>
    obtain rfl := Option.some.inj hupdate
    refine Update.isErr_recorded_iff (fun s hs => ?_) hcanonical hrecord
    by_cases hle : basisPoints.toNat ≤ 10000
    · exact iff_of_false (drainNext_of_le now (hreach.not_sumOverflows hs) hle).2 (by simpa)
    · exact iff_of_true (drainNext_isErr hle) hle
  | project vectorId projected escrowId =>
    obtain rfl := Option.some.inj hupdate
    refine Update.isErr_recorded_iff (fun s hs => ?_) hcanonical hrecord
    by_cases hcovered : CoveredBy projected s
    · exact iff_of_false (projectNext_of_covered now (hreach.not_sumOverflows hs) hcovered).2
        (by simpa)
    · exact iff_of_true (projectNext_isErr hcovered) hcovered
  | reconstruct vectorId outcome =>
    obtain rfl := Option.some.inj hupdate
    simp only [Call.Checked, exists_and_left]
    refine Update.isErr_recorded_iff (fun s hs => ?_) hcanonical hrecord
    by_cases hfits : ∃ projection, s.projection = some projection ∧ Fits outcome projection
    · obtain ⟨projection, hprojection, hfits⟩ := hfits
      exact iff_of_false (reconstructNext_of_fits env now (hsound s hs) hprojection hfits).2
        (not_not_intro ⟨projection, hprojection, hfits⟩)
    · exact iff_of_true (reconstructNext_of_not_fits now (hsound s hs)
        (fun projection hprojection h => hfits ⟨projection, hprojection, h⟩)) hfits
  | originCreate _ => cases hupdate
  | transfer _ _ _ => cases hupdate
  | createRegion _ _ => cases hupdate

/-! ## Creations and transfers -/

theorem isErr_originState_iff {request : OriginRequest} :
    (originState env now request).IsErr ↔ ¬ request.Admitted env := by
  by_cases hadmitted : request.Admitted env
  · exact iff_of_false (originState_of_admitted now hadmitted).2 (not_not_intro hadmitted)
  · exact iff_of_true (originState_isErr hadmitted) hadmitted

theorem isErr_transferRecorded_iff (hreach : ReachableEngine env policy eng)
    {fromId toId : String} {amount : List U128} :
    (transferRecorded env eng now fromId toId amount).IsErr ↔
      ¬ (Call.transfer fromId toId amount).Checked env eng := by
  by_cases hstored : ∃ sender receiver, eng.store.getState fromId = some sender ∧
      eng.store.getState toId = some receiver
  · obtain ⟨sender, receiver, hsender, hreceiver⟩ := hstored
    have hchecked : (Call.transfer fromId toId amount).Checked env eng ↔
        CoveredBy amount sender ∧ receiver.components.length = amount.length := by
      simp only [Call.Checked, hsender, hreceiver, Option.some.injEq, exists_and_left,
        exists_eq_left']
    rw [transferRecorded_of_stored hsender hreceiver, hchecked]
    by_cases hguard : CoveredBy amount sender ∧ receiver.components.length = amount.length
    · refine iff_of_false (not_isErr_bind ?_ (fun _ => ?_)) (not_not_intro hguard)
      · exact (transferNext_of_covered env now (hreach.soundStates _ _ hsender).canonical
          (hreach.soundStates _ _ hreceiver).canonical (hreach.not_sumOverflows hsender)
          hguard.1 hguard.2).2
      · exact not_isErr_transferRecords ⟨sender, receiver, _, _⟩ now amount
    · refine iff_of_true ?_ hguard
      have herr : (transferNext env now amount sender receiver).IsErr := transferNext_isErr hguard
      obtain ⟨e, he⟩ := herr
      rw [he]
      exact isErr_err e
  · refine iff_of_true ?_ ?_
    · rw [transferRecorded, transferPlan]
      cases hsender : eng.store.getState fromId with
      | none => exact isErr_err _
      | some sender =>
        cases hreceiver : eng.store.getState toId with
        | none => exact isErr_err _
        | some receiver => exact absurd ⟨sender, receiver, hsender, hreceiver⟩ hstored
    · rintro ⟨sender, receiver, hsender, hreceiver, _⟩
      exact hstored ⟨sender, receiver, hsender, hreceiver⟩

/-! ## Work -/

theorem ok_iff_of {ε α : Type} {x : Outcome ε α} {checked panics : Prop}
    (herr : x.IsErr ↔ ¬ checked) (hpanics : x.Panics ↔ panics) :
    (∃ a, x = .ok a) ↔ checked ∧ ¬ panics := by
  rw [← hpanics, ← not_iff_comm.mp herr.symm]
  constructor
  · rintro ⟨a, rfl⟩
    exact ⟨not_isErr_ok a, not_panics_ok a⟩
  · rintro ⟨hnotErr, hnotPanics⟩
    exact (panics_or_ok hnotErr).resolve_left hnotPanics

/-- A call works out what it writes exactly when it gets past its checks without a panic. -/
theorem works_iff (hreach : ReachableEngine env policy eng) {c : Call} :
    (∃ w, Works env eng now c w) ↔ c.Checked env eng ∧ ¬ c.Panics env eng := by
  have hupdates : ∀ u, c.update? env now = some u →
      ((∃ w, Works env eng now c w) ↔ c.Checked env eng ∧ ¬ c.Panics env eng) := by
    intro u hupdate
    rw [← ok_iff_of (isErr_recorded_iff hreach hupdate) (panics_recorded_iff hreach hupdate)]
    simp only [Update.recorded, Outcome.bind_eq_ok_iff]
    constructor
    · rintro ⟨w, hworks⟩
      cases hworks with
      | @update _ _ before after r hupdate' hplan hrecord =>
        obtain rfl := Option.some.inj (hupdate.symm.trans hupdate')
        exact ⟨r, (before, after), hplan, hrecord⟩
      | origin _ => cases hupdate
      | transfer _ _ => cases hupdate
    · rintro ⟨r, ⟨before, after⟩, hplan, hrecord⟩
      exact ⟨_, .update hupdate hplan hrecord⟩
  cases c with
  | originCreate request =>
    refine Iff.trans ?_ (ok_iff_of (@isErr_originState_iff env now request)
      (@panics_originState_iff env now request))
    constructor
    · rintro ⟨w, hworks⟩
      cases hworks with
      | update hupdate _ _ => cases hupdate
      | origin hplan => exact ⟨_, hplan⟩
    · rintro ⟨s, hplan⟩
      exact ⟨_, .origin hplan⟩
  | transfer fromId toId amount =>
    refine Iff.trans ?_ (ok_iff_of (@isErr_transferRecorded_iff env policy eng now hreach _ _ _)
      (@panics_transferRecorded_iff env policy eng now hreach _ _ _))
    simp only [transferRecorded, Outcome.bind_eq_ok_iff]
    constructor
    · rintro ⟨w, hworks⟩
      cases hworks with
      | update hupdate _ _ => cases hupdate
      | transfer hplan hrecords => exact ⟨_, _, hplan, hrecords⟩
    · rintro ⟨⟨sr, rr⟩, plan, hplan, hrecords⟩
      exact ⟨_, .transfer hplan hrecords⟩
  | certify _ => exact hupdates _ rfl
  | drain _ _ => exact hupdates _ rfl
  | project _ _ _ => exact hupdates _ rfl
  | reconstruct _ _ => exact hupdates _ rfl
  | createRegion request actorPublicKey =>
    refine iff_of_false ?_ (fun h => h.1)
    rintro ⟨w, hworks⟩
    cases hworks with
    | update hupdate _ _ => cases hupdate

end

end VKernelX
