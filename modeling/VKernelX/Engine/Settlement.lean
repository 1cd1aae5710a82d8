/-
  Engine/Settlement.lean --- what a settlement pays out, and which are turned down.

  A settlement changes each component by its projected amount plus its gain minus its loss.
  The projection stays in the state and is marked as settled, but settling does not look at
  the mark: it is turned down for amounts that do not fit the projection only.
-/
import VKernelX.Engine.Writes

set_option autoImplicit false

namespace VKernelX

section

variable {env : Platform} {policy : ConsensusPolicy}

/-! ## The settled value -/

/-- The state after a settlement that returned `Ok`: component by component the projected
amount and the gain are in it, and the loss is not. -/
def SettledExactly (outcome : SettlementOutcome) (projection : ProjectionState)
    (s after : VectorStateV1) : Prop :=
  ∀ i, (after.component i : ℤ) = s.component i + amountAt projection.projectedComponents i +
    amountAt outcome.gains i - amountAt outcome.losses i

/-- A settlement that returned `Ok` pays out exactly and marks the projection as settled. -/
theorem reconstruct_ok_exact {eng : KernelEngine} (hreach : ReachableEngine env policy eng)
    {now : ℕ → UInt64} {vectorId : String} {outcome : SettlementOutcome}
    (hok : (eng.call env now (.reconstruct vectorId outcome)).1.IsOk) :
    ∃ s projection after, eng.store.getState vectorId = some s ∧
      s.projection = some projection ∧
      (eng.call env now (.reconstruct vectorId outcome)).2.store.getState vectorId = some after ∧
      SettledExactly outcome projection s after ∧
      ∃ settled, after.projection = some settled ∧ settled.settlementAtMs ≠ none := by
  obtain ⟨before, after, r, e, hplan, hrecord, hevent, hcall⟩ := update_of_ok rfl hok
  obtain ⟨hbefore, hnext, _⟩ := Update.plan_eq_ok_iff.mp hplan
  obtain ⟨projection, hprojection⟩ := reconstructNext_projection hnext
  have hshape := (hreach.soundStates _ _ hbefore).shape projection hprojection
  obtain ⟨hadvances, hsettles, _⟩ := reconstructNext_ok hprojection hshape hnext
  obtain ⟨settled, hsettled, _, hmark⟩ := hsettles.projection_eq
  refine ⟨before, projection, after, hbefore, hprojection, ?_, ?_, settled, hsettled, hmark⟩
  · have hid : after.vectorId = vectorId := by
      rw [hadvances.same.vectorId]
      exact (hreach.wellKeyed.states _ _ hbefore).1
    rw [hcall, MemoryStore.getState]
    simp [hid]
  · -- The event holds the new components and the record the losses, both as 64-bit numbers,
    -- so neither of the two saturating additions was cut off.
    obtain ⟨hfields, _⟩ := buildTransitionEvent_fields (transitionEvent_eq_ok_iff.mp hevent).1
    have hlosses : ∀ i, amountAt outcome.losses i ≤ u64Max := by
      simp only [reconstructRecord, Outcome.bind_eq_ok_iff] at hrecord
      obtain ⟨_, _, losses, hlosses, _⟩ := hrecord
      exact amountAt_le (le_u64Max_of_ofU128s hlosses)
    intro i
    have hafter := component_le_of_event hfields.vectorAfter_eq i
    have hcovered := hsettles.covered i
    have hcomponent := hsettles.component_eq i
    have hloss := hlosses i
    simp only [u64Max, u128Max] at hafter hcovered hcomponent hloss
    omega

/-! ## Amounts that do not fit -/

/-- The amounts of a settlement fit a projection: there are as many gains and losses as
projected components, and each projected component with its gain covers its loss. -/
def Fits (outcome : SettlementOutcome) (projection : ProjectionState) : Prop :=
  projection.projectedComponents.length = outcome.gains.length ∧
    projection.projectedComponents.length = outcome.losses.length ∧
    ∀ i, amountAt outcome.losses i ≤
      min (amountAt projection.projectedComponents i + amountAt outcome.gains i) u128Max

/-- The settlement loop stops at the first loss that is not covered, with `Err`. -/
theorem settleLoop_error {index : ℕ} {entries : List ((U128 × U128) × U128)}
    {restored settled : List U128} {f : Failure KernelXError}
    (h : settleLoop index entries restored settled = .error f) : ∃ e, f = .err e := by
  induction entries generalizing index restored settled with
  | nil => cases h
  | cons entry entries ih =>
    obtain ⟨⟨principal, gain⟩, loss⟩ := entry
    rw [settleLoop] at h
    dsimp only at h
    split at h
    · exact ⟨_, (Except.error.inj h).symm⟩
    · exact ih h

/-- A settlement without a projection, or with amounts that do not fit it, returns `Err`. -/
theorem reconstructNext_of_not_fits (now : ℕ → UInt64) {outcome : SettlementOutcome}
    {s : VectorStateV1} (hsound : SoundState s)
    (hfits : ∀ projection, s.projection = some projection → ¬ Fits outcome projection) :
    ∃ e, reconstructNext env now outcome s = .error (.err e) := by
  cases hprojection : s.projection with
  | none =>
    refine ⟨.settlementRejected "missing projection", ?_⟩
    rw [reconstructNext, reconstructVector, hprojection]
    rfl
  | some projection =>
    have hshape := hsound.shape projection hprojection
    by_cases hlengths : projection.projectedComponents.length = outcome.gains.length ∧
        projection.projectedComponents.length = outcome.losses.length
    · cases hloop : settleLoop 0
          ((projection.projectedComponents.zip outcome.gains).zip outcome.losses)
          s.components [] with
      | error f =>
        obtain ⟨e, rfl⟩ := settleLoop_error hloop
        refine ⟨e, ?_⟩
        rw [reconstructNext, reconstructVector, hprojection, Outcome.okOr, Outcome.ok_bind,
          Outcome.require_of hlengths, Outcome.ok_bind, hloop]
        rfl
      | ok result =>
        -- The loop went through, so every loss was covered.
        refine absurd ⟨hlengths.1, hlengths.2, ?_⟩ (hfits projection hprojection)
        obtain ⟨restored, settled⟩ := result
        have hentries : ((projection.projectedComponents.zip outcome.gains).zip
            outcome.losses).length = s.components.length := by
          rw [List.length_zip, List.length_zip]
          omega
        obtain ⟨_, hcovered, _⟩ := settleLoop_ok (by omega) hloop
        intro i
        by_cases hi : i < s.components.length
        · have hp : i < projection.projectedComponents.length := by omega
          have hg : i < outcome.gains.length := by omega
          have hl : i < outcome.losses.length := by omega
          have hentry := (hcovered i (by omega)).1
          simp only [List.getElem_zip] at hentry
          simpa [amountAt, hp, hg, hl] using hentry
        · rw [amountAt_of_length_le (by omega)]
          exact Nat.zero_le _
    · refine ⟨.dimensionMismatch, ?_⟩
      rw [reconstructNext, reconstructVector, hprojection, Outcome.okOr, Outcome.ok_bind,
        Outcome.require, if_neg hlengths]
      rfl

/-! ## The projection slot -/

/-- Where the projection of a vector after a call comes from: it is the one from before, it
is settled, or the call is a projection that got past its checks. -/
theorem projection_call {eng : KernelEngine} (hkeyed : WellKeyed eng.store)
    (hsound : SoundStates eng.store) {now : ℕ → UInt64} {c : Call} {vectorId : String}
    {after : VectorStateV1} (h : (eng.call env now c).2.store.getState vectorId = some after) :
    (∃ s, eng.store.getState vectorId = some s ∧ s.projection = after.projection) ∨
      (∀ projection, after.projection = some projection → projection.settlementAtMs ≠ none) ∨
      ∃ projected escrowId u s, c = .project vectorId projected escrowId ∧
        c.update? env now = some u ∧ u.plan eng = .ok (s, after) := by
  have hchange := (show CallEnds env eng now c _ _ from call_ends eng now c).states
  unfold MemoryStore.getState at h ⊢
  generalize (eng.call env now c).2.store.states = states at hchange h
  cases hchange with
  | none => exact Or.inl ⟨after, h, rfl⟩
  | update u s s' hupdate hplan =>
    rw [BTreeMap.lookup_insert] at h
    split at h
    · rename_i hid
      obtain rfl := Option.some.inj h
      obtain ⟨hs, hnext, hcanonical⟩ := Update.plan_eq_ok_iff.mp hplan
      have hsame := (update_next_ok hupdate hnext (hsound _ _ hs) hcanonical).1.same
      have hvector : u.vectorId = vectorId := by
        rw [← (hkeyed.states _ _ hs).1, ← hsame.vectorId, hid]
      subst hvector
      cases c with
      | certify _ =>
        obtain rfl := Option.some.inj hupdate
        exact Or.inl ⟨s, hs, (certifyNext_ok hnext).2.2.1.symm⟩
      | drain _ _ =>
        obtain rfl := Option.some.inj hupdate
        exact Or.inl ⟨s, hs, (drainNext_ok hnext).2.2.1.symm⟩
      | project _ projected escrowId =>
        obtain rfl := Option.some.inj hupdate
        exact Or.inr (Or.inr ⟨projected, escrowId, _, s, rfl, rfl, hplan⟩)
      | reconstruct _ outcome =>
        obtain rfl := Option.some.inj hupdate
        obtain ⟨projection, hprojection⟩ := reconstructNext_projection hnext
        obtain ⟨_, hsettles, _⟩ := reconstructNext_ok hprojection
          ((hsound _ _ hs).shape projection hprojection) hnext
        obtain ⟨settled, hsettled, _, hmark⟩ := hsettles.projection_eq
        refine Or.inr (Or.inl ?_)
        intro projection' hprojection'
        obtain rfl := Option.some.inj (hsettled.symm.trans hprojection')
        exact hmark
      | originCreate _ => cases hupdate
      | transfer _ _ _ => cases hupdate
      | createRegion _ _ => cases hupdate
    · exact Or.inl ⟨after, h, rfl⟩
  | origin request s _ hplan =>
    rw [BTreeMap.lookup_insert] at h
    split at h
    · obtain rfl := Option.some.inj h
      refine Or.inr (Or.inl ?_)
      intro projection hprojection
      rw [(originState_ok hplan).projection] at hprojection
      cases hprojection
    · exact Or.inl ⟨after, h, rfl⟩
  | transfer fromId toId amount plan _ hplan =>
    obtain ⟨hsender, hreceiver, hnext⟩ := transferPlan_eq_ok_iff.mp hplan
    have htransfers := transferNext_ok hnext
    rw [BTreeMap.lookup_insert] at h
    split at h
    · rename_i hid
      obtain rfl := Option.some.inj h
      rw [htransfers.same_to.vectorId, (hkeyed.states _ _ hreceiver).1] at hid
      subst hid
      exact Or.inl ⟨plan.receiver, hreceiver, htransfers.projection_to.symm⟩
    · rw [BTreeMap.lookup_insert] at h
      split at h
      · rename_i hid
        obtain rfl := Option.some.inj h
        rw [htransfers.same_from.vectorId, (hkeyed.states _ _ hsender).1] at hid
        subst hid
        exact Or.inl ⟨plan.sender, hsender, htransfers.projection_from.symm⟩
      · exact Or.inl ⟨after, h, rfl⟩

/-- A settlement whose amounts do not fit returns `Err` and changes nothing. -/
theorem reconstruct_of_settled {eng : KernelEngine} (hreach : ReachableEngine env policy eng)
    {now : ℕ → UInt64} {vectorId : String} {outcome : SettlementOutcome}
    (hfits : ∀ s projection, eng.store.getState vectorId = some s →
      s.projection = some projection → ¬ Fits outcome projection) :
    (eng.call env now (.reconstruct vectorId outcome)).1.IsErr ∧
      (eng.call env now (.reconstruct vectorId outcome)).2 = eng := by
  obtain ⟨u, hupdate⟩ : ∃ u, (Call.reconstruct vectorId outcome).update? env now = some u :=
    ⟨_, rfl⟩
  suffices hplan : ∃ e, u.plan eng = .error (.err e) by
    obtain ⟨e, he⟩ := hplan
    rw [call_of_plan_error hupdate he]
    exact ⟨⟨e, rfl⟩, rfl⟩
  obtain rfl := Option.some.inj hupdate
  rw [Update.plan]
  cases hs : eng.store.getState vectorId with
  | none => exact ⟨.vectorNotFound, rfl⟩
  | some s =>
    obtain ⟨e, he⟩ := reconstructNext_of_not_fits now (hreach.soundStates _ _ hs) (hfits s · hs)
    refine ⟨e, ?_⟩
    dsimp only
    rw [Outcome.okOr, Outcome.ok_bind, he]
    rfl

end

end VKernelX
