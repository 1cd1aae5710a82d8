/-
  Ffi/Replies.lean --- when `json!` can write the reply of a call.

  A reply holds the states a call has stored, and `json!` panics on an amount above `u64::MAX`.
  Once the events of the call are appended the components fit, so what is left is the
  projection, and that is looked up in the vector before the call.
-/
import VKernelX.Engine.LateRejections
import VKernelX.Model.Ffi

set_option autoImplicit false

namespace VKernelX

/-- The reply of a call holds an amount that `json!` cannot write: one of a projection that the
vector had before. -/
def Call.Unwritable (eng : KernelEngine) : Call → Prop
  | .certify vectorId => HoldsUnwritable eng vectorId
  | .drain vectorId _ => HoldsUnwritable eng vectorId
  | .transfer fromId toId _ => HoldsUnwritable eng fromId ∨ HoldsUnwritable eng toId
  | .reconstruct vectorId _ => ∃ s projection, eng.store.getState vectorId = some s ∧
      s.projection = some projection ∧ ¬ AmountsWritable projection.projectedComponents
  | _ => False
where
  /-- A stored vector has a projection that cannot be written. -/
  HoldsUnwritable (eng : KernelEngine) (vectorId : String) : Prop :=
    ∃ s projection, eng.store.getState vectorId = some s ∧ s.projection = some projection ∧
      ¬ projection.Writable

/-! ## Amounts -/

theorem amountsWritable_iff {xs : List U128} :
    AmountsWritable xs ↔ ∀ i, amountAt xs i ≤ u64Max := by
  constructor
  · exact fun h i => amountAt_le h i
  · intro h x hx
    obtain ⟨i, hi, rfl⟩ := List.getElem_of_mem hx
    simpa [amountAt, hi] using h i

/-- What is settled at a position has been added to the amount there. -/
theorem settleLoop_settled {index : ℕ} {entries : List ((U128 × U128) × U128)}
    {restored settled restored' settled' : List U128}
    (hslots : index + entries.length ≤ restored.length)
    (h : settleLoop index entries restored settled = .ok (restored', settled')) :
    ∀ x ∈ settled', x ∈ settled ∨ ∃ i, x.toNat ≤ amountAt restored' i := by
  induction entries generalizing index restored settled with
  | nil =>
    obtain ⟨_, rfl⟩ := Prod.mk.inj (Except.ok.inj h)
    exact fun x hx => Or.inl hx
  | cons entry entries ih =>
    obtain ⟨⟨principal, gain⟩, loss⟩ := entry
    rw [List.length_cons] at hslots
    have hindex : index < restored.length := by omega
    rw [settleLoop] at h
    simp only [List.getElem?_eq_getElem hindex] at h
    split at h
    · cases h
    · generalize hnet : saturatingAdd principal gain - loss = net at h
      have hrest : index + 1 + entries.length ≤
          (restored.set index (saturatingAdd restored[index] net)).length := by
        rw [List.length_set]
        omega
      -- The slot is not written again.
      have hslot : net.toNat ≤ amountAt restored' index := by
        rw [(settleLoop_ok hrest h).2.2 index (Or.inl (Nat.lt_succ_self index))]
        have hget : amountAt (restored.set index (saturatingAdd restored[index] net)) index =
            (saturatingAdd restored[index] net).toNat := by
          simp [amountAt, hindex]
        rw [hget, toNat_saturatingAdd]
        have := net.isLt
        simp only [u128Max]
        omega
      intro x hx
      rcases ih hrest h x hx with hx | hx
      · rcases List.mem_append.mp hx with hx | hx
        · exact Or.inl hx
        · exact Or.inr ⟨index, List.mem_singleton.mp hx ▸ hslot⟩
      · exact Or.inr hx

section

variable {env : Platform} {policy : ConsensusPolicy} {eng : KernelEngine} {now : ℕ → UInt64}

/-- A new projection has settled nothing. -/
theorem projectNext_settled {projected : List U128} {escrowId : String}
    {s after : VectorStateV1} (h : projectNext env now projected escrowId s = .ok after) :
    ∃ projection, after.projection = some projection ∧
      projection.projectedComponents = projected ∧ projection.settledComponents = [] := by
  simp only [projectNext, projectVector, Outcome.bind_eq_ok_iff] at h
  obtain ⟨mid, ⟨_, _, _, _, version, _, hmid⟩, certification, _, hafter⟩ := h
  obtain rfl := Except.ok.inj hmid
  obtain rfl := Except.ok.inj hafter
  exact ⟨_, rfl, rfl, rfl⟩

/-- What a settled projection has settled, the vector has received. -/
theorem reconstructNext_settled {outcome : SettlementOutcome} {s after : VectorStateV1}
    {projection : ProjectionState} (hprojection : s.projection = some projection)
    (hshape : projection.projectedComponents.length = s.components.length)
    (h : reconstructNext env now outcome s = .ok after) :
    ∃ settled, after.projection = some settled ∧
      settled.projectedComponents = projection.projectedComponents ∧
      ∀ x ∈ settled.settledComponents, ∃ i, x.toNat ≤ after.component i := by
  simp only [reconstructNext, reconstructVector, Outcome.bind_eq_ok_iff,
    Outcome.okOr_eq_ok_iff, Outcome.require_eq_ok_iff] at h
  obtain ⟨mid, ⟨projection', hprojection', _, _, ⟨restored, settled⟩, hloop, version, _, hmid⟩,
    certification, _, hafter⟩ := h
  obtain rfl := Option.some.inj (hprojection.symm.trans hprojection')
  obtain rfl := Except.ok.inj hmid
  obtain rfl := Except.ok.inj hafter
  refine ⟨_, rfl, rfl, fun x hx => ?_⟩
  have hslots : 0 + ((projection.projectedComponents.zip outcome.gains).zip
      outcome.losses).length ≤ s.components.length := by
    rw [List.length_zip, List.length_zip]
    omega
  exact (settleLoop_settled hslots hloop x hx).resolve_left List.not_mem_nil

/-! ## Replies -/

theorem EventDraft.fits_of_not_anyRefused {ds : List EventDraft} {names : List EventName}
    (h : ¬ AnyRefused names ds) : ∀ d ∈ ds, ∀ i, d.amount i ≤ u64Max := by
  induction ds generalizing names with
  | nil => exact nofun
  | cons d ds ih =>
    rw [AnyRefused, not_or] at h
    refine List.forall_mem_cons.mpr ⟨fun i => ?_, ih h.2⟩
    exact Nat.le_of_not_lt (fun hwide => h.1 (.wide i hwide))

/-- If no event is refused, the components before and after the call fit. -/
theorem Works.fits (hreach : ReachableEngine env policy eng) {c : Call} {w : Work}
    (h : Works env eng now c w) (hrefused : ¬ c.EventRefused eng) :
    ∀ t ∈ w.transitions, (∀ i, t.amountBefore i ≤ u64Max) ∧ ∀ i, t.after.component i ≤ u64Max := by
  intro t ht
  have hfits := EventDraft.fits_of_not_anyRefused (mt (h.refused_iff hreach).mp hrefused) t.draft
    (List.mem_map_of_mem ht)
  exact ⟨fun i => (le_max_left _ _).trans (hfits i), fun i => (le_max_right _ _).trans (hfits i)⟩

/-- A state with components that fit is written if its projection is. -/
theorem writable_iff_of_fits {s : VectorStateV1} (hfits : ∀ i, s.component i ≤ u64Max) :
    s.Writable ↔ ∀ p ∈ s.projection, p.Writable :=
  and_iff_right (amountsWritable_iff.mpr hfits)

/-- A state that carries over the projection of a stored vector. -/
theorem writable_iff_of_carries {vectorId : String} {s after : VectorStateV1}
    (hs : eng.store.getState vectorId = some s) (hprojection : after.projection = s.projection)
    (hfits : ∀ i, after.component i ≤ u64Max) :
    after.Writable ↔ ¬ Call.Unwritable.HoldsUnwritable eng vectorId := by
  rw [writable_iff_of_fits hfits, hprojection]
  simp only [Call.Unwritable.HoldsUnwritable, hs, Option.some.injEq, exists_and_left,
    exists_eq_left', Option.mem_def, not_exists, not_and, not_not]

/-- If no event of a call is refused, its reply is written exactly when no projection stands in
the way. -/
theorem Works.reply_writable_iff (hreach : ReachableEngine env policy eng) {c : Call} {w : Work}
    (h : Works env eng now c w) (hrefused : ¬ c.EventRefused eng) :
    w.reply.Writable ↔ ¬ c.Unwritable eng := by
  have hfits := h.fits hreach hrefused
  cases h with
  | @update _ u before after r hupdate hplan hrecord =>
    obtain ⟨hbefore, hnext, _⟩ := Update.plan_eq_ok_iff.mp hplan
    obtain ⟨hstart, hend⟩ := List.forall_mem_singleton.mp hfits
    show after.Writable ↔ _
    cases c with
    | certify vectorId =>
      obtain rfl := Option.some.inj hupdate
      exact writable_iff_of_carries hbefore (certifyNext_ok hnext).2.2.1 hend
    | drain vectorId basisPoints =>
      obtain rfl := Option.some.inj hupdate
      exact writable_iff_of_carries hbefore (drainNext_ok hnext).2.2.1 hend
    | project vectorId projected escrowId =>
      obtain rfl := Option.some.inj hupdate
      obtain ⟨projection, hprojection, rfl, hsettled⟩ := projectNext_settled hnext
      have hcovered := (projectNext_ok hnext).2.1.covered
      rw [writable_iff_of_fits hend, hprojection]
      refine iff_of_true ?_ id
      rintro _ ⟨⟩
      refine ⟨amountsWritable_iff.mpr (fun i => (hcovered i).trans (hstart i)), ?_⟩
      rw [hsettled]
      exact List.forall_mem_nil _
    | reconstruct vectorId outcome =>
      obtain rfl := Option.some.inj hupdate
      obtain ⟨projection, hprojection⟩ := reconstructNext_projection hnext
      obtain ⟨settled, hafter, hprojected, hreceived⟩ := reconstructNext_settled hprojection
        ((hreach.soundStates _ _ hbefore).shape projection hprojection) hnext
      have hwritten : AmountsWritable settled.settledComponents := fun x hx => by
        obtain ⟨i, hi⟩ := hreceived x hx
        exact hi.trans (hend i)
      rw [writable_iff_of_fits hend, hafter]
      simp only [Call.Unwritable, Option.mem_def, Option.some.injEq, forall_eq',
        ProjectionState.Writable, hprojected, and_iff_left hwritten, exists_and_left]
      simp only [MemoryStore.getState, hbefore, Option.some.injEq, exists_eq_left', hprojection,
        not_not]
    | originCreate _ => cases hupdate
    | transfer _ _ _ => cases hupdate
    | createRegion _ _ => cases hupdate
  | @origin request s hplan =>
    obtain ⟨_, hend⟩ := List.forall_mem_singleton.mp hfits
    show s.Writable ↔ _
    rw [writable_iff_of_fits hend, (originState_ok hplan).projection]
    refine iff_of_true ?_ id
    rintro _ ⟨⟩
  | @transfer fromId toId amount plan sr rr hplan hrecords =>
    obtain ⟨hsender, hreceiver, hnext⟩ := transferPlan_eq_ok_iff.mp hplan
    have htransfers := transferNext_ok hnext
    obtain ⟨⟨_, hfrom⟩, hto⟩ := List.forall_mem_cons.mp hfits
    obtain ⟨_, hto⟩ := List.forall_mem_singleton.mp hto
    show plan.afterFrom.Writable ∧ plan.afterTo.Writable ↔ _
    rw [writable_iff_of_carries hsender htransfers.projection_from hfrom,
      writable_iff_of_carries hreceiver htransfers.projection_to hto, Call.Unwritable, not_or]

end

end VKernelX
