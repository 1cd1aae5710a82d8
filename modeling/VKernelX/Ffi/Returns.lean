/-
  Ffi/Returns.lean --- which calls return, on any handle that calls have led to.

  On a handle whose second locks wait, the only request that is ever carried out is the creation
  of the first vector, and it waits for itself.  So behind a handle that still answers there is
  no history that replay could begin with: whatever else is asked for is turned down, panics, or
  fails when the history is replayed.
-/
import VKernelX.Ffi.Locks
import VKernelX.Replay.Unfounded

set_option autoImplicit false

namespace VKernelX

open LockProc

/-! ## Calls that do not end with an error -/

/-- A creation that is carried out on a store without events: replay begins with it. -/
structure Call.Founds (env : Platform) (eng : KernelEngine) (c : Call) : Prop where
  creation : ∃ request, c = .originCreate request
  nothing_before : eng.store.listEvents = []
  carriedOut : c.CarriedOut env eng

/-- A call that panics, or is carried out with a reply that cannot be written. -/
def Call.Aborts (env : Platform) (eng : KernelEngine) (c : Call) : Prop :=
  c.Panics env eng ∨ c.CarriedOut env eng ∧ c.Unwritable eng

section

variable {env : Platform} {serde : Serde}

/-- A request that is valid, and asks for a call that founds the history or aborts. -/
def Unanswered (env : Platform) (serde : Serde) (inner : KernelInner)
    (request : SubmitEventRequest) : Prop :=
  ∃ c, ValidRequest env serde inner request c ∧
    (c.Founds env inner.engine ∨ c.Aborts env inner.engine)

section

variable {policy : ConsensusPolicy} {eng : KernelEngine} {now : ℕ → UInt64} {c : Call}

/-- A replay that fails is found out. -/
theorem not_isOk_collect (hfails : ¬ ((eng.call env now c).2.replayCanonicalHistory env).IsOk)
    (operation : String) (reply : Reply) :
    ¬ (collect env operation eng (eng.call env now c).2 reply).IsOk := by
  rintro ⟨result, hresult⟩
  simp only [collect, engineReplaySummary, Outcome.bind_eq_ok_iff, Outcome.mapErr_eq_ok_iff]
    at hresult
  obtain ⟨_, _, _, ⟨replay, hreplay, _⟩, _⟩ := hresult
  exact hfails ⟨replay, hreplay⟩

/-- What is collected after a call: on a history without a foundation nothing, unless the call
is its foundation. -/
theorem collected_iff (hreach : ReachableEngine env policy eng) (hnot : eng.NotFounded)
    (hvectors : c.OnVectors) (operation : String) :
    (operationResult (eng.call env now c).1 >>=
        collect env operation eng (eng.call env now c).2).IsOk ↔
      ∃ e, FoundedBy eng c (eng.call env now c).1 (eng.call env now c).2 e := by
  constructor
  · rintro ⟨result, hresult⟩
    obtain ⟨reply, hreply, hcollect⟩ := Outcome.bind_eq_ok_iff.mp hresult
    obtain ⟨hok, _, _⟩ := operationResult_ok hreach hvectors hreply
    refine ((call_ends eng now c).founds hreach.wellKeyed hvectors.ne_createRegion
      hnot).resolve_left (fun hstill => ?_)
    rcases hstill with hnil | hunfounded
    · obtain ⟨e, hstored, _⟩ := (call_ends eng now c).new_event ⟨reply, hok⟩
      have hmem : e ∈ (eng.call env now c).2.store.listEvents :=
        BTreeMap.mem_values.mpr ⟨_, hstored⟩
      rw [hnil] at hmem
      cases hmem
    · exact not_isOk_collect hunfounded.replay_fails operation reply ⟨result, hcollect⟩
  · rintro ⟨e, hfounded⟩
    obtain ⟨request, rfl⟩ := hfounded.creation
    obtain ⟨reply, hreply⟩ :=
      operationResult_of_writable hreach hvectors hfounded.isOk (show ¬ False from id)
    rw [hreply]
    exact collect_of_replay hreach hfounded.isOk operation reply hfounded.replays

/-- A creation goes through on a store without events if it is carried out. -/
theorem Call.Founds.founded (hreach : ReachableEngine env policy eng) (h : c.Founds env eng)
    (now : ℕ → UInt64) :
    ∃ e, FoundedBy eng c (eng.call env now c).1 (eng.call env now c).2 e := by
  obtain ⟨⟨request, rfl⟩, hnil, hdone⟩ := h
  obtain ⟨w, hworks⟩ :=
    (@works_iff env policy eng now hreach _).mpr ⟨hdone.checked, hdone.notPanics⟩
  have hok : (eng.call env now (.originCreate request)).1.IsOk := by
    have hshaped := hworks.shaped hreach
    have hrefused := mt (hworks.refused_iff hreach).mp hdone.notRefused
    cases hworks with
    | update hupdate _ _ => cases hupdate
    | @origin _ s hplan =>
      have hempty : ∀ hash : String, eng.store.events[hash]? = none := by
        intro hash
        refine Option.eq_none_iff_forall_ne_some.mpr (fun e he => ?_)
        have hmem : e ∈ eng.store.listEvents := BTreeMap.mem_values.mpr ⟨hash, he⟩
        rw [hnil] at hmem
        cases hmem
      obtain ⟨e, hevent⟩ := Transition.exists_event_of_fresh hreach.wellKeyed
        (List.forall_mem_singleton.mp hshaped) (mt anyRefused_singleton.mpr hrefused)
        (fun e _ _ => hempty e.eventHash)
      rw [call_of_works (.origin hplan) (.cons hevent .nil)]
      exact Outcome.isOk_ok _
  obtain ⟨r, eng', h, hcall⟩ := call_originCreate_ends eng now request
  rw [hcall] at hok ⊢
  exact h.founds hok hnil

theorem Call.Unwritable.namesShort (h : c.Unwritable eng) : c.NamesShort := by
  cases c with
  | originCreate _ => exact h.elim
  | _ => trivial

end

/-! ## Requests -/

/-- On a history without a foundation a request ends with an error, unless it founds the history
or aborts. -/
theorem isErr_submitOperation_iff {policy : ConsensusPolicy} (hcollision : env.CollisionFree)
    {inner : KernelInner} (hreach : ReachableEngine env policy inner.engine)
    (hshort : inner.engine.NamesShort) (hnot : inner.engine.NotFounded) (now : ℕ → UInt64)
    (request : SubmitEventRequest) :
    ((submitOperation env serde now request).exec inner).1.IsErr ↔
      ¬ Unanswered env serde inner request := by
  have hends := @submitOperation_ends env serde inner now request
  generalize (submitOperation env serde now request).exec inner = result at hends
  cases hends with
  | refused e hinvalid =>
    exact iff_of_true (Outcome.isErr_err e) (fun ⟨c, hvalid, _⟩ => hinvalid ⟨c, hvalid⟩)
  | stopped label c e hvalid hcollect =>
    refine iff_of_true (Outcome.isErr_err e) ?_
    rintro ⟨c', hvalid', hends⟩
    obtain rfl := hvalid.asks.unique hvalid'.asks
    have hvectors := hvalid.asks.onVectors
    rcases hends with hfounds | hpanics | ⟨hdone, hunwritable⟩
    · have hcollected := (collected_iff hreach hnot hvectors label).mpr (hfounds.founded hreach now)
      rw [hcollect] at hcollected
      exact Outcome.not_isOk_error _ hcollected
    · rw [operationResult_of_panics hreach hpanics] at hcollect
      cases hcollect
    · have hok := (@call_isOk_iff env policy inner.engine now hcollision hreach hshort c
        hunwritable.namesShort hvectors.ne_createRegion).mpr hdone
      rw [operationResult_of_unwritable hreach hvectors hok hunwritable] at hcollect
      cases hcollect
  | aborted label c hvalid hcollect =>
    exact iff_of_false Outcome.not_isErr_panicked (not_not_intro ⟨c, hvalid,
      Or.inr (operationResult_panicked hreach hvalid.asks.onVectors
        (operationResult_of_collect hcollect))⟩)
  | recorded label c reply hvalid hcollect =>
    have hvectors := hvalid.asks.onVectors
    obtain ⟨e, hfounded⟩ := (collected_iff hreach hnot hvectors label).mp ⟨reply, hcollect⟩
    exact iff_of_false (Outcome.not_isErr_ok _) (not_not_intro ⟨c, hvalid,
      Or.inl ⟨hfounded.creation, hfounded.nothing_before,
        carriedOut_of_ok hreach hvectors.ne_createRegion hfounded.isOk⟩⟩)

/-! ## Handles that still answer -/

/-- An engine that calls lead to, with a history that has no foundation. -/
def Unstarted (env : Platform) (eng : KernelEngine) : Prop :=
  ReachableEngine env ConsensusPolicy.default eng ∧ eng.NotFounded

/-- A request that comes back has not founded the history. -/
theorem keeps_executeSubmitRequest_blocks (now : ℕ → UInt64) (request : SubmitEventRequest) :
    KeepsEngine (Unstarted env) (executeSubmitRequest .blocks env serde now request) := by
  intro m r m' h hrun
  cases hheld : m.held with
  | true => exact absurd ⟨r, m', hrun⟩ (not_returns_locking_of_held _ hheld)
  | false =>
    obtain ⟨hreach, hnot⟩ := h
    rw [run_executeSubmitRequest_blocks env serde hheld] at hrun
    have hends := @submitOperation_ends env serde m.value now request
    generalize (submitOperation env serde now request).exec m.value = result at hends hrun
    cases hends with
    | refused e _ =>
      cases hrun
      exact ⟨⟨hreach, hnot⟩, hheld⟩
    | stopped label c e hvalid hcollect =>
      cases hrun
      have hvectors := hvalid.asks.onVectors
      refine ⟨⟨Reachable.tail _ _ hreach ⟨c, now⟩, ?_⟩, hheld⟩
      refine ((call_ends m.value.engine now c).founds hreach.wellKeyed hvectors.ne_createRegion
        hnot).resolve_right (fun hfounded => ?_)
      have hcollected := (collected_iff hreach hnot hvectors label).mpr hfounded
      rw [hcollect] at hcollected
      exact Outcome.not_isOk_error _ hcollected
    | aborted _ _ _ _ => cases hrun
    | recorded _ _ _ _ _ => cases hrun

/-- Behind a handle that still answers there is no history that replay could begin with. -/
theorem ReachableHandle.unstarted {m : KernelHandle} (h : ReachableHandle .blocks env serde m) :
    Unstarted env m.value.engine := by
  refine ReachableHandle.invariant (I := fun m => Unstarted env m.value.engine)
    ⟨⟨[], rfl⟩, Or.inl rfl⟩ (fun m c a m' hm hrun => ?_) h
  have hoperation : ∀ op now input,
      KeepsEngine (Unstarted env) (kernelOperation .blocks env op now input) :=
    fun op now input => keeps_withInput input (fun _ => keeps_withInput _ (fun _ =>
      keeps_of_not_returns (fun _ => not_returns_operation _)))
  exact (FfiCall.keeps keeps_executeSubmitRequest_blocks hoperation c.now c.call m a m' hm hrun).1

/-! ## Every entry point -/

/-- When a call comes back.  The single operations and the queries for one entry note or clear
an error under their own guard once the input is read, the replay and the queries for
everything do in any case, and a submit request does if it founds the history; one that aborts
does not come back either. -/
def FfiCall.ComesBack (env : Platform) (serde : Serde) (inner : KernelInner) : FfiCall → Prop
  | .submitEvent input => ∀ text, input = .ok text → ∀ request,
      serde.submitRequest.fromStr text = .ok request → ¬ Unanswered env serde inner request
  | .executeOperation input => ∀ text, input = .ok text → ∀ requests,
      parseSubmitRequestList serde text = .ok requests →
        ∀ request ∈ requests.head?, ¬ Unanswered env serde inner request
  | .originCreate input => Unread serde.originCreateOperation.reader input
  | .transfer input => Unread serde.transferOperation.reader input
  | .drain input => Unread serde.drainOperation.reader input
  | .project input => Unread serde.projectOperation.reader input
  | .reconstruct input => Unread serde.reconstructOperation.reader input
  | .certify input => Unread serde.certifyOperation.reader input
  | .replay => False
  | .computeStateRoot => True
  | .currentStateRoot => True
  | .verifyRecord _ => True
  | .queryVector input => Unread serde.queryVector input
  | .queryVectors => False
  | .queryRecords => False
  | .queryEventByHash input => Unread serde.queryEventByHash input
where
  /-- The input is no text, or none that the reader reads. -/
  Unread {α : Type} (reader : Reader α) (input : Except String String) : Prop :=
    ∀ text, input = .ok text → ¬ ∃ a, reader.fromStr text = .ok a

/-- A call of an entry point comes to its end with the mutex free exactly under `ComesBack`. -/
theorem ffiCall_returnsFree_iff (hcollision : env.CollisionFree) {m : KernelHandle}
    (hreach : ReachableHandle .blocks env serde m) (hfree : m.held = false)
    (hshort : m.value.engine.NamesShort) (now : ℕ → ℕ → UInt64) (c : FfiCall) :
    ReturnsFree (c.proc .blocks env serde now) m ↔ c.ComesBack env serde m.value := by
  obtain ⟨hengine, hnot⟩ := hreach.unstarted
  have hsubmit := fun now request => @isErr_submitOperation_iff env serde _ hcollision m.value
    hengine hshort hnot now request
  have hquery := fun {α : Type} (reader : Reader α) label
      (body : α → KernelInner → HandleProc FfiReply) input =>
    returnsFree_reader_iff hfree reader label _ (fun a => not_returns_of_clears (body a)) input
  cases c with
  | submitEvent input =>
    refine (returnsFree_withInput_iff hfree _ _).trans (forall₂_congr (fun text _ => ?_))
    rw [returnsFree_withInput_iff hfree]
    refine forall_congr' (fun request => ?_)
    rw [mapError_eq_ok_iff, ← hsubmit (now 0) request]
    exact imp_congr_right (fun _ =>
      returnsFree_executeSubmitRequest_bind env serde hfree (now 0) request _)
  | executeOperation input =>
    refine (returnsFree_withInput_iff hfree _ _).trans (forall₂_congr (fun text _ => ?_))
    rw [returnsFree_withInput_iff hfree]
    refine forall₂_congr (fun requests _ => ?_)
    rw [returnsFree_executeRequests_iff env serde hfree]
    cases requests with
    | nil => simp
    | cons request rest => simp [← hsubmit (now 0) request]
  | originCreate input => exact returnsFree_kernelOperation_iff env hfree _ _ input
  | transfer input => exact returnsFree_kernelOperation_iff env hfree _ _ input
  | drain input => exact returnsFree_kernelOperation_iff env hfree _ _ input
  | project input => exact returnsFree_kernelOperation_iff env hfree _ _ input
  | reconstruct input => exact returnsFree_kernelOperation_iff env hfree _ _ input
  | certify input => exact returnsFree_kernelOperation_iff env hfree _ _ input
  | replay => exact iff_of_false (fun h => not_returns_kernelReplay env h.returns) id
  | computeStateRoot => exact iff_of_true (returnsFree_kernelComputeStateRoot env hfree) trivial
  | currentStateRoot => exact iff_of_true (returnsFree_kernelComputeStateRoot env hfree) trivial
  | verifyRecord input =>
    exact iff_of_true (returnsFree_kernelVerifyRecord env serde hfree input) trivial
  | queryVector input => exact hquery serde.queryVector _ _ input
  | queryVectors => exact iff_of_false (fun h => not_returns_kernelQueryVectors h.returns) id
  | queryRecords => exact iff_of_false (fun h => not_returns_kernelQueryRecords h.returns) id
  | queryEventByHash input => exact hquery serde.queryEventByHash _ _ input

end

theorem ffiCall_returnsFree_iff_fresh :
    ReturnsFree (FfiCall.currentStateRoot.proc .blocks (separatedPlatform []) sampleSerde
        (fun _ _ => 1)) kernelInit ↔
      FfiCall.currentStateRoot.ComesBack (separatedPlatform []) sampleSerde kernelInit.value :=
  ffiCall_returnsFree_iff separatedPlatform_nil_collisionFree ⟨[], rfl⟩ rfl
    (initial_namesShort _) (fun _ _ => 1) .currentStateRoot

/-- Every call of every entry point comes to its end with the mutex free. -/
def NoCallLocksTwice : Prop :=
  ∀ (env : Platform) (serde : Serde) (m : KernelHandle),
    ReachableHandle .blocks env serde m → m.held = false → ∀ (now : ℕ → ℕ → UInt64) (c : FfiCall),
      ReturnsFree (c.proc .blocks env serde now) m

/-- The query for all vectors clears the error while it holds the handle. -/
theorem noCallLocksTwice_fails : ¬ NoCallLocksTwice := by
  intro h
  have hreturns := h samplePlatform sampleSerde kernelInit ⟨[], rfl⟩ rfl (fun _ _ => 1)
    .queryVectors
  exact not_returns_kernelQueryVectors hreturns.returns

end VKernelX
