/-
  Ffi/Verification.lean --- which genuine events `kernel_verify_record` accepts.

  The event is checked as a graph of its own, without the events the handle has stored.  So
  whatever parents it has are missing.
-/
import VKernelX.Ffi.Submit
import VKernelX.Replay.Unfounded

set_option autoImplicit false

namespace VKernelX

open LockProc

section

variable {env : Platform} {serde : Serde}

/-! ## Genuine events -/

/-- The signature of an event verifies under its actor's key.  An empty text is no signature. -/
def SignatureVerifies (env : Platform) (e : VectorEvent) : Prop :=
  e.signature ≠ "" ∧ ∃ key, verifyingKeyFromHex env e.actorPublicKey = .ok key ∧
    verifyEventSignature env key (canonicalEventPayloadBytes e) e.signature = .ok true

/-- An event that stands by itself, whose signature verifies and whose parents are distinct and
stored under its region. -/
structure GenuineEvent (env : Platform) (store : MemoryStore) (e : VectorEvent) : Prop where
  valid : (validateEvent env e).IsOk
  parents_nodup : e.parentHashes.Nodup
  parents_stored : ∀ p ∈ e.parentHashes,
    ∃ parent ∈ store.listEvents, parent.eventHash = p ∧ parent.regionId = e.regionId
  signature_verifies : SignatureVerifies env e

/-- What `validate_event_internal` finds out about a genuine event: everything but the graph
check passes. -/
theorem GenuineEvent.validateEventInternal {store : MemoryStore} {e : VectorEvent}
    (h : GenuineEvent env store e) :
    validateEventInternal env e =
      { structureOk := true
        payloadHashOk := true
        eventHashOk := true
        signatureOk := true
        dagOk := decide (validateDag [e]).IsOk } := by
  obtain ⟨u, hvalid⟩ := id h.valid
  obtain ⟨hsigned, key, hkey, hverifies⟩ := h.signature_verifies
  simp only [validateEvent, Outcome.bind_eq_ok_iff, Outcome.require_eq_ok_iff] at hvalid
  obtain ⟨_, _, _, _, _, _, _, hactor, _, _, _, _, _, hpayload, _, hhash, _⟩ := hvalid
  have hactor' : e.actorPublicKey ≠ "" := by
    rintro heq
    rw [heq] at hactor
    revert hactor
    decide
  rw [VKernelX.validateEventInternal, if_pos ⟨hactor', hsigned⟩, hkey]
  simp only [hverifies, decide_eq_true h.valid, ← hpayload, ← hhash, beq_self_eq_true]

/-! ## Verification -/

/-- What `kernel_verify_record` replies to an event it can read, with the error noted or
cleared. -/
theorem run_kernelVerifyRecord {text : String} {e : VectorEvent}
    (htext : serde.event.fromStr text = .ok e) (m : KernelHandle) :
    (kernelVerifyRecord .passes env serde (.ok text)).run m =
      if (validateEventInternal env e).payloadHashOk &&
          (validateEventInternal env e).eventHashOk && (validateEventInternal env e).dagOk &&
          (validateEventInternal env e).signatureOk then
        .ok (.verified, { m with value := { m.value with lastError := none } })
      else .ok (.err "record verification failed",
        { m with value := { m.value with lastError := some "record verification failed" } }) := by
  have hparse : parseRecord serde text = .ok e := by rw [parseRecord, htext]
  have hwrite := fun lastError (reply : FfiReply) => run_bind_of_ok
    (run_writeLastError_passes lastError m) (fun _ => (pure reply : HandleProc FfiReply))
  rw [kernelVerifyRecord, withInput, withInput.eq_def, hparse]
  dsimp only
  split
  · exact hwrite none _
  · exact hwrite (some "record verification failed") _

/-- To a genuine event with a parent it replies with an error. -/
theorem GenuineEvent.reply {m : KernelHandle} {e : VectorEvent}
    (h : GenuineEvent env m.value.engine.store e) {text : String}
    (htext : serde.event.fromStr text = .ok e) :
    (kernelVerifyRecord .passes env serde (.ok text)).run m =
      if e.parentHashes = [] then
        .ok (.verified, { m with value := { m.value with lastError := none } })
      else .ok (.err "record verification failed",
        { m with value := { m.value with lastError := some "record verification failed" } }) := by
  have hhash : e.eventHash ≠ "" := by
    obtain ⟨u, hvalid⟩ := h.valid
    rw [(eventChecks_of_validateEvent hvalid).eventHash_eq]
    exact env.blake3Hex_ne_empty _
  rw [run_kernelVerifyRecord htext, h.validateEventInternal]
  simp [validateDag_isOk_iff_wellFormed, wellFormedDag_singleton_iff, hhash]

/-- The reply of a call is that the record is verified. -/
def RepliesVerified (x : HandleProc FfiReply) (m : KernelHandle) : Prop :=
  ∃ m', x.run m = .ok (.verified, m')

/-- `kernel_verify_record` accepts a genuine event exactly if it has no parents. -/
theorem kernelVerifyRecord_verified_iff {m : KernelHandle} {e : VectorEvent}
    (hgenuine : GenuineEvent env m.value.engine.store e) {text : String}
    (htext : serde.event.fromStr text = .ok e) :
    RepliesVerified (kernelVerifyRecord .passes env serde (.ok text)) m ↔
      e.parentHashes = [] := by
  rw [RepliesVerified, hgenuine.reply htext]
  split
  · rename_i hroot
    exact iff_of_true ⟨_, rfl⟩ hroot
  · rename_i hparent
    refine iff_of_false ?_ hparent
    rintro ⟨m', h⟩
    cases (Prod.mk.inj (Except.ok.inj h)).1

end

/-! ## A child of a stored event -/

/-- The readers of a run that creates a vector and then verifies an event. -/
def verifyingSerde (e : VectorEvent) : Serde :=
  { sampleSerde with
    originCreate :=
      { fromStr := fun _ => .ok (sampleOrigin "a" [5])
        fromValue := fun _ => .error "invalid type" }
    event :=
      { fromStr := fun _ => .ok e
        fromValue := fun _ => .error "invalid type" } }

/-- The creation of that vector through a handle. -/
def creationCall : TimedFfiCall := { call := .originCreate (.ok ""), now := fun _ _ => 1 }

/-- The handle after a vector has been created through it.  It reads one event. -/
def handleWithVector (env : Platform) (e : VectorEvent) : KernelHandle :=
  handleAfter .passes env (verifyingSerde e) creationCall

/-- A signed event that follows the creation of that vector. -/
def signedFollowUp : VectorEvent :=
  VectorEvent.seal (platformFor oneVector)
    { (default : VectorEvent) with
      eventId := "next"
      parentHashes := ((handleWithVector (platformFor oneVector)
        default).value.engine.store.listEvents.map VectorEvent.eventHash)
      regionId := "s"
      entityId := "a"
      actorPublicKey := sampleKey
      signature := String.ofList (List.replicate 128 '0') }

/-- The handle that reads it. -/
def followUpHandle : KernelHandle := handleWithVector (platformFor oneVector) signedFollowUp

theorem followUpHandle_reachable :
    ReachableHandle .passes (platformFor oneVector) (verifyingSerde signedFollowUp)
      followUpHandle := by
  have hreturns : (handleStep .passes (platformFor oneVector) (verifyingSerde signedFollowUp)
      (some kernelInit) creationCall).isSome = true := by
    decide +kernel
  rw [followUpHandle, handleWithVector]
  exact handleAfter_reachable hreturns

theorem signedFollowUp_genuine :
    GenuineEvent (platformFor oneVector) followUpHandle.value.engine.store signedFollowUp where
  valid := by decide +kernel
  parents_nodup := by decide +kernel
  parents_stored := by decide +kernel
  signature_verifies := ⟨by decide +kernel, hexDecode sampleKey |>.toOption.getD [],
    by decide +kernel, by decide +kernel⟩

theorem kernelVerifyRecord_verified_iff_followUp :
    RepliesVerified (kernelVerifyRecord .passes (platformFor oneVector)
        (verifyingSerde signedFollowUp) (.ok "")) followUpHandle ↔
      signedFollowUp.parentHashes = [] :=
  kernelVerifyRecord_verified_iff signedFollowUp_genuine rfl

/-- `kernel_verify_record` accepts every genuine event. -/
def GenuineEventsVerified : Prop :=
  ∀ env : Platform, env.CollisionFree → ∀ (serde : Serde) (m : KernelHandle),
    ReachableHandle .passes env serde m → ∀ e, GenuineEvent env m.value.engine.store e →
      ∀ text, serde.event.fromStr text = .ok e →
        RepliesVerified (kernelVerifyRecord .passes env serde (.ok text)) m

/-- It refuses a signed event that follows a stored one. -/
theorem genuineEventsVerified_fails : ¬ GenuineEventsVerified := by
  intro h
  have hverified := h (platformFor oneVector)
    (platformFor_collisionFree oneVector (by decide +kernel)) (verifyingSerde signedFollowUp)
    followUpHandle followUpHandle_reachable signedFollowUp signedFollowUp_genuine "" rfl
  obtain ⟨m', hreply⟩ := hverified
  rw [signedFollowUp_genuine.reply rfl, if_neg (by decide +kernel)] at hreply
  cases (Prod.mk.inj (Except.ok.inj hreply)).1

end VKernelX
