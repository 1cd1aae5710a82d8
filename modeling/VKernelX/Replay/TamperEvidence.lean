/-
  Replay/TamperEvidence.lean --- what `verify_replay` pins down of a history.

  The replay hash covers the event hashes that the events carry.  Whether an event's content
  is covered depends on whether the hash it carries is the hash of that content, which replay
  does not look into.
-/
import VKernelX.Encoding.Commitments
import VKernelX.Encoding.Events
import VKernelX.Engine.Writes
import VKernelX.Replay.Causality

set_option autoImplicit false

namespace VKernelX

/-! ## Accepted histories -/

/-- An event up to its signature. -/
def VectorEvent.unsigned (e : VectorEvent) : VectorEvent := { e with signature := "" }

/-- The same events, up to order and up to signatures. -/
def SameHistory (events events' : List VectorEvent) : Prop :=
  (events.map VectorEvent.unsigned).Perm (events'.map VectorEvent.unsigned)

/-- Every text, list and map of a history is shorter than 2^64. -/
structure ShortHistory (events : List VectorEvent) : Prop where
  length : events.length < 2 ^ 64
  short : ∀ e ∈ events, e.Short
  eventHash : ∀ e ∈ events, ShortStr e.eventHash

theorem verifyReplay_eq_ok_true_iff {env : Platform} {events : List VectorEvent}
    {root : StateRoot} {replayHash : String} :
    verifyReplay env events root replayHash = .ok true ↔
      ∃ result, replayEvents env events = .ok result ∧ result.stateRoot = root ∧
        result.replayHash = replayHash := by
  rw [verifyReplay, Outcome.bind_eq_ok_iff]
  refine exists_congr (fun result => and_congr_right (fun _ => ?_))
  simp [pure, Except.pure]

/-- The hash of an event does not cover its signature. -/
theorem canonicalEventHash_of_unsigned_eq (env : Platform) {e e' : VectorEvent}
    (h : e.unsigned = e'.unsigned) : canonicalEventHash env e = canonicalEventHash env e' := by
  show canonicalEventHash env e.unsigned = canonicalEventHash env e'.unsigned
  rw [h]

theorem eventHash_of_unsigned_eq {e e' : VectorEvent} (h : e.unsigned = e'.unsigned) :
    e.eventHash = e'.eventHash := by
  show e.unsigned.eventHash = e'.unsigned.eventHash
  rw [h]

/-- An event up to its signature is its payload with the two hashes. -/
theorem unsigned_eq_of_payload {e e' : VectorEvent} (hpayload : e.payload = e'.payload)
    (hpayloadHash : e.payloadHash = e'.payloadHash) (heventHash : e.eventHash = e'.eventHash) :
    e.unsigned = e'.unsigned := by
  have hwith : ∀ e : VectorEvent, e.unsigned =
      { e.payload with payloadHash := e.payloadHash, eventHash := e.eventHash } := fun _ => rfl
  rw [hwith, hwith, hpayload, hpayloadHash, heventHash]

/-! ## Two histories with the same commitments -/

section

variable {env : Platform} {events events' : List VectorEvent}

theorem nodup_unsigned (hnodup : (events.map VectorEvent.eventHash).Nodup) :
    (events.map VectorEvent.unsigned).Nodup := by
  refine List.Nodup.of_map VectorEvent.eventHash ?_
  rw [List.map_map]
  exact hnodup

/-- Two accepted histories carry the same event hashes. -/
theorem eventHashes_perm_of_replayHash (hfree : env.CollisionFree) {r r' : ReplayResult}
    (h : replayEvents env events = .ok r) (h' : replayEvents env events' = .ok r')
    (hs : ShortHistory events) (hs' : ShortHistory events') (hhash : r.replayHash = r'.replayHash) :
    (events.map VectorEvent.eventHash).Perm (events'.map VectorEvent.eventHash) := by
  have hshort : ∀ {l : List VectorEvent} {r : ReplayResult}, replayEvents env l = .ok r →
      ShortHistory l → ShortStrs r.appliedEventHashes := by
    intro l r hr hl
    have hperm := (appliesEachOnce_of_ok hr).hashes
    refine ⟨by rw [hperm.length_eq, List.length_map]; exact hl.length, fun s hmem => ?_⟩
    obtain ⟨e, he, rfl⟩ := List.mem_map.mp (hperm.mem_iff.mp hmem)
    exact hl.eventHash e he
  have happlied := appliedEventHashes_of_replayHash hfree h h' (hshort h hs) (hshort h' hs') hhash
  refine (appliesEachOnce_of_ok h).hashes.symm.trans ?_
  rw [happlied]
  exact (appliesEachOnce_of_ok h').hashes

/-- Of two histories that `verify_replay` accepts against the same commitments, it notices
every difference exactly if events that carry the same event hash have the same canonical
hash. -/
theorem sameHistory_iff_canonicalHashes (hfree : env.CollisionFree) {root : StateRoot}
    {replayHash : String} (h : verifyReplay env events root replayHash = .ok true)
    (h' : verifyReplay env events' root replayHash = .ok true)
    (hs : ShortHistory events) (hs' : ShortHistory events') :
    SameHistory events events' ↔ ∀ e ∈ events, ∀ e' ∈ events', e.eventHash = e'.eventHash →
      canonicalEventHash env e = canonicalEventHash env e' := by
  obtain ⟨r, hr, _, hrhash⟩ := verifyReplay_eq_ok_true_iff.mp h
  obtain ⟨r', hr', _, hrhash'⟩ := verifyReplay_eq_ok_true_iff.mp h'
  have hnodup := (replayEvents_eq_ok_iff.mp hr).1.hash_nodup
  have hnodup' := (replayEvents_eq_ok_iff.mp hr').1.hash_nodup
  have hhashes := eventHashes_perm_of_replayHash hfree hr hr' hs hs' (hrhash.trans hrhash'.symm)
  constructor
  · intro hsame e he e' he' heq
    -- the copy of `e` in the other history is the one event there with its hash
    obtain ⟨twin, htwin, hunsigned⟩ :=
      List.mem_map.mp (hsame.mem_iff.mp (List.mem_map_of_mem he))
    have hhash : twin.eventHash = e'.eventHash :=
      (eventHash_of_unsigned_eq hunsigned).trans heq
    obtain rfl := List.inj_on_of_nodup_map hnodup' htwin he' hhash
    exact (canonicalEventHash_of_unsigned_eq env hunsigned).symm
  · intro hcanonical
    have hunsigned : ∀ e ∈ events, ∀ e' ∈ events', e.eventHash = e'.eventHash →
        e.unsigned = e'.unsigned := by
      intro e he e' he' heq
      obtain ⟨hpayload, hpayloadHash⟩ := payload_of_eventBytes (hs.short e he) (hs'.short e' he')
        (hfree (hcanonical e he e' he' heq))
      exact unsigned_eq_of_payload hpayload hpayloadHash heq
    refine (List.perm_ext_iff_of_nodup (nodup_unsigned hnodup) (nodup_unsigned hnodup')).mpr ?_
    intro u
    constructor
    · intro hu
      obtain ⟨e, he, rfl⟩ := List.mem_map.mp hu
      obtain ⟨e', he', heq⟩ := List.mem_map.mp (hhashes.mem_iff.mp (List.mem_map_of_mem he))
      rw [hunsigned e he e' he' heq.symm]
      exact List.mem_map_of_mem he'
    · intro hu
      obtain ⟨e', he', rfl⟩ := List.mem_map.mp hu
      obtain ⟨e, he, heq⟩ := List.mem_map.mp (hhashes.mem_iff.mpr (List.mem_map_of_mem he'))
      rw [← hunsigned e he e' he' heq]
      exact List.mem_map_of_mem he

end

/-! ## A history that is altered -/

/-- A creation as its actor has it sealed. -/
def sealedCreation : VectorEvent :=
  VectorEvent.seal samplePlatform
    { (default : VectorEvent) with
      entityId := "a"
      operation := .originCreate
      actorPublicKey := "alice" }

/-- The creation with another actor, certified, and the hashes left as they were. -/
def alteredCreation : VectorEvent :=
  { sealedCreation with actorPublicKey := "mallory", certified := true }

/-- A platform with no collisions for the replay of the creation. -/
def creationPlatform : Platform :=
  separatedPlatform [canonicalEventPayloadBytes sealedCreation, canonicalEventBytes sealedCreation,
    canonicalEventBytes alteredCreation, replayHashBytes [sealedCreation.eventHash],
    replayRootBytes (canonicalStateMapBytes ((∅ : BTreeMap String VectorState).insert "a" default))
      1 0]

theorem creationPlatform_collisionFree : creationPlatform.CollisionFree :=
  separatedDigest_injective (by decide +kernel)

/-- The commitments of the creation. -/
def creationRoot : StateRoot :=
  computeStateRootFromCanonicalBytes creationPlatform
    (canonicalStateMapBytes ((∅ : BTreeMap String VectorState).insert "a" default)) 1 0

def creationReplayHash : String :=
  canonicalReplayHash creationPlatform [sealedCreation.eventHash]

theorem creations_accepted :
    verifyReplay creationPlatform [sealedCreation] creationRoot creationReplayHash = .ok true ∧
      verifyReplay creationPlatform [alteredCreation] creationRoot creationReplayHash =
        .ok true := by
  decide +kernel

/-- A creation with no parents, states or names of its own making is short. -/
theorem creation_short {actorPublicKey : String} {certified : Bool}
    (hactor : ShortStr actorPublicKey) :
    ShortHistory [{ sealedCreation with
      actorPublicKey := actorPublicKey, certified := certified }] where
  length := by simp
  short := by
    intro e he
    obtain rfl := List.mem_singleton.mp he
    exact {
      eventId := (by decide +kernel : ShortStr sealedCreation.eventId)
      parentHashes := ⟨Nat.two_pow_pos 64, List.forall_mem_nil _⟩
      regionId := (by decide +kernel : ShortStr sealedCreation.regionId)
      entityId := (by decide +kernel : ShortStr sealedCreation.entityId)
      operation := trivial
      vectorBefore := default_short
      vectorAfter := default_short
      actorPublicKey := hactor
      payloadHash := (by decide +kernel : ShortStr sealedCreation.payloadHash) }
  eventHash := by
    intro e he
    obtain rfl := List.mem_singleton.mp he
    exact (by decide +kernel : ShortStr sealedCreation.eventHash)

theorem sealedCreation_short : ShortHistory [sealedCreation] :=
  @creation_short "alice" false (by decide +kernel)

theorem alteredCreation_short : ShortHistory [alteredCreation] :=
  @creation_short "mallory" true (by decide +kernel)

theorem sameHistory_iff_canonicalHashes_creation :
    SameHistory [sealedCreation] [alteredCreation] ↔
      ∀ e ∈ [sealedCreation], ∀ e' ∈ [alteredCreation], e.eventHash = e'.eventHash →
        canonicalEventHash creationPlatform e = canonicalEventHash creationPlatform e' :=
  sameHistory_iff_canonicalHashes creationPlatform_collisionFree creations_accepted.1
    creations_accepted.2 sealedCreation_short alteredCreation_short

/-- Two histories that verify against the same root and replay hash are the same. -/
def ReplayTamperEvident : Prop :=
  ∀ env : Platform, env.CollisionFree → ∀ (events events' : List VectorEvent) (root : StateRoot)
    (replayHash : String), verifyReplay env events root replayHash = .ok true →
    verifyReplay env events' root replayHash = .ok true → ShortHistory events →
    ShortHistory events' → SameHistory events events'

/-- The actor of a creation can be replaced, since the hash it carries is not looked into. -/
theorem replayTamperEvident_fails : ¬ ReplayTamperEvident := by
  intro h
  have hsame := h creationPlatform creationPlatform_collisionFree [sealedCreation]
    [alteredCreation] creationRoot creationReplayHash creations_accepted.1 creations_accepted.2
    sealedCreation_short alteredCreation_short
  have hunsigned := List.singleton_perm_singleton.mp hsame
  have hactor : "alice" = "mallory" := congrArg VectorEvent.actorPublicKey hunsigned
  exact absurd hactor (by decide)

end VKernelX
