/-
  Encoding/Events.lean --- the canonical event encoding is unambiguous.

  An event's bytes are read back field by field.  The operation is the one field whose layout
  depends on its value: only `OTHER` is followed by a second text, and no other operation has
  that tag.
-/
import VKernelX.Encoding.Writers

set_option autoImplicit false

namespace VKernelX

/-! ## Operations -/

/-- The operation's own text, if it carries one, is short. -/
def OperationType.Short : OperationType → Prop
  | .other name => ShortStr name
  | _ => True

/-- What follows the tag. -/
def OperationType.suffix : OperationType → List UInt8
  | .other name => writeStr name
  | _ => []

theorem OperationType.canonicalBytes_eq (operation : OperationType) :
    operation.canonicalBytes = writeStr operation.canonicalName ++ operation.suffix := by
  cases operation <;> simp [canonicalBytes, suffix, canonicalName]

theorem shortStr_canonicalName (operation : OperationType) : ShortStr operation.canonicalName := by
  have htag : (strBytes operation.canonicalName).length < 2 ^ 8 := by
    cases operation <;> simp only [OperationType.canonicalName] <;> decide
  exact Nat.lt_of_lt_of_le htag (by norm_num)

/-- Operations with one tag are equal or both carry a text. -/
theorem OperationType.eq_of_canonicalName {a b : OperationType}
    (h : a.canonicalName = b.canonicalName) :
    a = b ∨ ∃ name name', a = .other name ∧ b = .other name' := by
  cases a <;> cases b <;> first
    | exact Or.inl rfl
    | exact Or.inr ⟨_, _, rfl, rfl⟩
    | exact absurd h (by simp only [OperationType.canonicalName]; decide)

theorem prefixCode_operation : PrefixCode OperationType.Short OperationType.canonicalBytes := by
  intro a b rest rest' ha hb heq
  rw [OperationType.canonicalBytes_eq, OperationType.canonicalBytes_eq, List.append_assoc,
    List.append_assoc] at heq
  obtain ⟨htag, hsuffix⟩ := prefixCode_writeStr _ _ _ _ (shortStr_canonicalName a)
    (shortStr_canonicalName b) heq
  rcases OperationType.eq_of_canonicalName htag with rfl | ⟨name, name', rfl, rfl⟩
  · exact ⟨rfl, List.append_cancel_left hsuffix⟩
  · obtain ⟨rfl, hrest⟩ := prefixCode_writeStr name name' _ _ ha hb hsuffix
    exact ⟨rfl, hrest⟩

/-! ## Vector states -/

/-- Every text, list and map of the state is shorter than 2^64. -/
structure VectorState.Short (s : VectorState) : Prop where
  components : s.components.length < 2 ^ 64
  ownerPublicKey : ShortStr s.ownerPublicKey
  typeTag : ShortStr s.typeTag
  metadata : ShortMap s.metadata

theorem prefixCode_vectorState : PrefixCode VectorState.Short VectorState.canonicalBytes := by
  intro a b rest rest' ha hb heq
  simp only [VectorState.canonicalBytes, List.append_assoc] at heq
  obtain ⟨hcomponents, heq⟩ := prefixCode_writeVecU64 _ _ _ _ ha.components hb.components heq
  obtain ⟨howner, heq⟩ := prefixCode_writeStr _ _ _ _ ha.ownerPublicKey hb.ownerPublicKey heq
  obtain ⟨htag, heq⟩ := prefixCode_writeStr _ _ _ _ ha.typeTag hb.typeTag heq
  obtain ⟨hmetadata, hrest⟩ := prefixCode_writeStrMap _ _ _ _ ha.metadata hb.metadata heq
  refine ⟨?_, hrest⟩
  cases a
  cases b
  rw [VectorState.mk.injEq]
  exact ⟨hcomponents, howner, htag, hmetadata⟩

/-! ## Events -/

/-- Every text, list and map that an event's bytes cover is shorter than 2^64. -/
structure VectorEvent.Short (e : VectorEvent) : Prop where
  eventId : ShortStr e.eventId
  parentHashes : ShortStrs e.parentHashes
  regionId : ShortStr e.regionId
  entityId : ShortStr e.entityId
  operation : e.operation.Short
  vectorBefore : e.vectorBefore.Short
  vectorAfter : e.vectorAfter.Short
  actorPublicKey : ShortStr e.actorPublicKey
  payloadHash : ShortStr e.payloadHash

/-- An event without its two hashes and its signature: the fields the payload covers. -/
def VectorEvent.payload (e : VectorEvent) : VectorEvent :=
  { e with payloadHash := "", eventHash := "", signature := "" }

/-- The payload is read back from the payload bytes, whatever follows them. -/
theorem payload_of_bytes {e e' : VectorEvent} (he : e.Short) (he' : e'.Short)
    {rest rest' : List UInt8}
    (heq : canonicalEventPayloadBytes e ++ rest = canonicalEventPayloadBytes e' ++ rest') :
    e.payload = e'.payload ∧ rest = rest' := by
  simp only [canonicalEventPayloadBytes, List.append_assoc] at heq
  obtain ⟨hid, heq⟩ := prefixCode_writeStr _ _ _ _ he.eventId he'.eventId heq
  obtain ⟨hparents, heq⟩ := prefixCode_writeVecStr _ _ _ _ he.parentHashes he'.parentHashes heq
  obtain ⟨hregion, heq⟩ := prefixCode_writeStr _ _ _ _ he.regionId he'.regionId heq
  obtain ⟨hentity, heq⟩ := prefixCode_writeStr _ _ _ _ he.entityId he'.entityId heq
  obtain ⟨hoperation, heq⟩ := prefixCode_operation _ _ _ _ he.operation he'.operation heq
  obtain ⟨hbefore, heq⟩ := prefixCode_vectorState _ _ _ _ he.vectorBefore he'.vectorBefore heq
  obtain ⟨hafter, heq⟩ := prefixCode_vectorState _ _ _ _ he.vectorAfter he'.vectorAfter heq
  obtain ⟨hratio, heq⟩ := prefixCode_writeF64 _ _ _ _ trivial trivial heq
  obtain ⟨hcertified, heq⟩ := prefixCode_writeBool _ _ _ _ trivial trivial heq
  obtain ⟨hactor, heq⟩ := prefixCode_writeStr _ _ _ _ he.actorPublicKey he'.actorPublicKey heq
  obtain ⟨hclock, heq⟩ := prefixCode_writeU64 _ _ _ _ trivial trivial heq
  obtain ⟨htimestamp, hrest⟩ := prefixCode_writeU64 _ _ _ _ trivial trivial heq
  refine ⟨?_, hrest⟩
  simp only [VectorEvent.payload, hid, hparents, hregion, hentity, hoperation, hbefore, hafter,
    hratio, hcertified, hactor, hclock, htimestamp]

/-- The two writers of the full event agree. -/
theorem VectorEvent.canonicalBytes_eq (e : VectorEvent) :
    e.canonicalBytes = canonicalEventBytes e := by
  simp only [VectorEvent.canonicalBytes, canonicalEventBytes, canonicalEventPayloadBytes]

/-- Equal event bytes: the payloads agree, and so do the payload hashes. -/
theorem payload_of_eventBytes {e e' : VectorEvent} (he : e.Short) (he' : e'.Short)
    (heq : canonicalEventBytes e = canonicalEventBytes e') :
    e.payload = e'.payload ∧ e.payloadHash = e'.payloadHash := by
  obtain ⟨hpayload, hrest⟩ := payload_of_bytes he he' heq
  exact ⟨hpayload, prefixCode_writeStr.eq_of_write_eq he.payloadHash he'.payloadHash hrest⟩

/-- The canonical event encoding is unambiguous, its two writers agree, and under a
collision-free hash the event hash binds all that is written. -/
theorem canonicalEvent_unambiguous (env : Platform) {e e' : VectorEvent} (he : e.Short)
    (he' : e'.Short) :
    (canonicalEventPayloadBytes e = canonicalEventPayloadBytes e' → e.payload = e'.payload) ∧
      (canonicalEventBytes e = canonicalEventBytes e' →
        e.payload = e'.payload ∧ e.payloadHash = e'.payloadHash) ∧
      e.canonicalBytes = canonicalEventBytes e ∧
      (env.CollisionFree → canonicalEventHash env e = canonicalEventHash env e' →
        e.payload = e'.payload ∧ e.payloadHash = e'.payloadHash) := by
  refine ⟨fun heq => ?_, payload_of_eventBytes he he', e.canonicalBytes_eq, fun hfree heq => ?_⟩
  · have happend : canonicalEventPayloadBytes e ++ [] = canonicalEventPayloadBytes e' ++ [] := by
      rw [heq]
    exact (payload_of_bytes he he' happend).1
  · exact payload_of_eventBytes he he' (hfree heq)

/-- An event with an operation of its own and one parent, signed with `signature`. -/
def signedMint (signature : String) : VectorEvent :=
  { (default : VectorEvent) with
    eventId := "a::1"
    parentHashes := ["p"]
    operation := .other "MINT"
    signature := signature }

theorem default_short : (default : VectorState).Short where
  components := by decide
  ownerPublicKey := by decide +kernel
  typeTag := by decide +kernel
  metadata := ⟨by decide +kernel, by decide +kernel⟩

theorem signedMint_short (signature : String) : (signedMint signature).Short where
  eventId := (by decide +kernel : ShortStr "a::1")
  parentHashes := ⟨(by decide : ["p"].length < 2 ^ 64),
    (by decide +kernel : ∀ s ∈ ["p"], ShortStr s)⟩
  regionId := (by decide +kernel : ShortStr "")
  entityId := (by decide +kernel : ShortStr "")
  operation := (by decide +kernel : ShortStr "MINT")
  vectorBefore := default_short
  vectorAfter := default_short
  actorPublicKey := (by decide +kernel : ShortStr "")
  payloadHash := (by decide +kernel : ShortStr "")

theorem canonicalEvent_unambiguous_resigned :
    signedMint "s" ≠ signedMint "t" ∧
      canonicalEventBytes (signedMint "s") = canonicalEventBytes (signedMint "t") ∧
      (signedMint "s").payload = (signedMint "t").payload := by
  have hbytes : canonicalEventBytes (signedMint "s") = canonicalEventBytes (signedMint "t") := rfl
  have hbound := canonicalEvent_unambiguous samplePlatform (signedMint_short "s")
    (signedMint_short "t")
  exact ⟨by decide +kernel, hbytes, (hbound.2.1 hbytes).1⟩

end VKernelX
