/-
  Region/SignedRequest.lean --- what the signature of a region request covers.

  The signed bytes write a missing text and an empty one alike, and so do the seed of the
  region id and the metadata of the event.  Only an access key is told apart there, and the
  checks on a request allow for just one of the two.
-/
import VKernelX.Encoding.JsonText
import VKernelX.Region.RoundTrip

set_option autoImplicit false

namespace VKernelX

/-! ## Entries of a map -/

/-- Maps made of entries under the same distinct keys agree when the entries do. -/
theorem eq_of_insertAll_eq {entries entries' : List (String × String)}
    (hnodup : (entries.map Prod.fst).Nodup) (hkeys : entries'.map Prod.fst = entries.map Prod.fst)
    (h : insertAll ∅ entries = insertAll ∅ entries') : entries = entries' := by
  have hlookup : ∀ key value value', (key, value) ∈ entries → (key, value') ∈ entries' →
      value = value' := by
    intro key value value' hin hin'
    have hvalue := @lookup_insertAll_of_mem ∅ _ _ _ hnodup hin
    have hvalue' := @lookup_insertAll_of_mem ∅ _ _ _ (hkeys ▸ hnodup) hin'
    exact Option.some.inj (hvalue.symm.trans (h ▸ hvalue'))
  have hlength : entries'.length = entries.length := by
    simpa using congrArg List.length hkeys
  refine List.ext_getElem hlength.symm (fun i hi hi' => ?_)
  have hkey : entries'[i].1 = entries[i].1 := by
    have := congrArg (fun l => l[i]?) hkeys
    simpa [hi, hi'] using this
  refine Prod.ext hkey.symm (hlookup entries[i].1 _ _ (List.getElem_mem hi) ?_)
  rw [← hkey]
  exact List.getElem_mem hi'

theorem RegionVisibility.asStr_injective : Function.Injective RegionVisibility.asStr := by
  intro v v' h
  cases v <;> cases v' <;> first | rfl | exact absurd h (by decide)

/-- A missing prefix and an empty one are normalized alike. -/
theorem normalizePrefix_getD (pre : Option String) :
    normalizePrefix pre = normalizePrefix (some (pre.getD "")) := by
  cases pre with
  | none => decide
  | some v => rfl

section

variable {env : Platform} {request request' : RegionCreateRequest}

/-- Two requests that are signed alike: every field that goes into the signed bytes agrees,
where a missing text counts as an empty one. -/
structure SignedAlike (request request' : RegionCreateRequest) : Prop where
  regionName : request.regionName = request'.regionName
  regionPrefix : request.regionPrefix.getD "" = request'.regionPrefix.getD ""
  suggestedTitle : request.suggestedTitle.getD "" = request'.suggestedTitle.getD ""
  visibility : request.visibility = request'.visibility
  section_ : request.section_ = request'.section_
  triggerEventHash : request.triggerEventHash = request'.triggerEventHash
  creationProof : request.creationProof = request'.creationProof
  accessKey : request.accessKey.getD "" = request'.accessKey.getD ""
  metadata : request.metadata = request'.metadata

theorem signedAlike_of_signatureBytes (hjson : Function.Injective env.jsonOfMap)
    (h : canonicalRegionRequestSignatureBytes env request =
      canonicalRegionRequestSignatureBytes env request') : SignedAlike request request' := by
  rw [canonicalRegionRequestSignatureBytes, canonicalRegionRequestSignatureBytes] at h
  have hmap := hjson (strBytes_injective h)
  have hentries := eq_of_insertAll_eq (by simp) (by simp) hmap
  simp only [List.cons.injEq, Prod.mk.injEq, true_and, and_true] at hentries
  obtain ⟨hname, hprefix, htitle, hvisibility, hsection, htrigger, hproof, hkey, hmetadata⟩ :=
    hentries
  exact ⟨hname, hprefix, htitle, RegionVisibility.asStr_injective hvisibility,
    UInt64.toNat_inj.mp (decimal_injective hsection), htrigger, hproof, hkey, hjson hmetadata⟩

/-- Between valid requests the access key is told apart, too. -/
theorem SignedAlike.accessKey_eq (h : SignedAlike request request')
    (hvalid : (validateRegionCreateRequest request).IsOk)
    (hvalid' : (validateRegionCreateRequest request').IsOk) :
    request.accessKey = request'.accessKey := by
  have haccess := h.accessKey
  have hvisibility := h.visibility
  rcases accessKey_of_valid hvalid with ⟨hpublic, hkey⟩ | ⟨hprivate, key, hkey⟩ <;>
    rcases accessKey_of_valid hvalid' with ⟨hpublic', hkey'⟩ | ⟨hprivate', key', hkey'⟩
  · rw [hkey, hkey']
  · rw [hpublic, hprivate'] at hvisibility
    cases hvisibility
  · rw [hprivate, hpublic'] at hvisibility
    cases hvisibility
  · rw [hkey, hkey'] at haccess ⊢
    exact congrArg some haccess

theorem SignedAlike.normalizedPrefix (h : SignedAlike request request') :
    request.normalizedPrefix = request'.normalizedPrefix := by
  rw [RegionCreateRequest.normalizedPrefix, RegionCreateRequest.normalizedPrefix,
    normalizePrefix_getD, h.regionPrefix, ← normalizePrefix_getD]

theorem SignedAlike.canonicalRegionId (h : SignedAlike request request')
    (hkey : request.accessKey = request'.accessKey) (actorPublicKey : String)
    (sequence : UInt64) :
    VKernelX.canonicalRegionId env request actorPublicKey sequence =
      VKernelX.canonicalRegionId env request' actorPublicKey sequence := by
  have hseed : canonicalRegionSeedBytes env request actorPublicKey =
      canonicalRegionSeedBytes env request' actorPublicKey := by
    rw [canonicalRegionSeedBytes, canonicalRegionSeedBytes, h.regionName, h.regionPrefix,
      h.suggestedTitle, h.visibility, h.section_, h.triggerEventHash, h.creationProof, hkey,
      h.metadata]
  rw [VKernelX.canonicalRegionId, VKernelX.canonicalRegionId, hseed, h.normalizedPrefix]

theorem SignedAlike.genesisMetadata (h : SignedAlike request request')
    (hkey : request.accessKey = request'.accessKey) (actorPublicKey : String) :
    VKernelX.genesisMetadata env request actorPublicKey =
      VKernelX.genesisMetadata env request' actorPublicKey := by
  rw [VKernelX.genesisMetadata, VKernelX.genesisMetadata, regionGenesisMetadata,
    regionGenesisMetadata, h.normalizedPrefix, RegionCreateRequest.normalizedName,
    RegionCreateRequest.normalizedName, h.regionName, h.suggestedTitle, h.visibility, h.section_,
    h.triggerEventHash, h.creationProof, hkey, h.metadata]

/-- Valid requests with the same signed bytes create the same region: their genesis events
agree in everything but the signature itself. -/
theorem genesisEvents_of_signatureBytes (hjson : Function.Injective env.jsonOfMap)
    (hvalid : (validateRegionCreateRequest request).IsOk)
    (hvalid' : (validateRegionCreateRequest request').IsOk)
    (h : canonicalRegionRequestSignatureBytes env request =
      canonicalRegionRequestSignatureBytes env request')
    (actorPublicKey : String) (clock timestamp sequence : UInt64) :
    ∃ e e', buildRegionGenesisEvent env request actorPublicKey clock timestamp sequence = .ok e ∧
      buildRegionGenesisEvent env request' actorPublicKey clock timestamp sequence = .ok e' ∧
      e' = { e with signature := e'.signature } := by
  have halike := signedAlike_of_signatureBytes hjson h
  have hkey := halike.accessKey_eq hvalid hvalid'
  have hid := @SignedAlike.canonicalRegionId env _ _ halike hkey actorPublicKey sequence
  have hmetadata := @SignedAlike.genesisMetadata env _ _ halike hkey actorPublicKey
  obtain ⟨_, hu⟩ := hvalid
  obtain ⟨_, hu'⟩ := hvalid'
  rw [buildRegionGenesisEvent, buildRegionGenesisEvent, hu, hu']
  refine ⟨_, _, rfl, rfl, ?_⟩
  simp only [VKernelX.genesisMetadata] at hmetadata
  simp only [VectorEvent.seal, canonicalEventHash, canonicalPayloadHash, canonicalEventBytes,
    canonicalEventPayloadBytes, hid, hmetadata]

end

/-- `privateRequest` without a title. -/
def untitledRequest : RegionCreateRequest :=
  { privateRequest with suggestedTitle := none }

/-- With an empty title and another signature: the signed bytes are the same. -/
def emptyTitleRequest : RegionCreateRequest :=
  { privateRequest with suggestedTitle := some "", requestSignature := "01" }

theorem genesisEvents_of_signatureBytes_untitled :
    ∃ e e', buildRegionGenesisEvent hexPlatform untitledRequest "actor" 0 1 1 = .ok e ∧
      buildRegionGenesisEvent hexPlatform emptyTitleRequest "actor" 0 1 1 = .ok e' ∧
      e' = { e with signature := e'.signature } :=
  @genesisEvents_of_signatureBytes hexPlatform untitledRequest emptyTitleRequest
    jsonObject_injective (by decide +kernel) (by decide +kernel) rfl "actor" 0 1 1

end VKernelX
