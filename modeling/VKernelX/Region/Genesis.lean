/-
  Region/Genesis.lean --- reading a region back from its genesis event.

  The event keeps the request in its metadata, under reserved keys and under keys that
  begin with `meta:`.  Neither kind hides the other, so what is read back is what was
  requested, normalized.
-/
import VKernelX.Model.Region

set_option autoImplicit false

namespace VKernelX

/-! ## Metadata -/

theorem lookup_insertAll_of_not_mem {m : BTreeMap String String}
    {entries : List (String × String)} {key : String} (h : key ∉ entries.map Prod.fst) :
    (insertAll m entries)[key]? = m[key]? := by
  induction entries generalizing m with
  | nil => rfl
  | cons entry entries ih =>
    rw [List.map_cons, List.mem_cons, not_or] at h
    show (insertAll (m.insert entry.1 entry.2) entries)[key]? = _
    rw [ih h.2, BTreeMap.lookup_insert_of_ne _ _ (Ne.symm h.1)]

theorem lookup_insertAll_of_mem {m : BTreeMap String String}
    {entries : List (String × String)} {key value : String}
    (hnodup : (entries.map Prod.fst).Nodup) (hmem : (key, value) ∈ entries) :
    (insertAll m entries)[key]? = some value := by
  induction entries generalizing m with
  | nil => cases hmem
  | cons entry entries ih =>
    rw [List.map_cons, List.nodup_cons] at hnodup
    show (insertAll (m.insert entry.1 entry.2) entries)[key]? = _
    rcases List.mem_cons.mp hmem with rfl | hmem
    · rw [lookup_insertAll_of_not_mem hnodup.1, BTreeMap.lookup_insert, if_pos rfl]
    · exact ih hnodup.2 hmem

section

variable (env : Platform)

/-- The metadata of a genesis event. -/
def genesisMetadata (request : RegionCreateRequest) (actorPublicKey : String) :
    BTreeMap String String :=
  insertAll (insertAll ∅ (regionGenesisMetadata env request actorPublicKey))
    (request.metadata.toList.map (fun entry => ("meta:" ++ entry.1, entry.2)))

theorem nodup_regionGenesisMetadata (request : RegionCreateRequest) (actorPublicKey : String) :
    ((regionGenesisMetadata env request actorPublicKey).map Prod.fst).Nodup := by
  simp [regionGenesisMetadata]

/-- A reserved entry is not shadowed by the request's own metadata. -/
theorem lookup_genesisMetadata {request : RegionCreateRequest} {actorPublicKey key value : String}
    (hmem : (key, value) ∈ regionGenesisMetadata env request actorPublicKey)
    (hkey : key.toList.head? ≠ some 'm') :
    (genesisMetadata env request actorPublicKey)[key]? = some value := by
  rw [genesisMetadata, lookup_insertAll_of_not_mem]
  · exact lookup_insertAll_of_mem (nodup_regionGenesisMetadata env request actorPublicKey) hmem
  · intro hown
    rw [List.map_map] at hown
    obtain ⟨entry, _, rfl⟩ := List.mem_map.mp hown
    exact hkey (by simp)

end

/-! ## Normalization -/

/-- A normalized prefix is trimmed, upper-case and not empty. -/
theorem normalizePrefix_eq_some {pre : Option String} {p : String}
    (h : normalizePrefix pre = some p) :
    trim p = p ∧ toAsciiUppercase p = p ∧ isBlank p = false := by
  rw [normalizePrefix, Option.filter_eq_some_iff, Option.map_eq_some_iff] at h
  obtain ⟨⟨v, _, rfl⟩, hne⟩ := h
  have htrim : trim (toAsciiUppercase (trim v)) = toAsciiUppercase (trim v) := by
    rw [trim_toAsciiUppercase, trim_trim]
  refine ⟨htrim, toAsciiUppercase_toAsciiUppercase _, ?_⟩
  rw [isBlank, htrim]
  simpa using hne

/-- Normalizing once more changes nothing. -/
theorem normalizePrefix_normalizePrefix (pre : Option String) :
    normalizePrefix (normalizePrefix pre) = normalizePrefix pre := by
  cases h : normalizePrefix pre with
  | none => rfl
  | some p =>
    obtain ⟨htrim, hupper, hblank⟩ := normalizePrefix_eq_some h
    rw [normalizePrefix, Option.map_some, htrim, hupper, Option.filter_some]
    simpa using ne_empty_of_isBlank_eq_false hblank

/-- A normalized prefix survives being written out and read back. -/
theorem optionalEntry_normalizePrefix {md : BTreeMap String String} {key : String}
    {pre : Option String} (h : md[key]? = some ((normalizePrefix pre).getD "")) :
    optionalEntry md key = normalizePrefix pre := by
  rw [optionalEntry, h]
  cases hpre : normalizePrefix pre with
  | none => rfl
  | some p =>
    simp only [Option.getD_some]
    rw [if_pos (normalizePrefix_eq_some hpre).2.2]

/-! ## The region of a genesis event -/

section

variable {env : Platform} {request : RegionCreateRequest} {actorPublicKey : String}

/-- What a genesis event carries over from its request. -/
structure GenesisFields (env : Platform) (request : RegionCreateRequest) (actorPublicKey : String)
    (clock timestamp sequence : UInt64) (e : VectorEvent) : Prop where
  valid : ∃ u, validateRegionCreateRequest request = .ok u
  entityId_eq : e.entityId = canonicalRegionId env request actorPublicKey sequence
  regionId_eq : e.regionId = canonicalRegionId env request actorPublicKey sequence
  parentHashes_eq : e.parentHashes = []
  operation_eq : e.operation = regionCreateOperation
  logicalClock_eq : e.logicalClock = clock
  timestamp_eq : e.timestamp = timestamp
  metadata_eq : e.vectorAfter.metadata = genesisMetadata env request actorPublicKey

theorem buildRegionGenesisEvent_fields {clock timestamp sequence : UInt64} {e : VectorEvent}
    (h : buildRegionGenesisEvent env request actorPublicKey clock timestamp sequence = .ok e) :
    GenesisFields env request actorPublicKey clock timestamp sequence e := by
  simp only [buildRegionGenesisEvent, Outcome.bind_eq_ok_iff] at h
  obtain ⟨u, hvalid, he⟩ := h
  obtain rfl := Except.ok.inj he
  exact ⟨⟨u, hvalid⟩, rfl, rfl, rfl, rfl, rfl, rfl, rfl⟩

/-- The region read back from a genesis event, in the fields that identify it. -/
structure RegionOf (request : RegionCreateRequest) (e : VectorEvent) (region : RegionState) :
    Prop where
  regionId_eq : region.regionId = e.entityId
  regionRoot_eq : region.regionRoot = e.eventHash
  regionName_eq : region.regionName = request.regionName
  normalizedName_eq : region.normalizedName = request.normalizedName
  regionPrefix_eq : region.regionPrefix = request.normalizedPrefix
  section_eq : region.section_ = request.section_
  authRatioBps_eq : region.authRatioBps = defaultRegionAuthRatioBps
  visibility_eq : region.visibility = request.visibility

/-- A genesis event with a visible hash is read back as the region that was asked for. -/
theorem regionStateFromEvent_genesis {clock timestamp sequence : UInt64} {e : VectorEvent}
    (h : buildRegionGenesisEvent env request actorPublicKey clock timestamp sequence = .ok e)
    (hhash : isBlank e.eventHash = false) :
    ∃ region, regionStateFromEvent e = .ok region ∧ RegionOf request e region := by
  have hfields := buildRegionGenesisEvent_fields h
  have hcreate : isRegionCreateEvent e = true := by
    rw [isRegionCreateEvent, hfields.operation_eq]
    rfl
  have hlookup : ∀ key value, (key, value) ∈ regionGenesisMetadata env request actorPublicKey →
      key.toList.head? ≠ some 'm' → e.vectorAfter.metadata[key]? = some value := by
    intro key value hmem hkey
    rw [hfields.metadata_eq]
    exact lookup_genesisMetadata env hmem hkey
  have hname := hlookup "region_name" request.regionName
    (by simp [regionGenesisMetadata]) (by decide)
  have hnormalized := hlookup "normalized_name" request.normalizedName
    (by simp [regionGenesisMetadata]) (by decide)
  have hprefixed := hlookup "region_prefix" ((normalizePrefix request.regionPrefix).getD "")
    (by simp [regionGenesisMetadata, RegionCreateRequest.normalizedPrefix]) (by decide)
  have hsection := hlookup "section" (decimal request.section_.toNat)
    (by simp [regionGenesisMetadata]) (by decide)
  have hratio := hlookup "initial_auth_ratio_bps" (decimal defaultRegionAuthRatioBps.toNat)
    (by simp [regionGenesisMetadata]) (by decide)
  have hvisibility := hlookup "visibility" request.visibility.asStr
    (by simp [regionGenesisMetadata]) (by decide)
  have hcreator := hlookup "creator_public_key" actorPublicKey
    (by simp [regionGenesisMetadata]) (by decide)
  have htrigger := hlookup "trigger_event_hash" request.triggerEventHash
    (by simp [regionGenesisMetadata]) (by decide)
  have hproof := hlookup "creation_proof_hash" (hashHex env request.creationProof)
    (by simp [regionGenesisMetadata]) (by decide)
  have hparse : ∀ (key : String) (n : UInt64), parseEntry key (decimal n.toNat) = .ok n := by
    intro key n
    rw [parseEntry, parseU64_decimal n.toNat_lt, UInt64.ofNat_toNat]
  have hvisible : parseVisibility e.vectorAfter.metadata = .ok request.visibility := by
    rw [parseVisibility, hvisibility]
    cases request.visibility <;> rfl
  constructor
  constructor
  · rw [regionStateFromEvent, Outcome.require_of hcreate, Outcome.ok_bind,
      Outcome.require_of hhash, Outcome.ok_bind]
    simp only [requireEntry, hname, hnormalized, hsection, hratio, hcreator, htrigger, hproof,
      Outcome.okOr, Outcome.ok_bind, hparse, hvisible]
    rfl
  · exact ⟨rfl, rfl, rfl, rfl, optionalEntry_normalizePrefix hprefixed, rfl, rfl, rfl⟩

end

end VKernelX
