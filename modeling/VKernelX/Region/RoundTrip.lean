/-
  Region/RoundTrip.lean --- a genesis event is valid and gives the whole request back.
-/
import VKernelX.Engine.Integrity
import VKernelX.Model.RegionAccess
import VKernelX.Region.Genesis

set_option autoImplicit false

namespace VKernelX

/-! ## The request's own metadata -/

theorem stripPrefix_append (p s : String) : stripPrefix p (p ++ s) = some s := by
  rw [stripPrefix, if_pos (by simp)]
  simp

theorem eq_append_of_stripPrefix {p s rest : String} (h : stripPrefix p s = some rest) :
    s = p ++ rest := by
  rw [stripPrefix] at h
  split at h
  · rename_i hprefix
    obtain ⟨tail, htail⟩ := hprefix
    have hrest := Option.some.inj h
    rw [← htail, List.drop_left] at hrest
    rw [← hrest]
    exact String.toList_inj.mp (by simp [htail])
  · cases h

/-- The entries under a prefix, without it. -/
theorem lookup_strippedEntries (p : String) (md : BTreeMap String String) (key : String) :
    (insertAll ∅ (md.toList.filterMap
        (fun entry => (stripPrefix p entry.1).map (fun rest => (rest, entry.2)))))[key]? =
      md[p ++ key]? := by
  have hmem : ∀ rest value, (rest, value) ∈ md.toList.filterMap
        (fun entry => (stripPrefix p entry.1).map (fun rest => (rest, entry.2))) ↔
      md[p ++ rest]? = some value := by
    intro rest value
    simp only [List.mem_filterMap, Option.map_eq_some_iff, Prod.mk.injEq]
    constructor
    · rintro ⟨⟨whole, value'⟩, hin, rest', hstrip, rfl, rfl⟩
      rw [← eq_append_of_stripPrefix hstrip]
      exact BTreeMap.mem_toList.mp hin
    · intro hlookup
      exact ⟨(p ++ rest, value), BTreeMap.mem_toList.mpr hlookup, rest, stripPrefix_append p rest,
        rfl, rfl⟩
  have hnodup : ((md.toList.filterMap
      (fun entry => (stripPrefix p entry.1).map (fun rest => (rest, entry.2)))).map
        Prod.fst).Nodup := by
    rw [List.nodup_iff_pairwise_ne, List.pairwise_map, List.pairwise_filterMap]
    refine Std.ExtTreeMap.distinct_keys_toList.imp ?_
    intro a b hne a' ha b' hb heq
    obtain ⟨rest, hrest, rfl⟩ := Option.map_eq_some_iff.mp ha
    obtain ⟨rest', hrest', rfl⟩ := Option.map_eq_some_iff.mp hb
    refine hne (Std.LawfulEqOrd.compare_eq_iff_eq.mpr ?_)
    rw [eq_append_of_stripPrefix hrest, eq_append_of_stripPrefix hrest']
    exact congrArg (p ++ ·) heq
  cases hlookup : md[p ++ key]? with
  | some value => exact lookup_insertAll_of_mem hnodup ((hmem key value).mpr hlookup)
  | none =>
    rw [lookup_insertAll_of_not_mem]
    · simp
    · intro hin
      obtain ⟨⟨key', value⟩, hentry, rfl⟩ := List.mem_map.mp hin
      rw [(hmem key' value).mp hentry] at hlookup
      cases hlookup

section

variable (env : Platform)

/-- Under `meta:` a genesis event holds the request's metadata. -/
theorem lookup_meta_genesisMetadata (request : RegionCreateRequest) (actorPublicKey key : String) :
    (genesisMetadata env request actorPublicKey)["meta:" ++ key]? = request.metadata[key]? := by
  have hnodup : ((request.metadata.toList.map
      (fun entry => ("meta:" ++ entry.1, entry.2))).map Prod.fst).Nodup := by
    rw [List.map_map, List.nodup_iff_pairwise_ne, List.pairwise_map]
    refine Std.ExtTreeMap.distinct_keys_toList.imp ?_
    intro a b hne heq
    exact hne (Std.LawfulEqOrd.compare_eq_iff_eq.mpr (String.append_right_inj _ |>.mp heq))
  cases hlookup : request.metadata[key]? with
  | some value =>
    refine lookup_insertAll_of_mem hnodup (List.mem_map.mpr ⟨(key, value), ?_, rfl⟩)
    exact BTreeMap.mem_toList.mpr hlookup
  | none =>
    rw [genesisMetadata, lookup_insertAll_of_not_mem, lookup_insertAll_of_not_mem]
    · simp
    · -- No reserved key begins with an "m".
      intro hin
      obtain ⟨entry, hentry, heq⟩ := List.mem_map.mp hin
      have hletter : ∀ entry ∈ regionGenesisMetadata env request actorPublicKey,
          entry.1.toList.head? ≠ some 'm' := by
        simp [regionGenesisMetadata]
      exact hletter entry hentry (by rw [heq]; simp)
    · intro hin
      obtain ⟨_, hentry, heq⟩ := List.mem_map.mp hin
      obtain ⟨⟨key', value⟩, hmem, rfl⟩ := List.mem_map.mp hentry
      obtain rfl := String.append_right_inj _ |>.mp heq
      rw [BTreeMap.mem_toList.mp hmem] at hlookup
      cases hlookup

end

/-! ## The genesis event -/

section

variable {env : Platform} {request : RegionCreateRequest} {actorPublicKey : String}

/-- A region id shows its separators. -/
theorem isBlank_canonicalRegionId (env : Platform) (request : RegionCreateRequest)
    (actorPublicKey : String) (sequence : UInt64) :
    isBlank (canonicalRegionId env request actorPublicKey sequence) = false := by
  refine isBlank_eq_false_of_mem (c := ':') ?_ (by decide)
  simp [canonicalRegionId, String.toList_append]

/-- A valid request carries a signature. -/
theorem isBlank_requestSignature (hvalid : (validateRegionCreateRequest request).IsOk) :
    isBlank request.requestSignature = false := by
  obtain ⟨_, hvalid⟩ := hvalid
  simp only [validateRegionCreateRequest, Outcome.bind_eq_ok_iff, Outcome.require_eq_ok_iff]
    at hvalid
  obtain ⟨_, _, _, _, _, _, _, _, _, hsignature, _⟩ := hvalid
  exact hsignature

/-- A public region has no access key, and a private one has one. -/
theorem accessKey_of_valid (hvalid : (validateRegionCreateRequest request).IsOk) :
    request.visibility = .public_ ∧ request.accessKey = none ∨
      request.visibility = .private_ ∧ ∃ key, request.accessKey = some key := by
  obtain ⟨_, hvalid⟩ := hvalid
  simp only [validateRegionCreateRequest, Outcome.bind_eq_ok_iff] at hvalid
  obtain ⟨_, _, _, _, _, _, _, _, _, _, hkey⟩ := hvalid
  cases hvisibility : request.visibility with
  | public_ =>
    rw [hvisibility] at hkey
    exact .inl ⟨rfl, Outcome.require_eq_ok_iff.mp hkey⟩
  | private_ =>
    rw [hvisibility] at hkey
    refine .inr ⟨rfl, ?_⟩
    cases haccess : request.accessKey with
    | none =>
      have := Outcome.require_eq_ok_iff.mp hkey
      rw [haccess] at this
      cases this
    | some key => exact ⟨key, rfl⟩

/-- The event of a valid request, signed by a visible key, is valid. -/
theorem validateEvent_genesis (hactor : isBlank actorPublicKey = false)
    {clock timestamp sequence : UInt64} {e : VectorEvent}
    (h : buildRegionGenesisEvent env request actorPublicKey clock timestamp sequence = .ok e) :
    (validateEvent env e).IsOk := by
  simp only [buildRegionGenesisEvent, Outcome.bind_eq_ok_iff] at h
  obtain ⟨u, hvalid, he⟩ := h
  obtain rfl := Except.ok.inj he
  have hsignature := isBlank_requestSignature ⟨u, hvalid⟩
  have hratio : F64.one.isFinite = true ∧ F64.one.ltZero = false ∧ F64.one.gtOne = false := by
    decide
  refine ⟨(), ?_⟩
  simp only [validateEvent, Outcome.bind_eq_ok_iff, Outcome.require_eq_ok_iff]
  refine ⟨(), isBlank_canonicalEventId .., (), isBlank_canonicalRegionId .., (),
    isBlank_canonicalRegionId .., (), hactor, (), hratio, (), rfl, (),
    (canonicalPayloadHash_seal env _).symm, (), (canonicalEventHash_seal env _).symm, ?_⟩
  rw [if_pos (show isRegionCreateEvent _ = true by simp [isRegionCreateEvent,
    VectorEvent.seal, regionCreateOperation])]
  simp only [Outcome.bind_eq_ok_iff, Outcome.require_eq_ok_iff]
  exact ⟨(), hsignature, (), rfl, rfl⟩

/-! ## Reading the request back -/

/-- What reading a region takes over from the metadata as it is. -/
theorem regionStateFromEvent_entries {e : VectorEvent} {region : RegionState}
    (h : regionStateFromEvent e = .ok region) :
    e.vectorAfter.metadata["creator_public_key"]? = some region.creatorPublicKey ∧
      region.suggestedTitle = optionalEntry e.vectorAfter.metadata "suggested_title" ∧
      region.accessKeyHash = optionalEntry e.vectorAfter.metadata "access_key_hash" ∧
      region.metadata = insertAll ∅ (e.vectorAfter.metadata.toList.filterMap
        (fun entry => (stripPrefix "meta:" entry.1).map (fun key => (key, entry.2)))) := by
  simp only [regionStateFromEvent, Outcome.bind_eq_ok_iff, requireEntry,
    Outcome.okOr_eq_ok_iff] at h
  obtain ⟨_, _, _, _, _, _, _, _, _, _, _, _, h⟩ := h
  -- The ratio may be missing; what is read after it is the same.
  split at h
  · simp only [Outcome.bind_eq_ok_iff, Outcome.okOr_eq_ok_iff] at h
    obtain ⟨_, _, _, _, _, _, _, hcreator, _, _, _, _, hregion⟩ := h
    obtain rfl := Except.ok.inj hregion
    exact ⟨hcreator, rfl, rfl, rfl⟩
  · simp only [Outcome.bind_eq_ok_iff, Outcome.okOr_eq_ok_iff] at h
    obtain ⟨_, _, _, _, _, _, _, hcreator, _, _, _, _, hregion⟩ := h
    obtain rfl := Except.ok.inj hregion
    exact ⟨hcreator, rfl, rfl, rfl⟩

/-- An optional text survives being written out and read back, unless it is blank. -/
theorem optionalEntry_of_getD {md : BTreeMap String String} {key : String} {text : Option String}
    (h : md[key]? = some (text.getD "")) :
    optionalEntry md key = text.filter (fun v => isBlank v = false) := by
  rw [optionalEntry, h]
  cases text with
  | none => rfl
  | some v =>
    rw [Option.filter_some]
    simp

/-- The region read back from a genesis event is the one that was asked for, and its access
rule is that of the request. -/
structure RegionRoundTrip (env : Platform) (request : RegionCreateRequest)
    (actorPublicKey : String) (e : VectorEvent) (region : RegionState) : Prop where
  regionOf : RegionOf request e region
  suggestedTitle_eq : region.suggestedTitle =
    request.suggestedTitle.filter (fun v => isBlank v = false)
  metadata_eq : region.metadata = request.metadata
  creatorPublicKey_eq : region.creatorPublicKey = actorPublicKey
  lookupKey_eq : region.lookupKey = request.lookupKey
  access : ∀ accessKey, authorizeRegionAccess env region accessKey = true ↔
    request.visibility = .public_ ∨ accessKey = request.accessKey

/-- A name that was normalized is not changed by normalizing it again. -/
theorem RegionOf.lookupKey {e : VectorEvent} {region : RegionState}
    (h : RegionOf request e region) : region.lookupKey = request.lookupKey := by
  rw [RegionState.lookupKey, h.regionPrefix_eq, h.normalizedName_eq,
    RegionCreateRequest.normalizedPrefix, normalizePrefix_normalizePrefix,
    RegionCreateRequest.normalizedName, trim_toAsciiLowercase, trim_trim,
    toAsciiLowercase_toAsciiLowercase]
  rfl

/-- Access is granted on public regions, and on private ones with the request's key. -/
theorem authorizeRegionAccess_iff (hfree : env.CollisionFree)
    (hvalid : (validateRegionCreateRequest request).IsOk) {region : RegionState}
    (hvisibility : region.visibility = request.visibility)
    (hhash : region.accessKeyHash = request.accessKey.map (hashHex env))
    (accessKey : Option String) :
    authorizeRegionAccess env region accessKey = true ↔
      request.visibility = .public_ ∨ accessKey = request.accessKey := by
  rcases accessKey_of_valid hvalid with ⟨hpublic, _⟩ | ⟨hprivate, key, hkey⟩
  · simp [authorizeRegionAccess, hvisibility, hpublic]
  · cases accessKey with
    | none => simp [authorizeRegionAccess, hvisibility, hprivate, hkey]
    | some provided =>
      have hinjective : hashHex env provided = hashHex env key ↔ provided = key :=
        ⟨fun heq => strBytes_injective (hfree heq), fun heq => by rw [heq]⟩
      simp [authorizeRegionAccess, hvisibility, hprivate, hhash, hkey, hinjective]

/-- Every valid request, signed by a visible key, gives a valid genesis event, from which the
whole request is read back. -/
theorem region_round_trips (hfree : env.CollisionFree) (hdigest : env.DigestsVisible)
    (hvalid : (validateRegionCreateRequest request).IsOk)
    (hactor : isBlank actorPublicKey = false) (clock timestamp sequence : UInt64) :
    ∃ e, buildRegionGenesisEvent env request actorPublicKey clock timestamp sequence = .ok e ∧
      (validateEvent env e).IsOk ∧
      ∃ region, regionStateFromEvent e = .ok region ∧
        RegionRoundTrip env request actorPublicKey e region := by
  obtain ⟨u, hu⟩ := id hvalid
  have hbuild : ∃ e, buildRegionGenesisEvent env request actorPublicKey clock timestamp
      sequence = .ok e := by
    rw [buildRegionGenesisEvent, hu]
    exact ⟨_, rfl⟩
  obtain ⟨e, he⟩ := hbuild
  have hfields := buildRegionGenesisEvent_fields he
  have hvalidEvent := validateEvent_genesis hactor he
  have hhash : isBlank e.eventHash = false := by
    rw [(eventChecks_of_validateEvent hvalidEvent.choose_spec).eventHash_eq]
    exact hdigest _
  obtain ⟨region, hregion, hof⟩ := regionStateFromEvent_genesis he hhash
  obtain ⟨hcreator, htitle, haccess, hmetadata⟩ := regionStateFromEvent_entries hregion
  have hentry : ∀ key value, (key, value) ∈ regionGenesisMetadata env request actorPublicKey →
      key.toList.head? ≠ some 'm' → e.vectorAfter.metadata[key]? = some value := by
    intro key value hmem hkey
    rw [hfields.metadata_eq]
    exact lookup_genesisMetadata env hmem hkey
  refine ⟨e, he, hvalidEvent, region, hregion, {
    regionOf := hof
    suggestedTitle_eq := ?_
    metadata_eq := ?_
    creatorPublicKey_eq := ?_
    lookupKey_eq := hof.lookupKey
    access := authorizeRegionAccess_iff hfree hvalid hof.visibility_eq ?_ }⟩
  · exact htitle.trans (optionalEntry_of_getD (hentry _ _ (by simp [regionGenesisMetadata])
      (by decide)))
  · rw [hmetadata, hfields.metadata_eq]
    apply Std.ExtTreeMap.ext_getElem?
    intro key
    rw [lookup_strippedEntries, lookup_meta_genesisMetadata]
  · rw [hentry "creator_public_key" actorPublicKey (by simp [regionGenesisMetadata])
      (by decide)] at hcreator
    exact (Option.some.inj hcreator).symm
  · rw [haccess, optionalEntry_of_getD (hentry "access_key_hash"
      ((request.accessKey.map (hashHex env)).getD "") (by simp [regionGenesisMetadata])
      (by decide))]
    cases request.accessKey with
    | none => rfl
    | some key =>
      rw [Option.map_some, Option.filter_some,
        if_pos (decide_eq_true (show isBlank (hashHex env key) = false from hdigest _))]

end

/-- A region's genesis event, once appended, is read back. -/
theorem regionEvent_readable {env : Platform} {eng : KernelEngine} {now : ℕ → UInt64}
    (hdigest : env.DigestsVisible) {request : RegionCreateRequest}
    {actorPublicKey : String} {e : VectorEvent}
    (hevent : regionEvent env now request actorPublicKey eng = .ok e) :
    ∃ region, regionStateFromEvent e = .ok region ∧ RegionOf request e region := by
  have hbuild := regionEvent_built hevent
  refine regionStateFromEvent_genesis hbuild ?_
  simp only [buildRegionGenesisEvent, Outcome.bind_eq_ok_iff] at hbuild
  obtain ⟨_, _, he⟩ := hbuild
  obtain rfl := Except.ok.inj he
  exact hdigest _

/-! ## A private region -/

/-- A private region with metadata under keys that look like reserved ones. -/
def privateRequest : RegionCreateRequest where
  regionName := " Main "
  regionPrefix := some "eu"
  suggestedTitle := some " "
  visibility := .private_
  section_ := 2
  triggerEventHash := "t"
  creationProof := "p"
  accessKey := some "secret"
  metadata := ((∅ : BTreeMap String String).insert "meta:section" "3").insert "region_name" "w"
  requestSignature := "00"

theorem region_round_trips_private :
    ∃ e, buildRegionGenesisEvent (separatedPlatform []) privateRequest "actor" 0 1 1 = .ok e ∧
      (validateEvent (separatedPlatform []) e).IsOk ∧
      ∃ region, regionStateFromEvent e = .ok region ∧
        RegionRoundTrip (separatedPlatform []) privateRequest "actor" e region :=
  region_round_trips separatedPlatform_nil_collisionFree (separatedPlatform_digestsVisible [])
    (by decide +kernel) (by decide) 0 1 1

end VKernelX
