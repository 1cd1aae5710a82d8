/-
  Region/Names.lean --- region names are unique, and a name keeps resolving to its region.

  A region is only created when no listed region has its name and prefix.  The listing is
  keyed by region id, so it shows every region as long as no two regions share an id; and an
  id spells out a digest of the request, names included.
-/
import VKernelX.Encoding.JsonText
import VKernelX.Engine.Frame
import VKernelX.Engine.Integrity
import VKernelX.Region.Genesis
import VKernelX.Region.RoundTrip

set_option autoImplicit false

namespace VKernelX

/-! ## Variants of a name -/

/-- Texts that differ from `s` in white space at the ends and in the case of ASCII letters. -/
inductive Variant (s : String) : String → Prop where
  | refl : Variant s s
  | pad {t before after : String} (h : Variant s t)
      (hbefore : ∀ c ∈ before.toList, isWhitespace c = true)
      (hafter : ∀ c ∈ after.toList, isWhitespace c = true) : Variant s (before ++ t ++ after)
  | unpad {t before after : String} (h : Variant s (before ++ t ++ after))
      (hbefore : ∀ c ∈ before.toList, isWhitespace c = true)
      (hafter : ∀ c ∈ after.toList, isWhitespace c = true) : Variant s t
  | recase {t t' : String} (h : Variant s t)
      (hcase : t'.toList.map Char.toLower = t.toList.map Char.toLower) : Variant s t'

/-- Variants have one normalized name. -/
theorem Variant.lowercase {s t : String} (h : Variant s t) :
    toAsciiLowercase (trim t) = toAsciiLowercase (trim s) := by
  induction h with
  | refl => rfl
  | pad _ hbefore hafter ih =>
    rw [trim_append (isBlank_iff.mpr hbefore) (isBlank_iff.mpr hafter), ih]
  | unpad _ hbefore hafter ih =>
    rw [← ih, trim_append (isBlank_iff.mpr hbefore) (isBlank_iff.mpr hafter)]
  | @recase t t' _ hcase ih =>
    have hlower : toAsciiLowercase t' = toAsciiLowercase t := by
      rw [toAsciiLowercase, hcase, ← toAsciiLowercase]
    rw [← ih, ← trim_toAsciiLowercase, hlower, trim_toAsciiLowercase]

theorem toAsciiUppercase_toAsciiLowercase (s : String) :
    toAsciiUppercase (toAsciiLowercase s) = toAsciiUppercase s := by
  simp [toAsciiUppercase, toAsciiLowercase, Function.comp_def]

theorem Variant.uppercase {s t : String} (h : Variant s t) :
    toAsciiUppercase (trim t) = toAsciiUppercase (trim s) := by
  rw [← toAsciiUppercase_toAsciiLowercase, h.lowercase, toAsciiUppercase_toAsciiLowercase]

/-- Prefixes that differ likewise; a blank one is a variant of none. -/
inductive PrefixVariant : Option String → Option String → Prop where
  | none : PrefixVariant none none
  | blank {t : String} (h : ∀ c ∈ t.toList, isWhitespace c = true) : PrefixVariant none (some t)
  | some {s t : String} (h : Variant s t) : PrefixVariant (some s) (some t)

theorem PrefixVariant.normalizePrefix_eq {p q : Option String} (h : PrefixVariant p q) :
    normalizePrefix q = normalizePrefix p := by
  cases h with
  | none => rfl
  | @blank t h =>
    have hempty : trim t = "" := beq_iff_eq.mp (isBlank_iff.mpr h)
    rw [normalizePrefix, Option.map_some, hempty]
    rfl
  | some h => rw [normalizePrefix, normalizePrefix, Option.map_some, Option.map_some, h.uppercase]

/-! ## The listing -/

/-- The event creates the region. -/
def CreatesRegion (e : VectorEvent) (r : RegionState) : Prop :=
  isRegionCreateEvent e = true ∧ regionStateFromEvent e = .ok r

/-- A region stands under the id of the entity its event belongs to. -/
theorem CreatesRegion.regionId {e : VectorEvent} {r : RegionState} (h : CreatesRegion e r) :
    r.regionId = e.entityId := by
  have hread := h.2
  simp only [regionStateFromEvent, Outcome.bind_eq_ok_iff] at hread
  obtain ⟨_, _, _, _, _, _, _, _, _, _, _, _, hread⟩ := hread
  -- The entry for the initial share has a default, so there are two readings.
  split at hread
  all_goals
    simp only [Outcome.bind_eq_ok_iff] at hread
    obtain ⟨_, _, _, _, _, _, _, _, _, _, _, _, heq⟩ := hread
    obtain rfl := Except.ok.inj heq
    rfl

theorem CreatesRegion.unique {e : VectorEvent} {r r' : RegionState} (h : CreatesRegion e r)
    (h' : CreatesRegion e r') : r = r' := Except.ok.inj (h.2.symm.trans h'.2)

/-- The loop body of `list_regions_from_events`. -/
def listRegion (regions : BTreeMap String RegionState) (e : VectorEvent) :
    Outcome KernelXError (BTreeMap String RegionState) :=
  if isRegionCreateEvent e then do
    let region ← regionStateFromEvent e
    return regions.insert region.regionId region
  else return regions

/-- The map that the listing builds: every region in it comes from an event and stands under
its id, and no id is left out. -/
structure Listed (events : List VectorEvent) (regions : BTreeMap String RegionState) : Prop where
  keyed : ∀ (id : String) (r : RegionState), regions[id]? = some r → r.regionId = id
  sound : ∀ (id : String) (r : RegionState), regions[id]? = some r →
    ∃ e ∈ events, CreatesRegion e r
  complete : ∀ e ∈ events, ∀ r, CreatesRegion e r → regions[r.regionId]? ≠ none

/-- One more event that creates a region. -/
theorem Listed.insert {events : List VectorEvent} {regions : BTreeMap String RegionState}
    (h : Listed events regions) {e : VectorEvent} {r : RegionState} (hr : CreatesRegion e r) :
    Listed (events ++ [e]) (regions.insert r.regionId r) := by
  refine ⟨?_, ?_, ?_⟩
  · intro id r' hlookup
    rw [BTreeMap.lookup_insert] at hlookup
    split at hlookup
    · rename_i hid
      rw [← Option.some.inj hlookup, hid]
    · exact h.keyed id r' hlookup
  · intro id r' hlookup
    rw [BTreeMap.lookup_insert] at hlookup
    split at hlookup
    · obtain rfl := Option.some.inj hlookup
      exact ⟨e, by simp, hr⟩
    · obtain ⟨e', he', hcreates⟩ := h.sound id r' hlookup
      exact ⟨e', List.mem_append_left _ he', hcreates⟩
  · intro e' he' r' hr'
    rw [BTreeMap.lookup_insert]
    split
    · exact Option.some_ne_none _
    · rename_i hne
      rcases List.mem_append.mp he' with he' | he'
      · exact h.complete e' he' r' hr'
      · obtain rfl := List.mem_singleton.mp he'
        exact absurd (congrArg RegionState.regionId (hr.unique hr')) hne

theorem listed_of_readable {events : List VectorEvent}
    (h : ∀ e ∈ events, isRegionCreateEvent e = true → ∃ r, regionStateFromEvent e = .ok r) :
    ∃ regions, events.foldlM listRegion ∅ = .ok regions ∧ Listed events regions := by
  induction events using List.reverseRecOn with
  | nil => exact ⟨∅, rfl, by simp, by simp, nofun⟩
  | append_singleton events e ih =>
    obtain ⟨regions, hfold, hlisted⟩ := ih (fun e' he' => h e' (List.mem_append_left _ he'))
    simp only [List.foldlM_append, hfold, Outcome.ok_bind, List.foldlM_cons, List.foldlM_nil,
      bind_pure, listRegion]
    by_cases hregion : isRegionCreateEvent e = true
    · obtain ⟨r, hread⟩ := h e (by simp) hregion
      rw [if_pos hregion, hread]
      exact ⟨_, rfl, hlisted.insert ⟨hregion, hread⟩⟩
    · rw [if_neg hregion]
      refine ⟨regions, rfl, hlisted.keyed, ?_, ?_⟩
      · intro id r hlookup
        obtain ⟨e', he', hcreates⟩ := hlisted.sound id r hlookup
        exact ⟨e', List.mem_append_left _ he', hcreates⟩
      · intro e' he' r hcreates
        rcases List.mem_append.mp he' with he' | he'
        · exact hlisted.complete e' he' r hcreates
        · exact absurd (List.mem_singleton.mp he' ▸ hcreates.1) hregion

/-- When all regions can be read and no two events create one id, the listing shows exactly
the regions that the events create, each once. -/
theorem listRegionsFromEvents_spec {events : List VectorEvent}
    (hread : ∀ e ∈ events, isRegionCreateEvent e = true → ∃ r, regionStateFromEvent e = .ok r)
    (hids : ∀ e ∈ events, ∀ e' ∈ events, isRegionCreateEvent e = true →
      isRegionCreateEvent e' = true → e.entityId = e'.entityId → e = e') :
    ∃ regions, listRegionsFromEvents events = .ok regions ∧
      (regions.map RegionState.regionId).Nodup ∧
      ∀ r, r ∈ regions ↔ ∃ e ∈ events, CreatesRegion e r := by
  obtain ⟨listed, hfold, hlisted⟩ := listed_of_readable hread
  have hperm := List.perm_insertionSort (fun a b => regionSortKey a ≤ regionSortKey b)
    (BTreeMap.values listed)
  have hlist : listRegionsFromEvents events = .ok ((BTreeMap.values listed).insertionSort
      (fun a b => regionSortKey a ≤ regionSortKey b)) := by
    rw [listRegionsFromEvents, Outcome.bind_eq_ok_iff]
    exact ⟨listed, hfold, rfl⟩
  refine ⟨_, hlist, ?_, ?_⟩
  · exact (hperm.map _).nodup_iff.mpr (BTreeMap.nodup_map_values hlisted.keyed)
  · intro r
    rw [hperm.mem_iff, BTreeMap.mem_values]
    constructor
    · rintro ⟨id, hlookup⟩
      exact hlisted.sound id r hlookup
    · rintro ⟨e, he, hcreates⟩
      obtain ⟨r', hlookup⟩ := Option.ne_none_iff_exists'.mp (hlisted.complete e he r hcreates)
      obtain ⟨e', he', hcreates'⟩ := hlisted.sound _ _ hlookup
      have hid : e'.entityId = e.entityId := by
        rw [← hcreates'.regionId, hlisted.keyed _ _ hlookup, hcreates.regionId]
      obtain rfl := hids e' he' e he hcreates'.1 hcreates.1 hid
      exact ⟨r.regionId, hcreates.unique hcreates' ▸ hlookup⟩

/-! ## Ids -/

section

variable {env : Platform}

/-- Equal maps agree entry by entry. -/
theorem entry_of_insertAll_eq {entries entries' : List (String × String)} (key : String)
    {value value' : String} (h : insertAll ∅ entries = insertAll ∅ entries')
    (hnodup : (entries.map Prod.fst).Nodup) (hnodup' : (entries'.map Prod.fst).Nodup)
    (hmem : (key, value) ∈ entries) (hmem' : (key, value') ∈ entries') : value = value' := by
  have hlookup := lookup_insertAll_of_mem (m := ∅) hnodup hmem
  rw [h, lookup_insertAll_of_mem hnodup' hmem'] at hlookup
  exact (Option.some.inj hlookup).symm

/-- Requests with one seed ask for the same name and prefix. -/
theorem seed_names {request request' : RegionCreateRequest} {actor actor' : String}
    (hjson : Function.Injective env.jsonOfMap)
    (h : canonicalRegionSeedBytes env request actor =
      canonicalRegionSeedBytes env request' actor') :
    request.normalizedName = request'.normalizedName ∧
      request.normalizedPrefix = request'.normalizedPrefix := by
  have hmaps := hjson (strBytes_injective h)
  have hname : request.regionName = request'.regionName :=
    entry_of_insertAll_eq "region_name" hmaps (by simp) (by simp) (by simp) (by simp)
  have hprefixed : request.regionPrefix.getD "" = request'.regionPrefix.getD "" :=
    entry_of_insertAll_eq "region_prefix" hmaps (by simp) (by simp) (by simp) (by simp)
  -- No prefix and an empty one come to the same.
  have hempty : ∀ pre : Option String,
      normalizePrefix pre = normalizePrefix (some (pre.getD "")) := by
    intro pre
    cases pre <;> rfl
  constructor
  · rw [RegionCreateRequest.normalizedName, hname, ← RegionCreateRequest.normalizedName]
  · rw [RegionCreateRequest.normalizedPrefix, hempty, hprefixed, ← hempty,
      ← RegionCreateRequest.normalizedPrefix]

/-- An id ends in the first 24 digits of a digest and the sequence number 1. -/
theorem digest_of_regionId (hhex : env.HexDigests) {request request' : RegionCreateRequest}
    {actor actor' : String}
    (h : canonicalRegionId env request actor 1 = canonicalRegionId env request' actor' 1) :
    takeChars 24 (env.blake3Hex (canonicalRegionSeedBytes env request actor)) =
      takeChars 24 (env.blake3Hex (canonicalRegionSeedBytes env request' actor')) := by
  have hlength : ∀ bytes, (takeChars 24 (env.blake3Hex bytes)).toList.length = 24 := by
    intro bytes
    rw [takeChars, String.toList_ofList, List.length_take, (hhex bytes).1]
    rfl
  have hchars := congrArg String.toList h
  simp only [canonicalRegionId, String.toList_append, List.append_cancel_right_eq] at hchars
  have hdigits := (List.append_inj' hchars ((hlength _).trans (hlength _).symm)).2
  exact String.toList_inj.mp hdigits

variable (env)

/-- No two region creations among the calls have different seeds whose digests share their
first 24 digits.  Over all seeds there are, this could not hold. -/
def SeedsSeparate (calls : List TimedCall) : Prop :=
  ∀ c ∈ calls, ∀ c' ∈ calls, ∀ request actor request' actor',
    c.call = .createRegion request actor → c'.call = .createRegion request' actor' →
    takeChars 24 (env.blake3Hex (canonicalRegionSeedBytes env request actor)) =
      takeChars 24 (env.blake3Hex (canonicalRegionSeedBytes env request' actor')) →
    canonicalRegionSeedBytes env request actor = canonicalRegionSeedBytes env request' actor'

variable {env}

theorem SeedsSeparate.of_append {calls calls' : List TimedCall}
    (h : SeedsSeparate env (calls ++ calls')) : SeedsSeparate env calls :=
  fun c hc c' hc' => h c (List.mem_append_left _ hc) c' (List.mem_append_left _ hc')

/-! ## New regions -/

/-- A transition's event creates no region: only creations carry that tag, and a new vector
has no metadata. -/
theorem transitionEvent_not_region {eng : KernelEngine} {before : Option VectorStateV1}
    {after : VectorStateV1} {operation : OperationType} {timestamp : UInt64}
    {parentHashes : List String} {e : VectorEvent}
    (h : transitionEvent env eng before after operation timestamp parentHashes = .ok e)
    (hplain : operation = .originCreate → after.typeMetadata = ∅)
    (hother : operation ≠ .other regionCreateOperationName) : isRegionCreateEvent e = false := by
  obtain ⟨hfields, _⟩ := buildTransitionEvent_fields (transitionEvent_eq_ok_iff.mp h).1
  have hmetadata : e.vectorAfter.metadata = after.typeMetadata := by
    have hafter := hfields.vectorAfter_eq
    simp only [vectorV1ToEventState, Outcome.bind_eq_ok_iff] at hafter
    obtain ⟨_, _, heq⟩ := hafter
    rw [← Except.ok.inj heq]
  by_cases horigin : operation = .originCreate
  · simp [isRegionCreateEvent, hfields.operation_eq, hmetadata, hplain horigin, hother]
  · simp [isRegionCreateEvent, hfields.operation_eq, horigin, hother]

theorem transferEvent_not_region {eng : KernelEngine} {before : Option VectorStateV1}
    {after : VectorStateV1} {timestamp : UInt64} {parentHashes : List String} {e : VectorEvent}
    (h : transitionEvent env eng before after .transfer timestamp parentHashes = .ok e) :
    isRegionCreateEvent e = false := by
  refine transitionEvent_not_region h ?_ ?_ <;> intro hoperation <;> cases hoperation

/-- An event of the engine with one more event is that event or an old one. -/
theorem mem_listEvents_addEvent {eng : KernelEngine} {e e' : VectorEvent}
    (h : e ∈ (eng.addEvent e').store.listEvents) : e = e' ∨ e ∈ eng.store.listEvents := by
  rw [MemoryStore.listEvents, KernelEngine.events_addEvent, BTreeMap.mem_values] at h
  obtain ⟨hash, hlookup⟩ := h
  rw [BTreeMap.lookup_insert] at hlookup
  split at hlookup
  · exact Or.inl (Option.some.inj hlookup).symm
  · exact Or.inr (BTreeMap.mem_values.mpr ⟨hash, hlookup⟩)

theorem operation_of_update {now : ℕ → UInt64} {c : Call} {u : Update}
    (h : c.update? env now = some u) :
    u.operation ≠ .originCreate ∧ ∀ name, u.operation ≠ .other name := by
  cases c <;> first
    | (obtain rfl := Option.some.inj h; exact ⟨nofun, fun _ => nofun⟩)
    | cases h

/-- However a call ends, a region event it adds is the one that `create_region` prepared. -/
theorem CallEnds.newRegion {eng eng' : KernelEngine} {now : ℕ → UInt64} {c : Call}
    {r : Outcome KernelXError Reply} (h : CallEnds env eng now c r eng') {e : VectorEvent}
    (he : e ∈ eng'.store.listEvents) (hregion : isRegionCreateEvent e = true) :
    e ∈ eng.store.listEvents ∨ ∃ request actor, c = .createRegion request actor ∧
      regionEvent env now request actor eng = .ok e := by
  have hplain : ∀ {eng : KernelEngine} {e' : VectorEvent}, isRegionCreateEvent e' = false →
      e ∈ (eng.addEvent e').store.listEvents → e ∈ eng.store.listEvents := by
    intro eng e' hfalse hmem
    refine (mem_listEvents_addEvent hmem).resolve_left (fun heq => ?_)
    rw [heq, hfalse] at hregion
    cases hregion
  cases h with
  | @update c u r eng' hupdate h =>
    obtain ⟨horigin, hother⟩ := operation_of_update hupdate
    cases h with
    | rejected _ => exact Or.inl he
    | unrecorded _ _ _ _ => exact Or.inl he
    | unappended _ _ _ _ _ _ => exact Or.inl (by simpa [MemoryStore.listEvents] using he)
    | done before after r e' hplan hrecord hevent =>
      have hold := hplain (transitionEvent_not_region hevent (fun h => absurd h horigin)
        (hother _)) he
      exact Or.inl (by simpa [MemoryStore.listEvents] using hold)
  | origin h =>
    cases h with
    | rejected _ => exact Or.inl he
    | unappended _ _ _ => exact Or.inl (by simpa [MemoryStore.listEvents] using he)
    | done s e' hplan hevent =>
      have hother : OperationType.originCreate ≠ .other regionCreateOperationName := by
        intro h
        cases h
      have hold := hplain (transitionEvent_not_region hevent
        (fun _ => (originState_ok hplan).typeMetadata) hother) he
      exact Or.inl (by simpa [MemoryStore.listEvents] using hold)
  | transfer h =>
    cases h with
    | rejected _ => exact Or.inl he
    | unrecorded _ _ _ => exact Or.inl (by simpa [MemoryStore.listEvents] using he)
    | unappended _ _ _ _ _ _ => exact Or.inl (by simpa [MemoryStore.listEvents] using he)
    | halfway plan sr rr es hplan hrecords hsender _ =>
      have hold := hplain (transferEvent_not_region hsender) he
      exact Or.inl (by simpa [MemoryStore.listEvents] using hold)
    | done plan sr rr es er hplan hrecords hsender hreceiver =>
      have hold := hplain (transferEvent_not_region hsender)
        (hplain (transferEvent_not_region hreceiver) he)
      exact Or.inl (by simpa [MemoryStore.listEvents] using hold)
  | @region request actor _ _ h =>
    cases h with
    | rejected _ => exact Or.inl he
    | unappended _ _ _ => exact Or.inl he
    | unreadable e' hevent _ _ =>
      rcases mem_listEvents_addEvent he with rfl | hold
      · exact Or.inr ⟨request, actor, rfl, hevent⟩
      · exact Or.inl hold
    | done e' region hevent _ _ =>
      rcases mem_listEvents_addEvent he with rfl | hold
      · exact Or.inr ⟨request, actor, rfl, hevent⟩
      · exact Or.inl hold

/-! ## Named regions -/

/-- What `find_region_by_lookup_key` compares of a region: its prefix and its name, both
normalized. -/
def RegionState.comparedNames (r : RegionState) : Option String × String :=
  (normalizePrefix r.regionPrefix, r.normalizedName)

/-- What it will compare of the region a request creates. -/
def RegionCreateRequest.comparedNames (request : RegionCreateRequest) : Option String × String :=
  (request.normalizedPrefix, request.normalizedName)

theorem RegionOf.comparedNames {request : RegionCreateRequest} {e : VectorEvent} {r : RegionState}
    (h : RegionOf request e r) : r.comparedNames = request.comparedNames := by
  rw [RegionState.comparedNames, RegionCreateRequest.comparedNames, h.normalizedName_eq,
    h.regionPrefix_eq, RegionCreateRequest.normalizedPrefix, normalizePrefix_normalizePrefix]

variable (env)

/-- The event creates the region that one of the calls asked for. -/
structure Requested (calls : List TimedCall) (e : VectorEvent) (request : RegionCreateRequest)
    (actor : String) (r : RegionState) : Prop where
  called : ∃ c ∈ calls, c.call = .createRegion request actor
  creates : CreatesRegion e r
  region : RegionOf request e r
  entityId : e.entityId = canonicalRegionId env request actor 1

/-- The regions of a store: each was asked for, and no two answer to one name. -/
structure RegionsNamed (calls : List TimedCall) (store : MemoryStore) : Prop where
  requested : ∀ e ∈ store.listEvents, isRegionCreateEvent e = true →
    ∃ request actor r, Requested env calls e request actor r
  apart : ∀ e ∈ store.listEvents, ∀ e' ∈ store.listEvents, ∀ r r', CreatesRegion e r →
    CreatesRegion e' r' → r.comparedNames = r'.comparedNames → e = e'

variable {env}

/-- No two regions share an id. -/
theorem RegionsNamed.unique_id {calls : List TimedCall} {store : MemoryStore}
    (h : RegionsNamed env calls store) (hhex : env.HexDigests)
    (hjson : Function.Injective env.jsonOfMap) (hseeds : SeedsSeparate env calls) :
    ∀ e ∈ store.listEvents, ∀ e' ∈ store.listEvents, isRegionCreateEvent e = true →
      isRegionCreateEvent e' = true → e.entityId = e'.entityId → e = e' := by
  intro e he e' he' hregion hregion' hid
  obtain ⟨request, actor, r, ⟨c, hc, hcall⟩, hcreates, hof, hentity⟩ := h.requested e he hregion
  obtain ⟨request', actor', r', ⟨c', hc', hcall'⟩, hcreates', hof', hentity'⟩ :=
    h.requested e' he' hregion'
  rw [hentity, hentity'] at hid
  have hseed := hseeds c hc c' hc' _ _ _ _ hcall hcall' (digest_of_regionId hhex hid)
  obtain ⟨hname, hprefixed⟩ := seed_names hjson hseed
  refine h.apart e he e' he' r r' hcreates hcreates' ?_
  rw [hof.comparedNames, hof'.comparedNames, RegionCreateRequest.comparedNames, hname, hprefixed,
    ← RegionCreateRequest.comparedNames]

/-- The regions a store lists are those its events create, each once. -/
theorem RegionsNamed.queryRegions {calls : List TimedCall} {eng : KernelEngine}
    (h : RegionsNamed env calls eng.store) (hhex : env.HexDigests)
    (hjson : Function.Injective env.jsonOfMap) (hseeds : SeedsSeparate env calls) :
    ∃ regions, eng.queryRegions = .ok regions ∧ (regions.map RegionState.regionId).Nodup ∧
      ∀ r, r ∈ regions ↔ ∃ e ∈ eng.store.listEvents, CreatesRegion e r := by
  have hmem : ∀ {e : VectorEvent}, e ∈ eng.queryEvents ↔ e ∈ eng.store.listEvents :=
    fun {e} => (queryEvents_perm eng).mem_iff
  obtain ⟨regions, hregions, hnodup, hiff⟩ := @listRegionsFromEvents_spec eng.queryEvents
    (fun e he hregion => by
      obtain ⟨_, _, r, hrequested⟩ := h.requested e (hmem.mp he) hregion
      exact ⟨r, hrequested.creates.2⟩)
    (fun e he e' he' => h.unique_id hhex hjson hseeds e (hmem.mp he) e' (hmem.mp he'))
  refine ⟨regions, hregions, hnodup, fun r => (hiff r).trans ?_⟩
  simp only [hmem]

/-! ## Lookups -/

theorem queryRegionByName_eq {eng : KernelEngine} {regions : List RegionState}
    (h : eng.queryRegions = .ok regions) (name : String) (pre : Option String) :
    eng.queryRegionByName name pre = .ok (regions.find? (fun r =>
      r.comparedNames = (normalizePrefix pre, toAsciiLowercase (trim name)))) := by
  rw [KernelEngine.queryRegions] at h
  rw [KernelEngine.queryRegionByName, findRegionByLookupKey, h, Outcome.ok_bind]
  refine congrArg (fun p => Except.ok (regions.find? p)) (funext fun r => ?_)
  rw [Bool.eq_iff_iff, Bool.and_eq_true, decide_eq_true_iff, decide_eq_true_iff,
    decide_eq_true_iff, RegionState.comparedNames, Prod.mk.injEq]
  exact and_comm

/-- The only entry with a property is found by it. -/
theorem find?_eq_some_of_unique {α : Type} {l : List α} {p : α → Bool} {a : α} (hmem : a ∈ l)
    (hp : p a = true) (hunique : ∀ b ∈ l, p b = true → b = a) : l.find? p = some a := by
  cases hfind : l.find? p with
  | none => exact absurd hp (List.find?_eq_none.mp hfind a hmem)
  | some b => rw [hunique b (List.mem_of_find?_eq_some hfind) (List.find?_some hfind)]

/-- A region is only prepared when its name is free. -/
theorem regionEvent_fresh {now : ℕ → UInt64} {request : RegionCreateRequest} {actor : String}
    {eng : KernelEngine} {e : VectorEvent} (h : regionEvent env now request actor eng = .ok e) :
    eng.queryRegionByName request.regionName request.regionPrefix = .ok none := by
  simp only [regionEvent, Outcome.bind_eq_ok_iff, Outcome.require_eq_ok_iff] at h
  obtain ⟨_, _, _, _, existing, hexisting, _, hnone, _⟩ := h
  rw [hexisting, hnone]

/-! ## Runs -/

/-- One call, however it ends, keeps the regions named. -/
theorem RegionsNamed.step {calls : List TimedCall} {eng : KernelEngine} {c : TimedCall}
    (h : RegionsNamed env calls eng.store) (hhex : env.HexDigests)
    (hjson : Function.Injective env.jsonOfMap) (hseeds : SeedsSeparate env calls) :
    RegionsNamed env (calls ++ [c]) (engineStep env eng c).store := by
  have hends : CallEnds env eng c.now c.call _ _ := call_ends eng c.now c.call
  have hcase : ∀ e ∈ (engineStep env eng c).store.listEvents, isRegionCreateEvent e = true →
      e ∈ eng.store.listEvents ∨ ∃ request actor, c.call = .createRegion request actor ∧
        regionEvent env c.now request actor eng = .ok e := fun e he => hends.newRegion he
  -- The new region's names are none of the stored ones'.
  have hfresh : ∀ request actor e, regionEvent env c.now request actor eng = .ok e →
      ∀ r, CreatesRegion e r → ∀ e' ∈ eng.store.listEvents, ∀ r', CreatesRegion e' r' →
        r.comparedNames ≠ r'.comparedNames := by
    intro request actor e hevent r hr e' he' r' hr' hkey
    obtain ⟨regions, hregions, _, hmem⟩ := h.queryRegions hhex hjson hseeds
    obtain ⟨r'', hread, hof⟩ := regionEvent_readable hhex.visible hevent
    obtain rfl := hr.unique ⟨hr.1, hread⟩
    have hnone := regionEvent_fresh hevent
    rw [queryRegionByName_eq hregions, Except.ok.injEq, List.find?_eq_none] at hnone
    have hother := hnone r' ((hmem r').mpr ⟨e', he', hr'⟩)
    rw [← hkey, hof.comparedNames] at hother
    exact hother (decide_eq_true rfl)
  refine ⟨?_, ?_⟩
  · intro e he hregion
    rcases hcase e he hregion with hold | ⟨request, actor, hcall, hevent⟩
    · obtain ⟨request, actor, r, ⟨c', hc', hcall⟩, hcreates, hof, hentity⟩ :=
        h.requested e hold hregion
      exact ⟨request, actor, r, ⟨c', List.mem_append_left _ hc', hcall⟩, hcreates, hof, hentity⟩
    · obtain ⟨r, hread, hof⟩ := regionEvent_readable hhex.visible hevent
      exact ⟨request, actor, r, ⟨c, by simp, hcall⟩, ⟨hregion, hread⟩, hof,
        (buildRegionGenesisEvent_fields (regionEvent_built hevent)).entityId_eq⟩
  · intro e he e' he' r r' hr hr' hkey
    rcases hcase e he hr.1 with hold | ⟨request, actor, hcall, hevent⟩ <;>
      rcases hcase e' he' hr'.1 with hold' | ⟨request', actor', hcall', hevent'⟩
    · exact h.apart e hold e' hold' r r' hr hr' hkey
    · exact absurd hkey.symm (hfresh request' actor' e' hevent' r' hr' e hold r hr)
    · exact absurd hkey (hfresh request actor e hevent r hr e' hold' r' hr')
    · obtain ⟨rfl, rfl⟩ := Call.createRegion.inj (hcall.symm.trans hcall')
      exact Except.ok.inj (hevent.symm.trans hevent')

theorem regionsNamed_run (hhex : env.HexDigests) (hjson : Function.Injective env.jsonOfMap)
    (policy : ConsensusPolicy) {calls : List TimedCall} (hseeds : SeedsSeparate env calls) :
    RegionsNamed env calls (engineRun env policy calls).store := by
  induction calls using List.reverseRecOn with
  | nil =>
    have hempty : (engineRun env policy []).store.listEvents = [] := rfl
    refine ⟨fun e he => ?_, fun e he => ?_⟩ <;>
    · rw [hempty] at he
      cases he
  | append_singleton calls c ih =>
    rw [engineRun, runFrom_snoc]
    exact (ih hseeds.of_append).step hhex hjson hseeds.of_append

/-- Whatever calls follow, they write. -/
theorem engineWrites_run (env : Platform) (eng : KernelEngine) (calls : List TimedCall) :
    EngineWrites env eng (runFrom (engineStep env) eng calls) := by
  induction calls using List.reverseRecOn with
  | nil => exact .refl
  | append_singleton calls c ih =>
    rw [runFrom_snoc]
    exact ih.trans (call_ends _ c.now c.call).writes

/-- Every spelling of the region's name leads to the region, and so does its id. -/
structure Resolves (eng : KernelEngine) (r : RegionState) : Prop where
  by_name : ∀ name pre, Variant r.regionName name → PrefixVariant r.regionPrefix pre →
    eng.queryRegionByName name pre = .ok (some r) ∧
      eng.resolveRegionId name pre = .ok (some r.regionId) ∧
      eng.regionExists name pre = .ok true
  by_id : eng.queryRegion r.regionId = .ok (some r)

/-- A stored region resolves. -/
theorem RegionsNamed.resolves {calls : List TimedCall} {eng : KernelEngine}
    (h : RegionsNamed env calls eng.store) (hhex : env.HexDigests)
    (hjson : Function.Injective env.jsonOfMap) (hseeds : SeedsSeparate env calls)
    {e : VectorEvent} (he : e ∈ eng.store.listEvents) {r : RegionState}
    (hr : CreatesRegion e r) : Resolves eng r := by
  obtain ⟨regions, hregions, hnodup, hmem⟩ := h.queryRegions hhex hjson hseeds
  have hlisted : r ∈ regions := (hmem r).mpr ⟨e, he, hr⟩
  refine ⟨?_, ?_⟩
  · intro name pre hname hpre
    obtain ⟨_, _, r', hrequested⟩ := h.requested e he hr.1
    obtain rfl := hr.unique hrequested.creates
    have hkey : r.comparedNames = (normalizePrefix pre, toAsciiLowercase (trim name)) := by
      rw [hpre.normalizePrefix_eq, hname.lowercase, RegionState.comparedNames,
        hrequested.region.normalizedName_eq, hrequested.region.regionName_eq]
      rfl
    have hfound : eng.queryRegionByName name pre = .ok (some r) := by
      rw [queryRegionByName_eq hregions]
      refine congrArg Except.ok (find?_eq_some_of_unique hlisted (decide_eq_true hkey) ?_)
      intro r' hr' hkey'
      obtain ⟨e', he', hcreates'⟩ := (hmem r').mp hr'
      obtain rfl := h.apart e' he' e he r' r hcreates' hr
        ((of_decide_eq_true hkey').trans hkey.symm)
      exact hcreates'.unique hr
    refine ⟨hfound, ?_, ?_⟩
    · rw [KernelEngine.resolveRegionId, hfound]
      rfl
    · rw [KernelEngine.regionExists, hfound]
      rfl
  · rw [KernelEngine.queryRegion, hregions, Outcome.ok_bind]
    refine congrArg Except.ok (find?_eq_some_of_unique hlisted (decide_eq_true rfl) ?_)
    intro r' hr' hid
    exact List.inj_on_of_nodup_map hnodup hr' hlisted (of_decide_eq_true hid)

/-- In every reachable engine no two regions share their normalized prefix and name; and a
region that `create_region` returned resolves, under every spelling, in every later one. -/
theorem region_names_stable (hhex : env.HexDigests) (hjson : Function.Injective env.jsonOfMap)
    (policy : ConsensusPolicy) {calls : List TimedCall} (hseeds : SeedsSeparate env calls) :
    (∃ regions, (engineRun env policy calls).queryRegions = .ok regions ∧
        (regions.map RegionState.comparedNames).Nodup) ∧
      ∀ before c after request actor r, calls = before ++ c :: after →
        c.call = .createRegion request actor →
        ((engineRun env policy before).call env c.now c.call).1 = .ok (.region r) →
        Resolves (engineRun env policy calls) r := by
  have hnamed := regionsNamed_run hhex hjson policy hseeds
  constructor
  · obtain ⟨regions, hregions, hnodup, hmem⟩ := hnamed.queryRegions hhex hjson hseeds
    refine ⟨regions, hregions, hnodup.of_map.map_on ?_⟩
    intro r hr r' hr' hkey
    obtain ⟨e, he, hcreates⟩ := (hmem r).mp hr
    obtain ⟨e', he', hcreates'⟩ := (hmem r').mp hr'
    obtain rfl := hnamed.apart e he e' he' r r' hcreates hcreates' hkey
    exact hcreates.unique hcreates'
  · rintro before c after request actor r rfl hcall hok
    -- The call stored the region's event, and no later call removes it.
    rw [hcall] at hok
    obtain ⟨e, region, hevent, hadmits, hread, heq⟩ := region_of_ok ⟨_, hok⟩
    rw [heq] at hok
    obtain rfl := Reply.region.inj (Except.ok.inj hok)
    have hstored : (engineStep env (engineRun env policy before) c).store.events[e.eventHash]? =
        some e := by
      rw [engineStep, hcall, heq, KernelEngine.lookup_addEvent]
    have hkept := (engineWrites_run env _ after).events_kept _ _ hstored
    have hrun : engineRun env policy (before ++ c :: after) =
        runFrom (engineStep env) (engineStep env (engineRun env policy before) c) after := by
      rw [engineRun, runFrom_append]
      rfl
    rw [hrun] at hnamed ⊢
    have hregion : isRegionCreateEvent e = true := by
      rw [isRegionCreateEvent,
        buildRegionGenesisEvent_operation (regionEvent_built hevent)]
      rfl
    exact hnamed.resolves hhex hjson hseeds (BTreeMap.mem_values.mpr ⟨_, hkept⟩) ⟨hregion, hread⟩

end

/-! ## A run -/

/-- A request for a public region. -/
def sampleRequest (name : String) (pre : Option String) : RegionCreateRequest where
  regionName := name
  regionPrefix := pre
  suggestedTitle := none
  visibility := .public_
  section_ := 1
  triggerEventHash := "t"
  creationProof := "p"
  accessKey := none
  metadata := ∅
  requestSignature := "00"

/-- A key of 32 zero bytes. -/
def sampleKey : String := String.ofList (List.replicate 64 '0')

/-- A region, the same request once more, and a vector. -/
def namedRegion : List TimedCall :=
  [callAt 1 (.createRegion (sampleRequest " Main " (some "eu")) sampleKey),
    callAt 2 (.createRegion (sampleRequest " Main " (some "eu")) sampleKey),
    callAt 3 (.originCreate (sampleOrigin "a" [5]))]

theorem namedRegion_seeds : SeedsSeparate hexPlatform namedRegion := by
  have hrequests : ∀ c ∈ namedRegion, ∀ request actor, c.call = .createRegion request actor →
      request = sampleRequest " Main " (some "eu") ∧ actor = sampleKey := by
    intro c hc request actor hcall
    simp only [namedRegion, List.mem_cons, List.not_mem_nil, or_false] at hc
    rcases hc with rfl | rfl | rfl
    · obtain ⟨hrequest, hactor⟩ := Call.createRegion.inj hcall
      exact ⟨hrequest.symm, hactor.symm⟩
    · obtain ⟨hrequest, hactor⟩ := Call.createRegion.inj hcall
      exact ⟨hrequest.symm, hactor.symm⟩
    · exact nomatch hcall
  intro c hc c' hc' request actor request' actor' hcall hcall' _
  obtain ⟨rfl, rfl⟩ := hrequests c hc _ _ hcall
  obtain ⟨rfl, rfl⟩ := hrequests c' hc' _ _ hcall'
  rfl

theorem region_names_stable_main :
    ∃ r, (engineRun hexPlatform ConsensusPolicy.default namedRegion).queryRegionByName
        "MAIN " (some " Eu") = .ok (some r) ∧ r.regionName = " Main " := by
  have hcreated : ((KernelEngine.initial ConsensusPolicy.default).call hexPlatform (fun _ => 1)
      (.createRegion (sampleRequest " Main " (some "eu")) sampleKey)).1.IsOk := by decide +kernel
  obtain ⟨e, r, hevent, _, hread, heq⟩ := region_of_ok hcreated
  obtain ⟨r', hread', hof⟩ := regionEvent_readable hexPlatform_hexDigests.visible hevent
  obtain rfl := Except.ok.inj (hread.symm.trans hread')
  have hstable := (region_names_stable hexPlatform_hexDigests jsonObject_injective
    ConsensusPolicy.default namedRegion_seeds).2 [] _ _ _ _ r rfl rfl (congrArg Prod.fst heq)
  have hprefixed : r.regionPrefix = some "EU" := by
    rw [hof.regionPrefix_eq]
    decide +kernel
  have hempty := isBlank_iff.mp (by decide : isBlank "" = true)
  have hspace := isBlank_iff.mp (by decide +kernel : isBlank " " = true)
  have hname : Variant r.regionName "MAIN " := by
    rw [hof.regionName_eq]
    have htrimmed : Variant " Main " "Main" := .unpad (t := "Main") .refl hspace hspace
    have hupper : Variant " Main " "MAIN" := htrimmed.recase (by decide +kernel)
    exact .pad hupper hempty hspace
  have hpre : PrefixVariant r.regionPrefix (some " Eu") := by
    rw [hprefixed]
    have hcase : Variant "EU" "Eu" := Variant.refl.recase (by decide +kernel)
    exact .some (.pad hcase hspace hempty)
  exact ⟨r, (hstable.by_name _ _ hname hpre).1, hof.regionName_eq⟩

end VKernelX
