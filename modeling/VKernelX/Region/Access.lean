/-
  Region/Access.lean --- who is let into a region, over whole runs.

  The access rule of a region is read from its genesis event each time it is asked for.  That
  event stays as it was appended, so a region lets in for good whom its creation let in; and
  an id that no creation returned is not found.
-/
import VKernelX.Region.Names
import VKernelX.Region.RoundTrip

set_option autoImplicit false

namespace VKernelX

variable {env : Platform} {policy : ConsensusPolicy} {calls : List TimedCall}

/-! ## Created regions -/

/-- A call of the run created the region. -/
def CreatedIn (env : Platform) (policy : ConsensusPolicy) (calls : List TimedCall)
    (request : RegionCreateRequest) (r : RegionState) : Prop :=
  ∃ before c after actor, calls = before ++ c :: after ∧
    c.call = .createRegion request actor ∧
    ((engineRun env policy before).call env c.now c.call).1 = .ok (.region r)

theorem CreatedIn.snoc {request : RegionCreateRequest} {r : RegionState}
    (h : CreatedIn env policy calls request r) (c : TimedCall) :
    CreatedIn env policy (calls ++ [c]) request r := by
  obtain ⟨before, c', after, actor, rfl, hcall, hok⟩ := h
  exact ⟨before, c', after ++ [c], actor, by simp, hcall, hok⟩

/-- The event behind a creation is still stored, and still reads as the region. -/
theorem CreatedIn.stored {request : RegionCreateRequest} {r : RegionState}
    (h : CreatedIn env policy calls request r) :
    ∃ e ∈ (engineRun env policy calls).store.listEvents, CreatesRegion e r ∧
      ∃ eng now actor, regionEvent env now request actor eng = .ok e := by
  obtain ⟨before, c, after, actor, rfl, hcall, hok⟩ := h
  rw [hcall] at hok
  obtain ⟨e, region, hevent, _, hread, heq⟩ := region_of_ok ⟨_, hok⟩
  rw [heq] at hok
  obtain rfl := Reply.region.inj (Except.ok.inj hok)
  have hstored : (engineStep env (engineRun env policy before) c).store.events[e.eventHash]? =
      some e := by
    rw [engineStep, hcall, heq, KernelEngine.lookup_addEvent]
  have hkept := (engineWrites_run env _ after).events_kept _ _ hstored
  have hrun : engineRun env policy (before ++ c :: after) =
      runFrom (engineStep env) (engineStep env (engineRun env policy before) c) after := by
    rw [engineRun, runFrom_append]
    rfl
  have hregion : isRegionCreateEvent e = true := by
    rw [isRegionCreateEvent, buildRegionGenesisEvent_operation (regionEvent_built hevent)]
    rfl
  rw [hrun]
  exact ⟨e, BTreeMap.mem_values.mpr ⟨_, hkept⟩, ⟨hregion, hread⟩, _, c.now, actor, hevent⟩

/-- Every stored region event comes from a call that returned its region. -/
theorem createdIn_of_stored (hdigest : env.DigestsVisible) {e : VectorEvent} {r : RegionState}
    (he : e ∈ (engineRun env policy calls).store.listEvents) (hr : CreatesRegion e r) :
    ∃ request, CreatedIn env policy calls request r := by
  induction calls using List.reverseRecOn with
  | nil =>
    have hempty : (engineRun env policy []).store.listEvents = [] := rfl
    rw [hempty] at he
    cases he
  | append_singleton calls c ih =>
    by_cases hold : e ∈ (engineRun env policy calls).store.listEvents
    · obtain ⟨request, hcreated⟩ := ih hold
      exact ⟨request, hcreated.snoc c⟩
    rw [engineRun, runFrom_snoc] at he
    obtain ⟨request, actor, hcall, hevent⟩ :=
      ((call_ends (engineRun env policy calls) c.now c.call).newRegion he hr.1).resolve_left hold
    refine ⟨request, calls, c, [], actor, rfl, hcall, ?_⟩
    rw [engineStep] at he
    obtain ⟨result, eng', h, hrun⟩ :=
      call_createRegion_ends (engineRun env policy calls) c.now request actor
    rw [hcall, hrun] at he
    rw [hcall, hrun]
    cases h with
    | rejected _ => exact absurd he hold
    | unappended _ _ _ => exact absurd he hold
    | unreadable e' hevent' _ hread =>
      obtain ⟨region, hreadable, _⟩ := regionEvent_readable hdigest hevent'
      rw [hreadable] at hread
      cases hread
    | done e' region hevent' _ hread =>
      obtain rfl := Except.ok.inj (hevent'.symm.trans hevent)
      obtain rfl := Except.ok.inj (hread.symm.trans hr.2)
      rfl

/-! ## The access rule -/

/-- A request lets everyone into a public region, and whoever has a key with the hash of its
own key into a private one. -/
def RegionCreateRequest.LetsIn (env : Platform) (request : RegionCreateRequest)
    (accessKey : Option String) : Prop :=
  request.visibility = .public_ ∨ ∃ provided key, accessKey = some provided ∧
    request.accessKey = some key ∧ hashHex env provided = hashHex env key

theorem accessKeyHash_of_genesis (hdigest : env.DigestsVisible) {request : RegionCreateRequest}
    {actor : String} {clock timestamp sequence : UInt64} {e : VectorEvent} {r : RegionState}
    (h : buildRegionGenesisEvent env request actor clock timestamp sequence = .ok e)
    (hread : regionStateFromEvent e = .ok r) :
    r.accessKeyHash = request.accessKey.map (hashHex env) := by
  have hentry : e.vectorAfter.metadata["access_key_hash"]? =
      some ((request.accessKey.map (hashHex env)).getD "") := by
    rw [(buildRegionGenesisEvent_fields h).metadata_eq]
    exact lookup_genesisMetadata env (by simp [regionGenesisMetadata]) (by decide)
  rw [(regionStateFromEvent_entries hread).2.2.1, optionalEntry_of_getD hentry]
  cases request.accessKey with
  | none => rfl
  | some key =>
    rw [Option.map_some, Option.filter_some,
      if_pos (decide_eq_true (show isBlank (hashHex env key) = false from hdigest _))]

/-- A region that reads as what was asked for lets in whom the request lets in. -/
theorem authorizeRegionAccess_iff_letsIn {request : RegionCreateRequest} {r : RegionState}
    (hvisibility : r.visibility = request.visibility)
    (hhash : r.accessKeyHash = request.accessKey.map (hashHex env)) (accessKey : Option String) :
    authorizeRegionAccess env r accessKey = true ↔ request.LetsIn env accessKey := by
  unfold authorizeRegionAccess RegionCreateRequest.LetsIn
  rw [hvisibility]
  cases request.visibility with
  | public_ => simp
  | private_ =>
    rw [hhash]
    cases request.accessKey with
    | none => simp
    | some key =>
      cases accessKey with
      | none => simp
      | some provided => simp

/-- In every run, a region that a call created lets in, by its id, exactly whom the request of
that call lets in; and an id that no call returned is not found. -/
theorem region_access_exact (hhex : env.HexDigests) (hjson : Function.Injective env.jsonOfMap)
    (policy : ConsensusPolicy) {calls : List TimedCall} (hseeds : SeedsSeparate env calls)
    (accessKey : Option String) :
    (∀ request r, CreatedIn env policy calls request r →
      ∃ granted, (engineRun env policy calls).authorizeRegion env r.regionId accessKey =
          .ok granted ∧ (granted = true ↔ request.LetsIn env accessKey)) ∧
      ∀ regionId, (∀ request r, CreatedIn env policy calls request r → r.regionId ≠ regionId) →
        (engineRun env policy calls).authorizeRegion env regionId accessKey =
          .error (.err (.invalidState "region not found")) := by
  have hnamed := regionsNamed_run hhex hjson policy hseeds
  constructor
  · intro request r hcreated
    obtain ⟨e, he, hr, eng, now, actor, hevent⟩ := hcreated.stored
    have hfound := (hnamed.resolves hhex hjson hseeds he hr).by_id
    obtain ⟨region, hread, hof⟩ := regionEvent_readable hhex.visible hevent
    obtain rfl := Except.ok.inj (hread.symm.trans hr.2)
    refine ⟨authorizeRegionAccess env region accessKey, ?_, ?_⟩
    · rw [KernelEngine.authorizeRegion, hfound]
      rfl
    · exact authorizeRegionAccess_iff_letsIn hof.visibility_eq
        (accessKeyHash_of_genesis hhex.visible (regionEvent_built hevent) hread) accessKey
  · intro regionId hunknown
    obtain ⟨regions, hregions, _, hmem⟩ := hnamed.queryRegions hhex hjson hseeds
    have hnone : regions.find? (fun region => region.regionId = regionId) = none := by
      refine List.find?_eq_none.mpr (fun r hr hid => ?_)
      obtain ⟨e, he, hcreates⟩ := (hmem r).mp hr
      obtain ⟨request, hcreated⟩ := createdIn_of_stored hhex.visible he hcreates
      exact hunknown request r hcreated (of_decide_eq_true hid)
    rw [KernelEngine.authorizeRegion, KernelEngine.queryRegion, hregions, Outcome.ok_bind, hnone]
    rfl

/-! ## A private region -/

/-- A private region and nothing else. -/
def privateRegion : List TimedCall := [callAt 1 (.createRegion privateRequest sampleKey)]

theorem privateRegion_seeds : SeedsSeparate hexPlatform privateRegion := by
  intro c hc c' hc' request actor request' actor' hcall hcall' _
  obtain rfl := List.mem_singleton.mp hc
  obtain rfl := List.mem_singleton.mp hc'
  obtain ⟨rfl, rfl⟩ := Call.createRegion.inj hcall
  obtain ⟨rfl, rfl⟩ := Call.createRegion.inj hcall'
  rfl

/-- It lets in who has the key, and neither who has none nor who has another. -/
theorem region_access_exact_private :
    ∃ r : RegionState,
      (engineRun hexPlatform .default privateRegion).authorizeRegion hexPlatform r.regionId
          (some "secret") = .ok true ∧
        (engineRun hexPlatform .default privateRegion).authorizeRegion hexPlatform r.regionId
          none = .ok false ∧
        (engineRun hexPlatform .default privateRegion).authorizeRegion hexPlatform r.regionId
          (some "guess") = .ok false := by
  have hcreated : ((KernelEngine.initial .default).call hexPlatform (fun _ => 1)
      (.createRegion privateRequest sampleKey)).1.IsOk := by decide +kernel
  obtain ⟨e, r, _, _, _, heq⟩ := region_of_ok hcreated
  have hin : CreatedIn hexPlatform .default privateRegion privateRequest r :=
    ⟨[], _, [], sampleKey, rfl, rfl, congrArg Prod.fst heq⟩
  have hexact := fun accessKey => (region_access_exact hexPlatform_hexDigests
    jsonObject_injective .default privateRegion_seeds accessKey).1 _ r hin
  have hdenied : ∀ accessKey, ¬ privateRequest.LetsIn hexPlatform accessKey →
      (engineRun hexPlatform .default privateRegion).authorizeRegion hexPlatform r.regionId
        accessKey = .ok false := by
    intro accessKey hnot
    obtain ⟨granted, heq, hgranted⟩ := hexact accessKey
    rw [heq, Bool.eq_false_iff.mpr (mt hgranted.mp hnot)]
  refine ⟨r, ?_, hdenied none ?_, hdenied (some "guess") ?_⟩
  · obtain ⟨granted, heq, hgranted⟩ := hexact (some "secret")
    rw [heq, hgranted.mpr (Or.inr ⟨"secret", "secret", rfl, rfl, rfl⟩)]
  · rintro (hpublic | ⟨_, _, hkey, _⟩)
    · cases hpublic
    · cases hkey
  · rintro (hpublic | ⟨provided, key, hprovided, hkey, hhash⟩)
    · cases hpublic
    · obtain rfl := Option.some.inj hprovided
      obtain rfl := Option.some.inj hkey
      exact absurd hhash (by decide +kernel)

end VKernelX
