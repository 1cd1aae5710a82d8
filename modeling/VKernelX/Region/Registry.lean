/-
  Region/Registry.lean --- the region registry does not depend on how it is built.

  Registering two regions in either order gives one registry, so the fold over a history in
  list order and the fold inside replay agree; and a registry carries totals that are
  determined by its regions, which are those the listing finds.
-/
import VKernelX.Replay.Progress

set_option autoImplicit false

namespace VKernelX

/-! ## One region -/

/-- The registry with one more region. -/
def CoreState.withRegion (env : Platform) (core : CoreState) (region : RegionState) : CoreState :=
  let regions := core.regions.insert region.regionId region
  let total := core.totalAuthRatioBps + region.authRatioBps
  let version := core.version + 1
  { regions := regions
    totalAuthRatioBps := total
    coreRoot := canonicalCoreRoot env regions total version
    version := version }

theorem u64CheckedAdd_eq_some_iff {a b c : UInt64} :
    u64CheckedAdd a b = some c ↔ a.toNat + b.toNat < 2 ^ 64 ∧ c = a + b := by
  unfold u64CheckedAdd
  split
  · rename_i h
    simp only [h, Option.some.injEq, true_and]
    exact eq_comm
  · rename_i h
    simp only [h, reduceCtorEq, false_and]

/-- What `insert_region` asks of a registry. -/
structure Registrable (core : CoreState) (region : RegionState) : Prop where
  fresh : core.regions[region.regionId]? = none
  total : core.totalAuthRatioBps.toNat + region.authRatioBps.toNat < 2 ^ 64
  version : core.version.toNat + 1 < 2 ^ 64

theorem insertRegion_eq_ok_iff {env : Platform} {core core' : CoreState} {region : RegionState} :
    core.insertRegion env region = .ok core' ↔
      Registrable core region ∧ core' = core.withRegion env region := by
  simp only [CoreState.insertRegion, Outcome.bind_eq_ok_iff, Outcome.require_eq_ok_iff,
    Outcome.okOr_eq_ok_iff, u64CheckedAdd_eq_some_iff]
  constructor
  · rintro ⟨_, hfresh, _, ⟨htotal, rfl⟩, _, ⟨hversion, rfl⟩, heq⟩
    exact ⟨⟨hfresh, htotal, hversion⟩, (Except.ok.inj heq).symm⟩
  · rintro ⟨⟨hfresh, htotal, hversion⟩, rfl⟩
    exact ⟨(), hfresh, _, ⟨htotal, rfl⟩, _, ⟨hversion, rfl⟩, rfl⟩

/-- Two regions can be registered in either order. -/
theorem insertRegion_swap {env : Platform} {core mid core' : CoreState}
    {region region' : RegionState} (hfirst : core.insertRegion env region = .ok mid)
    (hsecond : mid.insertRegion env region' = .ok core') :
    ∃ mid', core.insertRegion env region' = .ok mid' ∧
      mid'.insertRegion env region = .ok core' := by
  obtain ⟨⟨hfresh, htotal, hversion⟩, rfl⟩ := insertRegion_eq_ok_iff.mp hfirst
  obtain ⟨⟨hfresh', htotal', hversion'⟩, rfl⟩ := insertRegion_eq_ok_iff.mp hsecond
  simp only [CoreState.withRegion, BTreeMap.lookup_insert] at hfresh'
  have hne : region.regionId ≠ region'.regionId := by
    intro heq
    rw [if_pos heq] at hfresh'
    cases hfresh'
  rw [if_neg hne] at hfresh'
  simp only [CoreState.withRegion, UInt64.toNat_add, Nat.mod_eq_of_lt htotal] at htotal'
  refine ⟨core.withRegion env region', insertRegion_eq_ok_iff.mpr
    ⟨⟨hfresh', by omega, hversion⟩, rfl⟩, insertRegion_eq_ok_iff.mpr ⟨⟨?_, ?_, hversion'⟩, ?_⟩⟩
  · simp only [CoreState.withRegion, BTreeMap.lookup_insert_of_ne _ _ (Ne.symm hne), hfresh]
  · simp only [CoreState.withRegion, UInt64.toNat_add]
    rw [Nat.mod_eq_of_lt (by omega)]
    omega
  · have hregions : (core.regions.insert region.regionId region).insert region'.regionId region' =
        (core.regions.insert region'.regionId region').insert region.regionId region := by
      apply Std.ExtTreeMap.ext_getElem?
      intro id
      simp only [BTreeMap.lookup_insert]
      by_cases h : region.regionId = id
      · simp [h, show region'.regionId ≠ id from fun h' => hne (h.trans h'.symm)]
      · simp [h]
    have htotals : core.totalAuthRatioBps + region.authRatioBps + region'.authRatioBps =
        core.totalAuthRatioBps + region'.authRatioBps + region.authRatioBps := by
      rw [UInt64.add_assoc, UInt64.add_comm region.authRatioBps, ← UInt64.add_assoc]
    simp only [CoreState.withRegion, hregions, htotals]

/-! ## Histories -/

/-- What registering an event means: a region creation is read and inserted. -/
theorem registerEvent_eq_ok_iff {env : Platform} {core core' : CoreState} {e : VectorEvent} :
    registerEvent env core e = .ok core' ↔
      (isRegionCreateEvent e = false ∧ core' = core) ∨
      (isRegionCreateEvent e = true ∧ ∃ region, regionStateFromEvent e = .ok region ∧
        core.insertRegion env region = .ok core') := by
  rw [registerEvent]
  split
  · rename_i h
    simp only [applyRegionEvent, Outcome.bind_eq_ok_iff, h, Bool.true_eq_false, false_and,
      false_or, true_and]
  · rename_i h
    rw [Bool.not_eq_true] at h
    simp only [h, Bool.false_eq_true, false_and, or_false, true_and]
    exact ⟨fun heq => (Except.ok.inj heq).symm, fun heq => by rw [heq]⟩

theorem registerEvent_swap (env : Platform) (core : CoreState) (e e' : VectorEvent)
    (core' : CoreState)
    (h : (registerEvent env core e >>= fun mid => registerEvent env mid e') = .ok core') :
    (registerEvent env core e' >>= fun mid => registerEvent env mid e) = .ok core' := by
  simp only [Outcome.bind_eq_ok_iff, registerEvent_eq_ok_iff] at h ⊢
  obtain ⟨mid, hfirst, hsecond⟩ := h
  rcases hfirst with ⟨hplain, rfl⟩ | ⟨hregion, region, hread, hinsert⟩
  · exact ⟨core', hsecond, Or.inl ⟨hplain, rfl⟩⟩
  · rcases hsecond with ⟨hplain', rfl⟩ | ⟨hregion', region', hread', hinsert'⟩
    · exact ⟨core, Or.inl ⟨hplain', rfl⟩, Or.inr ⟨hregion, region, hread, hinsert⟩⟩
    · obtain ⟨mid', hfirst', hsecond'⟩ := insertRegion_swap hinsert hinsert'
      exact ⟨mid', Or.inr ⟨hregion', region', hread', hfirst'⟩,
        Or.inr ⟨hregion, region, hread, hsecond'⟩⟩

/-- The registry of a history is that of any reordering of it. -/
theorem coreStateFromEvents_perm {env : Platform} {events events' : List VectorEvent}
    (hperm : events.Perm events') {core : CoreState}
    (h : coreStateFromEvents env events = .ok core) : coreStateFromEvents env events' = .ok core :=
  Outcome.foldlM_perm (registerEvent_swap env) hperm h

/-! ## What a registry holds -/

/-- The totals of a registry are those of its regions, and each region stands under its id. -/
structure Tallied (env : Platform) (core : CoreState) : Prop where
  keyed : ∀ (id : String) (region : RegionState), core.regions[id]? = some region →
    region.regionId = id
  total : core.totalAuthRatioBps.toNat =
    ((BTreeMap.values core.regions).map (fun region => region.authRatioBps.toNat)).sum
  version : core.version.toNat = core.regions.size
  root : core.coreRoot =
    canonicalCoreRoot env core.regions core.totalAuthRatioBps core.version

theorem tallied_new (env : Platform) : Tallied env (CoreState.new env) where
  keyed := by
    intro id region h
    simp [CoreState.new] at h
  total := by simp [CoreState.new]
  version := by simp [CoreState.new]
  root := rfl

theorem Tallied.insertRegion {env : Platform} {core core' : CoreState} {region : RegionState}
    (h : Tallied env core) (hinsert : core.insertRegion env region = .ok core') :
    Tallied env core' := by
  obtain ⟨⟨hfresh, htotal, hversion⟩, rfl⟩ := insertRegion_eq_ok_iff.mp hinsert
  refine ⟨?_, ?_, ?_, rfl⟩
  · intro id region' hlookup
    simp only [CoreState.withRegion, BTreeMap.lookup_insert] at hlookup
    split at hlookup
    · rename_i hid
      rw [← Option.some.inj hlookup, hid]
    · exact h.keyed id region' hlookup
  · have hvalues := BTreeMap.values_insert_perm_of_none region hfresh
    simp only [CoreState.withRegion, UInt64.toNat_add]
    rw [Nat.mod_eq_of_lt htotal, (hvalues.map _).sum_eq, List.map_cons, List.sum_cons, h.total]
    omega
  · simp only [CoreState.withRegion]
    rw [toNat_succ hversion, BTreeMap.size_insert_eq_succ_iff.mpr hfresh, h.version]

theorem tallied_of_ok {env : Platform} {events : List VectorEvent} {core : CoreState}
    (h : coreStateFromEvents env events = .ok core) : Tallied env core := by
  induction events using List.reverseRecOn generalizing core with
  | nil => exact Except.ok.inj h ▸ tallied_new env
  | append_singleton events e ih =>
    rw [coreStateFromEvents, List.foldlM_append, Outcome.bind_eq_ok_iff] at h
    obtain ⟨mid, hmid, hlast⟩ := h
    simp only [List.foldlM_cons, List.foldlM_nil, bind_pure, registerEvent_eq_ok_iff] at hlast
    rcases hlast with ⟨_, rfl⟩ | ⟨_, region, _, hinsert⟩
    · exact ih hmid
    · exact (ih hmid).insertRegion hinsert

/-- The listing of a history finds the regions of its registry. -/
theorem listRegionsFromEvents_of_ok {env : Platform} {events : List VectorEvent}
    {core : CoreState} (h : coreStateFromEvents env events = .ok core) :
    ∃ regions, listRegionsFromEvents events = .ok regions ∧
      (BTreeMap.values core.regions).Perm regions := by
  -- The listing inserts the same regions into a map of its own.
  have hfold : ∀ (events : List VectorEvent) (core core' : CoreState),
      events.foldlM (registerEvent env) core = .ok core' →
      events.foldlM (fun regions e => do
        if isRegionCreateEvent e then
          let region ← regionStateFromEvent e
          return regions.insert region.regionId region
        else return regions) core.regions = .ok core'.regions := by
    intro events
    induction events with
    | nil =>
      intro core core' h
      rw [Except.ok.inj h]
      rfl
    | cons e events ih =>
      intro core core' h
      rw [List.foldlM_cons, Outcome.bind_eq_ok_iff] at h
      obtain ⟨mid, hfirst, hrest⟩ := h
      rw [List.foldlM_cons, Outcome.bind_eq_ok_iff]
      refine ⟨mid.regions, ?_, ih mid core' hrest⟩
      rcases registerEvent_eq_ok_iff.mp hfirst with
        ⟨hplain, rfl⟩ | ⟨hregion, region, hread, hinsert⟩
      · simp only [hplain, Bool.false_eq_true, if_false]
        rfl
      · obtain ⟨_, rfl⟩ := insertRegion_eq_ok_iff.mp hinsert
        simp only [hregion, if_true, hread, Outcome.ok_bind]
        rfl
  refine ⟨_, ?_, (List.perm_insertionSort (fun a b => regionSortKey a ≤ regionSortKey b)
    (BTreeMap.values core.regions)).symm⟩
  rw [listRegionsFromEvents, Outcome.bind_eq_ok_iff]
  exact ⟨core.regions, hfold events (CoreState.new env) core h, rfl⟩

/-- The registry that replay returns is the one the history gives in any order; it holds the
listed regions under their ids, and its totals are theirs. -/
theorem replayed_registry (env : Platform) {events : List VectorEvent} {result : ReplayResult}
    (h : replayEvents env events = .ok result) :
    (∀ events', events'.Perm events → coreStateFromEvents env events' = .ok result.coreState) ∧
      (∃ regions, listRegionsFromEvents events = .ok regions ∧
        (BTreeMap.values result.coreState.regions).Perm regions ∧
        result.coreState.totalAuthRatioBps.toNat =
          (regions.map (fun region => region.authRatioBps.toNat)).sum ∧
        result.coreState.version.toNat = regions.length) ∧
      (∀ (id : String) (region : RegionState),
        result.coreState.regions[id]? = some region → region.regionId = id) ∧
      result.coreState.coreRoot = canonicalCoreRoot env result.coreState.regions
        result.coreState.totalAuthRatioBps result.coreState.version := by
  obtain ⟨hwf, hordered, _, core, hcore, rfl⟩ := replayEvents_eq_ok_iff_accepted.mp h
  have hevents : coreStateFromEvents env events = .ok core :=
    coreStateFromEvents_perm (appliedEvents_perm hwf hordered) hcore
  have htallied := tallied_of_ok hevents
  obtain ⟨regions, hregions, hperm⟩ := listRegionsFromEvents_of_ok hevents
  refine ⟨fun events' hperm' => coreStateFromEvents_perm hperm'.symm hevents,
    ⟨regions, hregions, hperm, ?_, ?_⟩, htallied.keyed, htallied.root⟩
  · exact htallied.total.trans (hperm.map _).sum_eq
  · rw [← hperm.length_eq, BTreeMap.length_values]
    exact htallied.version

/-- A vector and two regions. -/
def twoRegions : List VectorEvent :=
  [sampleRegion "s" [], sampleCreation "a", sampleRegion "r" []]

theorem replayed_registry_twoRegions :
    ∃ result, replayEvents samplePlatform twoRegions = .ok result ∧
      coreStateFromEvents samplePlatform twoRegions.reverse = .ok result.coreState ∧
      result.coreState.version.toNat = 2 := by
  have hrun : (replayEvents samplePlatform twoRegions).map
      (fun result => result.coreState.version.toNat) = .ok 2 := by decide +kernel
  obtain ⟨result, hresult, hversion⟩ := Outcome.map_eq_ok_iff.mp hrun
  exact ⟨result, hresult,
    (replayed_registry samplePlatform hresult).1 _ twoRegions.reverse_perm, hversion⟩

end VKernelX
