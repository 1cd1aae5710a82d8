/-
  Engine/Admission.lean --- the events of operations on created vectors are admitted.

  The events of a vector are counted, and their ids carry the count.  Two vectors whose names
  run together in an id would have clashed when they were created, so once every vector was
  created without an error, the next event of any of them has a new id and, under a
  collision-free hash, a new hash.
-/
import VKernelX.Encoding.EventIds
import VKernelX.Engine.Work

set_option autoImplicit false

namespace VKernelX

/-! ## Short names -/

theorem length_strBytes_append (s t : String) :
    (strBytes (s ++ t)).length = (strBytes s).length + (strBytes t).length := by
  simp [strBytes]

/-- A character takes at most four bytes. -/
theorem length_strBytes_le (s : String) : (strBytes s).length ≤ 4 * s.length := by
  have hchars : ∀ cs : List Char, String.utf8Len cs ≤ 4 * cs.length := by
    intro cs
    induction cs with
    | nil => simp
    | cons c cs ih =>
      have := c.utf8Size_le_four
      rw [String.utf8Len_cons, List.length_cons]
      omega
  have hsize : (strBytes s).length = String.utf8Len s.toList := by
    rw [← String.utf8ByteSize_ofList, String.ofList_toList]
    simp [strBytes]
  rw [hsize, ← String.length_toList]
  exact hchars s.toList

/-- A 64-bit number has at most 20 digits. -/
theorem length_strBytes_decimal_le (n : UInt64) : (strBytes (decimal n.toNat)).length ≤ 80 := by
  have hdigits : (decimal n.toNat).length ≤ 20 := by
    have := n.toNat_lt
    exact (Nat.length_repr_le_iff (by decide)).mpr (by omega)
  have := length_strBytes_le (decimal n.toNat)
  omega

/-- The names of a vector and its region leave room in an id. -/
def ShortNames (entityId regionId : String) : Prop :=
  (strBytes entityId).length + (strBytes regionId).length < 2 ^ 63

theorem ShortNames.shortStr {entityId regionId : String} (h : ShortNames entityId regionId)
    (operation : OperationType) (logicalClock sequence : UInt64) :
    ShortStr (canonicalEventId entityId regionId operation logicalClock sequence) := by
  have hoperation : (strBytes operation.canonicalName).length < 2 ^ 8 := by
    cases operation <;> simp only [OperationType.canonicalName] <;> decide
  have hseparator : (strBytes "::").length = 2 := by decide
  have hclock := length_strBytes_decimal_le logicalClock
  have hsequence := length_strBytes_decimal_le sequence
  rw [ShortNames] at h
  simp only [ShortStr, canonicalEventId, length_strBytes_append, hseparator]
  omega

/-! ## Counted events -/

/-- The number of events of an entity in a region. -/
def KernelEngine.eventCount (eng : KernelEngine) (entityId regionId : String) : ℕ :=
  eng.store.listEvents.countP (fun e => e.entityId = entityId ∧ e.regionId = regionId)

theorem eventCount_le (eng : KernelEngine) (entityId regionId : String) :
    eng.eventCount entityId regionId ≤ eng.store.listEvents.length := List.countP_le_length

theorem eventCount_pos_iff {eng : KernelEngine} {entityId regionId : String} :
    0 < eng.eventCount entityId regionId ↔
      ∃ e ∈ eng.store.listEvents, e.entityId = entityId ∧ e.regionId = regionId := by
  rw [KernelEngine.eventCount, List.countP_pos_iff]
  simp only [decide_eq_true_eq]

theorem nextEventSequence_eq {eng : KernelEngine} {entityId regionId : String}
    (hroom : eng.eventCount entityId regionId + 1 < 2 ^ 64) :
    eng.nextEventSequenceForEntity entityId regionId =
      .ok (UInt64.ofNat (eng.eventCount entityId regionId + 1)) := by
  rw [KernelEngine.nextEventSequenceForEntity, eng.store.loadEventsForReplay_perm.countP_eq]
  exact if_pos hroom

theorem eventCount_addEvent {eng : KernelEngine} {e : VectorEvent}
    (hfresh : eng.store.events[e.eventHash]? = none) (entityId regionId : String) :
    (eng.addEvent e).eventCount entityId regionId =
      eng.eventCount entityId regionId +
        if e.entityId = entityId ∧ e.regionId = regionId then 1 else 0 := by
  rw [KernelEngine.eventCount, (listEvents_addEvent_perm hfresh).countP_eq, List.countP_cons,
    KernelEngine.eventCount]
  simp only [decide_eq_true_eq]

/-- Without collisions a hash tells the event's id. -/
theorem eventId_eq_of_hash {env : Platform} (hfree : env.CollisionFree) {x e : VectorEvent}
    (hx : ShortStr x.eventId) (he : ShortStr e.eventId)
    (h : canonicalEventHash env x = canonicalEventHash env e) : x.eventId = e.eventId := by
  have hbytes : canonicalEventBytes x = canonicalEventBytes e := hfree h
  simp only [canonicalEventBytes, canonicalEventPayloadBytes, List.append_assoc] at hbytes
  exact (prefixCode_writeStr _ _ _ _ hx he hbytes).1

/-- A store whose events are all of vectors created without an error. -/
structure CountedEvents (env : Platform) (eng : KernelEngine) : Prop where
  keyed : ∀ (hash : String) (e : VectorEvent), eng.store.events[hash]? = some e →
    e.eventHash = hash
  sealed : ∀ e ∈ eng.store.listEvents, e.eventHash = canonicalEventHash env e
  short : ∀ e ∈ eng.store.listEvents, ShortStr e.eventId
  distinct : ∀ e ∈ eng.store.listEvents, ∀ e' ∈ eng.store.listEvents,
    e.eventId = e'.eventId → e = e'
  /-- an id carries a number up to the count of its vector's events -/
  counted : ∀ e ∈ eng.store.listEvents, ∃ n, 0 < n ∧ n ≤ eng.eventCount e.entityId e.regionId ∧
    n < 2 ^ 64 ∧ e.eventId =
      canonicalEventId e.entityId e.regionId e.operation e.logicalClock (UInt64.ofNat n)
  /-- every vector's first event is its creation -/
  created : ∀ e ∈ eng.store.listEvents, ∃ o ∈ eng.store.listEvents,
    o.entityId = e.entityId ∧ o.regionId = e.regionId ∧
      o.eventId = canonicalEventId e.entityId e.regionId .originCreate 1 1

namespace CountedEvents

variable {env : Platform} {eng : KernelEngine}

theorem mem_listEvents_iff (h : CountedEvents env eng) {e : VectorEvent} :
    e ∈ eng.store.listEvents ↔ eng.store.events[e.eventHash]? = some e := by
  rw [MemoryStore.listEvents, BTreeMap.mem_values]
  constructor
  · rintro ⟨hash, he⟩
    rwa [h.keyed hash e he]
  · intro he
    exact ⟨_, he⟩

theorem congr {eng' : KernelEngine} (h : CountedEvents env eng)
    (hevents : eng.store.events = eng'.store.events) : CountedEvents env eng' := by
  have hlist : eng.store.listEvents = eng'.store.listEvents := by
    rw [MemoryStore.listEvents, MemoryStore.listEvents, hevents]
  have hcount : eng.eventCount = eng'.eventCount := by
    funext entityId regionId
    rw [KernelEngine.eventCount, KernelEngine.eventCount, hlist]
  obtain ⟨hkeyed, hsealed, hshort, hdistinct, hcounted, hcreated⟩ := h
  rw [hlist] at hsealed hshort hdistinct hcounted hcreated
  rw [hcount] at hcounted
  rw [hevents] at hkeyed
  exact ⟨hkeyed, hsealed, hshort, hdistinct, hcounted, hcreated⟩

/-- The next event of a vector that has one gets a new id. -/
theorem id_fresh (h : CountedEvents env eng) {entityId regionId : String}
    (hevent : 0 < eng.eventCount entityId regionId)
    (hroom : eng.eventCount entityId regionId + 1 < 2 ^ 64) (operation : OperationType)
    (logicalClock : UInt64) {x : VectorEvent} (hx : x ∈ eng.store.listEvents) :
    x.eventId ≠ canonicalEventId entityId regionId operation logicalClock
      (UInt64.ofNat (eng.eventCount entityId regionId + 1)) := by
  intro heq
  obtain ⟨n, hpos, hn, hlt, hid⟩ := h.counted x hx
  obtain ⟨y, hy, rfl, rfl⟩ := eventCount_pos_iff.mp hevent
  let p : EventTuple := ⟨x.entityId, x.regionId, x.operation, x.logicalClock, UInt64.ofNat n⟩
  let q : EventTuple := ⟨y.entityId, y.regionId, operation, logicalClock,
    UInt64.ofNat (eng.eventCount y.entityId y.regionId + 1)⟩
  obtain ⟨hnames, _, _, hsequence⟩ :=
    (@canonicalEventId_eq_iff p q).mp (hid.symm.trans heq)
  have hnumber : n = eng.eventCount y.entityId y.regionId + 1 := by
    have := congrArg UInt64.toNat hsequence
    simp only [p, q, UInt64.toNat_ofNat'] at this
    omega
  -- Names that run together would have clashed in the ids of the two creations.
  have hsame : x.entityId = y.entityId ∧ x.regionId = y.regionId := by
    obtain ⟨o, ho, hentity, hregion, hoid⟩ := h.created x hx
    obtain ⟨o', ho', hentity', hregion', hoid'⟩ := h.created y hy
    let p' : EventTuple := ⟨x.entityId, x.regionId, .originCreate, 1, 1⟩
    let q' : EventTuple := ⟨y.entityId, y.regionId, .originCreate, 1, 1⟩
    have hclash : p'.id = q'.id :=
      canonicalEventId_eq_iff.mpr ⟨hnames, Or.inl rfl, rfl, rfl⟩
    obtain rfl := h.distinct o ho o' ho' (hoid.trans (hclash.trans hoid'.symm))
    exact ⟨hentity.symm.trans hentity', hregion.symm.trans hregion'⟩
  rw [hsame.1, hsame.2] at hn
  omega

/-- An event with a new id has a new hash. -/
theorem hash_fresh (h : CountedEvents env eng) (hfree : env.CollisionFree) {e : VectorEvent}
    (hsealed : e.eventHash = canonicalEventHash env e) (hshort : ShortStr e.eventId)
    (hid : ∀ x ∈ eng.store.listEvents, x.eventId ≠ e.eventId) :
    eng.store.events[e.eventHash]? = none := by
  by_contra hsome
  obtain ⟨x, hx⟩ := Option.ne_none_iff_exists'.mp hsome
  have hmem : x ∈ eng.store.listEvents :=
    h.mem_listEvents_iff.mpr (by rw [h.keyed _ _ hx]; exact hx)
  refine hid x hmem (eventId_eq_of_hash hfree (h.short x hmem) hshort ?_)
  rw [← h.sealed x hmem, h.keyed _ _ hx, hsealed]

/-- One more event, with the next number of its vector, which is new or has events. -/
theorem addEvent (h : CountedEvents env eng) {e : VectorEvent}
    (hfresh : eng.store.events[e.eventHash]? = none)
    (hsealed : e.eventHash = canonicalEventHash env e) (hshort : ShortStr e.eventId)
    (hids : ∀ x ∈ eng.store.listEvents, x.eventId ≠ e.eventId)
    (hroom : eng.eventCount e.entityId e.regionId + 1 < 2 ^ 64)
    (hid : e.eventId = canonicalEventId e.entityId e.regionId e.operation e.logicalClock
      (UInt64.ofNat (eng.eventCount e.entityId e.regionId + 1)))
    (hfirst : 0 < eng.eventCount e.entityId e.regionId ∨
      e.operation = .originCreate ∧ e.logicalClock = 1) : CountedEvents env (eng.addEvent e) := by
  have hmem : ∀ x, x ∈ (eng.addEvent e).store.listEvents ↔ x = e ∨ x ∈ eng.store.listEvents := by
    intro x
    rw [(listEvents_addEvent_perm hfresh).mem_iff, List.mem_cons]
  have hcount := eventCount_addEvent hfresh
  refine ⟨?_, ?_, ?_, ?_, ?_, ?_⟩
  · intro hash x hx
    rw [KernelEngine.events_addEvent, BTreeMap.lookup_insert] at hx
    split at hx
    · rename_i heq
      exact (Option.some.inj hx) ▸ heq
    · exact h.keyed hash x hx
  · intro x hx
    rcases (hmem x).mp hx with rfl | hx
    · exact hsealed
    · exact h.sealed x hx
  · intro x hx
    rcases (hmem x).mp hx with rfl | hx
    · exact hshort
    · exact h.short x hx
  · intro x hx x' hx' heq
    rcases (hmem x).mp hx with hnew | hold <;> rcases (hmem x').mp hx' with hnew' | hold'
    · rw [hnew, hnew']
    · exact absurd (by rw [← hnew, heq]) (hids x' hold')
    · exact absurd (by rw [← hnew', heq]) (hids x hold)
    · exact h.distinct x hold x' hold' heq
  · intro x hx
    rcases (hmem x).mp hx with rfl | hx
    · refine ⟨_, Nat.succ_pos _, ?_, hroom, hid⟩
      rw [hcount, if_pos ⟨rfl, rfl⟩]
    · obtain ⟨n, hpos, hn, hlt, hnumbered⟩ := h.counted x hx
      exact ⟨n, hpos, hn.trans (by rw [hcount]; exact Nat.le_add_right _ _), hlt, hnumbered⟩
  · have hold : ∀ x ∈ eng.store.listEvents, ∃ o ∈ (eng.addEvent e).store.listEvents,
        o.entityId = x.entityId ∧ o.regionId = x.regionId ∧
          o.eventId = canonicalEventId x.entityId x.regionId .originCreate 1 1 := by
      intro x hx
      obtain ⟨o, ho, hnames⟩ := h.created x hx
      exact ⟨o, (hmem o).mpr (Or.inr ho), hnames⟩
    intro x hx
    rcases (hmem x).mp hx with rfl | hx
    · by_cases hevent : 0 < eng.eventCount x.entityId x.regionId
      · obtain ⟨y, hy, hentity, hregion⟩ := eventCount_pos_iff.mp hevent
        obtain ⟨o, ho, hnames⟩ := hold y hy
        rw [hentity, hregion] at hnames
        exact ⟨o, ho, hnames⟩
      · -- It is the first event of its vector.
        obtain ⟨hoperation, hclock⟩ := hfirst.resolve_left hevent
        have hzero : eng.eventCount x.entityId x.regionId = 0 := by omega
        rw [hoperation, hclock, hzero] at hid
        exact ⟨x, (hmem x).mpr (Or.inl rfl), rfl, rfl, hid⟩
    · exact hold x hx

end CountedEvents

/-! ## Transitions -/

variable {env : Platform} {eng : KernelEngine}

/-- Every amount of the state fits an event. -/
def VectorStateV1.FitsEvent (s : VectorStateV1) : Prop := ∀ c ∈ s.components, c.toNat ≤ u64Max

theorem VectorStateV1.FitsEvent.eventState {s : VectorStateV1} (h : s.FitsEvent) :
    ∃ v, vectorV1ToEventState s = .ok v ∧ v.components.length = s.components.length := by
  obtain ⟨ns, hns, hlength⟩ := @Outcome.exists_mapM_ok KernelXError U128 UInt64
    (fun component => Outcome.okOr (.invalidState
      "component value exceeds u64 canonical event limit") (u64TryFrom component)) s.components
    (fun c hc => by
      rw [u64TryFrom, if_pos (h c hc)]
      exact ⟨_, rfl⟩)
  exact ⟨_, by rw [vectorV1ToEventState, hns]; rfl, hlength⟩

/-- The ratios a certification gives lie in the unit interval. -/
theorem authRatio_inUnit {ratio : UInt16} (h : ratio = 700 ∨ ratio = 1000) :
    (F64.ofDiv ratio.toNat 1000).isFinite = true ∧ (F64.ofDiv ratio.toNat 1000).ltZero = false ∧
      (F64.ofDiv ratio.toNat 1000).gtOne = false := by
  rcases h with rfl | rfl <;> decide

/-- A change of a certified vector that is no region and keeps its length. -/
structure Transition.Shaped (t : Transition) : Prop where
  before : ∀ s, t.before = some s → s.components.length = t.after.components.length
  operation : ∀ name, t.operation ≠ .other name
  created : t.operation = .originCreate → t.after.typeMetadata = ∅
  authRatio : t.after.certification.authRatio = 700 ∨ t.after.certification.authRatio = 1000

/-- The names of the changed vector can stand in an event. -/
structure Transition.Named (t : Transition) : Prop where
  vectorId : isBlank t.after.vectorId = false
  spaceId : isBlank t.after.spaceId = false
  ownerPubkey : isBlank t.after.ownerPubkey = false

/-- The event of a change whose names and amounts fit is built, and it is valid. -/
theorem Transition.Shaped.built {t : Transition} (ht : t.Shaped) (hnamed : t.Named)
    (hbefore : ∀ s, t.before = some s → s.FitsEvent) (hafter : t.after.FitsEvent)
    (hroom : eng.eventCount t.after.vectorId t.after.spaceId + 1 < 2 ^ 64)
    (parentHashes : List String) :
    ∃ e, buildTransitionEvent env eng t.before t.after t.operation t.after.version t.timestamp
        parentHashes = .ok e ∧ (validateEvent env e).IsOk ∧
      e.eventHash = canonicalEventHash env e ∧
      e.eventId = canonicalEventId t.after.vectorId t.after.spaceId t.operation t.after.version
        (UInt64.ofNat (eng.eventCount t.after.vectorId t.after.spaceId + 1)) := by
  obtain ⟨w, hw, hwlength⟩ := hafter.eventState
  obtain ⟨v, hv, hvlength⟩ : ∃ v, eventStateBefore t.before t.after = .ok v ∧
      v.components.length = t.after.components.length := by
    cases hs : t.before with
    | none => exact ⟨_, rfl, List.length_replicate⟩
    | some s =>
      obtain ⟨v, hv, hvlength⟩ := (hbefore s hs).eventState
      exact ⟨v, hv, hvlength.trans (ht.before s hs)⟩
  have hmetadata : w.metadata = t.after.typeMetadata := by
    simp only [vectorV1ToEventState, Outcome.bind_eq_ok_iff] at hw
    obtain ⟨_, _, hw⟩ := hw
    obtain rfl := Except.ok.inj hw
    rfl
  refine ⟨_, by rw [buildTransitionEvent, hv, Outcome.ok_bind, hw, Outcome.ok_bind,
    nextEventSequence_eq hroom, Outcome.ok_bind]; rfl, ⟨(), ?_⟩,
    (canonicalEventHash_seal env _).symm, rfl⟩
  simp only [validateEvent, Outcome.bind_eq_ok_iff, Outcome.require_eq_ok_iff]
  refine ⟨(), isBlank_canonicalEventId .., (), hnamed.spaceId, (), hnamed.vectorId, (),
    hnamed.ownerPubkey, (), authRatio_inUnit ht.authRatio, (), hvlength.trans hwlength.symm, (),
    (canonicalPayloadHash_seal env _).symm, (), (canonicalEventHash_seal env _).symm, ?_⟩
  have hnotRegion : ∀ e : VectorEvent, e.operation = t.operation → e.vectorAfter = w →
      isRegionCreateEvent e = false := by
    intro e hoperation hstate
    by_cases hcreation : t.operation = .originCreate
    · simp [isRegionCreateEvent, hoperation, hstate, hcreation, hmetadata, ht.created hcreation]
    · simp [isRegionCreateEvent, hoperation, hcreation, ht.operation]
  rw [if_neg (by rw [hnotRegion _ rfl rfl]; decide), if_neg (by simp [VectorEvent.seal])]
  rfl

/-- A change of a created vector whose amounts fit. -/
structure Transition.Ready (eng : KernelEngine) (t : Transition) : Prop where
  before : ∃ s, t.before = some s ∧ s.FitsEvent ∧
    s.components.length = t.after.components.length
  after : t.after.FitsEvent
  operation : t.operation ≠ .originCreate ∧ ∀ name, t.operation ≠ .other name
  vectorId : isBlank t.after.vectorId = false
  spaceId : isBlank t.after.spaceId = false
  ownerPubkey : isBlank t.after.ownerPubkey = false
  names : ShortNames t.after.vectorId t.after.spaceId
  authRatio : t.after.certification.authRatio = 700 ∨ t.after.certification.authRatio = 1000
  created : 0 < eng.eventCount t.after.vectorId t.after.spaceId

/-- The event of a ready transition is built, and it is valid. -/
theorem Transition.Ready.built {t : Transition} (ht : t.Ready eng)
    (hroom : eng.eventCount t.after.vectorId t.after.spaceId + 1 < 2 ^ 64)
    (parentHashes : List String) :
    ∃ e, buildTransitionEvent env eng t.before t.after t.operation t.after.version t.timestamp
        parentHashes = .ok e ∧ (validateEvent env e).IsOk ∧
      e.eventHash = canonicalEventHash env e ∧
      e.eventId = canonicalEventId t.after.vectorId t.after.spaceId t.operation t.after.version
        (UInt64.ofNat (eng.eventCount t.after.vectorId t.after.spaceId + 1)) := by
  obtain ⟨s, hbefore, hfits, hlength⟩ := ht.before
  have hshaped : t.Shaped := by
    refine ⟨fun s' hs' => ?_, ht.operation.2, fun h => absurd h ht.operation.1, ht.authRatio⟩
    obtain rfl := Option.some.inj (hbefore.symm.trans hs')
    exact hlength
  refine hshaped.built ⟨ht.vectorId, ht.spaceId, ht.ownerPubkey⟩ (fun s' hs' => ?_) ht.after hroom
    parentHashes
  obtain rfl := Option.some.inj (hbefore.symm.trans hs')
  exact hfits

/-- It is admitted, and its vector has one more event. -/
theorem Transition.Ready.event (hfree : env.CollisionFree) (h : CountedEvents env eng)
    {t : Transition} (ht : t.Ready eng) (hroom : eng.store.listEvents.length + 1 < 2 ^ 64) :
    ∃ e, t.event env eng = .ok e ∧ CountedEvents env (eng.addEvent e) ∧
      eng.store.events[e.eventHash]? = none ∧ e.entityId = t.after.vectorId ∧
      e.regionId = t.after.spaceId := by
  have hcount : eng.eventCount t.after.vectorId t.after.spaceId + 1 < 2 ^ 64 := by
    have := eventCount_le eng t.after.vectorId t.after.spaceId
    omega
  obtain ⟨e, hbuild, hvalid, hsealed, hid⟩ := ht.built hcount (t.parents eng)
  obtain ⟨hfields, _⟩ := buildTransitionEvent_fields hbuild
  have hshort : ShortStr e.eventId := by
    rw [hid]
    exact ht.names.shortStr _ _ _
  have hids : ∀ x ∈ eng.store.listEvents, x.eventId ≠ e.eventId := by
    rw [hid]
    exact fun x hx => h.id_fresh ht.created hcount t.operation t.after.version hx
  have hfresh := h.hash_fresh hfree hsealed hshort hids
  have hparents : ∀ p ∈ e.parentHashes, eng.store.events[p]? ≠ none := by
    obtain ⟨s, hbefore, _⟩ := ht.before
    intro p hp
    rw [hfields.parentHashes_eq, Transition.parents, hbefore] at hp
    obtain ⟨q, hq, rfl, _⟩ := mem_latestParent hp
    rw [h.mem_listEvents_iff.mp hq]
    simp
  have hadmissible : Admissible env eng.store e := by
    refine ⟨hvalid, hparents, ⟨?_, ?_, hfresh, hids⟩⟩
    · rw [hid]
      exact ne_empty_of_isBlank_eq_false (isBlank_canonicalEventId ..)
    · rw [hsealed]
      exact env.blake3Hex_ne_empty _
  refine ⟨e, transitionEvent_eq_ok_iff.mpr ⟨hbuild, hadmissible⟩, ?_, hfresh, hfields.entityId_eq,
    hfields.regionId_eq⟩
  refine h.addEvent hfresh hsealed hshort hids ?_ ?_ (Or.inl ?_)
  · rw [hfields.entityId_eq, hfields.regionId_eq]
    exact hcount
  · rw [hfields.entityId_eq, hfields.regionId_eq, hfields.operation_eq, hfields.logicalClock_eq]
    exact hid
  · rw [hfields.entityId_eq, hfields.regionId_eq]
    exact ht.created

/-- A transition stays ready while events are added. -/
theorem Transition.Ready.addEvent {t : Transition} (ht : t.Ready eng) {e : VectorEvent}
    (hfresh : eng.store.events[e.eventHash]? = none) : t.Ready (eng.addEvent e) := by
  obtain ⟨hbefore, hafter, hoperation, hvector, hspace, howner, hnames, hratio, hcreated⟩ := ht
  refine ⟨hbefore, hafter, hoperation, hvector, hspace, howner, hnames, hratio, ?_⟩
  rw [eventCount_addEvent hfresh]
  exact Nat.add_pos_left hcreated _

/-- The events of ready transitions are admitted one after the other. -/
theorem exists_appends (hfree : env.CollisionFree) (h : CountedEvents env eng)
    {ts : List Transition} (hts : ∀ t ∈ ts, t.Ready eng)
    (hroom : eng.store.listEvents.length + ts.length < 2 ^ 64) :
    ∃ es, Appends env eng ts es ∧ CountedEvents env (eng.addEvents es) ∧
      ∀ entityId regionId, (eng.addEvents es).eventCount entityId regionId =
        eng.eventCount entityId regionId +
          ts.countP (fun t => t.after.vectorId = entityId ∧ t.after.spaceId = regionId) := by
  induction ts generalizing eng with
  | nil => exact ⟨[], .nil, h, fun _ _ => rfl⟩
  | cons t ts ih =>
    obtain ⟨ht, hrest⟩ := List.forall_mem_cons.mp hts
    rw [List.length_cons] at hroom
    obtain ⟨e, hevent, hcounted, hfresh, hentity, hregion⟩ := ht.event hfree h (by omega)
    obtain ⟨es, happends, hcountedAll, hcounts⟩ := ih hcounted
      (fun t' ht' => (hrest t' ht').addEvent hfresh) (by
        rw [(listEvents_addEvent_perm hfresh).length_eq, List.length_cons]
        omega)
    refine ⟨e :: es, .cons hevent happends, hcountedAll, fun entityId regionId => ?_⟩
    rw [KernelEngine.addEvents, List.foldl_cons, ← KernelEngine.addEvents, hcounts,
      eventCount_addEvent hfresh, hentity, hregion, List.countP_cons]
    simp only [decide_eq_true_eq]
    omega

end VKernelX
