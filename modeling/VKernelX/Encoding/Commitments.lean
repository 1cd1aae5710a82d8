/-
  Encoding/Commitments.lean --- what the hashes of a replay commit to.

  The state map, the preimage of a replay's state root and the preimage of its replay hash
  are read back from their bytes.  The state map frames no entry by its length: an entry ends
  where its state ends, and the state is self-delimiting.
-/
import VKernelX.Encoding.Events
import VKernelX.Model.Snapshot

set_option autoImplicit false

namespace VKernelX

/-! ## The state map -/

/-- A map of short states under short ids with less than 2^64 entries. -/
structure ShortStateMap (m : BTreeMap String VectorState) : Prop where
  size : m.size < 2 ^ 64
  entries : ∀ entry ∈ m.toList, ShortStr entry.1 ∧ entry.2.Short

/-- A map after its size, its entries in key order and one after the other. -/
theorem prefixCode_canonicalMapBytes {β : Type} {F : β → Prop} {write : β → List UInt8}
    (hwrite : PrefixCode F write) :
    PrefixCode (fun m : BTreeMap String β => m.size < 2 ^ 64 ∧
      ∀ entry ∈ m.toList, ShortStr entry.1 ∧ F entry.2) (canonicalMapBytes write) := by
  have hmap : canonicalMapBytes write = fun m : BTreeMap String β =>
      writeBeU64 (UInt64.ofNat m.size) ++
        m.toList.flatMap (fun entry => writeStr entry.1 ++ write entry.2) :=
    funext (fun m => by rw [canonicalMapBytes, writeU64_eq_writeBeU64])
  rw [hmap]
  have hlist := (prefixCode_length.counted (prefixCode_writeStr.pair hwrite)).comap
    (fun m : BTreeMap String β => m.toList) BTreeMap.toList_injective
  simpa only [Std.ExtTreeMap.length_toList] using hlist

theorem canonicalStateMapBytes_eq (m : BTreeMap String VectorState) :
    canonicalStateMapBytes m = canonicalMapBytes VectorState.canonicalBytes m := rfl

theorem prefixCode_canonicalStateMapBytes : PrefixCode ShortStateMap canonicalStateMapBytes :=
  (prefixCode_canonicalMapBytes prefixCode_vectorState).mono (fun _ h => ⟨h.size, h.entries⟩)

/-! ## The preimages -/

/-- The bytes `compute_state_root_from_canonical_bytes` hashes. -/
def replayRootBytes (stateBytes : List UInt8) (eventCount logicalClock : UInt64) : List UInt8 :=
  strBytes "v-kernelx/state-root-v1" ++ writeBeU64 eventCount ++ writeBeU64 logicalClock ++
    writeBeU64 (UInt64.ofNat stateBytes.length) ++ stateBytes

/-- The bytes `canonical_replay_hash` hashes. -/
def replayHashBytes (eventHashes : List String) : List UInt8 :=
  canonicalBlobBytes "replay-v1" [] ++ canonicalEventSequenceBytes eventHashes

theorem rootHash_eq (env : Platform) (stateBytes : List UInt8) (eventCount logicalClock : UInt64) :
    (computeStateRootFromCanonicalBytes env stateBytes eventCount logicalClock).rootHash =
      env.blake3Hex (replayRootBytes stateBytes eventCount logicalClock) := rfl

theorem canonicalReplayHash_eq (env : Platform) (eventHashes : List String) :
    canonicalReplayHash env eventHashes = env.blake3Hex (replayHashBytes eventHashes) := rfl

/-- The root's preimage tells count, clock and state bytes apart: the first two have a fixed
width, and the rest is the end of the preimage. -/
theorem replayRootBytes_inj {bytes bytes' : List UInt8} {count count' clock clock' : UInt64}
    (h : replayRootBytes bytes count clock = replayRootBytes bytes' count' clock') :
    bytes = bytes' ∧ count = count' ∧ clock = clock' := by
  simp only [replayRootBytes, List.append_assoc, List.append_cancel_left_eq] at h
  obtain ⟨hcount, h⟩ := prefixCode_writeBeU64 _ _ _ _ trivial trivial h
  obtain ⟨hclock, h⟩ := prefixCode_writeBeU64 _ _ _ _ trivial trivial h
  obtain ⟨_, hbytes⟩ := prefixCode_writeBeU64 _ _ _ _ trivial trivial h
  exact ⟨hbytes, hcount, hclock⟩

/-- The replay hash's preimage is a fixed header and a counted list of texts. -/
theorem replayHashBytes_inj {hashes hashes' : List String} (hs : ShortStrs hashes)
    (hs' : ShortStrs hashes') (h : replayHashBytes hashes = replayHashBytes hashes') :
    hashes = hashes' :=
  prefixCode_writeVecStr.eq_of_write_eq hs hs' (List.append_cancel_left h)

/-! ## Replays -/

/-- The state map and the list of hashes of a replay are short. -/
structure ReplayResult.Short (r : ReplayResult) : Prop where
  finalState : ShortStateMap r.finalState
  appliedEventHashes : ShortStrs r.appliedEventHashes

/-- The two commitments of a replay, by their preimages. -/
theorem commitments_of_replayEvents {env : Platform} {events : List VectorEvent}
    {r : ReplayResult} (h : replayEvents env events = .ok r) :
    ∃ clock, r.stateRoot.rootHash = env.blake3Hex (replayRootBytes
        (canonicalStateMapBytes r.finalState) (UInt64.ofNat r.appliedEventHashes.length) clock) ∧
      r.replayHash = env.blake3Hex (replayHashBytes r.appliedEventHashes) := by
  simp only [replayEvents, Outcome.bind_eq_ok_iff] at h
  obtain ⟨_, _, progress, _, heq⟩ := h
  obtain rfl := Except.ok.inj heq
  exact ⟨progress.logicalClock, rootHash_eq env _ _ _, canonicalReplayHash_eq env _⟩

/-- Under a collision-free hash the state root determines the final state. -/
theorem finalState_of_stateRoot {env : Platform} (hfree : env.CollisionFree)
    {events events' : List VectorEvent} {r r' : ReplayResult}
    (h : replayEvents env events = .ok r) (h' : replayEvents env events' = .ok r')
    (hr : r.Short) (hr' : r'.Short) (hroot : r.stateRoot = r'.stateRoot) :
    r.finalState = r'.finalState := by
  obtain ⟨clock, hhash, _⟩ := commitments_of_replayEvents h
  obtain ⟨clock', hhash', _⟩ := commitments_of_replayEvents h'
  rw [hroot, hhash'] at hhash
  exact (prefixCode_canonicalStateMapBytes.eq_of_write_eq hr'.finalState hr.finalState
    (replayRootBytes_inj (hfree hhash)).1).symm

/-- Under a collision-free hash the replay hash determines the applied events. -/
theorem appliedEventHashes_of_replayHash {env : Platform} (hfree : env.CollisionFree)
    {events events' : List VectorEvent} {r r' : ReplayResult}
    (h : replayEvents env events = .ok r) (h' : replayEvents env events' = .ok r')
    (hr : ShortStrs r.appliedEventHashes) (hr' : ShortStrs r'.appliedEventHashes)
    (hreplay : r.replayHash = r'.replayHash) : r.appliedEventHashes = r'.appliedEventHashes := by
  obtain ⟨_, _, hhash⟩ := commitments_of_replayEvents h
  obtain ⟨_, _, hhash'⟩ := commitments_of_replayEvents h'
  rw [hreplay, hhash'] at hhash
  exact (replayHashBytes_inj hr' hr (hfree hhash)).symm

/-- A snapshot verifies against exactly the state and the replay hash it was taken of. -/
theorem verifySnapshot_createSnapshot_iff (env : Platform) {r : ReplayResult}
    {state : BTreeMap String VectorState} (hr : ShortStateMap r.finalState)
    (hstate : ShortStateMap state) (dagHeads : List String) (createdAt : UInt64)
    (replayHash : String) :
    verifySnapshot env (createSnapshot env r dagHeads createdAt) state replayHash = .ok true ↔
      state = r.finalState ∧ replayHash = r.replayHash := by
  have hroot : (canonicalStateRootHash env r.stateRoot != "") = true :=
    bne_iff_ne.mpr (env.blake3Hex_ne_empty _)
  rw [verifySnapshot, createSnapshot]
  simp only [hroot, Bool.and_true, Except.ok.injEq, Bool.and_eq_true, beq_iff_eq]
  constructor
  · rintro ⟨⟨_, hbytes⟩, hhash⟩
    exact ⟨(prefixCode_canonicalStateMapBytes.eq_of_write_eq hr hstate hbytes).symm, hhash.symm⟩
  · rintro ⟨rfl, rfl⟩
    exact ⟨⟨rfl, rfl⟩, rfl⟩

/-- The commitments of a replay determine it: the three preimages are read back, so equal
state roots have equal states behind them and equal replay hashes the same applied events,
and a snapshot verifies exactly against what it was taken of. -/
theorem replayCommitments_determine (env : Platform) :
    ((∀ m, canonicalMapBytes VectorState.canonicalBytes m = canonicalStateMapBytes m) ∧
      ∀ m m', ShortStateMap m → ShortStateMap m' →
        canonicalStateMapBytes m = canonicalStateMapBytes m' → m = m') ∧
    ((∀ bytes count clock, (computeStateRootFromCanonicalBytes env bytes count clock).rootHash =
        env.blake3Hex (replayRootBytes bytes count clock)) ∧
      ∀ bytes bytes' count count' clock clock',
        replayRootBytes bytes count clock = replayRootBytes bytes' count' clock' →
        bytes = bytes' ∧ count = count' ∧ clock = clock') ∧
    ((∀ hashes, canonicalReplayHash env hashes = env.blake3Hex (replayHashBytes hashes)) ∧
      ∀ hashes hashes', ShortStrs hashes → ShortStrs hashes' →
        replayHashBytes hashes = replayHashBytes hashes' → hashes = hashes') ∧
    (env.CollisionFree → ∀ events events' r r', replayEvents env events = .ok r →
      replayEvents env events' = .ok r' → r.Short → r'.Short →
      (r.stateRoot = r'.stateRoot → r.finalState = r'.finalState) ∧
        (r.replayHash = r'.replayHash → r.appliedEventHashes = r'.appliedEventHashes)) ∧
    ∀ r state dagHeads createdAt replayHash, ShortStateMap r.finalState → ShortStateMap state →
      (verifySnapshot env (createSnapshot env r dagHeads createdAt) state replayHash = .ok true ↔
        state = r.finalState ∧ replayHash = r.replayHash) := by
  refine ⟨⟨fun m => (canonicalStateMapBytes_eq m).symm, fun m m' hm hm' heq => ?_⟩,
    ⟨rootHash_eq env, fun _ _ _ _ _ _ => replayRootBytes_inj⟩,
    ⟨canonicalReplayHash_eq env, fun _ _ => replayHashBytes_inj⟩,
    fun hfree events events' r r' h h' hr hr' => ⟨?_, ?_⟩,
    fun r state dagHeads createdAt replayHash hr hstate =>
      verifySnapshot_createSnapshot_iff env hr hstate dagHeads createdAt replayHash⟩
  · exact prefixCode_canonicalStateMapBytes.eq_of_write_eq hm hm' heq
  · exact finalState_of_stateRoot hfree h h' hr hr'
  · exact appliedEventHashes_of_replayHash hfree h h' hr.appliedEventHashes hr'.appliedEventHashes

/-- A creation with nothing in it but its vector and the hash it carries. -/
def bareCreation (entityId eventHash : String) : VectorEvent :=
  { (default : VectorEvent) with
    entityId := entityId
    operation := .originCreate
    eventHash := eventHash }

theorem ReplayResult.short_of_entries {r : ReplayResult} {entries : List (String × VectorState)}
    {hashes : List String}
    (h : (r.finalState.toList, r.appliedEventHashes) = (entries, hashes))
    (hentries : ∀ entry ∈ entries, ShortStr entry.1 ∧ entry.2.Short)
    (hlength : entries.length < 2 ^ 64) (hhashes : ShortStrs hashes) : r.Short := by
  obtain ⟨hstates, rfl⟩ := Prod.mk.inj h
  refine ⟨⟨?_, by rwa [hstates]⟩, hhashes⟩
  rwa [← Std.ExtTreeMap.length_toList, hstates]

/-- A history of one creation and one of two have different roots and replay hashes, and a
snapshot of the first does not verify against the state of the second. -/
theorem replayCommitments_determine_creations :
    ∃ r r', replayEvents (separatedPlatform []) [bareCreation "a" "x"] = .ok r ∧
      replayEvents (separatedPlatform []) [bareCreation "a" "x", bareCreation "b" "y"] = .ok r' ∧
      r.stateRoot ≠ r'.stateRoot ∧ r.replayHash ≠ r'.replayHash ∧
      verifySnapshot (separatedPlatform []) (createSnapshot (separatedPlatform []) r [] 5)
        r'.finalState r.replayHash ≠ .ok true := by
  have hone : (replayEvents (separatedPlatform []) [bareCreation "a" "x"]).map
      (fun r => (r.finalState.toList, r.appliedEventHashes)) =
        .ok ([("a", default)], ["x"]) := by decide +kernel
  have htwo : (replayEvents (separatedPlatform [])
      [bareCreation "a" "x", bareCreation "b" "y"]).map
        (fun r => (r.finalState.toList, r.appliedEventHashes)) =
          .ok ([("a", default), ("b", default)], ["x", "y"]) := by decide +kernel
  obtain ⟨r, hr, hfacts⟩ := Outcome.map_eq_ok_iff.mp hone
  obtain ⟨r', hr', hfacts'⟩ := Outcome.map_eq_ok_iff.mp htwo
  have hshort : r.Short := by
    refine ReplayResult.short_of_entries hfacts ?_ (by decide) ⟨by decide, by decide⟩
    simp only [List.mem_singleton, forall_eq]
    exact ⟨by decide, default_short⟩
  have hshort' : r'.Short := by
    refine ReplayResult.short_of_entries hfacts' ?_ (by decide) ⟨by decide, by decide⟩
    simp only [List.mem_cons, List.not_mem_nil, or_false, forall_eq_or_imp, forall_eq]
    exact ⟨⟨by decide, default_short⟩, ⟨by decide, default_short⟩⟩
  have hstates : r.finalState ≠ r'.finalState := by
    intro heq
    have hlists := congrArg (fun m => m.toList.length) heq
    simp only [(Prod.mk.inj hfacts).1, (Prod.mk.inj hfacts').1] at hlists
    exact absurd hlists (by decide)
  have hhashes : r.appliedEventHashes ≠ r'.appliedEventHashes := by
    rw [(Prod.mk.inj hfacts).2, (Prod.mk.inj hfacts').2]
    decide
  obtain ⟨_, _, _, hreplays, hsnapshots⟩ := replayCommitments_determine (separatedPlatform [])
  obtain ⟨hroot, hhash⟩ := hreplays separatedPlatform_nil_collisionFree _ _ r r' hr hr' hshort
    hshort'
  refine ⟨r, r', hr, hr', mt hroot hstates, mt hhash hhashes, fun hverifies => ?_⟩
  exact hstates ((hsnapshots r r'.finalState [] 5 r.replayHash hshort.finalState
    hshort'.finalState).mp hverifies).1.symm

end VKernelX
