/-
  Mirror/NextStates.lean --- what the two kernels make of one vector.

  The kernel computes with 128-bit numbers that saturate, the mirror with integers.  While
  amounts stay below 2^64 nothing saturates, and the two certifications, different as they
  are, both pass the threshold that halves a drain.
-/
import VKernelX.Engine.Acceptance
import VKernelX.Engine.DrainFees
import VKernelX.Mirror.Kernel

set_option autoImplicit false

namespace VKernelX

/-! ## Amounts -/

/-- Amounts of the kernel as the mirror holds them. -/
def ints (amounts : List U128) : List ℤ := amounts.map (fun a => (a.toNat : ℤ))

@[simp] theorem length_ints (amounts : List U128) : (ints amounts).length = amounts.length :=
  List.length_map _

@[simp] theorem ints_append (l l' : List U128) : ints (l ++ l') = ints l ++ ints l' :=
  List.map_append

theorem ints_injective : Function.Injective ints :=
  List.map_injective_iff.mpr (fun _ _ h => BitVec.eq_of_toNat_eq (Int.natCast_inj.mp h))

theorem zip_ints (xs ys : List U128) :
    (ints xs).zip (ints ys) =
      (xs.zip ys).map (fun p => ((p.1.toNat : ℤ), (p.2.toNat : ℤ))) := by
  rw [ints, ints, List.zip_map]
  rfl

/-- An operation on pairs of amounts that is the integer one on the pairs at hand. -/
theorem ints_map_zip {f : U128 × U128 → U128} {g : ℤ × ℤ → ℤ} {xs ys : List U128}
    (h : ∀ p ∈ xs.zip ys, ((f p).toNat : ℤ) = g (p.1.toNat, p.2.toNat)) :
    ints ((xs.zip ys).map f) = ((ints xs).zip (ints ys)).map g := by
  rw [zip_ints, ints, List.map_map, List.map_map]
  exact List.map_congr_left h

theorem all_zip_ints_iff {xs ys : List U128} :
    ((ints xs).zip (ints ys)).all (fun p => p.1 ≤ p.2) = true ↔
      (xs.zip ys).all (fun p => p.1 ≤ p.2) = true := by
  rw [zip_ints, List.all_map]
  simp only [List.all_eq_true, Function.comp_apply, decide_eq_true_eq, Int.ofNat_le, BitVec.le_def]

/-- Amounts that the mirror holds below 2^64. -/
theorem le_u64Max_of_ints {l : List U128} (h : ∀ x ∈ ints l, x < 2 ^ 64) :
    ∀ a ∈ l, a.toNat ≤ u64Max := by
  intro a ha
  have := h a.toNat (List.mem_map.mpr ⟨a, ha, rfl⟩)
  rw [u64Max]
  omega

/-! ## One vector in both kernels -/

/-- A projection of the kernel and one of the mirror with the same amounts. -/
structure SameProjection (p : ProjectionState) (q : Mirror.ProjectionState) : Prop where
  projected : q.projectedComponents = ints p.projectedComponents
  settled : q.settledComponents = ints p.settledComponents

/-- A vector of the kernel and one of the mirror with the same components, status and
projection. -/
structure Mirrored (s : VectorStateV1) (m : Mirror.VectorStateV1) : Prop where
  components : m.components = ints s.components
  status : m.status = s.status
  projection : Option.Rel SameProjection s.projection m.projection

namespace Mirror

/-- A vector of the mirror with a name, an owner and the default threshold, certified. -/
structure Sound (m : VectorStateV1) : Prop where
  schema : m.schema = stateSchemaV1
  vectorId : m.vectorId ≠ ""
  ownerPubkey : m.ownerPubkey ≠ ""
  spaceId : m.spaceId ≠ ""
  threshold : m.certification.threshold = 700
  authRatio : m.certification.authRatio = 1000

/-- The fields a certification reads, the components apart. -/
structure SameName (m after : VectorStateV1) : Prop where
  schema : after.schema = m.schema
  vectorId : after.vectorId = m.vectorId
  ownerPubkey : after.ownerPubkey = m.ownerPubkey
  spaceId : after.spaceId = m.spaceId
  threshold : after.certification.threshold = m.certification.threshold

/-- Certifying a named vector scores 1000. -/
theorem certifyState_eq {m : VectorStateV1} (hschema : m.schema = stateSchemaV1)
    (hvector : m.vectorId ≠ "") (howner : m.ownerPubkey ≠ "") (hspace : m.spaceId ≠ "")
    (hthreshold : m.certification.threshold = 700) (now : ℤ) :
    certifyState now m =
      { certified := true, authRatio := 1000, threshold := 700, lastCheckedAtMs := now,
        reason := none } := by
  simp [certifyState, hschema, hvector, howner, hspace, hthreshold]

theorem sound_certified {m : VectorStateV1} (hschema : m.schema = stateSchemaV1)
    (hvector : m.vectorId ≠ "") (howner : m.ownerPubkey ≠ "") (hspace : m.spaceId ≠ "")
    (hthreshold : m.certification.threshold = 700) (now : ℤ) : Sound (certified now m) := by
  have hcertified := certifyState_eq hschema hvector howner hspace hthreshold now
  refine ⟨hschema, hvector, howner, hspace, ?_, ?_⟩ <;> rw [certified, hcertified]

theorem Sound.certifyState_eq {m after : VectorStateV1} (h : Sound m) (hsame : SameName m after)
    (now : ℤ) : certifyState now after =
      { certified := true, authRatio := 1000, threshold := 700, lastCheckedAtMs := now,
        reason := none } :=
  Mirror.certifyState_eq (hsame.schema.trans h.schema) (by rw [hsame.vectorId]; exact h.vectorId)
    (by rw [hsame.ownerPubkey]; exact h.ownerPubkey) (by rw [hsame.spaceId]; exact h.spaceId)
    (hsame.threshold.trans h.threshold) now

theorem Sound.certified {m after : VectorStateV1} (h : Sound m) (hsame : SameName m after)
    (now : ℤ) : Sound (certified now after) :=
  sound_certified (hsame.schema.trans h.schema) (by rw [hsame.vectorId]; exact h.vectorId)
    (by rw [hsame.ownerPubkey]; exact h.ownerPubkey) (by rw [hsame.spaceId]; exact h.spaceId)
    (hsame.threshold.trans h.threshold) now

theorem SameName.certified {m after : VectorStateV1} (hsame : SameName m after) (h : Sound m)
    (now : ℤ) : SameName m (certified now after) :=
  ⟨hsame.schema, hsame.vectorId, hsame.ownerPubkey, hsame.spaceId,
    (h.certified hsame now).threshold.trans h.threshold.symm⟩

/-- The later of two certifications is the one that counts. -/
theorem Sound.certified_certified {m after : VectorStateV1} (h : Sound m)
    (hsame : SameName m after) (now now' : ℤ) :
    Mirror.certified now' (Mirror.certified now after) = Mirror.certified now' after := by
  have hsecond : certifyState now' (Mirror.certified now after) = certifyState now' after := by
    rw [h.certifyState_eq (hsame.certified h now) now', h.certifyState_eq hsame now']
  simp only [Mirror.certified] at hsecond ⊢
  rw [hsecond]

end Mirror

/-- Every amount the mirror holds in a vector. -/
def Mirror.VectorStateV1.amounts (m : Mirror.VectorStateV1) : List ℤ :=
  m.components ++ match m.projection with
    | some projection => projection.projectedComponents ++ projection.settledComponents
    | none => []

/-- Every amount of the vector is below 2^64. -/
def Mirror.VectorStateV1.Small (m : Mirror.VectorStateV1) : Prop := ∀ x ∈ m.amounts, x < 2 ^ 64

/-- A vector as the two kernels hold it, with room for one more version. -/
structure TwinVector (s : VectorStateV1) (m : Mirror.VectorStateV1) : Prop where
  mirrored : Mirrored s m
  sound : SoundState s
  mirrorSound : Mirror.Sound m
  small : m.Small
  dimensions : s.components.length < 2 ^ 64
  authRatio : s.certification.authRatio = 700 ∨ s.certification.authRatio = 1000
  version : s.version.toNat + 1 < 2 ^ 64

/-- The two kernels on a change of a vector: both turn it down, or both make it and get the
same vector. -/
inductive SameNext (m : Mirror.VectorStateV1) : Outcome KernelXError VectorStateV1 →
    Outcome Mirror.PyError Mirror.VectorStateV1 → Prop where
  | rejected {e : KernelXError} {e' : Mirror.PyError} :
      SameNext m (.error (.err e)) (.error (.err e'))
  | changed {after : VectorStateV1} {mafter : Mirror.VectorStateV1}
      (hcanonical : CanonicalState after) (hmirrored : Mirrored after mafter)
      (hsame : Mirror.SameName m mafter) : SameNext m (.ok after) (.ok mafter)

theorem Mirrored.fits {s : VectorStateV1} {m : Mirror.VectorStateV1} (h : Mirrored s m)
    (hsmall : m.Small) : s.FitsEvent := by
  refine le_u64Max_of_ints (fun x hx => hsmall x ?_)
  rw [← h.components] at hx
  exact List.mem_append_left _ hx

section

variable {env : Platform} {s : VectorStateV1} {m : Mirror.VectorStateV1}

theorem TwinVector.fits (h : TwinVector s m) : s.FitsEvent := h.mirrored.fits h.small

/-- Components of one length are certified if they fit. -/
theorem TwinVector.certified (h : TwinVector s m) (env : Platform) {mid : VectorStateV1}
    (hfits : mid.FitsEvent) (hlength : mid.components.length = s.components.length)
    (nowMs : UInt64) : ∃ certification, certifyState env mid true true nowMs = .ok certification :=
  certifyState_of_lt env (amountSum_lt_of_fitsEvent hfits (by rw [hlength]; exact h.dimensions))
    nowMs

/-- A state of the same vector with as many components passes the checks. -/
theorem TwinVector.canonical (h : TwinVector s m) {after : VectorStateV1}
    (hschema : after.schema = s.schema) (hsame : SameVector s after)
    (hlength : after.components.length = s.components.length) : CanonicalState after where
  schema := hschema.trans h.sound.canonical.schema
  components := by
    rw [← List.length_pos_iff, hlength, List.length_pos_iff]
    exact h.sound.canonical.components
  ownerPubkey := by rw [hsame.ownerPubkey]; exact h.sound.canonical.ownerPubkey
  vectorId := by rw [hsame.vectorId]; exact h.sound.canonical.vectorId
  spaceId := by rw [hsame.spaceId]; exact h.sound.canonical.spaceId

/-! ## Drain -/

/-- The fee of an amount below 2^64 is exact. -/
theorem toNat_drained {a : U128} (ha : a.toNat ≤ u64Max) {rate : UInt16}
    (hrate : rate.toNat ≤ 10000) :
    ((saturatingSub a (saturatingMul a (BitVec.ofNat 128 rate.toNat) / 10000)).toNat : ℤ) =
      a.toNat - a.toNat * rate.toNat / 10000 := by
  have hproduct : a.toNat * rate.toNat ≤ u64Max * 10000 := Nat.mul_le_mul ha hrate
  have hmin : min (a.toNat * rate.toNat) u128Max = a.toNat * rate.toNat := by
    rw [u64Max] at hproduct
    rw [u128Max]
    omega
  have hle := fee_le_amount a hrate
  rw [hmin] at hle
  rw [toNat_saturatingSub, toNat_fee, hmin, Int.ofNat_sub hle]
  push_cast
  rfl

theorem TwinVector.drain (h : TwinVector s m) (env : Platform) (now : ℕ → UInt64)
    (basisPoints : UInt16) :
    SameNext m (drainNext env now basisPoints s) (Mirror.drainNext basisPoints.toNat m) := by
  by_cases hle : basisPoints.toNat ≤ 10000
  · have hrate : (basisPoints / 2).toNat = basisPoints.toNat / 2 := by
      rw [UInt16.toNat_div]
      rfl
    -- Either way of certifying passes the threshold.
    have hpass : s.certification.threshold ≤ s.certification.authRatio := by
      rw [h.sound.threshold]
      rcases h.authRatio with hratio | hratio <;> rw [hratio] <;> decide
    have hpass' : m.certification.threshold ≤ m.certification.authRatio := by
      rw [h.mirrorSound.threshold, h.mirrorSound.authRatio]
      decide
    let fee : U128 → U128 := fun a =>
      saturatingMul a (BitVec.ofNat 128 (basisPoints / 2).toNat) / 10000
    let remaining := s.components.map (fun a => saturatingSub a (fee a))
    have hlength : remaining.length = s.components.length := List.length_map _
    have hfits : ∀ c ∈ remaining, c.toNat ≤ u64Max := by
      intro c hc
      obtain ⟨a, ha, rfl⟩ := List.mem_map.mp hc
      have := h.fits a ha
      rw [toNat_saturatingSub]
      omega
    obtain ⟨certification, hcertification⟩ :=
      @TwinVector.certified s m h env { s with components := remaining } hfits hlength (now 0)
    have happly : applyDrain s.components basisPoints s.certification.authRatio
        s.certification.threshold = .ok (s.components.map fee, remaining) := by
      rw [applyDrain, Outcome.require_of (UInt16.le_iff_toNat_le.mpr hle), Outcome.ok_bind]
      simp only [if_pos hpass]
      rfl
    have hnext : drainNext env now basisPoints s = .ok { s with
        components := remaining, certification := certification, updatedAtMs := now 1,
        version := s.version + 1 } := by
      rw [drainNext, happly, Outcome.ok_bind]
      simp only [hcertification, u64Succ_of_lt _ h.version, Outcome.ok_bind]
      rfl
    have hnext' : Mirror.drainNext basisPoints.toNat m = .ok { m with
        components := m.components.map
          (fun c => c - c * ((basisPoints.toNat : ℤ) / 2) / 10000) } := by
      rw [Mirror.drainNext, Outcome.require_of (by exact_mod_cast hle), Outcome.ok_bind,
        if_pos hpass']
      rfl
    rw [hnext, hnext']
    refine .changed (h.canonical rfl (drainNext_ok hnext).1.same hlength)
      ⟨?_, h.mirrored.status, h.mirrored.projection⟩ ⟨rfl, rfl, rfl, rfl, rfl⟩
    show m.components.map _ = ints remaining
    rw [h.mirrored.components, ints, ints, List.map_map, List.map_map]
    refine List.map_congr_left (fun a ha => ?_)
    rw [Function.comp_apply, Function.comp_apply,
      toNat_drained (h.fits a ha) (by rw [hrate]; omega), hrate]
    push_cast
    rfl
  · obtain ⟨e, herr⟩ := (applyDrain_isErr_iff s.components basisPoints
      s.certification.authRatio s.certification.threshold).mpr (Nat.lt_of_not_le hle)
    rw [drainNext, herr, Mirror.drainNext, Outcome.require_of_not (by exact_mod_cast hle)]
    exact .rejected

/-! ## Projection -/

/-- Amounts that are covered are taken away exactly. -/
theorem ints_sub {xs ys : List U128} (h : (ys.zip xs).all (fun p => p.1 ≤ p.2) = true) :
    ints ((xs.zip ys).map (fun p => saturatingSub p.1 p.2)) =
      ((ints xs).zip (ints ys)).map (fun p => p.1 - p.2) := by
  refine ints_map_zip (fun p hp => ?_)
  have hle : p.2.toNat ≤ p.1.toNat := by
    have hmem : (p.2, p.1) ∈ ys.zip xs := by
      rw [← List.zip_swap]
      exact List.mem_map_of_mem hp
    simpa [BitVec.le_def] using List.all_eq_true.mp h _ hmem
  rw [toNat_saturatingSub, Int.ofNat_sub hle]

/-- Amounts below 2^64 are added exactly. -/
theorem ints_add {xs ys : List U128} (hxs : ∀ a ∈ xs, a.toNat ≤ u64Max)
    (hys : ∀ a ∈ ys, a.toNat ≤ u64Max) :
    ints ((xs.zip ys).map (fun p => saturatingAdd p.1 p.2)) =
      ((ints xs).zip (ints ys)).map (fun p => p.1 + p.2) := by
  refine ints_map_zip (fun p hp => ?_)
  obtain ⟨hx, hy⟩ := List.of_mem_zip hp
  have := hxs _ hx
  have := hys _ hy
  rw [u64Max] at *
  rw [toNat_saturatingAdd, u128Max, Nat.min_eq_left (by omega), Nat.cast_add]

theorem TwinVector.project (h : TwinVector s m) (env : Platform) (now : ℕ → UInt64)
    (projected : List U128) (escrowId : String) (mirrorNow : ℤ) :
    SameNext m (projectNext env now projected escrowId s)
      (Mirror.projectNext mirrorNow (ints projected) escrowId m) := by
  have hlength' : (ints projected).length = m.components.length ↔
      projected.length = s.components.length := by
    rw [h.mirrored.components, length_ints, length_ints]
  by_cases hlength : projected.length = s.components.length
  · by_cases hcovered : (projected.zip s.components).all (fun pc => pc.1 ≤ pc.2) = true
    · have hcovered' : ((ints projected).zip m.components).all (fun pc => pc.1 ≤ pc.2) = true := by
        rw [h.mirrored.components]
        exact all_zip_ints_iff.mpr hcovered
      let remaining := (s.components.zip projected).map (fun cp => saturatingSub cp.1 cp.2)
      have hremaining : remaining.length = s.components.length := by simp [remaining, hlength]
      have hfits : ∀ c ∈ remaining, c.toNat ≤ u64Max := by
        intro c hc
        obtain ⟨p, hp, rfl⟩ := List.mem_map.mp hc
        have := h.fits _ (List.of_mem_zip hp).1
        rw [toNat_saturatingSub]
        omega
      let mid : VectorStateV1 := { s with
        components := remaining
        status := .projected
        vectorType := .projected
        projection := some {
          escrowId := escrowId
          projectedComponents := projected
          settledComponents := []
          startedAtMs := now 0
          settlementAtMs := none
          outcomeTag := none }
        updatedAtMs := now 0
        version := s.version + 1 }
      obtain ⟨certification, hcertification⟩ := h.certified env (show mid.FitsEvent from hfits)
        hremaining (now 1)
      have hmid : projectVector env s projected escrowId (now 0) = .ok mid := by
        rw [projectVector, Outcome.require_of hlength, Outcome.ok_bind,
          Outcome.require_of hcovered, Outcome.ok_bind, u64Succ_of_lt _ h.version]
        rfl
      have hnext : projectNext env now projected escrowId s =
          .ok { mid with certification := certification } := by
        rw [projectNext, hmid, Outcome.ok_bind, hcertification]
        rfl
      rw [hnext, Mirror.projectNext, Outcome.require_of (hlength'.mpr hlength), Outcome.ok_bind,
        Outcome.require_of hcovered', Outcome.ok_bind]
      refine .changed (h.canonical rfl (projectNext_ok hnext).1.same hremaining)
        ⟨?_, rfl, .some ⟨rfl, rfl⟩⟩ ⟨rfl, rfl, rfl, rfl, rfl⟩
      show (m.components.zip (ints projected)).map _ = ints remaining
      rw [h.mirrored.components]
      exact (ints_sub hcovered).symm
    · have hcovered' :
          ¬ ((ints projected).zip m.components).all (fun pc => pc.1 ≤ pc.2) = true := by
        rw [h.mirrored.components]
        exact fun hall => hcovered (all_zip_ints_iff.mp hall)
      rw [projectNext, projectVector, Outcome.require_of hlength, Outcome.ok_bind,
        Outcome.require_of_not hcovered, Mirror.projectNext,
        Outcome.require_of (hlength'.mpr hlength), Outcome.ok_bind,
        Outcome.require_of_not hcovered']
      exact .rejected
  · rw [projectNext, projectVector, Outcome.require_of_not hlength, Mirror.projectNext,
      Outcome.require_of_not (fun heq => hlength (hlength'.mp heq))]
    exact .rejected

/-! ## Settlement -/

/-- An entry of a settlement as the mirror holds it. -/
def intEntry (entry : (U128 × U128) × U128) : (ℤ × ℤ) × ℤ :=
  ((entry.1.1.toNat, entry.1.2.toNat), entry.2.toNat)

theorem zip_zip_ints (ps gs ls : List U128) :
    ((ints ps).zip (ints gs)).zip (ints ls) = ((ps.zip gs).zip ls).map intEntry := by
  rw [zip_ints, ints, List.zip_map]
  rfl

/-- The slots after an entry of the kernel's loop: one grows, or there is a new one. -/
def grownSlots (restored : List U128) (index : ℕ) (net : U128) : List U128 :=
  match restored[index]? with
  | some slot => restored.set index (saturatingAdd slot net)
  | none => restored ++ [net]

/-- The slots past the entry are as they were. -/
theorem getElem?_grownSlots (restored : List U128) {index i : ℕ} (net : U128) (hi : index < i) :
    (grownSlots restored index net)[i]? = restored[i]? := by
  unfold grownSlots
  split
  · rw [List.getElem?_set_ne (by omega)]
  · rename_i hget
    have hlength := List.getElem?_eq_none_iff.mp hget
    rw [List.getElem?_eq_none (by rw [List.length_append, List.length_singleton]; omega),
      List.getElem?_eq_none (by omega)]

theorem ints_grownSlots {restored : List U128} {index : ℕ} (net : U128)
    (hslot : ∀ c, restored[index]? = some c → c.toNat + net.toNat ≤ u128Max) :
    ints (grownSlots restored index net) =
      match (ints restored)[index]? with
        | some c => (ints restored).set index (c + net.toNat)
        | none => ints restored ++ [(net.toNat : ℤ)] := by
  unfold grownSlots
  cases hget : restored[index]? with
  | none =>
    have hget' : (ints restored)[index]? = none := by rw [ints, List.getElem?_map, hget]; rfl
    simp only [hget', ints_append]
    rfl
  | some slot =>
    have hget' : (ints restored)[index]? = some (slot.toNat : ℤ) := by
      rw [ints, List.getElem?_map, hget]
      rfl
    have hsum : ((saturatingAdd slot net).toNat : ℤ) = slot.toNat + net.toNat := by
      rw [toNat_saturatingAdd, Nat.min_eq_left (hslot slot hget), Nat.cast_add]
    simp only [hget']
    rw [ints, List.map_set, hsum, ints]

/-- The loop of the kernel and the two loops of the mirror: entries and slots below 2^64 give
the same settled values and the same slots, or a loss that both turn down. -/
theorem settleLoop_mirrors {index : ℕ} {entries : List ((U128 × U128) × U128)}
    {restored settled : List U128}
    (hentries : ∀ e ∈ entries, e.1.1.toNat ≤ u64Max ∧ e.1.2.toNat ≤ u64Max)
    (hslots : ∀ i c, index ≤ i → restored[i]? = some c → c.toNat ≤ u64Max) :
    (∃ e e', settleLoop index entries restored settled = .error (.err e) ∧
      Mirror.settle (entries.map intEntry) (ints settled) = .error (.err e')) ∨
    ∃ restored' nets, settleLoop index entries restored settled =
        .ok (restored', settled ++ nets) ∧
      Mirror.settle (entries.map intEntry) (ints settled) = .ok (ints (settled ++ nets)) ∧
      ints restored' = Mirror.addSettled index (ints nets) (ints restored) := by
  induction entries generalizing index restored settled with
  | nil => exact Or.inr ⟨restored, [], by simp [settleLoop], by simp [Mirror.settle], rfl⟩
  | cons entry entries ih =>
    obtain ⟨⟨principal, gain⟩, loss⟩ := entry
    obtain ⟨⟨hprincipal, hgain⟩, hrest⟩ := List.forall_mem_cons.mp hentries
    simp only at hprincipal hgain
    rw [u64Max] at hprincipal hgain
    have hafterGain : (saturatingAdd principal gain).toNat = principal.toNat + gain.toNat := by
      rw [toNat_saturatingAdd, u128Max, Nat.min_eq_left (by omega)]
    by_cases hloss : saturatingAdd principal gain < loss
    · have hloss' : (principal.toNat : ℤ) + gain.toNat - loss.toNat < 0 := by
        rw [BitVec.lt_def, hafterGain] at hloss
        omega
      refine Or.inl ⟨_, .valueError "settlement rejected",
        by rw [settleLoop, if_pos hloss]; rfl, ?_⟩
      rw [List.map_cons, intEntry, Mirror.settle, if_pos hloss']
      rfl
    · have hcovered : loss.toNat ≤ principal.toNat + gain.toNat := by
        rw [BitVec.lt_def, hafterGain] at hloss
        omega
      have hloss' : ¬ (principal.toNat : ℤ) + gain.toNat - loss.toNat < 0 := by omega
      let net := saturatingAdd principal gain - loss
      have hnet : net.toNat = principal.toNat + gain.toNat - loss.toNat := by
        rw [BitVec.toNat_sub_of_le (by rwa [BitVec.le_def, hafterGain]), hafterGain]
      have hvalue : (principal.toNat : ℤ) + gain.toNat - loss.toNat = net.toNat := by omega
      have hslot := ints_grownSlots net (fun c hc => by
        have := hslots index c (Nat.le_refl _) hc
        rw [u64Max] at this
        rw [u128Max]
        omega)
      have hslots' : ∀ i c, index + 1 ≤ i → (grownSlots restored index net)[i]? = some c →
          c.toNat ≤ u64Max := by
        intro i c hi hc
        rw [getElem?_grownSlots restored net (by omega)] at hc
        exact hslots i c (by omega) hc
      have hstep : settleLoop index (((principal, gain), loss) :: entries) restored settled =
          settleLoop (index + 1) entries (grownSlots restored index net) (settled ++ [net]) := by
        rw [settleLoop, if_neg hloss]
        rfl
      have hstep' : Mirror.settle (intEntry ((principal, gain), loss) :: entries.map intEntry)
          (ints settled) = Mirror.settle (entries.map intEntry) (ints (settled ++ [net])) := by
        rw [intEntry, Mirror.settle, if_neg hloss', hvalue, ints_append]
        rfl
      rw [List.map_cons, hstep, hstep']
      rcases ih hrest hslots' with hrejected | ⟨restored', nets, hloop, hsettle, hrestored⟩
      · exact Or.inl hrejected
      · refine Or.inr ⟨restored', net :: nets, by rw [hloop, List.append_assoc]; rfl,
          by rw [hsettle, List.append_assoc]; rfl, ?_⟩
        rw [hrestored, hslot]
        rfl

/-- The projected amounts are below 2^64 too. -/
theorem TwinVector.projected_le (h : TwinVector s m) {p : ProjectionState}
    {q : Mirror.ProjectionState} (hq : m.projection = some q) (hsame : SameProjection p q) :
    ∀ a ∈ p.projectedComponents, a.toNat ≤ u64Max := by
  refine le_u64Max_of_ints (fun x hx => h.small x ?_)
  rw [← hsame.projected] at hx
  rw [Mirror.VectorStateV1.amounts, hq]
  exact List.mem_append_right _ (List.mem_append_left _ hx)

theorem TwinVector.reconstruct (h : TwinVector s m) (env : Platform) (now : ℕ → UInt64)
    {outcome : SettlementOutcome} (hgains : ∀ a ∈ outcome.gains, a.toNat ≤ u64Max)
    (mirrorNow : ℤ)
    (hsmall : ∀ mafter, Mirror.reconstructNext mirrorNow (ints outcome.gains)
      (ints outcome.losses) outcome.outcomeTag m = .ok mafter → mafter.Small) :
    SameNext m (reconstructNext env now outcome s) (Mirror.reconstructNext mirrorNow
      (ints outcome.gains) (ints outcome.losses) outcome.outcomeTag m) := by
  have hprojections := h.mirrored.projection
  cases hp : s.projection with
  | none =>
    cases hq : m.projection with
    | some q => rw [hp, hq] at hprojections; cases hprojections
    | none =>
      rw [reconstructNext, reconstructVector, hp, Mirror.reconstructNext, hq]
      exact .rejected
  | some p =>
    cases hq : m.projection with
    | none => rw [hp, hq] at hprojections; cases hprojections
    | some q =>
      rw [hp, hq, Option.rel_some_some] at hprojections
      have hshape := h.sound.shape p hp
      have hlength' : ((ints outcome.gains).length = (ints outcome.losses).length ∧
            (ints outcome.gains).length = q.projectedComponents.length) ↔
          (p.projectedComponents.length = outcome.gains.length ∧
            p.projectedComponents.length = outcome.losses.length) := by
        rw [hprojections.projected, length_ints, length_ints, length_ints]
        omega
      by_cases hlength : p.projectedComponents.length = outcome.gains.length ∧
          p.projectedComponents.length = outcome.losses.length
      · have hprojected := h.projected_le hq hprojections
        let entries := (p.projectedComponents.zip outcome.gains).zip outcome.losses
        have hentries : ∀ e ∈ entries, e.1.1.toNat ≤ u64Max ∧ e.1.2.toNat ≤ u64Max := by
          intro e he
          obtain ⟨hpair, _⟩ := List.of_mem_zip he
          obtain ⟨hprincipal, hgain⟩ := List.of_mem_zip hpair
          exact ⟨hprojected _ hprincipal, hgains _ hgain⟩
        have hlengthEntries : entries.length = s.components.length := by
          simp only [entries, List.length_zip]
          omega
        have hentriesInts : ((q.projectedComponents.zip (ints outcome.gains)).zip
            (ints outcome.losses)) = entries.map intEntry := by
          rw [hprojections.projected, zip_zip_ints]
        rcases @settleLoop_mirrors 0 entries s.components [] hentries
            (fun i c _ hc => h.fits c (List.mem_of_getElem? hc)) with
          ⟨e, e', hloop, hsettle⟩ | ⟨restored, nets, hloop, hsettle, hrestored⟩
        · rw [reconstructNext, reconstructVector, hp, Outcome.okOr, Outcome.ok_bind,
            Outcome.require_of hlength, Outcome.ok_bind, hloop, Mirror.reconstructNext, hq,
            Outcome.okOr, Outcome.ok_bind, Outcome.require_of (hlength'.mpr hlength),
            Outcome.ok_bind, hentriesInts]
          change SameNext m _ ((Mirror.settle _ (ints []) >>= _))
          rw [hsettle]
          exact .rejected
        · let mid : VectorStateV1 := { s with
            components := restored
            projection := some { p with
              settledComponents := nets
              settlementAtMs := some (now 0)
              outcomeTag := some outcome.outcomeTag }
            vectorType := .settlement
            status := .settled
            updatedAtMs := now 0
            version := s.version + 1 }
          let mafter : Mirror.VectorStateV1 := { m with
            components := Mirror.addSettled 0 (ints nets) m.components
            projection := some { q with
              settledComponents := ints nets
              settlementAtMs := some mirrorNow
              outcomeTag := some outcome.outcomeTag }
            vectorType := .settlement
            status := .settled }
          have hmid : reconstructVector env s outcome (now 0) = .ok mid := by
            rw [reconstructVector, hp, Outcome.okOr, Outcome.ok_bind, Outcome.require_of hlength,
              Outcome.ok_bind, hloop, Outcome.ok_bind]
            simp only [u64Succ_of_lt _ h.version, Outcome.ok_bind]
            rfl
          have hnext' : Mirror.reconstructNext mirrorNow (ints outcome.gains)
              (ints outcome.losses) outcome.outcomeTag m = .ok mafter := by
            rw [Mirror.reconstructNext, hq, Outcome.okOr, Outcome.ok_bind,
              Outcome.require_of (hlength'.mpr hlength), Outcome.ok_bind, hentriesInts]
            change (Mirror.settle _ (ints []) >>= _) = _
            rw [hsettle]
            rfl
          have hmirrored : Mirrored mid mafter := by
            refine ⟨?_, rfl, .some ⟨hprojections.projected, rfl⟩⟩
            show Mirror.addSettled 0 (ints nets) m.components = ints restored
            rw [h.mirrored.components, hrestored]
          have hremaining : restored.length = s.components.length :=
            (settleLoop_ok (by omega) hloop).1
          obtain ⟨certification, hcertification⟩ := h.certified env
            (hmirrored.fits (hsmall mafter hnext')) hremaining (now 1)
          have hnext : reconstructNext env now outcome s =
              .ok { mid with certification := certification } := by
            rw [reconstructNext, hmid, Outcome.ok_bind, hcertification]
            rfl
          rw [hnext, hnext']
          exact .changed (h.canonical rfl (reconstructNext_ok hp hshape hnext).1.same hremaining)
            ⟨hmirrored.components, rfl, hmirrored.projection⟩ ⟨rfl, rfl, rfl, rfl, rfl⟩
      · rw [reconstructNext, reconstructVector, hp, Outcome.okOr, Outcome.ok_bind,
          Outcome.require_of_not hlength, Mirror.reconstructNext, hq, Outcome.okOr,
          Outcome.ok_bind, Outcome.require_of_not (fun heq => hlength (hlength'.mp heq))]
        exact .rejected

end

end VKernelX
