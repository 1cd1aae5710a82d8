/-
  Engine/Panics.lean --- exactly when a call panics.

  Three things panic: a sum of amounts past 2^128 and a version past 2^64, where overflow is
  checked, and an amount past 2^64 that a record has to spell out.  The sums that only shrink
  fit in every reachable state, building and appending events never panics, and so each call
  has a short condition on its arguments and on the vectors it names.
-/
import VKernelX.Encoding.Hex
import VKernelX.Engine.Frame
import VKernelX.Engine.Magnitudes
import VKernelX.Engine.Minting
import VKernelX.Foundation.Panics
import VKernelX.Replay.Panics

set_option autoImplicit false

namespace VKernelX

open Outcome

section

variable {env : Platform}

/-! ## Steps that never return `Err` -/

theorem not_isErr_ofU128s (xs : List U128) : ¬ (Value.ofU128s xs).IsErr :=
  not_isErr_bind (not_isErr_mapM (fun _ => not_isErr_unwrap _) xs)
    (fun _ => not_isErr_ok _)

theorem not_isErr_u128Add (overflowChecks : Bool) (a b : U128) :
    ¬ (u128Add overflowChecks a b : Outcome KernelXError U128).IsErr := by
  unfold u128Add
  split
  · exact not_isErr_ok _
  · split
    · exact not_isErr_panicked
    · exact not_isErr_ok _

theorem not_isErr_certifyState (s : VectorStateV1) (nowMs : UInt64) :
    ¬ (certifyState env s true true nowMs).IsErr := by
  refine not_isErr_bind ?_ (fun _ => not_isErr_ok _)
  refine not_isErr_bind ?_ (fun _ => not_isErr_ok _)
  exact not_isErr_foldlM (not_isErr_u128Add env.overflowChecks) s.components 0

/-- Making the record of an update does not return `Err`. -/
theorem not_isErr_record {now : ℕ → UInt64} {c : Call} {u : Update}
    (hupdate : c.update? env now = some u) (before after : VectorStateV1) :
    ¬ (u.record before after).IsErr := by
  cases c with
  | certify vectorId =>
    obtain rfl := Option.some.inj hupdate
    exact not_isErr_ok _
  | drain vectorId basisPoints =>
    obtain rfl := Option.some.inj hupdate
    exact not_isErr_bind (not_isErr_ofU128s _) (fun _ => not_isErr_ok _)
  | project vectorId projected escrowId =>
    obtain rfl := Option.some.inj hupdate
    exact not_isErr_bind (not_isErr_ofU128s _) (fun _ => not_isErr_ok _)
  | reconstruct vectorId outcome =>
    obtain rfl := Option.some.inj hupdate
    exact not_isErr_bind (not_isErr_ofU128s _) (fun _ =>
      not_isErr_bind (not_isErr_ofU128s _) (fun _ => not_isErr_ok _))
  | originCreate _ => cases hupdate
  | transfer _ _ _ => cases hupdate
  | createRegion _ _ => cases hupdate

theorem not_isErr_transferSideRecord (direction : String) (before after : VectorStateV1)
    (amount : List U128) (nowMs : UInt64) :
    ¬ (transferSideRecord env direction before after amount nowMs).IsErr :=
  not_isErr_bind
    (not_isErr_bind (not_isErr_ofU128s _) (fun _ => not_isErr_ok _))
    (fun _ => not_isErr_ok _)

/-- Making the records of a transfer does not return `Err`. -/
theorem not_isErr_transferRecords (plan : TransferPlan) (now : ℕ → UInt64)
    (amount : List U128) : ¬ (plan.records env now amount).IsErr := by
  refine not_isErr_bind ?_ (fun _ => not_isErr_ok _)
  refine not_isErr_bind (not_isErr_certifyState _ _) (fun _ => ?_)
  refine not_isErr_bind (not_isErr_certifyState _ _) (fun _ => ?_)
  refine not_isErr_bind (not_isErr_transferSideRecord _ _ _ _ _) (fun _ => ?_)
  exact not_isErr_bind (not_isErr_transferSideRecord _ _ _ _ _)
    (fun _ => not_isErr_ok _)

end

/-! ## What panics -/

/-- A sum that does not fit, where overflow is checked. -/
def SumOverflows (env : Platform) (sum : ℕ) : Prop :=
  env.overflowChecks = true ∧ 2 ^ 128 ≤ sum

/-- A version that cannot be counted up, where overflow is checked. -/
def VersionOverflows (env : Platform) (s : VectorStateV1) : Prop :=
  env.overflowChecks = true ∧ s.version.toNat + 1 = 2 ^ 64

/-- An amount that `json!` has no number for. -/
def Wide (amounts : List U128) : Prop := ∃ a ∈ amounts, u64Max < a.toNat

theorem panics_ofU128s_iff {amounts : List U128} :
    (Value.ofU128s amounts).Panics ↔ Wide amounts := by
  constructor
  · intro h
    by_contra hnot
    have hfit : ∀ a ∈ amounts, a.toNat ≤ u64Max :=
      fun a ha => Nat.le_of_not_lt (fun hwide => hnot ⟨a, ha, hwide⟩)
    obtain ⟨v, hv⟩ := exists_ofU128s hfit
    rw [hv] at h
    exact not_panics_ok v h
  · rintro ⟨a, ha, hwide⟩
    refine (panics_or_ok (not_isErr_ofU128s amounts)).resolve_right ?_
    rintro ⟨v, hv⟩
    exact absurd (le_u64Max_of_ofU128s hv a ha) (by omega)

theorem wide_iff {amounts : List U128} : Wide amounts ↔ ∃ i, u64Max < amountAt amounts i := by
  constructor
  · rintro ⟨a, ha, hwide⟩
    obtain ⟨i, hi, rfl⟩ := List.getElem_of_mem ha
    exact ⟨i, by simpa [amountAt, hi] using hwide⟩
  · rintro ⟨i, hi⟩
    by_contra hnot
    have hfit : ∀ a ∈ amounts, a.toNat ≤ u64Max :=
      fun a ha => Nat.le_of_not_lt (fun hwide => hnot ⟨a, ha, hwide⟩)
    exact absurd (amountAt_le hfit i) (by omega)

section

variable {env : Platform}

theorem panics_magnitude_iff {s : VectorStateV1} :
    (s.magnitude env.overflowChecks).Panics ↔ SumOverflows env (amountSum s.components) := by
  by_cases hfit : amountSum s.components < 2 ^ 128
  · obtain ⟨m, hok, _⟩ := magnitude_of_lt env.overflowChecks hfit
    rw [hok]
    exact ⟨fun h => absurd h (not_panics_ok m), fun h => absurd hfit (by simpa using h.2)⟩
  · cases hchecks : env.overflowChecks with
    | true =>
      refine ⟨fun _ => ⟨hchecks, by simpa using hfit⟩, fun _ => ?_⟩
      have hnotErr : ¬ (s.magnitude true).IsErr :=
        not_isErr_foldlM (not_isErr_u128Add true) s.components 0
      refine (panics_or_ok hnotErr).resolve_right ?_
      rintro ⟨m, hok⟩
      exact hfit (by simpa using amountSum_lt_of_foldlM hok)
    | false =>
      refine ⟨fun h => absurd h (NoPanic.not_panics ?_), fun h => ?_⟩
      · refine noPanic_foldlM (fun a _ sum => ?_) 0
        unfold u128Add
        split <;> exact noPanic_ok _
      · rw [h.1] at hchecks
        cases hchecks

theorem panics_certifyState_iff {s : VectorStateV1} {o v : Bool} {nowMs : UInt64} :
    (certifyState env s o v nowMs).Panics ↔ SumOverflows env (amountSum s.components) := by
  simp only [certifyState, computeAuthRatio, panics_bind_iff, not_panics_pure, and_false,
    exists_false, or_false, panics_magnitude_iff]

/-- Without an overflow the certification is made. -/
theorem certifyState_of_fit {s : VectorStateV1} (hfit : ¬ SumOverflows env (amountSum s.components))
    (nowMs : UInt64) : ∃ certification, certifyState env s true true nowMs = .ok certification :=
  (panics_or_ok (not_isErr_certifyState s nowMs)).resolve_left
    (fun h => hfit (panics_certifyState_iff.mp h))

/-- Amounts that only went down do not overflow. -/
theorem not_sumOverflows_of_le {amounts amounts' : List U128}
    (hfit : ¬ SumOverflows env (amountSum amounts'))
    (hlength : amounts.length = amounts'.length)
    (hle : ∀ i, amountAt amounts i ≤ amountAt amounts' i) :
    ¬ SumOverflows env (amountSum amounts) :=
  fun h => hfit ⟨h.1, h.2.trans (amountSum_le hlength hle)⟩

theorem not_isErr_u64Succ {overflowChecks : Bool} {n : UInt64} :
    ¬ (u64Succ (ε := KernelXError) overflowChecks n).IsErr := by
  rintro ⟨e, he⟩
  exact u64Succ_ne_err overflowChecks n e he

theorem panics_version_iff {s : VectorStateV1} :
    (u64Succ (ε := KernelXError) env.overflowChecks s.version).Panics ↔ VersionOverflows env s :=
  panics_u64Succ_iff

end

/-! ## Events never panic -/

theorem noPanic_hexDecode (s : String) : (hexDecode s).NoPanic := by
  by_cases h : (strBytes s).length % 2 = 0 ∧ ∀ c ∈ s.toList, IsHexDigit c
  · obtain ⟨bytes, hok, _⟩ := hexDecode_of_hexDigits h.1 h.2
    rw [hok]
    exact noPanic_ok bytes
  · obtain ⟨e, herr⟩ := hexDecode_isErr h
    rw [herr]
    exact noPanic_fail e

section

variable (env : Platform)

theorem noPanic_verifyingKeyFromHex (publicKeyHex : String) :
    (verifyingKeyFromHex env publicKeyHex).NoPanic := by
  refine noPanic_bind (noPanic_hexDecode _) (fun bytes _ => ?_)
  refine noPanic_bind (noPanic_require _ _) (fun _ _ => ?_)
  split
  · exact noPanic_fail _
  · exact noPanic_ok _

theorem noPanic_verifyEventSignature (verifyingKey payload : List UInt8) (signatureHex : String) :
    (verifyEventSignature env verifyingKey payload signatureHex).NoPanic := by
  refine noPanic_bind (noPanic_hexDecode _) (fun bytes _ => ?_)
  split
  · exact noPanic_fail _
  · exact noPanic_ok _

theorem noPanic_validateEvent (e : VectorEvent) : (validateEvent env e).NoPanic := by
  refine noPanic_bind (noPanic_require _ _) (fun _ _ => ?_)
  refine noPanic_bind (noPanic_require _ _) (fun _ _ => ?_)
  refine noPanic_bind (noPanic_require _ _) (fun _ _ => ?_)
  refine noPanic_bind (noPanic_require _ _) (fun _ _ => ?_)
  refine noPanic_bind (noPanic_require _ _) (fun _ _ => ?_)
  refine noPanic_bind (noPanic_require _ _) (fun _ _ => ?_)
  refine noPanic_bind (noPanic_require _ _) (fun _ _ => ?_)
  refine noPanic_bind (noPanic_require _ _) (fun _ _ => ?_)
  split
  · refine noPanic_bind (noPanic_require _ _) (fun _ _ => ?_)
    exact noPanic_bind (noPanic_require _ _) (fun _ _ => noPanic_require _ _)
  · split
    · refine noPanic_bind (noPanic_mapErr_iff.mpr (noPanic_verifyingKeyFromHex env _))
        (fun key _ => ?_)
      exact noPanic_bind (noPanic_mapErr_iff.mpr (noPanic_verifyEventSignature env key _ _))
        (fun _ _ => noPanic_require _ _)
    · exact noPanic_ok _

theorem noPanic_admitEvent (eng : KernelEngine) (e : VectorEvent) :
    (admitEvent env eng e).NoPanic := by
  refine noPanic_bind (noPanic_validateEvent env e) (fun _ _ => ?_)
  refine noPanic_bind (noPanic_forM (fun _ _ => noPanic_require _ _)) (fun _ _ => ?_)
  refine noPanic_bind (noPanic_require _ _) (fun _ _ => ?_)
  refine noPanic_bind (noPanic_require _ _) (fun _ _ => ?_)
  exact noPanic_bind (noPanic_require _ _) (fun _ _ => noPanic_require _ _)

theorem noPanic_vectorV1ToEventState (s : VectorStateV1) : (vectorV1ToEventState s).NoPanic :=
  noPanic_bind (noPanic_mapM (fun _ => noPanic_okOr _ _) _) (fun _ _ => noPanic_ok _)

theorem noPanic_transitionEvent (eng : KernelEngine) (before : Option VectorStateV1)
    (after : VectorStateV1) (operation : OperationType) (timestamp : UInt64)
    (parentHashes : List String) :
    (transitionEvent env eng before after operation timestamp parentHashes).NoPanic := by
  have hbefore : (eventStateBefore before after).NoPanic := by
    cases before with
    | none => exact noPanic_ok _
    | some s => exact noPanic_vectorV1ToEventState s
  have hsequence : (eng.nextEventSequenceForEntity after.vectorId after.spaceId).NoPanic := by
    unfold KernelEngine.nextEventSequenceForEntity
    dsimp only
    split
    · exact noPanic_ok _
    · exact noPanic_fail _
  refine noPanic_bind (noPanic_bind hbefore (fun _ _ => ?_))
    (fun e _ => noPanic_bind (noPanic_admitEvent env eng e) (fun _ _ => noPanic_ok _))
  refine noPanic_bind (noPanic_vectorV1ToEventState after) (fun _ _ => ?_)
  exact noPanic_bind hsequence (fun _ _ => noPanic_ok _)

/-! Neither does the event of a region. -/

theorem noPanic_validateRegionCreateRequest (request : RegionCreateRequest) :
    (validateRegionCreateRequest request).NoPanic := by
  refine noPanic_bind (noPanic_require _ _) (fun _ _ => ?_)
  refine noPanic_bind (noPanic_require _ _) (fun _ _ => ?_)
  refine noPanic_bind (noPanic_require _ _) (fun _ _ => ?_)
  refine noPanic_bind (noPanic_require _ _) (fun _ _ => ?_)
  refine noPanic_bind (noPanic_require _ _) (fun _ _ => ?_)
  split <;> exact noPanic_require _ _

theorem noPanic_verifyRegionCreateRequestSignature (actorPublicKey : String)
    (request : RegionCreateRequest) :
    (verifyRegionCreateRequestSignature env actorPublicKey request).NoPanic := by
  refine noPanic_bind (noPanic_mapErr_iff.mpr (noPanic_verifyingKeyFromHex env _))
    (fun key _ => ?_)
  exact noPanic_bind (noPanic_mapErr_iff.mpr (noPanic_verifyEventSignature env key _ _))
    (fun _ _ => noPanic_require _ _)

theorem noPanic_findRegionByLookupKey (events : List VectorEvent) (regionName : String)
    (regionPrefix : Option String) :
    (findRegionByLookupKey events regionName regionPrefix).NoPanic := by
  refine noPanic_bind (noPanic_bind (noPanic_foldlM (fun e _ regions => ?_) _)
    (fun _ _ => noPanic_ok _)) (fun _ _ => noPanic_ok _)
  split
  · exact noPanic_bind (noPanic_regionStateFromEvent e) (fun _ _ => noPanic_ok _)
  · exact noPanic_ok _

theorem noPanic_regionEvent (now : ℕ → UInt64) (request : RegionCreateRequest)
    (actorPublicKey : String) (eng : KernelEngine) :
    (regionEvent env now request actorPublicKey eng).NoPanic := by
  refine noPanic_bind (noPanic_validateRegionCreateRequest request) (fun _ _ => ?_)
  refine noPanic_bind (noPanic_verifyRegionCreateRequestSignature env _ _) (fun _ _ => ?_)
  refine noPanic_bind (noPanic_findRegionByLookupKey _ _ _) (fun _ _ => ?_)
  refine noPanic_bind (noPanic_require _ _) (fun _ _ => ?_)
  refine noPanic_bind (noPanic_require _ _) (fun _ _ => ?_)
  refine noPanic_bind (noPanic_bind (noPanic_validateRegionCreateRequest request)
    (fun _ _ => noPanic_ok _)) (fun event _ => ?_)
  refine noPanic_bind (noPanic_require _ _) (fun _ _ => ?_)
  exact noPanic_bind (noPanic_validateEvent env event) (fun _ _ => noPanic_ok _)

end

/-! ## Next states -/

theorem CanonicalState.recertified {s : VectorStateV1} (h : CanonicalState s)
    {certification : CertificationState} :
    CanonicalState { s with certification := certification } :=
  ⟨h.schema, h.components, h.ownerPubkey, h.vectorId, h.spaceId⟩

section

variable {env : Platform} {now : ℕ → UInt64} {s : VectorStateV1}

/-- A certification fails on the version at most. -/
theorem certifyNext_of_fit (hfit : ¬ SumOverflows env (amountSum s.components)) :
    ((certifyNext env now s).Panics ↔ VersionOverflows env s) ∧
      ¬ (certifyNext env now s).IsErr := by
  obtain ⟨certification, hcertify⟩ := certifyState_of_fit hfit (now 0)
  rw [certifyNext, hcertify, Outcome.ok_bind]
  refine ⟨?_, not_isErr_bind not_isErr_u64Succ (fun _ => not_isErr_ok _)⟩
  simp only [panics_bind_iff, panics_version_iff, not_panics_pure, and_false, exists_false,
    or_false]

/-- A drain of a possible rate fails on the version at most. -/
theorem drainNext_of_le (now : ℕ → UInt64)
    (hfit : ¬ SumOverflows env (amountSum s.components))
    {basisPoints : UInt16} (hle : basisPoints.toNat ≤ 10000) :
    ((drainNext env now basisPoints s).Panics ↔ VersionOverflows env s) ∧
      ¬ (drainNext env now basisPoints s).IsErr := by
  obtain ⟨drained, remaining, hdrain, _, hlength, hamounts⟩ :=
    applyDrain_ok s.components s.certification.authRatio s.certification.threshold hle
  have hremaining : ¬ SumOverflows env (amountSum remaining) :=
    not_sumOverflows_of_le hfit hlength (fun i => by
      have := (hamounts i).2
      omega)
  obtain ⟨certification, hcertify⟩ :=
    certifyState_of_fit (s := { s with components := remaining }) hremaining (now 0)
  rw [drainNext, hdrain, Outcome.ok_bind]
  simp only [hcertify, Outcome.ok_bind]
  refine ⟨?_, not_isErr_bind not_isErr_u64Succ (fun _ => not_isErr_ok _)⟩
  simp only [panics_bind_iff, panics_version_iff, not_panics_pure, and_false, exists_false,
    or_false]

theorem drainNext_isErr {basisPoints : UInt16} (h : ¬ basisPoints.toNat ≤ 10000) :
    (drainNext env now basisPoints s).IsErr := by
  obtain ⟨e, he⟩ := (applyDrain_isErr_iff s.components basisPoints s.certification.authRatio
    s.certification.threshold).mpr (by omega)
  rw [drainNext, he]
  exact isErr_err e

/-- What a drain leaves of an amount. -/
theorem drainNext_component {basisPoints : UInt16} {after : VectorStateV1}
    (h : drainNext env now basisPoints s = .ok after) (i : ℕ) :
    after.component i = s.component i - min (s.component i *
      drainRate basisPoints s.certification.authRatio s.certification.threshold) u128Max /
        10000 := by
  obtain ⟨drained, hamounts⟩ := drainNext_components h
  obtain ⟨_, _, hok, _, _, hfees⟩ := applyDrain_ok s.components s.certification.authRatio
    s.certification.threshold (applyDrain_le hamounts)
  obtain ⟨rfl, rfl⟩ := Prod.mk.inj (Except.ok.inj (hamounts.symm.trans hok))
  obtain ⟨hfee, hsum⟩ := hfees i
  simp only [VectorStateV1.component]
  omega

/-- Amounts a vector can give. -/
structure CoveredBy (amounts : List U128) (s : VectorStateV1) : Prop where
  length_eq : amounts.length = s.components.length
  le : ∀ i, amountAt amounts i ≤ s.component i

/-- The check of the code, before it takes amounts from a vector. -/
theorem coveredBy_iff {amounts : List U128} (hlength : amounts.length = s.components.length) :
    (amounts.zip s.components).all (fun ab => ab.1 ≤ ab.2) = true ↔ CoveredBy amounts s := by
  constructor
  · intro hcovered
    exact ⟨hlength, amountAt_le_of_zip hlength (by simpa using hcovered)⟩
  · intro h
    simp only [List.all_eq_true, decide_eq_true_eq]
    intro ab hab
    obtain ⟨i, hi, rfl⟩ := List.getElem_of_mem hab
    rw [List.length_zip] at hi
    have hle := h.le i
    have hl : i < amounts.length := by omega
    have hr : i < s.components.length := by omega
    simpa [amountAt, VectorStateV1.component, hl, hr, BitVec.le_def] using hle

theorem projectNext_of_covered (now : ℕ → UInt64)
    (hfit : ¬ SumOverflows env (amountSum s.components))
    {projected : List U128} {escrowId : String} (hcovered : CoveredBy projected s) :
    ((projectNext env now projected escrowId s).Panics ↔ VersionOverflows env s) ∧
      ¬ (projectNext env now projected escrowId s).IsErr := by
  have hlength := hcovered.length_eq
  -- What is left of the balance is certified without a panic.
  have hleft : ¬ SumOverflows env (amountSum ((s.components.zip projected).map
      (fun cp => saturatingSub cp.1 cp.2))) := by
    refine not_sumOverflows_of_le hfit (by simp [hlength]) (fun i => ?_)
    have hget := getD_map_zip hlength.symm (fun cp => saturatingSub cp.1 cp.2) (by decide) i
    rw [amountAt, hget, toNat_saturatingSub]
    exact Nat.sub_le _ _
  rw [projectNext, projectVector, Outcome.require_of hlength, Outcome.ok_bind,
    Outcome.require_of ((coveredBy_iff hlength).mpr hcovered), Outcome.ok_bind, bind_assoc]
  refine ⟨?_, not_isErr_bind not_isErr_u64Succ (fun _ => ?_)⟩
  · simp only [pure_bind, panics_bind_iff, panics_certifyState_iff, not_panics_pure, and_false,
      exists_false, or_false, hleft, panics_version_iff]
  · rw [pure_bind]
    exact not_isErr_bind (not_isErr_certifyState _ _) (fun _ => not_isErr_ok _)

/-- Amounts the vector cannot give are turned down. -/
theorem projectNext_isErr {projected : List U128} {escrowId : String}
    (h : ¬ CoveredBy projected s) : (projectNext env now projected escrowId s).IsErr := by
  rw [projectNext, projectVector]
  by_cases hlength : projected.length = s.components.length
  · rw [Outcome.require_of hlength, Outcome.ok_bind,
      Outcome.require_of_not (fun hle => h ((coveredBy_iff hlength).mp hle))]
    exact isErr_err _
  · rw [Outcome.require_of_not hlength]
    exact isErr_err _

/-! A settlement adds to the balance, so its sum can overflow. -/

/-- The loop goes through when each principal with its gain covers its loss. -/
theorem exists_settleLoop {index : ℕ} {entries : List ((U128 × U128) × U128)}
    {restored settled : List U128}
    (h : ∀ entry ∈ entries, entry.2 ≤ saturatingAdd entry.1.1 entry.1.2) :
    ∃ result, settleLoop index entries restored settled = .ok result := by
  induction entries generalizing index restored settled with
  | nil => exact ⟨_, rfl⟩
  | cons entry entries ih =>
    obtain ⟨⟨principal, gain⟩, loss⟩ := entry
    obtain ⟨hcovered, hrest⟩ := List.forall_mem_cons.mp h
    have hnotLess : ¬ saturatingAdd principal gain < loss := BitVec.not_lt.mpr hcovered
    rw [settleLoop]
    simp only [if_neg hnotLess]
    exact ih hrest

/-- An amount of the balance after a settlement. -/
def settledAmount (outcome : SettlementOutcome) (projection : ProjectionState)
    (s : VectorStateV1) (i : ℕ) : ℕ :=
  min (s.component i +
    (min (amountAt projection.projectedComponents i + amountAt outcome.gains i) u128Max -
      amountAt outcome.losses i)) u128Max

/-- The balance after a settlement, added up. -/
def settledSum (outcome : SettlementOutcome) (projection : ProjectionState)
    (s : VectorStateV1) : ℕ :=
  ∑ i ∈ Finset.range s.components.length, settledAmount outcome projection s i

/-- The loop of a fitting settlement goes through and leaves that balance. -/
theorem settleLoop_of_fits {outcome : SettlementOutcome} {projection : ProjectionState}
    (hshape : projection.projectedComponents.length = s.components.length)
    (hfits : Fits outcome projection) :
    ∃ restored settled, settleLoop 0
        ((projection.projectedComponents.zip outcome.gains).zip outcome.losses) s.components [] =
          .ok (restored, settled) ∧ amountSum restored = settledSum outcome projection s := by
  obtain ⟨hgains, hlosses, hcovered⟩ := hfits
  have hentries : ((projection.projectedComponents.zip outcome.gains).zip
      outcome.losses).length = s.components.length := by
    rw [List.length_zip, List.length_zip]
    omega
  -- The entries of the loop, by position.
  have hat : ∀ (l : List U128) (i : ℕ) (h : i < l.length), amountAt l i = l[i].toNat := by
    intro l i h
    simp [amountAt, h]
  have hloop : ∃ result, settleLoop 0
      ((projection.projectedComponents.zip outcome.gains).zip outcome.losses) s.components [] =
        .ok result := by
    refine exists_settleLoop (fun entry hentry => ?_)
    obtain ⟨i, hi, rfl⟩ := List.getElem_of_mem hentry
    rw [hentries] at hi
    have := hcovered i
    rw [hat _ i (by omega), hat _ i (by omega), hat _ i (by omega)] at this
    simpa only [List.getElem_zip, BitVec.le_def, toNat_saturatingAdd] using this
  obtain ⟨⟨restored, settled⟩, hloop⟩ := hloop
  refine ⟨restored, settled, hloop, ?_⟩
  obtain ⟨hlength, hamounts, _⟩ := settleLoop_ok (by omega) hloop
  rw [amountSum_eq_sum_range, hlength, settledSum]
  refine Finset.sum_congr rfl (fun i hi => ?_)
  have hi' : i < s.components.length := Finset.mem_range.mp hi
  have hamount := (hamounts i (by omega)).2
  rw [Nat.zero_add] at hamount
  simp only [List.getElem_zip] at hamount
  rw [hamount, settledAmount, hat projection.projectedComponents i (by omega),
    hat outcome.gains i (by omega), hat outcome.losses i (by omega), VectorStateV1.component]

theorem reconstructNext_of_fits (env : Platform) (now : ℕ → UInt64) (hsound : SoundState s)
    {outcome : SettlementOutcome}
    {projection : ProjectionState} (hprojection : s.projection = some projection)
    (hfits : Fits outcome projection) :
    ((reconstructNext env now outcome s).Panics ↔
      VersionOverflows env s ∨ SumOverflows env (settledSum outcome projection s)) ∧
      ¬ (reconstructNext env now outcome s).IsErr := by
  obtain ⟨restored, settled, hloop, hsum⟩ :=
    settleLoop_of_fits (hsound.shape projection hprojection) hfits
  have hlengths := And.intro hfits.1 hfits.2.1
  rw [reconstructNext, reconstructVector, hprojection, Outcome.okOr, Outcome.ok_bind,
    Outcome.require_of hlengths, Outcome.ok_bind, hloop, Outcome.ok_bind, bind_assoc]
  refine ⟨?_, not_isErr_bind not_isErr_u64Succ (fun _ => ?_)⟩
  · rw [panics_bind_iff]
    simp only [pure_bind, panics_bind_iff, panics_certifyState_iff, not_panics_pure,
      and_false, exists_false, or_false, hsum]
    rw [panics_or_ok_and_iff not_isErr_u64Succ (fun _ _ => Iff.rfl), panics_version_iff]
  · rw [pure_bind]
    exact not_isErr_bind (not_isErr_certifyState _ _) (fun _ => not_isErr_ok _)

/-! Neither a transfer nor a creation counts a version up. -/

/-- An amount of the receiver's balance after a transfer. -/
def receivedAmount (amount : List U128) (receiver : VectorStateV1) (i : ℕ) : ℕ :=
  min (receiver.component i + amountAt amount i) u128Max

/-- The balance of the receiver after a transfer, added up. -/
def receivedSum (amount : List U128) (receiver : VectorStateV1) : ℕ :=
  ∑ i ∈ Finset.range amount.length, receivedAmount amount receiver i

theorem amountSum_received {amount : List U128} {receiver : VectorStateV1}
    (hlength : receiver.components.length = amount.length) :
    amountSum ((receiver.components.zip amount).map (fun ca => saturatingAdd ca.1 ca.2)) =
      receivedSum amount receiver := by
  rw [amountSum_eq_sum_range, List.length_map, List.length_zip, hlength, min_self, receivedSum]
  refine Finset.sum_congr rfl (fun i _ => ?_)
  rw [amountAt, getD_map_zip hlength (fun ca => saturatingAdd ca.1 ca.2) (by decide) i,
    toNat_saturatingAdd]
  rfl

theorem not_panics_validateState (s : VectorStateV1) : ¬ (validateState s).Panics := by
  by_cases hcanonical : CanonicalState s
  · rw [(validateState_eq_ok_iff (u := ())).mpr hcanonical]
    exact not_panics_ok ()
  · obtain ⟨e, he⟩ := validateState_isErr_iff.mpr hcanonical
    rw [he]
    exact not_panics_err e

/-- A transfer of amounts the sender has, to a vector of the same length, fails on the
receiver's balance at most. -/
theorem transferNext_of_covered (env : Platform) (now : ℕ → UInt64) {amount : List U128}
    {sender receiver : VectorStateV1} (hsender : CanonicalState sender)
    (hreceiver : CanonicalState receiver)
    (hfit : ¬ SumOverflows env (amountSum sender.components))
    (hcovered : CoveredBy amount sender)
    (hto : receiver.components.length = amount.length) :
    ((transferNext env now amount sender receiver).Panics ↔
      SumOverflows env (receivedSum amount receiver)) ∧
      ¬ (transferNext env now amount sender receiver).IsErr := by
  have hlength := hcovered.length_eq.symm
  have hleft : ¬ SumOverflows env (amountSum ((sender.components.zip amount).map
      (fun ca => saturatingSub ca.1 ca.2))) := by
    refine not_sumOverflows_of_le hfit (by simp [hlength]) (fun i => ?_)
    have hget := getD_map_zip hlength (fun ca => saturatingSub ca.1 ca.2) (by decide) i
    rw [amountAt, hget, toNat_saturatingSub]
    exact Nat.sub_le _ _
  obtain ⟨senderCert, hsenderCert⟩ := certifyState_of_fit (s := { sender with
    components := (sender.components.zip amount).map (fun ca => saturatingSub ca.1 ca.2)
    vectorType := .standard }) hleft (now 0)
  -- Both new states are fit to be stored.
  have hvalid : ∀ {s : VectorStateV1}, CanonicalState s → s.components.length = amount.length →
      ∀ (f : U128 × U128 → U128) (vectorType : VectorType) (certification : CertificationState),
        validateState { s with
          components := (s.components.zip amount).map f
          vectorType := vectorType
          certification := certification } = .ok () := by
    intro s hs hslength f vectorType certification
    obtain ⟨hschema, hcomponents, howner, hid, hspace⟩ := hs
    refine validateState_eq_ok_iff.mpr ⟨hschema, fun hempty => hcomponents ?_, howner, hid, hspace⟩
    have := congrArg List.length hempty
    simp only [List.length_map, List.length_zip, List.length_nil] at this
    exact List.length_eq_zero_iff.mp (by omega)
  rw [transferNext, transferComponents, VectorStateV1.ensureSameShape,
    Outcome.require_of (hlength.trans hto.symm), Outcome.ok_bind, Outcome.require_of hlength,
    Outcome.ok_bind, Outcome.require_of ((coveredBy_iff hcovered.length_eq).mpr hcovered),
    Outcome.ok_bind]
  simp only [pure_bind, hsenderCert, Outcome.ok_bind, hvalid hsender hlength,
    hvalid hreceiver hto]
  refine ⟨?_, not_isErr_bind (not_isErr_certifyState _ _) (fun _ => not_isErr_ok _)⟩
  simp only [panics_bind_iff, panics_certifyState_iff, not_panics_pure, and_false, exists_false,
    or_false, amountSum_received hto]

/-- Any other transfer is turned down. -/
theorem transferNext_isErr {amount : List U128} {sender receiver : VectorStateV1}
    (h : ¬ (CoveredBy amount sender ∧ receiver.components.length = amount.length)) :
    (transferNext env now amount sender receiver).IsErr := by
  rw [transferNext, transferComponents, VectorStateV1.ensureSameShape]
  by_cases hshape : sender.components.length = receiver.components.length
  · rw [Outcome.require_of hshape, Outcome.ok_bind]
    by_cases hlength : sender.components.length = amount.length
    · rw [Outcome.require_of hlength, Outcome.ok_bind, Outcome.require_of_not (fun hle =>
        h ⟨(coveredBy_iff hlength.symm).mp hle, hshape.symm.trans hlength⟩)]
      exact isErr_err _
    · rw [Outcome.require_of_not hlength]
      exact isErr_err _
  · rw [Outcome.require_of_not hshape]
    exact isErr_err _

/-- Both new balances were certified, so they fit. -/
theorem transferNext_fit {amount : List U128} {sender receiver : VectorStateV1}
    {after : VectorStateV1 × VectorStateV1}
    (h : transferNext env now amount sender receiver = .ok after) :
    ¬ SumOverflows env (amountSum after.1.components) ∧
      ¬ SumOverflows env (amountSum after.2.components) := by
  simp only [transferNext, Outcome.bind_eq_ok_iff] at h
  obtain ⟨mid, _, senderCert, hsenderCert, receiverCert, hreceiverCert, _, _, _, _, hafter⟩ := h
  obtain rfl := Except.ok.inj hafter
  have hfit : ∀ {s : VectorStateV1} {nowMs : UInt64} {certification : CertificationState},
      certifyState env s true true nowMs = .ok certification →
        ¬ SumOverflows env (amountSum s.components) := by
    intro s nowMs certification hok hsum
    rw [← @panics_certifyState_iff env s true true nowMs, hok] at hsum
    exact not_panics_ok certification hsum
  exact ⟨@hfit mid.1 _ _ hsenderCert, @hfit mid.2 _ _ hreceiverCert⟩

/-- An admitted creation fails on its sum at most. -/
theorem originState_of_admitted (now : ℕ → UInt64) {request : OriginRequest}
    (h : request.Admitted env) :
    ((originState env now request).Panics ↔ SumOverflows env (amountSum request.components)) ∧
      ¬ (originState env now request).IsErr := by
  obtain ⟨s, hs, hcanonical, hcomponents⟩ : ∃ s, createOriginVector env request.vectorId
      request.ownerPubkey request.spaceId request.components request.seed request.nonce
      request.difficulty (now 0) = .ok s ∧ CanonicalState s ∧
        s.components = request.components := by
    rw [createOriginVector, Outcome.require_of h.proof]
    exact ⟨_, rfl, ⟨rfl, h.components, h.ownerPubkey, h.vectorId, h.spaceId⟩, rfl⟩
  have hcertified : ∀ certification,
      validateState { s with certification := certification } = .ok () :=
    fun _ => validateState_eq_ok_iff.mpr hcanonical.recertified
  rw [originState, hs, Outcome.ok_bind, (validateState_eq_ok_iff (u := ())).mpr hcanonical,
    Outcome.ok_bind]
  simp only [hcertified, Outcome.ok_bind]
  refine ⟨?_, not_isErr_bind (not_isErr_certifyState _ _) (fun _ => not_isErr_ok _)⟩
  simp only [panics_bind_iff, panics_certifyState_iff, not_panics_pure, and_false, exists_false,
    or_false, hcomponents]

/-- Any other creation is turned down. -/
theorem originState_isErr {request : OriginRequest} (h : ¬ request.Admitted env) :
    (originState env now request).IsErr := by
  refine originState_of_rejected ?_ now
  by_contra hrejected
  simp only [OriginRequest.Rejected, not_or, Bool.not_eq_false] at hrejected
  obtain ⟨hproof, hcomponents, howner, hid, hspace⟩ := hrejected
  exact h ⟨hproof, hcomponents, howner, hid, hspace⟩

theorem panics_originState_iff {request : OriginRequest} :
    (originState env now request).Panics ↔
      request.Admitted env ∧ SumOverflows env (amountSum request.components) := by
  by_cases hadmitted : request.Admitted env
  · rw [(originState_of_admitted now hadmitted).1, and_iff_right hadmitted]
  · have herr : (originState env now request).IsErr := originState_isErr hadmitted
    obtain ⟨e, he⟩ := herr
    rw [he]
    exact iff_of_false (not_panics_err e) (fun h => hadmitted h.1)

/-! ## Records -/

theorem not_panics_certifyRecord {vectorId : String} {before after : VectorStateV1} :
    ¬ (certifyRecord env vectorId now before after).Panics := not_panics_ok _

theorem panics_drainRecord_iff {vectorId : String} {basisPoints : UInt16}
    {before after : VectorStateV1} :
    (drainRecord env vectorId basisPoints now before after).Panics ↔ Wide after.components := by
  simp only [drainRecord, panics_bind_iff, panics_ofU128s_iff, not_panics_pure, and_false,
    exists_false, or_false]

theorem panics_projectRecord_iff {vectorId : String} {projected : List U128}
    {before after : VectorStateV1} :
    (projectRecord env vectorId projected now before after).Panics ↔ Wide projected := by
  simp only [projectRecord, panics_bind_iff, panics_ofU128s_iff, not_panics_pure, and_false,
    exists_false, or_false]

theorem panics_reconstructRecord_iff {vectorId : String} {outcome : SettlementOutcome}
    {before after : VectorStateV1} :
    (reconstructRecord env vectorId outcome now before after).Panics ↔
      Wide outcome.gains ∨ Wide outcome.losses := by
  rw [reconstructRecord, panics_bind_iff]
  simp only [panics_bind_iff (x := Value.ofU128s outcome.losses), panics_ofU128s_iff,
    not_panics_pure, and_false, exists_false, or_false]
  rw [← @panics_ofU128s_iff outcome.gains,
    panics_or_ok_and_iff (not_isErr_ofU128s outcome.gains) (fun _ _ => Iff.rfl)]

theorem panics_transferSideRecord_iff {direction : String} {before after : VectorStateV1}
    {amount : List U128} {nowMs : UInt64} :
    (transferSideRecord env direction before after amount nowMs).Panics ↔ Wide amount := by
  simp only [transferSideRecord, transferParams, panics_bind_iff, panics_ofU128s_iff,
    not_panics_pure, and_false, exists_false, or_false]

theorem panics_transferRecords_iff {amount : List U128}
    {beforeFrom beforeTo afterFrom afterTo : VectorStateV1}
    (hfrom : ¬ SumOverflows env (amountSum afterFrom.components))
    (hto : ¬ SumOverflows env (amountSum afterTo.components)) :
    (transferRecords env now amount beforeFrom beforeTo afterFrom afterTo).Panics ↔
      Wide amount := by
  obtain ⟨senderCert, hsenderCert⟩ := certifyState_of_fit hfrom (now 2)
  obtain ⟨receiverCert, hreceiverCert⟩ := certifyState_of_fit hto (now 3)
  rw [transferRecords, transferRecord, hsenderCert, Outcome.ok_bind, hreceiverCert,
    Outcome.ok_bind]
  simp only [panics_bind_iff, panics_transferSideRecord_iff, not_panics_pure, and_false,
    exists_false, or_false]
  constructor
  · rintro (h | ⟨_, _, h⟩) <;> exact h
  · exact Or.inl

end

/-! ## Calls -/

/-- What a call panics on: its arguments and the vectors it names. -/
def Call.Panics (env : Platform) (eng : KernelEngine) : Call → Prop
  | .originCreate request =>
      request.Admitted env ∧ SumOverflows env (amountSum request.components)
  | .certify vectorId => ∃ s, eng.store.getState vectorId = some s ∧ VersionOverflows env s
  | .transfer fromId toId amount => ∃ sender receiver,
      eng.store.getState fromId = some sender ∧ eng.store.getState toId = some receiver ∧
      CoveredBy amount sender ∧ receiver.components.length = amount.length ∧
      (SumOverflows env (receivedSum amount receiver) ∨ Wide amount)
  | .drain vectorId basisPoints => ∃ s, eng.store.getState vectorId = some s ∧
      basisPoints.toNat ≤ 10000 ∧ (VersionOverflows env s ∨ ∃ i, u64Max < s.component i -
        min (s.component i * drainRate basisPoints s.certification.authRatio
          s.certification.threshold) u128Max / 10000)
  | .project vectorId projected _ => ∃ s, eng.store.getState vectorId = some s ∧
      CoveredBy projected s ∧ (VersionOverflows env s ∨ Wide projected)
  | .reconstruct vectorId outcome => ∃ s projection, eng.store.getState vectorId = some s ∧
      s.projection = some projection ∧ Fits outcome projection ∧
      (VersionOverflows env s ∨ SumOverflows env (settledSum outcome projection s) ∨
        Wide outcome.gains ∨ Wide outcome.losses)
  | .createRegion _ _ => False

section

variable {env : Platform} {policy : ConsensusPolicy} {eng : KernelEngine} {now : ℕ → UInt64}

/-- What an update computes from a stored state is fit to be stored. -/
theorem update_next_canonical {c : Call} {u : Update} (hupdate : c.update? env now = some u)
    {s after : VectorStateV1} (hsound : SoundState s) (h : u.next s = .ok after) :
    CanonicalState after := by
  have hsame : SameVector s after := by
    cases c with
    | certify vectorId =>
      obtain rfl := Option.some.inj hupdate
      exact (certifyNext_ok h).1.same
    | drain vectorId basisPoints =>
      obtain rfl := Option.some.inj hupdate
      exact (drainNext_ok h).1.same
    | project vectorId projected escrowId =>
      obtain rfl := Option.some.inj hupdate
      exact (projectNext_ok h).1.same
    | reconstruct vectorId outcome =>
      obtain rfl := Option.some.inj hupdate
      obtain ⟨projection, hprojection⟩ := reconstructNext_projection h
      exact (reconstructNext_ok hprojection (hsound.shape projection hprojection) h).1.same
    | originCreate _ => cases hupdate
    | transfer _ _ _ => cases hupdate
    | createRegion _ _ => cases hupdate
  have hlength := update_next_length hupdate h hsound
  refine ⟨?_, ?_, ?_, ?_, ?_⟩
  · rw [(update_next_creation hupdate h).schema]
    exact hsound.canonical.schema
  · intro hempty
    rw [hempty, List.length_nil, eq_comm, List.length_eq_zero_iff] at hlength
    exact hsound.canonical.components hlength
  · rw [hsame.ownerPubkey]
    exact hsound.canonical.ownerPubkey
  · rw [hsame.vectorId]
    exact hsound.canonical.vectorId
  · rw [hsame.spaceId]
    exact hsound.canonical.spaceId

/-- With overflow checks every stored sum fits. -/
theorem ReachableEngine.not_sumOverflows (hreach : ReachableEngine env policy eng) {id : String}
    {s : VectorStateV1} (hs : eng.store.getState id = some s) :
    ¬ SumOverflows env (amountSum s.components) := by
  rintro ⟨hchecks, hsum⟩
  have hsums : eng.store.SumsFit := by
    refine Reachable.invariant_of_reachable _ _ (I := fun eng => eng.store.SumsFit) ?_ ?_ hreach
    · intro id s hs
      simp [KernelEngine.initial, MemoryStore.empty] at hs
    · intro eng c hreach hI
      exact hI.call hreach c.now (fun hunchecked => by simp [hchecks] at hunchecked)
  exact absurd (hsums id s hs) (by omega)

/-- An update up to its record. -/
def Update.recorded (u : Update) (eng : KernelEngine) : Outcome KernelXError VectorRecordV1 := do
  let (before, after) ← u.plan eng
  u.record before after

theorem Update.recorded_of_plan {u : Update} {before after : VectorStateV1}
    (hplan : u.plan eng = .ok (before, after)) : u.recorded eng = u.record before after := by
  rw [Update.recorded, hplan]
  rfl

/-- An update panics before its record is stored, if at all. -/
theorem UpdateEnds.panics_iff {u : Update} {r : Outcome KernelXError VectorStateV1}
    {eng' : KernelEngine} (h : UpdateEnds env eng u r eng') :
    (r.Panics ↔ (u.recorded eng).Panics) ∧ (r.Panics →
      eng'.store.records = eng.store.records ∧ eng'.store.events = eng.store.events) := by
  cases h with
  | rejected hplan =>
    refine ⟨panics_error_congr ?_, fun _ => ⟨rfl, rfl⟩⟩
    rw [Update.recorded, hplan]
    rfl
  | unrecorded before after hplan hrecord =>
    exact ⟨panics_error_congr ((Update.recorded_of_plan hplan).trans hrecord),
      fun _ => ⟨rfl, by simp⟩⟩
  | unappended before after rec hplan hrecord hevent =>
    have hnot : ¬ Panics (.error _ : Outcome KernelXError VectorStateV1) :=
      (noPanic_transitionEvent env eng _ _ _ _ _).not_panics_error hevent
    refine ⟨iff_of_false hnot ?_, fun h => absurd h hnot⟩
    rw [Update.recorded_of_plan hplan, hrecord]
    exact not_panics_ok rec
  | done before after rec e hplan hrecord hevent =>
    refine ⟨iff_of_false (not_panics_ok after) ?_, fun h => absurd h (not_panics_ok after)⟩
    rw [Update.recorded_of_plan hplan, hrecord]
    exact not_panics_ok rec

/-- The condition of an update, from those of its next state and its record. -/
theorem Update.panics_recorded_iff {u : Update} {P : VectorStateV1 → Prop}
    (h : ∀ s, eng.store.getState u.vectorId = some s → (((u.next s).Panics ∨
      ∃ after, u.next s = .ok after ∧ CanonicalState after ∧ (u.record s after).Panics) ↔ P s)) :
    (u.recorded eng).Panics ↔ ∃ s, eng.store.getState u.vectorId = some s ∧ P s := by
  simp only [Update.recorded, Update.plan, panics_bind_iff, not_panics_okOr, false_or,
    not_panics_validateState, not_panics_pure, and_false, exists_false, or_false,
    Outcome.bind_eq_ok_iff, Outcome.okOr_eq_ok_iff, validateState_eq_ok_iff]
  constructor
  · rintro (⟨s, hs, hnext⟩ | ⟨_, ⟨s, hs, after, hnext, _, hcanonical, hpair⟩, hrecord⟩)
    · exact ⟨s, hs, (h s hs).mp (Or.inl hnext)⟩
    · obtain rfl := Except.ok.inj hpair
      exact ⟨s, hs, (h s hs).mp (Or.inr ⟨after, hnext, hcanonical, hrecord⟩)⟩
  · rintro ⟨s, hs, hP⟩
    rcases (h s hs).mpr hP with hnext | ⟨after, hnext, hcanonical, hrecord⟩
    · exact Or.inl ⟨s, hs, hnext⟩
    · exact Or.inr ⟨(s, after), ⟨s, hs, after, hnext, (), hcanonical, rfl⟩, hrecord⟩

/-- An update panics on the way to its record exactly on what is listed for its call. -/
theorem panics_recorded_iff (hreach : ReachableEngine env policy eng) {c : Call} {u : Update}
    (hupdate : c.update? env now = some u) : (u.recorded eng).Panics ↔ c.Panics env eng := by
  have hsound : ∀ s, eng.store.getState u.vectorId = some s → SoundState s :=
    fun s hs => hreach.soundStates _ s hs
  have hcanonical : ∀ s after, eng.store.getState u.vectorId = some s → u.next s = .ok after →
      CanonicalState after :=
    fun s after hs h => update_next_canonical hupdate (hsound s hs) h
  cases c with
  | certify vectorId =>
    obtain rfl := Option.some.inj hupdate
    refine Update.panics_recorded_iff (fun s hs => ?_)
    simp only [(certifyNext_of_fit (hreach.not_sumOverflows hs)).1, not_panics_certifyRecord,
      and_false, exists_false, or_false]
  | drain vectorId basisPoints =>
    obtain rfl := Option.some.inj hupdate
    refine Update.panics_recorded_iff (fun s hs => ?_)
    by_cases hle : basisPoints.toNat ≤ 10000
    · obtain ⟨hpanics, hnotErr⟩ := drainNext_of_le now (hreach.not_sumOverflows hs) hle
      have hrecord : ∀ after, drainNext env now basisPoints s = .ok after →
          (CanonicalState after ∧ (drainRecord env vectorId basisPoints now s after).Panics ↔
            ∃ i, u64Max < s.component i - min (s.component i * drainRate basisPoints
              s.certification.authRatio s.certification.threshold) u128Max / 10000) := by
        intro after hafter
        rw [panics_drainRecord_iff, and_iff_right (hcanonical s after hs hafter), wide_iff]
        exact exists_congr (fun i => by rw [← drainNext_component hafter i]; rfl)
      rw [panics_or_ok_and_iff hnotErr hrecord, hpanics, and_iff_right hle]
    · exact iff_of_false (not_panics_or_ok (drainNext_isErr hle)) (fun h => hle h.1)
  | project vectorId projected escrowId =>
    obtain rfl := Option.some.inj hupdate
    refine Update.panics_recorded_iff (fun s hs => ?_)
    by_cases hcovered : CoveredBy projected s
    · obtain ⟨hpanics, hnotErr⟩ :=
        @projectNext_of_covered env s now (hreach.not_sumOverflows hs) projected escrowId hcovered
      have hrecord : ∀ after, projectNext env now projected escrowId s = .ok after →
          (CanonicalState after ∧ (projectRecord env vectorId projected now s after).Panics ↔
            Wide projected) := by
        intro after hafter
        rw [panics_projectRecord_iff, and_iff_right (hcanonical s after hs hafter)]
      rw [panics_or_ok_and_iff hnotErr hrecord, hpanics, and_iff_right hcovered]
    · exact iff_of_false (not_panics_or_ok (projectNext_isErr hcovered)) (fun h => hcovered h.1)
  | reconstruct vectorId outcome =>
    obtain rfl := Option.some.inj hupdate
    simp only [Call.Panics, exists_and_left]
    refine Update.panics_recorded_iff (fun s hs => ?_)
    by_cases hfits : ∃ projection, s.projection = some projection ∧ Fits outcome projection
    · obtain ⟨projection, hprojection, hfits⟩ := hfits
      obtain ⟨hpanics, hnotErr⟩ := reconstructNext_of_fits env now (hsound s hs) hprojection hfits
      have hrecord : ∀ after, reconstructNext env now outcome s = .ok after →
          (CanonicalState after ∧ (reconstructRecord env vectorId outcome now s after).Panics ↔
            Wide outcome.gains ∨ Wide outcome.losses) := by
        intro after hafter
        rw [panics_reconstructRecord_iff, and_iff_right (hcanonical s after hs hafter)]
      rw [panics_or_ok_and_iff hnotErr hrecord, hpanics, or_assoc]
      constructor
      · exact fun h => ⟨projection, hprojection, hfits, h⟩
      · rintro ⟨projection', hprojection', _, h⟩
        rwa [Option.some.inj (hprojection.symm.trans hprojection')]
    · have herr := @reconstructNext_of_not_fits env now outcome s (hsound s hs)
        (fun projection hprojection h => hfits ⟨projection, hprojection, h⟩)
      refine iff_of_false (not_panics_or_ok herr) ?_
      rintro ⟨projection, hprojection, h, _⟩
      exact hfits ⟨projection, hprojection, h⟩
  | originCreate _ => cases hupdate
  | transfer _ _ _ => cases hupdate
  | createRegion _ _ => cases hupdate

theorem OriginEnds.panics_iff {request : OriginRequest}
    {r : Outcome KernelXError VectorStateV1} {eng' : KernelEngine}
    (h : OriginEnds env eng now request r eng') :
    (r.Panics ↔ (originState env now request).Panics) ∧ (r.Panics → eng' = eng) := by
  cases h with
  | rejected hplan => exact ⟨panics_error_congr hplan, fun _ => rfl⟩
  | unappended s hplan hevent =>
    have hnot : ¬ Panics (.error _ : Outcome KernelXError VectorStateV1) :=
      (noPanic_transitionEvent env eng _ _ _ _ _).not_panics_error hevent
    rw [hplan]
    exact ⟨iff_of_false hnot (not_panics_ok s), fun h => absurd h hnot⟩
  | done s e hplan hevent =>
    rw [hplan]
    exact ⟨Iff.rfl, fun h => absurd h (not_panics_ok s)⟩

/-- A transfer up to its records. -/
def transferRecorded (env : Platform) (eng : KernelEngine) (now : ℕ → UInt64)
    (fromId toId : String) (amount : List U128) :
    Outcome KernelXError (VectorRecordV1 × VectorRecordV1) := do
  let plan ← transferPlan env eng now fromId toId amount
  plan.records env now amount

theorem transferRecorded_of_plan {fromId toId : String} {amount : List U128} {plan : TransferPlan}
    (hplan : transferPlan env eng now fromId toId amount = .ok plan) :
    transferRecorded env eng now fromId toId amount = plan.records env now amount := by
  rw [transferRecorded, hplan]
  rfl

/-- A transfer panics before its records are stored, if at all. -/
theorem TransferEnds.panics_iff {fromId toId : String} {amount : List U128}
    {r : Outcome KernelXError (VectorStateV1 × VectorStateV1)} {eng' : KernelEngine}
    (h : TransferEnds env eng now fromId toId amount r eng') :
    (r.Panics ↔ (transferRecorded env eng now fromId toId amount).Panics) ∧ (r.Panics →
      eng'.store.records = eng.store.records ∧ eng'.store.events = eng.store.events) := by
  have hnoPanic : ∀ {eng : KernelEngine} {before after timestamp parentHashes f},
      transitionEvent env eng before after .transfer timestamp parentHashes = .error f →
        ¬ Panics (.error f : Outcome KernelXError (VectorStateV1 × VectorStateV1)) :=
    fun hevent => (noPanic_transitionEvent env _ _ _ _ _ _).not_panics_error hevent
  cases h with
  | rejected hplan =>
    refine ⟨panics_error_congr ?_, fun _ => ⟨rfl, rfl⟩⟩
    rw [transferRecorded, hplan]
    rfl
  | unrecorded plan hplan hrecords =>
    exact ⟨panics_error_congr ((transferRecorded_of_plan hplan).trans hrecords),
      fun _ => ⟨rfl, rfl⟩⟩
  | unappended plan sr rr hplan hrecords hsender =>
    have hnot := hnoPanic hsender
    refine ⟨iff_of_false hnot ?_, fun h => absurd h hnot⟩
    rw [transferRecorded_of_plan hplan, hrecords]
    exact not_panics_ok _
  | halfway plan sr rr es hplan hrecords hsender hreceiver =>
    have hnot := hnoPanic hreceiver
    refine ⟨iff_of_false hnot ?_, fun h => absurd h hnot⟩
    rw [transferRecorded_of_plan hplan, hrecords]
    exact not_panics_ok _
  | done plan sr rr es er hplan hrecords hsender hreceiver =>
    refine ⟨iff_of_false (not_panics_ok _) ?_, fun h => absurd h (not_panics_ok _)⟩
    rw [transferRecorded_of_plan hplan, hrecords]
    exact not_panics_ok _

/-- What a transfer between two vectors panics on. -/
theorem panics_transferPart_iff (hreach : ReachableEngine env policy eng) {fromId toId : String}
    {amount : List U128} {sender receiver : VectorStateV1}
    (hsender : eng.store.getState fromId = some sender)
    (hreceiver : eng.store.getState toId = some receiver) :
    (transferNext env now amount sender receiver >>= fun after =>
      transferRecords env now amount sender receiver after.1 after.2).Panics ↔
        CoveredBy amount sender ∧ receiver.components.length = amount.length ∧
          (SumOverflows env (receivedSum amount receiver) ∨ Wide amount) := by
  by_cases hguard : CoveredBy amount sender ∧ receiver.components.length = amount.length
  · obtain ⟨hpanics, hnotErr⟩ := transferNext_of_covered env now
      (hreach.soundStates _ _ hsender).canonical (hreach.soundStates _ _ hreceiver).canonical
      (hreach.not_sumOverflows hsender) hguard.1 hguard.2
    have hrecords : ∀ after, transferNext env now amount sender receiver = .ok after →
        ((transferRecords env now amount sender receiver after.1 after.2).Panics ↔
          Wide amount) := by
      intro after hafter
      obtain ⟨hfrom, hto⟩ := transferNext_fit hafter
      exact panics_transferRecords_iff hfrom hto
    rw [panics_bind_iff, panics_or_ok_and_iff hnotErr hrecords, hpanics, ← and_assoc,
      and_iff_right hguard]
  · rw [panics_bind_iff]
    exact iff_of_false (not_panics_or_ok (transferNext_isErr hguard))
      (fun h => hguard ⟨h.1, h.2.1⟩)

/-- A transfer of two stored vectors, up to its records. -/
theorem transferRecorded_of_stored {fromId toId : String} {amount : List U128}
    {sender receiver : VectorStateV1} (hsender : eng.store.getState fromId = some sender)
    (hreceiver : eng.store.getState toId = some receiver) :
    transferRecorded env eng now fromId toId amount =
      transferNext env now amount sender receiver >>= fun after =>
        transferRecords env now amount sender receiver after.1 after.2 := by
  rw [transferRecorded, transferPlan, hsender, hreceiver]
  simp only [Outcome.okOr, Outcome.ok_bind, bind_assoc, pure_bind, TransferPlan.records]

/-- A transfer panics on the way to its records exactly on what is listed for it. -/
theorem panics_transferRecorded_iff (hreach : ReachableEngine env policy eng)
    {fromId toId : String} {amount : List U128} :
    (transferRecorded env eng now fromId toId amount).Panics ↔
      (Call.transfer fromId toId amount).Panics env eng := by
  constructor
  · intro h
    obtain ⟨sender, receiver, hsender, hreceiver⟩ : ∃ sender receiver,
        eng.store.getState fromId = some sender ∧ eng.store.getState toId = some receiver := by
      simp only [transferRecorded, transferPlan, panics_bind_iff, not_panics_okOr, false_or,
        Outcome.bind_eq_ok_iff, Outcome.okOr_eq_ok_iff] at h
      rcases h with ⟨sender, hsender, receiver, hreceiver, _⟩ |
        ⟨_, ⟨sender, hsender, receiver, hreceiver, _⟩, _⟩ <;>
      exact ⟨sender, receiver, hsender, hreceiver⟩
    rw [transferRecorded_of_stored hsender hreceiver,
      panics_transferPart_iff hreach hsender hreceiver] at h
    exact ⟨sender, receiver, hsender, hreceiver, h⟩
  · rintro ⟨sender, receiver, hsender, hreceiver, h⟩
    rw [transferRecorded_of_stored hsender hreceiver,
      panics_transferPart_iff hreach hsender hreceiver]
    exact h

theorem RegionEnds.not_panics {request : RegionCreateRequest} {actorPublicKey : String}
    {r : Outcome KernelXError RegionState} {eng' : KernelEngine}
    (h : RegionEnds env eng now request actorPublicKey r eng') : ¬ r.Panics := by
  cases h with
  | rejected hevent => exact (noPanic_regionEvent env _ _ _ _).not_panics_error hevent
  | unappended e _ hadmits => exact (noPanic_admitEvent env _ _).not_panics_error hadmits
  | unreadable e _ _ hregion => exact (noPanic_regionStateFromEvent e).not_panics_error hregion
  | done e region _ _ _ => exact not_panics_ok region

/-- A call panics exactly on what is listed for it, and then it has added no record and no
event. -/
theorem call_panics_iff (hreach : ReachableEngine env policy eng) (now : ℕ → UInt64) (c : Call) :
    ((eng.call env now c).1.Panics ↔ c.Panics env eng) ∧ ((eng.call env now c).1.Panics →
      (eng.call env now c).2.store.records = eng.store.records ∧
      (eng.call env now c).2.store.events = eng.store.events) := by
  have hends : CallEnds env eng now c _ _ := call_ends eng now c
  generalize (eng.call env now c).1 = r at hends ⊢
  generalize (eng.call env now c).2 = eng' at hends ⊢
  cases hends with
  | update hupdate h =>
    rw [panics_map_iff, ← panics_recorded_iff hreach hupdate]
    exact h.panics_iff
  | origin h =>
    obtain ⟨hiff, hsame⟩ := h.panics_iff
    rw [panics_map_iff, hiff]
    refine ⟨panics_originState_iff, fun hpanics => ?_⟩
    rw [hsame (hiff.mpr hpanics)]
    exact ⟨rfl, rfl⟩
  | transfer h =>
    rw [panics_map_iff, ← @panics_transferRecorded_iff env policy eng now hreach]
    exact h.panics_iff
  | region h =>
    rw [panics_map_iff]
    exact ⟨iff_of_false h.not_panics id, fun hpanics => absurd hpanics h.not_panics⟩

end

end VKernelX
