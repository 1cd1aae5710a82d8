/-
  Engine/ProofsOfWork.lean --- no vector is stored without its proof of work.

  A creation checks the proof it is given, and no later operation touches it.  The search for
  a nonce tries the candidates in order, so it finds the least one that proves the work, and
  with enough attempts it finds one for the seed and the difficulty of every stored vector.
-/
import VKernelX.Engine.StateInvariants
import VKernelX.Model.Mining

set_option autoImplicit false

namespace VKernelX

section

variable {env : Platform}

/-! ## The search -/

/-- No candidate below a number proves the work. -/
def NoneBelow (env : Platform) (seed : String) (difficulty : UInt32) (nonce : UInt64) : Prop :=
  ∀ earlier < nonce, verifyOrigin env seed earlier difficulty = false

theorem verifyOrigin_zero (env : Platform) (seed : String) (nonce : UInt64) :
    verifyOrigin env seed nonce 0 = true := by
  simp [verifyOrigin]

/-- The candidates are tried in increasing order. -/
theorem find?_candidates_eq_some_iff {p : UInt64 → Bool} {bound nonce : UInt64} :
    ((List.range bound.toNat).map UInt64.ofNat).find? p = some nonce ↔
      nonce < bound ∧ p nonce = true ∧ ∀ earlier < nonce, p earlier = false := by
  have hbound := bound.toNat_lt
  have hmem : ∀ n : UInt64, n ∈ (List.range bound.toNat).map UInt64.ofNat ↔ n < bound := by
    intro n
    simp only [List.mem_map, List.mem_range]
    constructor
    · rintro ⟨i, hi, rfl⟩
      rw [UInt64.lt_iff_toNat_lt, UInt64.toNat_ofNat', Nat.mod_eq_of_lt (by omega)]
      exact hi
    · intro hn
      exact ⟨n.toNat, UInt64.lt_iff_toNat_lt.mp hn, UInt64.ofNat_toNat⟩
  have hsorted : ((List.range bound.toNat).map UInt64.ofNat).Pairwise (· < ·) := by
    rw [List.pairwise_map]
    refine List.Pairwise.imp_of_mem ?_ List.pairwise_lt_range
    intro i j hi hj hij
    have hi := List.mem_range.mp hi
    have hj := List.mem_range.mp hj
    rw [UInt64.lt_iff_toNat_lt, UInt64.toNat_ofNat', UInt64.toNat_ofNat',
      Nat.mod_eq_of_lt (by omega), Nat.mod_eq_of_lt (by omega)]
    exact hij
  constructor
  · intro h
    refine ⟨(hmem nonce).mp (List.mem_of_find?_eq_some h), List.find?_some h, ?_⟩
    intro earlier hearlier
    obtain ⟨hp, front, rest, hsplit, hfront⟩ := List.find?_eq_some_iff_append.mp h
    have hin : earlier ∈ (List.range bound.toNat).map UInt64.ofNat :=
      (hmem earlier).mpr (UInt64.lt_trans hearlier ((hmem nonce).mp (List.mem_of_find?_eq_some h)))
    rw [hsplit] at hin hsorted
    -- What comes from the found candidate on is not below it.
    rcases List.mem_append.mp hin with hin | hin
    · simpa using hfront earlier hin
    · rcases List.mem_cons.mp hin with rfl | hin
      · exact absurd hearlier (UInt64.lt_irrefl _)
      · have hlater := (List.pairwise_cons.mp (List.pairwise_append.mp hsorted).2.1).1 earlier hin
        exact absurd (UInt64.lt_trans hearlier hlater) (UInt64.lt_irrefl _)
  · rintro ⟨hnonce, hp, hearlier⟩
    obtain ⟨front, rest, hsplit⟩ := List.append_of_mem ((hmem nonce).mpr hnonce)
    rw [List.find?_eq_some_iff_append]
    refine ⟨hp, front, rest, hsplit, fun n hn => ?_⟩
    rw [hsplit] at hsorted
    have hlt := (List.pairwise_append.mp hsorted).2.2 n hn nonce List.mem_cons_self
    simp [hearlier n hlt]

/-- What the search finds is the least nonce that proves the work. -/
theorem findValidNonce_eq_some_iff {seed : String} {difficulty : UInt32}
    {maxAttempts nonce : UInt64} (hdifficulty : difficulty ≠ 0) :
    findValidNonce env seed difficulty maxAttempts = some nonce ↔
      nonce < maxAttempts ∧ verifyOrigin env seed nonce difficulty = true ∧
        NoneBelow env seed difficulty nonce := by
  rw [findValidNonce, if_neg hdifficulty]
  exact find?_candidates_eq_some_iff

variable (env) in
/-- The search finds the least nonce that proves the work, which is not above a given one, in
any number of attempts above it. -/
def FindsLeast (seed : String) (difficulty : UInt32) (nonce : UInt64) : Prop :=
  ∃ least ≤ nonce, verifyOrigin env seed least difficulty = true ∧
    NoneBelow env seed difficulty least ∧
    ∀ maxAttempts, least < maxAttempts →
      findValidNonce env seed difficulty maxAttempts = some least

/-- Where some nonce proves the work, enough attempts find the least one that does. -/
theorem findsLeast_of_valid {seed : String} {difficulty : UInt32} {nonce : UInt64}
    (hvalid : verifyOrigin env seed nonce difficulty = true) :
    FindsLeast env seed difficulty nonce := by
  obtain ⟨least, ⟨hle, hleast⟩, hmin⟩ := (measure UInt64.toNat).wf.has_min
    {n | n ≤ nonce ∧ verifyOrigin env seed n difficulty = true} ⟨nonce, UInt64.le_refl _, hvalid⟩
  have hnone : NoneBelow env seed difficulty least := by
    intro earlier hearlier
    by_contra hnot
    have hlt : earlier ≤ nonce := UInt64.le_trans (UInt64.le_of_lt hearlier) hle
    exact hmin earlier ⟨hlt, by simpa using hnot⟩ (UInt64.lt_iff_toNat_lt.mp hearlier)
  refine ⟨least, hle, hleast, hnone, fun maxAttempts hmax => ?_⟩
  by_cases hdifficulty : difficulty = 0
  · subst hdifficulty
    have hzero : least = 0 := by
      by_contra hne
      have hpos : 0 < least := UInt64.pos_iff_ne_zero.mpr hne
      exact absurd (hnone 0 hpos) (by rw [verifyOrigin_zero]; decide)
    rw [findValidNonce, if_pos rfl, hzero]
  · exact (findValidNonce_eq_some_iff hdifficulty).mpr ⟨hmax, hleast, hnone⟩

/-! ## Stored proofs -/

variable (env) in
/-- The proof of work of a vector: the digest is that of seed and nonce, and reaches the
difficulty. -/
structure OriginProven (origin : OriginState) : Prop where
  proofHash : origin.proofHash = originProofHash env origin.seed origin.nonce
  verifies : verifyOrigin env origin.seed origin.nonce origin.difficulty = true

variable (env) in
/-- A vector that carries its proof of work. -/
def ProvesWork (s : VectorStateV1) : Prop := ∃ origin, s.origin = some origin ∧
  OriginProven env origin

theorem originState_provesWork {now : ℕ → UInt64} {request : OriginRequest} {s : VectorStateV1}
    (h : originState env now request = .ok s) : ProvesWork env s := by
  simp only [originState, createOriginVector, Outcome.bind_eq_ok_iff,
    Outcome.require_eq_ok_iff] at h
  obtain ⟨_, ⟨_, hproof, hmid⟩, _, _, _, _, _, _, hs⟩ := h
  obtain rfl := Except.ok.inj hmid
  obtain rfl := Except.ok.inj hs
  exact ⟨_, rfl, rfl, hproof⟩

theorem ProvesWork.of_identity {s after : VectorStateV1} (h : ProvesWork env s)
    (hidentity : SameIdentity s after) : ProvesWork env after := by
  rw [ProvesWork, hidentity.origin]
  exact h

theorem provesWork_kept (env : Platform) : KeptByOperations env (ProvesWork env) where
  origin _ _ _ := originState_provesWork
  update _ _ _ _ _ hupdate hnext hsound hcanonical h :=
    h.of_identity (update_next_identity hupdate hnext hsound hcanonical)
  transfer _ _ _ _ _ _ hnext hsender hreceiver :=
    ⟨hsender.of_identity (transferNext_identity hnext).1,
      hreceiver.of_identity (transferNext_identity hnext).2⟩

/-- In every reachable state every stored vector carries a proof of work that verifies, and the
search for its seed and difficulty finds the least nonce there is. -/
theorem reachable_provesWork {policy : ConsensusPolicy} {eng : KernelEngine}
    (h : ReachableEngine env policy eng) :
    ∀ s ∈ eng.store.listStates, ∃ origin, s.origin = some origin ∧ OriginProven env origin ∧
      FindsLeast env origin.seed origin.difficulty origin.nonce := by
  intro s hs
  obtain ⟨origin, horigin, hproven⟩ := h.states_of_kept (provesWork_kept env) hs
  exact ⟨origin, horigin, hproven, findsLeast_of_valid hproven.verifies⟩

end

theorem reachable_provesWork_sample :
    (engineAfter samplePlatform escrowedVector).store.listStates.length = 1 ∧
      ∀ s ∈ (engineAfter samplePlatform escrowedVector).store.listStates,
        ∃ origin, s.origin = some origin ∧ OriginProven samplePlatform origin ∧
          FindsLeast samplePlatform origin.seed origin.difficulty origin.nonce :=
  ⟨by decide +kernel, reachable_provesWork (engineAfter_reachable samplePlatform escrowedVector)⟩

end VKernelX
