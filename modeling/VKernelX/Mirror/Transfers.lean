/-
  Mirror/Transfers.lean --- transfers in both kernels.

  The kernel computes both sides of a transfer from copies, the mirror changes the objects one
  after the other.  The sides are the same; what is left of them differs only where one vector
  is both sender and receiver, since the kernel stores the receiver's copy last.
-/
import VKernelX.Mirror.NextStates

set_option autoImplicit false

namespace VKernelX

section

variable {env : Platform} {s r : VectorStateV1} {m n : Mirror.VectorStateV1}

/-! ## The two sides -/

/-- The checks of a transfer in the kernel. -/
theorem transferable_ints_iff {amount : List U128} (hs : m.components = ints s.components)
    (hr : n.components = ints r.components) :
    Mirror.Transferable (ints amount) m n ↔
      (s.components.length = r.components.length ∧
        s.components.length = amount.length) ∧
        (amount.zip s.components).all (fun ab => ab.1 ≤ ab.2) = true := by
  rw [Mirror.Transferable, hs, hr, length_ints, length_ints, length_ints, all_zip_ints_iff,
    @eq_comm ℕ amount.length]

/-- A transfer whose checks pass makes the same two sides in both kernels. -/
theorem TwinVector.transfer (h : TwinVector s m) (h' : TwinVector r n) (env : Platform)
    (now : ℕ → UInt64) {amount : List U128} (hamount : ∀ a ∈ amount, a.toNat ≤ u64Max)
    (hsmall : (Mirror.credited (ints amount) n).Small)
    (htransferable : Mirror.Transferable (ints amount) m n) :
    ∃ afterFrom afterTo, transferNext env now amount s r = .ok (afterFrom, afterTo) ∧
      (afterFrom.FitsEvent ∧ Mirrored afterFrom (Mirror.debited (ints amount) m)) ∧
      (afterTo.FitsEvent ∧ Mirrored afterTo (Mirror.credited (ints amount) n)) := by
  obtain ⟨⟨hshape, hlength⟩, hcovered⟩ :=
    (transferable_ints_iff h.mirrored.components h'.mirrored.components).mp htransferable
  let midFrom : VectorStateV1 := { s with
    components := (s.components.zip amount).map (fun ca => saturatingSub ca.1 ca.2)
    vectorType := .standard }
  let midTo : VectorStateV1 := { r with
    components := (r.components.zip amount).map (fun ca => saturatingAdd ca.1 ca.2)
    vectorType := .standard }
  have hmid : transferComponents s r amount = .ok (midFrom, midTo) := by
    rw [transferComponents, VectorStateV1.ensureSameShape, Outcome.require_of hshape,
      Outcome.ok_bind, Outcome.require_of hlength, Outcome.ok_bind, Outcome.require_of hcovered]
    rfl
  have hlengthFrom : midFrom.components.length = s.components.length := by
    simp [midFrom, hlength]
  have hlengthTo : midTo.components.length = r.components.length := by
    simp [midTo, ← hshape, hlength]
  have hmirroredFrom : Mirrored midFrom (Mirror.debited (ints amount) m) := by
    refine ⟨?_, h.mirrored.status, h.mirrored.projection⟩
    rw [Mirror.debited, h.mirrored.components]
    exact (ints_sub hcovered).symm
  have hmirroredTo : Mirrored midTo (Mirror.credited (ints amount) n) := by
    refine ⟨?_, h'.mirrored.status, h'.mirrored.projection⟩
    rw [Mirror.credited, h'.mirrored.components]
    exact (ints_add h'.fits hamount).symm
  have hfitsFrom : midFrom.FitsEvent := by
    intro c hc
    obtain ⟨p, hp, rfl⟩ := List.mem_map.mp hc
    have := h.fits _ (List.of_mem_zip hp).1
    rw [toNat_saturatingSub]
    omega
  obtain ⟨senderCert, hsenderCert⟩ := h.certified env hfitsFrom hlengthFrom (now 0)
  obtain ⟨receiverCert, hreceiverCert⟩ :=
    h'.certified env (hmirroredTo.fits hsmall) hlengthTo (now 1)
  have hcanonicalFrom : CanonicalState { midFrom with certification := senderCert } :=
    h.canonical rfl ⟨rfl, rfl, rfl, rfl, (certifyState_ok hsenderCert).1⟩ hlengthFrom
  have hcanonicalTo : CanonicalState { midTo with certification := receiverCert } :=
    h'.canonical rfl ⟨rfl, rfl, rfl, rfl, (certifyState_ok hreceiverCert).1⟩ hlengthTo
  refine ⟨{ midFrom with certification := senderCert },
    { midTo with certification := receiverCert }, ?_,
    ⟨hfitsFrom, hmirroredFrom.components, hmirroredFrom.status, hmirroredFrom.projection⟩,
    ⟨hmirroredTo.fits hsmall, hmirroredTo.components, hmirroredTo.status,
      hmirroredTo.projection⟩⟩
  rw [transferNext, hmid, Outcome.ok_bind]
  simp only [hsenderCert, hreceiverCert, Outcome.ok_bind]
  rw [(validateState_eq_ok_iff (u := ())).mpr hcanonicalFrom, Outcome.ok_bind,
    (validateState_eq_ok_iff (u := ())).mpr hcanonicalTo]
  rfl

/-- A transfer whose checks fail is turned down. -/
theorem transferNext_rejected (hs : m.components = ints s.components)
    (hr : n.components = ints r.components) (env : Platform) (now : ℕ → UInt64)
    {amount : List U128} (htransferable : ¬ Mirror.Transferable (ints amount) m n) :
    ∃ e, transferNext env now amount s r = .error (.err e) := by
  rw [transferable_ints_iff hs hr, and_assoc] at htransferable
  rw [transferNext, transferComponents, VectorStateV1.ensureSameShape]
  by_cases hshape : s.components.length = r.components.length
  · rw [Outcome.require_of hshape, Outcome.ok_bind]
    by_cases hlength : s.components.length = amount.length
    · rw [Outcome.require_of hlength, Outcome.ok_bind,
        Outcome.require_of_not (fun hcovered => htransferable ⟨hshape, hlength, hcovered⟩)]
      exact ⟨_, rfl⟩
    · rw [Outcome.require_of_not hlength]
      exact ⟨_, rfl⟩
  · rw [Outcome.require_of_not hshape]
    exact ⟨_, rfl⟩

end

/-! ## One vector on both sides -/

namespace Mirror

variable {amount : List ℤ} {m n : VectorStateV1}

theorem sameName_debited (amount : List ℤ) (m : VectorStateV1) : SameName m (debited amount m) :=
  ⟨rfl, rfl, rfl, rfl, rfl⟩

theorem sameName_credited (amount : List ℤ) (m : VectorStateV1) :
    SameName m (credited amount m) := ⟨rfl, rfl, rfl, rfl, rfl⟩

/-- What is taken away from a vector and put back leaves it as it was. -/
theorem credited_debited (hlength : amount.length = m.components.length) :
    credited amount (debited amount m) = m := by
  have hcomponents : (((m.components.zip amount).map (fun sa => sa.1 - sa.2)).zip amount).map
      (fun ra => ra.1 + ra.2) = m.components := by
    refine List.ext_getElem (by simp [hlength]) (fun i _ _ => ?_)
    simp
  rw [credited, debited, hcomponents]

/-- Nothing is taken away. -/
theorem debited_zero (hlength : amount.length = m.components.length)
    (hzero : ∀ a ∈ amount, a = 0) : debited amount m = m := by
  have hcomponents : (m.components.zip amount).map (fun sa => sa.1 - sa.2) = m.components := by
    refine List.ext_getElem (by simp [hlength]) (fun i hi _ => ?_)
    have hi' : i < amount.length := by
      simp only [List.length_map, List.length_zip] at hi
      omega
    simp [hzero amount[i] (List.getElem_mem hi')]
  rw [debited, hcomponents]

/-- A transfer that is not one of a positive amount from a vector to itself leaves its two
sides under the two names, the receiver's on top. -/
theorem transferred_eq {now : ℕ → ℤ} {fromId toId : String} {k : VectorKernel}
    (hamount : Transferable amount m n) (hsound : Sound n)
    (hself : fromId = toId → m = n ∧ ∀ a ∈ amount, a = 0) (id : String) :
    transferred now fromId toId amount m n k id =
      if toId = id then some (certified (now 1) (credited amount n))
      else if fromId = id then some (certified (now 0) (debited amount m))
      else k.lookup id := by
  rw [transferred]
  by_cases hids : fromId = toId
  · obtain ⟨rfl, hzero⟩ := hself hids
    rw [if_pos hids, ← hids, debited_zero hamount.1.2 hzero,
      hsound.certified_certified (sameName_credited amount m)]
    by_cases hid : fromId = id <;> simp [hid]
  · rw [if_neg hids]
    by_cases hid : toId = id
    · rw [if_pos hid, if_neg (fun hfrom => hids (hfrom.trans hid.symm)), if_pos hid]
    · rw [if_neg hid, if_neg hid]

end Mirror

end VKernelX
