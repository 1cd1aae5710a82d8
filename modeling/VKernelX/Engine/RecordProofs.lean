/-
  Engine/RecordProofs.lean --- the proofs of stored records.

  A record's proof is fixed when it is made, and both sides of a transfer get another
  certification afterwards.  The last one they get is the one the proof was computed with, so
  every record that is ever offered to the policy verifies.
-/
import VKernelX.Engine.Ledger

set_option autoImplicit false

namespace VKernelX

section

variable (env : Platform)

/-- A record verifies: its proof is its hash, and certification and vector id are those of the
state it leaves. -/
structure RecordVerifies (r : VectorRecordV1) : Prop where
  proof : r.proof = r.hash env
  certification : r.certification = r.after.certification
  vectorId : r.vectorId = r.after.vectorId

variable {env}

theorem RecordVerifies.new {recordId vectorId : String} {before : Option VectorStateV1}
    {after : VectorStateV1} {operation : OperationKind} {parameters : Value} {nowMs : UInt64}
    (hid : vectorId = after.vectorId) :
    RecordVerifies env
      (VectorRecordV1.new env recordId vectorId before after operation parameters nowMs) :=
  ⟨rfl, rfl, hid⟩

/-- The record of an update is made for the vector whose id the call names. -/
theorem RecordVerifies.update {eng : KernelEngine} (hkeyed : WellKeyed eng.store)
    {now : ℕ → UInt64} {c : Call} {u : Update} {before after : VectorStateV1}
    {r : VectorRecordV1} (hsound : SoundStates eng.store) (hupdate : c.update? env now = some u)
    (hplan : u.plan eng = .ok (before, after)) (hrecord : u.record before after = .ok r) :
    RecordVerifies env r := by
  obtain ⟨hbefore, hnext, hcanonical⟩ := Update.plan_eq_ok_iff.mp hplan
  have hid : u.vectorId = after.vectorId := by
    rw [(update_next_ok hupdate hnext (hsound _ _ hbefore) hcanonical).1.same.vectorId]
    exact ((hkeyed.states _ _ hbefore).1).symm
  cases c with
  | certify vectorId =>
    obtain rfl := Option.some.inj hupdate
    obtain rfl := Except.ok.inj hrecord
    exact .new hid
  | drain vectorId basisPoints =>
    obtain rfl := Option.some.inj hupdate
    simp only [drainRecord, Outcome.bind_eq_ok_iff] at hrecord
    obtain ⟨_, _, hr⟩ := hrecord
    obtain rfl := Except.ok.inj hr
    exact .new hid
  | project vectorId projected escrowId =>
    obtain rfl := Option.some.inj hupdate
    simp only [projectRecord, Outcome.bind_eq_ok_iff] at hrecord
    obtain ⟨_, _, hr⟩ := hrecord
    obtain rfl := Except.ok.inj hr
    exact .new hid
  | reconstruct vectorId outcome =>
    obtain rfl := Option.some.inj hupdate
    simp only [reconstructRecord, Outcome.bind_eq_ok_iff] at hrecord
    obtain ⟨_, _, _, _, hr⟩ := hrecord
    obtain rfl := Except.ok.inj hr
    exact .new hid
  | originCreate _ => cases hupdate
  | transfer _ _ _ => cases hupdate
  | createRegion _ _ => cases hupdate

/-- One side's record of a transfer, with the certification of the stored state. -/
theorem RecordVerifies.transferSide {direction : String} {before after : VectorStateV1}
    {amount : List U128} {nowMs : UInt64} {r : VectorRecordV1}
    (h : transferSideRecord env direction before after amount nowMs = .ok r) :
    RecordVerifies env { r with certification := after.certification } := by
  simp only [transferSideRecord, Outcome.bind_eq_ok_iff] at h
  obtain ⟨_, _, hr⟩ := h
  obtain rfl := Except.ok.inj hr
  exact ⟨rfl, rfl, rfl⟩

theorem OfferedBy.verifies {eng : KernelEngine} {now : ℕ → UInt64} {c : Call}
    {rs : List VectorRecordV1} (hkeyed : WellKeyed eng.store) (hsound : SoundStates eng.store)
    (h : OfferedBy env eng now c rs) : ∀ r ∈ rs, RecordVerifies env r := by
  cases h with
  | none => exact List.forall_mem_nil _
  | update hupdate hplan hrecord =>
    exact List.forall_mem_singleton.mpr (.update hkeyed hsound hupdate hplan hrecord)
  | origin hplan => exact List.forall_mem_singleton.mpr (.new rfl)
  | transfer hplan hrecords =>
    simp only [TransferPlan.records, transferRecords, transferRecord,
      Outcome.bind_eq_ok_iff] at hrecords
    obtain ⟨⟨sender, receiver⟩, ⟨_, _, _, _, out, hout, inn, hin, hpair⟩, heq⟩ := hrecords
    obtain ⟨rfl, rfl⟩ := Prod.mk.inj (Except.ok.inj hpair)
    obtain ⟨rfl, rfl⟩ := Prod.mk.inj (Except.ok.inj heq)
    have hsender := RecordVerifies.transferSide hout
    have hreceiver := RecordVerifies.transferSide hin
    exact forall_mem_pair hsender hreceiver

/-- Every record that a reachable engine stores verifies. -/
theorem reachable_recordsVerify {policy : ConsensusPolicy} {eng : KernelEngine}
    (h : ReachableEngine env policy eng) :
    ∀ r ∈ eng.store.listRecords, RecordVerifies env r := by
  have hstored : ∀ (id : String) (r : VectorRecordV1), eng.store.records[id]? = some r →
      RecordVerifies env r := by
    refine Reachable.invariant_of_reachable _ _ (I := fun eng => ∀ (id : String)
      (r : VectorRecordV1), eng.store.records[id]? = some r → RecordVerifies env r) ?_ ?_ h
    · intro id r hr
      simp [KernelEngine.initial, MemoryStore.empty] at hr
    · intro eng c hreach hI id r hr
      have hends : CallEnds env eng c.now c.call _ _ := call_ends eng c.now c.call
      obtain ⟨rs, hoffered, hrecords, _⟩ := hends.offered
      rw [engineStep, hrecords] at hr
      rcases BTreeMap.of_lookup_insertMany hr with hr | hr
      · exact hI id r hr
      · obtain ⟨r', hr', heq⟩ := List.mem_map.mp hr
        obtain ⟨rfl, rfl⟩ := Prod.mk.inj heq
        exact hoffered.verifies (ReachableEngine.wellKeyed hreach)
          (ReachableEngine.soundStates hreach) r' (List.mem_filter.mp hr').1
  intro r hr
  obtain ⟨id, hid⟩ := BTreeMap.mem_values.mp hr
  exact hstored id r hid

end

/-- Two stored vectors and a transfer between them. -/
def transferredVectors : List TimedCall :=
  oneVector ++ [callAt 1 (.originCreate (sampleOrigin "b" [0])),
    callAt 2 (.transfer "a" "b" [2])]

theorem reachable_recordsVerify_transfer :
    (engineAfter samplePlatform transferredVectors).store.listRecords.length = 4 ∧
      ∀ r ∈ (engineAfter samplePlatform transferredVectors).store.listRecords,
        RecordVerifies samplePlatform r :=
  ⟨by decide +kernel,
    reachable_recordsVerify (engineAfter_reachable samplePlatform transferredVectors)⟩

end VKernelX
