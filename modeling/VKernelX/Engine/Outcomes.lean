/-
  Engine/Outcomes.lean --- how a call ends, read off before it.

  A call on vectors is turned down by its checks, panics, has an event refused, or goes
  through.  Its arguments, the vectors it names and the names of the stored events decide which
  of the four it is; the clock does not matter.
-/
import VKernelX.Engine.LateRejections

set_option autoImplicit false

namespace VKernelX

/-- A call ends as its arguments and the state before it decide, and one that is turned down or
panics writes no record and no event. -/
structure Call.EndsAsDecided (env : Platform) (eng : KernelEngine) (now : ℕ → UInt64)
    (c : Call) : Prop where
  isOk : (eng.call env now c).1.IsOk ↔ c.CarriedOut env eng
  panics : (eng.call env now c).1.Panics ↔ c.Panics env eng
  isErr : (eng.call env now c).1.IsErr ↔
    ¬ c.Checked env eng ∨ ¬ c.Panics env eng ∧ c.EventRefused eng
  turned_down : ¬ c.Checked env eng → (eng.call env now c).2 = eng
  panicked : c.Panics env eng → (eng.call env now c).2.store.records = eng.store.records ∧
    (eng.call env now c).2.store.events = eng.store.events

section

variable {env : Platform} {policy : ConsensusPolicy} {eng : KernelEngine} {now : ℕ → UInt64}

/-- What is not an error and did not go through has panicked. -/
theorem Outcome.panics_of_not_isErr {ε α : Type} {r : Outcome ε α} (h : ¬ r.IsErr)
    {f : Failure ε} (hr : r = .error f) : r.Panics :=
  (Outcome.panics_or_ok h).resolve_right (fun ⟨a, ha⟩ => by rw [ha] at hr; cases hr)

/-- A call that is turned down leaves the engine alone. -/
theorem CallEnds.of_not_checked (hreach : ReachableEngine env policy eng) {c : Call}
    (hvector : ∀ request actorPublicKey, c ≠ .createRegion request actorPublicKey)
    (hchecked : ¬ c.Checked env eng) {r : Outcome KernelXError Reply} {eng' : KernelEngine}
    (h : CallEnds env eng now c r eng') (hpanics : ¬ r.Panics) : eng' = eng := by
  have hnone : ∀ w, ¬ Works env eng now c w := fun w hworks =>
    hchecked ((@works_iff env policy eng now hreach c).mp ⟨w, hworks⟩).1
  cases h with
  | update hupdate h =>
    rw [Outcome.panics_map_iff] at hpanics
    cases h with
    | rejected _ => rfl
    | unrecorded before after _ hrecord =>
      exact absurd ((Outcome.panics_error_congr hrecord).mpr (Outcome.panics_of_not_isErr
        (not_isErr_record hupdate before after) hrecord)) hpanics
    | unappended before after r hplan hrecord _ =>
      exact absurd (.update hupdate hplan hrecord) (hnone _)
    | done before after r e hplan hrecord _ =>
      exact absurd (.update hupdate hplan hrecord) (hnone _)
  | origin h =>
    cases h with
    | rejected _ => rfl
    | unappended s hplan _ => exact absurd (.origin hplan) (hnone _)
    | done s e hplan _ => exact absurd (.origin hplan) (hnone _)
  | transfer h =>
    rw [Outcome.panics_map_iff] at hpanics
    cases h with
    | rejected _ => rfl
    | unrecorded plan _ hrecords =>
      exact absurd ((Outcome.panics_error_congr hrecords).mpr (Outcome.panics_of_not_isErr
        (not_isErr_transferRecords plan now _) hrecords)) hpanics
    | unappended plan sr rr hplan hrecords _ =>
      exact absurd (.transfer hplan hrecords) (hnone _)
    | halfway plan sr rr es hplan hrecords _ _ =>
      exact absurd (.transfer hplan hrecords) (hnone _)
    | done plan sr rr es er hplan hrecords _ _ =>
      exact absurd (.transfer hplan hrecords) (hnone _)
  | region _ => exact absurd rfl (hvector _ _)

/-- In every reachable engine every call on vectors ends as its arguments and the state before
it decide. -/
theorem call_endsAsDecided (hfree : env.CollisionFree) (hreach : ReachableEngine env policy eng)
    (hshort : eng.NamesShort) (now : ℕ → UInt64) {c : Call} (hc : c.NamesShort)
    (hvector : ∀ request actorPublicKey, c ≠ .createRegion request actorPublicKey) :
    c.EndsAsDecided env eng now := by
  obtain ⟨hpanics, hunwritten⟩ := call_panics_iff hreach now c
  have hok := @call_isOk_iff env policy eng now hfree hreach hshort c hc hvector
  have hends := @call_ends env eng now c
  refine ⟨hok, hpanics, ?_, fun hchecked => ?_, fun h => hunwritten (hpanics.mpr h)⟩
  · -- an error is what is left
    have herr : (eng.call env now c).1.IsErr ↔
        ¬ (eng.call env now c).1.IsOk ∧ ¬ (eng.call env now c).1.Panics := by
      rcases (eng.call env now c).1 with (e | _) | reply <;> simp [Outcome.Panics]
    rw [herr, hok, hpanics]
    constructor
    · rintro ⟨hnot, hcalm⟩
      by_contra hneither
      obtain ⟨hchecked, hrefused⟩ := not_or.mp hneither
      exact hnot ⟨not_not.mp hchecked, hcalm, fun h => hrefused ⟨hcalm, h⟩⟩
    · rintro (hchecked | ⟨hcalm, hrefused⟩)
      · exact ⟨fun h => hchecked h.checked, fun h => hchecked h.checked⟩
      · exact ⟨fun h => h.notRefused hrefused, hcalm⟩
  · exact hends.of_not_checked hreach hvector hchecked
      (fun h => hchecked (hpanics.mp h).checked)

end

/-! ## An amount that no record spells out -/

/-- A vector with an amount past 2^64: its event is refused, and the vector is stored. -/
def wideVector : List TimedCall := [callAt 1 (.originCreate (sampleOrigin "a" [2 ^ 64]))]

theorem wideVector_namesShort : (engineAfter (separatedPlatform []) wideVector).NamesShort := by
  have hchecks : (∀ s ∈ (engineAfter (separatedPlatform []) wideVector).store.listStates,
        (strBytes s.vectorId).length + (strBytes s.spaceId).length < 2 ^ 63) ∧
      (engineAfter (separatedPlatform []) wideVector).store.listEvents = [] := by
    decide +kernel
  refine ⟨fun id s hs => hchecks.1 s (BTreeMap.mem_values.mpr ⟨id, hs⟩), fun e he => ?_⟩
  rw [hchecks.2] at he
  cases he

/-- Projecting all of it panics while the record is made. -/
theorem call_endsAsDecided_wide :
    (Call.project "a" [2 ^ 64] "x").EndsAsDecided (separatedPlatform [])
      (engineAfter (separatedPlatform []) wideVector) (fun _ => 2) :=
  call_endsAsDecided separatedPlatform_nil_collisionFree (engineAfter_reachable _ wideVector)
    wideVector_namesShort (fun _ => 2) trivial nofun

end VKernelX
