/-
  Foundation/Panics.lean --- when a procedure panics, part by part.

  A procedure panics in its first part, or in the rest after the first part went through.  So
  the condition is read off the procedure from the front, and parts that never panic drop out.
-/
import VKernelX.Foundation.Machine

set_option autoImplicit false

namespace VKernelX.Outcome

section

variable {ε ε' α β : Type}

/-- The procedure panicked. -/
def Panics (r : Outcome ε α) : Prop := r = .error .panicked

@[simp] theorem not_panics_ok (a : α) : ¬ Panics (.ok a : Outcome ε α) := nofun

@[simp] theorem not_panics_pure (a : α) : ¬ Panics (pure a : Outcome ε α) := not_panics_ok a

@[simp] theorem not_panics_err (e : ε) : ¬ Panics (.error (.err e) : Outcome ε α) := by
  intro h
  cases h

theorem NoPanic.not_panics {r : Outcome ε α} (h : r.NoPanic) : ¬ r.Panics := h

@[simp] theorem not_panics_okOr (e : ε) (x : Option α) : ¬ Panics (okOr e x) :=
  (noPanic_okOr e x).not_panics

/-- Passing a failure on keeps what kind of failure it is. -/
theorem panics_error_congr {x : Outcome ε α} {f : Failure ε} (hx : x = .error f) :
    Panics (.error f : Outcome ε β) ↔ x.Panics := by
  subst hx
  exact ⟨fun h => congrArg Except.error (Except.error.inj h),
    fun h => congrArg Except.error (Except.error.inj h)⟩

theorem NoPanic.not_panics_error {x : Outcome ε α} {f : Failure ε} (h : x.NoPanic)
    (hx : x = .error f) : ¬ Panics (.error f : Outcome ε β) :=
  fun hpanics => h ((panics_error_congr hx).mp hpanics)

@[simp] theorem panics_map_iff {f : α → β} {r : Outcome ε α} : (r.map f).Panics ↔ r.Panics := by
  rcases r with (e | _) | a <;> simp [Outcome.map, Except.map, Panics]

/-- Without a panic a failure is an `Err`. -/
theorem NoPanic.isErr_of_error {x : Outcome ε α} {f : Failure ε} (h : x.NoPanic)
    (hx : x = .error f) : x.IsErr := by
  subst hx
  rcases f with e | _
  · exact isErr_err e
  · exact absurd rfl h

theorem panics_bind_iff {x : Outcome ε α} {f : α → Outcome ε β} :
    (x >>= f).Panics ↔ x.Panics ∨ ∃ a, x = .ok a ∧ (f a).Panics := by
  rcases x with (e | _) | a
  · exact ⟨fun h => absurd h (not_panics_err e), fun h => by simp at h⟩
  · exact ⟨fun _ => Or.inl rfl, fun _ => rfl⟩
  · exact ⟨fun h => Or.inr ⟨a, rfl, h⟩, fun h => by simpa using h⟩

/-- What does not return `Err` went through or panicked. -/
theorem panics_or_ok {x : Outcome ε α} (hx : ¬ x.IsErr) : x.Panics ∨ ∃ a, x = .ok a := by
  rcases x with (e | _) | a
  · exact absurd (isErr_err e) hx
  · exact Or.inl rfl
  · exact Or.inr ⟨a, rfl⟩

/-- A condition on the value is one on the procedure, next to a panic. -/
theorem panics_or_ok_and_iff {x : Outcome ε α} (hx : ¬ x.IsErr) {p : α → Prop} {c : Prop}
    (h : ∀ a, x = .ok a → (p a ↔ c)) : (x.Panics ∨ ∃ a, x = .ok a ∧ p a) ↔ x.Panics ∨ c := by
  constructor
  · rintro (hpanics | ⟨a, ha, hp⟩)
    · exact Or.inl hpanics
    · exact Or.inr ((h a ha).mp hp)
  · rintro (hpanics | hc)
    · exact Or.inl hpanics
    · exact (panics_or_ok hx).imp id (fun ⟨a, ha⟩ => ⟨a, ha, (h a ha).mpr hc⟩)

/-- What returned `Err` did neither. -/
theorem not_panics_or_ok {x : Outcome ε α} (hx : x.IsErr) {p : α → Prop} :
    ¬ (x.Panics ∨ ∃ a, x = .ok a ∧ p a) := by
  obtain ⟨e, rfl⟩ := hx
  rintro (h | ⟨_, h, _⟩)
  · exact not_panics_err e h
  · cases h

theorem noPanic_forM {f : α → Outcome ε Unit} {l : List α} (hf : ∀ a ∈ l, (f a).NoPanic) :
    (l.forM f).NoPanic := by
  induction l with
  | nil => exact noPanic_ok ()
  | cons a l ih =>
    rw [List.forM_eq_forM, List.forM_cons]
    exact noPanic_bind (hf a List.mem_cons_self)
      (fun _ _ => ih (fun a' ha' => hf a' (List.mem_cons_of_mem a ha')))

/-- Counting up panics at the largest number, where overflow is checked. -/
theorem panics_u64Succ_iff {overflowChecks : Bool} {n : UInt64} :
    (u64Succ (ε := ε) overflowChecks n).Panics ↔
      overflowChecks = true ∧ n.toNat + 1 = 2 ^ 64 := by
  have hlt := n.toNat_lt
  unfold u64Succ
  by_cases hfit : n.toNat + 1 < 2 ^ 64
  · rw [if_pos hfit]
    exact ⟨fun h => absurd h (not_panics_ok _), fun h => absurd h.2 (by omega)⟩
  · rw [if_neg hfit]
    cases overflowChecks with
    | true => exact ⟨fun _ => ⟨rfl, by omega⟩, fun _ => rfl⟩
    | false => exact ⟨fun h => absurd h (not_panics_ok _), fun h => absurd h.1 (by decide)⟩

end

end VKernelX.Outcome
