/-
  Foundation/Runs.lean --- runs of a machine whose steps are total.

  A run is the list of inputs it takes.  A condition on a run is a condition on each of its
  steps, which may look at the inputs before the step and at the state it is taken in.
-/
import VKernelX.Foundation.Splits

set_option autoImplicit false

namespace VKernelX

section

variable {σ ι : Type} (step : σ → ι → σ) (start : σ)

/-- The state a list of inputs leads to. -/
def runFrom (inputs : List ι) : σ := inputs.foldl step start

@[simp] theorem runFrom_nil : runFrom step start [] = start := rfl

@[simp] theorem runFrom_snoc (inputs : List ι) (i : ι) :
    runFrom step start (inputs ++ [i]) = step (runFrom step start inputs) i := by
  simp [runFrom]

theorem runFrom_append (inputs inputs' : List ι) :
    runFrom step start (inputs ++ inputs') = runFrom step (runFrom step start inputs) inputs' := by
  simp [runFrom]

/-- Every step of the run meets the condition. -/
def AllSteps (cond : List ι → σ → ι → Prop) (inputs : List ι) : Prop :=
  ∀ before i after, inputs = before ++ i :: after → cond before (runFrom step start before) i

variable {step start}

theorem AllSteps.nil {cond : List ι → σ → ι → Prop} : AllSteps step start cond [] := by
  intro before i after h
  simp at h

theorem allSteps_snoc {cond : List ι → σ → ι → Prop} {inputs : List ι} {i : ι} :
    AllSteps step start cond (inputs ++ [i]) ↔
      AllSteps step start cond inputs ∧ cond inputs (runFrom step start inputs) i :=
  forall_split_snoc

theorem allSteps_cons {cond : List ι → σ → ι → Prop} {i : ι} {inputs : List ι} :
    AllSteps step start cond (i :: inputs) ↔ cond [] start i ∧
      AllSteps step (step start i) (fun before => cond (i :: before)) inputs := by
  constructor
  · intro h
    refine ⟨h [] i inputs rfl, fun before j after heq => ?_⟩
    exact h (i :: before) j after (by rw [heq]; rfl)
  · rintro ⟨hi, h⟩ before j after heq
    cases before with
    | nil =>
      obtain ⟨rfl, rfl⟩ := List.cons.inj heq
      exact hi
    | cons k before =>
      obtain ⟨rfl, rfl⟩ := List.cons.inj heq
      exact h before j after rfl

/-- A condition on states and inputs is decided by running. -/
instance decidableAllSteps {P : σ → ι → Prop} [∀ s i, Decidable (P s i)] (start : σ) :
    ∀ inputs : List ι, Decidable (AllSteps step start (fun _ s i => P s i) inputs)
  | [] => isTrue AllSteps.nil
  | i :: inputs =>
      have : Decidable (AllSteps step (step start i) (fun _ s i => P s i) inputs) :=
        decidableAllSteps (step start i) inputs
      decidable_of_iff _ (@allSteps_cons σ ι step start (fun _ s i => P s i) i inputs).symm

theorem AllSteps.of_append {cond : List ι → σ → ι → Prop} {inputs inputs' : List ι}
    (h : AllSteps step start cond (inputs ++ inputs')) : AllSteps step start cond inputs := by
  intro before i after heq
  exact h before i (after ++ inputs') (by rw [heq]; simp)

theorem AllSteps.mono {cond cond' : List ι → σ → ι → Prop} {inputs : List ι}
    (h : AllSteps step start cond inputs)
    (himp : ∀ before s i, cond before s i → cond' before s i) :
    AllSteps step start cond' inputs :=
  fun before i after heq => himp _ _ _ (h before i after heq)

/-- What holds at the start and is kept by every step that meets the condition holds at
the end of every run whose steps all do. -/
theorem AllSteps.invariant {cond : List ι → σ → ι → Prop} {I : List ι → σ → Prop}
    (hstart : I [] start)
    (hstep : ∀ before i, I before (runFrom step start before) →
      cond before (runFrom step start before) i →
      I (before ++ [i]) (step (runFrom step start before) i))
    {inputs : List ι} (h : AllSteps step start cond inputs) :
    I inputs (runFrom step start inputs) := by
  induction inputs using List.reverseRecOn with
  | nil => exact hstart
  | append_singleton inputs i ih =>
    obtain ⟨hinputs, hi⟩ := allSteps_snoc.mp h
    rw [runFrom_snoc]
    exact hstep inputs i (ih hinputs) hi

variable (step start)

/-- A state some run leads to. -/
def Reachable (s : σ) : Prop := ∃ inputs, s = runFrom step start inputs

theorem Reachable.tail {s : σ} (h : Reachable step start s) (i : ι) :
    Reachable step start (step s i) := by
  obtain ⟨inputs, rfl⟩ := h
  exact ⟨inputs ++ [i], (runFrom_snoc step start inputs i).symm⟩

/-- What holds at the start and is kept by every step from a reachable state holds in every
reachable state. -/
theorem Reachable.invariant_of_reachable {I : σ → Prop} (hstart : I start)
    (hstep : ∀ s i, Reachable step start s → I s → I (step s i)) {s : σ}
    (h : Reachable step start s) : I s := by
  obtain ⟨inputs, rfl⟩ := h
  induction inputs using List.reverseRecOn with
  | nil => exact hstart
  | append_singleton inputs i ih =>
    rw [runFrom_snoc]
    exact hstep _ i ⟨inputs, rfl⟩ ih

/-- What holds at the start and is kept by every step holds in every reachable state. -/
theorem Reachable.invariant {I : σ → Prop} (hstart : I start)
    (hstep : ∀ s i, I s → I (step s i)) {s : σ} (h : Reachable step start s) : I s :=
  Reachable.invariant_of_reachable step start hstart (fun s i _ => hstep s i) h

end

end VKernelX
