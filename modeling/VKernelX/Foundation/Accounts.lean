/-
  Foundation/Accounts.lean --- keeping accounts of a quantity over a run.

  When every step changes a quantity by what it credits and what it debits, then over a whole
  run the quantity changes by the sum of all credits and the sum of all debits.
-/
import VKernelX.Foundation.Runs

set_option autoImplicit false

namespace VKernelX

variable {σ ι : Type} (step : σ → ι → σ)

/-- The sum of what the steps of a run contribute, each in the state it is taken in. -/
def runTotal (amount : σ → ι → ℕ) : σ → List ι → ℕ
  | _, [] => 0
  | s, i :: inputs => amount s i + runTotal amount (step s i) inputs

theorem runTotal_snoc (amount : σ → ι → ℕ) (s : σ) (inputs : List ι) (i : ι) :
    runTotal step amount s (inputs ++ [i]) =
      runTotal step amount s inputs + amount (runFrom step s inputs) i := by
  induction inputs generalizing s with
  | nil => simp [runTotal]
  | cons j inputs ih =>
    rw [List.cons_append, runTotal, runTotal, ih, Nat.add_assoc]
    rfl

variable {step}

/-- Steps that balance make runs that balance. -/
theorem AllSteps.balanced {start : σ} {cond : List ι → σ → ι → Prop} (value : σ → ℕ)
    (credit debit : σ → ι → ℕ)
    (hstep : ∀ before i, cond before (runFrom step start before) i →
      value (step (runFrom step start before) i) + debit (runFrom step start before) i =
        value (runFrom step start before) + credit (runFrom step start before) i)
    {inputs : List ι} (h : AllSteps step start cond inputs) :
    value (runFrom step start inputs) + runTotal step debit start inputs =
      value start + runTotal step credit start inputs := by
  refine h.invariant (I := fun before s => value s + runTotal step debit start before =
    value start + runTotal step credit start before) rfl ?_
  intro before i hbefore hi
  have := hstep before i hi
  rw [runTotal_snoc, runTotal_snoc]
  omega

end VKernelX
