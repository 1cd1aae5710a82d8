/-
  Foundation/Splits.lean --- properties of every entry of a list together with what comes
  before it.
-/
import Mathlib

set_option autoImplicit false

namespace VKernelX

variable {α : Type} {l : List α} {x : α}

/-- Where an entry of an extended list stands: at the end, or in the list that was extended. -/
theorem split_snoc {before after : List α} {y : α} (h : l ++ [x] = before ++ y :: after) :
    before = l ∧ y = x ∨ ∃ after', l = before ++ y :: after' := by
  rcases List.eq_nil_or_concat after with rfl | ⟨after', z, rfl⟩
  · obtain ⟨hl, hx⟩ := List.append_inj' h rfl
    exact Or.inl ⟨hl.symm, by simpa using hx.symm⟩
  · have h' : l ++ [x] = (before ++ y :: after') ++ [z] := by simpa using h
    exact Or.inr ⟨after', (List.append_inj' h' rfl).1⟩

/-- A property of every entry and the entries before it, on a list with one more entry. -/
theorem forall_split_snoc {P : List α → α → Prop} :
    (∀ before y after, l ++ [x] = before ++ y :: after → P before y) ↔
      (∀ before y after, l = before ++ y :: after → P before y) ∧ P l x := by
  constructor
  · intro h
    refine ⟨fun before y after heq => h before y (after ++ [x]) (by rw [heq]; simp), ?_⟩
    exact h l x [] rfl
  · rintro ⟨h, hx⟩ before y after heq
    rcases split_snoc heq with ⟨rfl, rfl⟩ | ⟨after', hl⟩
    · exact hx
    · exact h before y after' hl

end VKernelX
