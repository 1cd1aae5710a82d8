/-
  Foundation/Separators.lean --- texts joined by a separator that is not escaped.

  Where the last part cannot hold the separator, the join is read back from the right.  Where
  both parts can, a join has further readings, and they are all of one kind: the separator may
  be found at another place.
-/
import Mathlib

set_option autoImplicit false

namespace VKernelX

/-! ## Lists -/

section

variable {α : Type} {c : α} {xs ys xs' ys' : List α}

/-- The last separator of a list is where the part without separators begins. -/
theorem append_cons_inj_of_notMem_right (hys : c ∉ ys) (hys' : c ∉ ys')
    (h : xs ++ c :: ys = xs' ++ c :: ys') : xs = xs' ∧ ys = ys' := by
  rcases List.append_eq_append_iff.mp h with ⟨gap, hxs, hgap⟩ | ⟨gap, hxs, hgap⟩
  · cases gap with
    | nil =>
      simp only [List.nil_append, List.cons.injEq, true_and] at hgap
      exact ⟨by rw [hxs, List.append_nil], hgap⟩
    | cons d gap =>
      simp only [List.cons_append, List.cons.injEq] at hgap
      exact absurd (by rw [hgap.2]; simp) hys
  · cases gap with
    | nil =>
      simp only [List.nil_append, List.cons.injEq, true_and] at hgap
      exact ⟨by rw [hxs, List.append_nil], hgap.symm⟩
    | cons d gap =>
      simp only [List.cons_append, List.cons.injEq] at hgap
      exact absurd (by rw [hgap.2]; simp) hys'

/-- A second reading of a join by a doubled separator, with a longer first part: half of the
separator goes over, or the first part runs up to a later separator. -/
def ListOverlap (c : α) (xs ys xs' ys' : List α) : Prop :=
  (xs' = xs ++ [c] ∧ ys = c :: ys') ∨
    ∃ middle, xs' = xs ++ c :: c :: middle ∧ ys = middle ++ c :: c :: ys'

/-- Equal joins with a longer first part on the right. -/
theorem listOverlap_of_gap {gap : List α} (hgap : gap ≠ []) (hxs : xs' = xs ++ gap)
    (h : c :: c :: ys = gap ++ c :: c :: ys') : ListOverlap c xs ys xs' ys' := by
  cases gap with
  | nil => exact absurd rfl hgap
  | cons d gap =>
    simp only [List.cons_append, List.cons.injEq] at h
    obtain ⟨rfl, h⟩ := h
    cases gap with
    | nil => exact Or.inl ⟨hxs, by simpa using h⟩
    | cons d' middle =>
      simp only [List.cons_append, List.cons.injEq] at h
      obtain ⟨rfl, h⟩ := h
      exact Or.inr ⟨middle, hxs, h⟩

/-- The readings of a join by a doubled separator. -/
theorem append_cons_cons_eq_iff :
    xs ++ c :: c :: ys = xs' ++ c :: c :: ys' ↔
      (xs = xs' ∧ ys = ys') ∨ ListOverlap c xs ys xs' ys' ∨ ListOverlap c xs' ys' xs ys := by
  constructor
  · intro h
    by_cases hsame : xs = xs'
    · subst hsame
      simp only [List.append_cancel_left_eq, List.cons.injEq, true_and] at h
      exact Or.inl ⟨rfl, h⟩
    rcases List.append_eq_append_iff.mp h with ⟨gap, hxs, hgap⟩ | ⟨gap, hxs, hgap⟩
    · have hne : gap ≠ [] := by
        rintro rfl
        exact hsame (by rw [hxs, List.append_nil])
      exact Or.inr (Or.inl (listOverlap_of_gap hne hxs hgap))
    · have hne : gap ≠ [] := by
        rintro rfl
        exact hsame (by rw [hxs, List.append_nil])
      exact Or.inr (Or.inr (listOverlap_of_gap hne hxs hgap))
  · rintro (⟨rfl, rfl⟩ | (⟨rfl, rfl⟩ | ⟨_, rfl, rfl⟩) | (⟨rfl, rfl⟩ | ⟨_, rfl, rfl⟩)) <;> simp

end

/-! ## Texts -/

/-- A second reading of `a::b`, with a longer first part. -/
def Overlap (a b a' b' : String) : Prop :=
  (a' = a ++ ":" ∧ b = ":" ++ b') ∨
    ∃ middle, a' = a ++ "::" ++ middle ∧ b = middle ++ "::" ++ b'

theorem overlap_iff_listOverlap {a b a' b' : String} :
    Overlap a b a' b' ↔ ListOverlap ':' a.toList b.toList a'.toList b'.toList := by
  have htext : ∀ s t : String, s = t ↔ s.toList = t.toList := fun _ _ => String.toList_inj.symm
  simp only [Overlap, ListOverlap, htext, String.toList_append]
  refine or_congr (by simp) ⟨?_, ?_⟩
  · rintro ⟨middle, ha, hb⟩
    exact ⟨middle.toList, by simpa using ha, by simpa using hb⟩
  · rintro ⟨middle, ha, hb⟩
    exact ⟨String.ofList middle, by simpa using ha, by simpa using hb⟩

/-- The readings of `a::b`. -/
theorem join_eq_iff {a b a' b' : String} :
    a ++ "::" ++ b = a' ++ "::" ++ b' ↔
      (a = a' ∧ b = b') ∨ Overlap a b a' b' ∨ Overlap a' b' a b := by
  have hjoin : ∀ s t : String, (s ++ "::" ++ t).toList = s.toList ++ ':' :: ':' :: t.toList := by
    intro s t
    simp
  rw [overlap_iff_listOverlap, overlap_iff_listOverlap, ← String.toList_inj, hjoin, hjoin,
    append_cons_cons_eq_iff, String.toList_inj, String.toList_inj]

/-- A second part without colons is read back. -/
theorem join_inj {a b a' b' : String} (hb : ':' ∉ b.toList) (hb' : ':' ∉ b'.toList)
    (h : a ++ "::" ++ b = a' ++ "::" ++ b') : a = a' ∧ b = b' := by
  have hjoin : ∀ s t : String,
      (s ++ "::" ++ t).toList = (s.toList ++ [':']) ++ ':' :: t.toList := by
    intro s t
    simp
  rw [← String.toList_inj, hjoin, hjoin] at h
  obtain ⟨hfirst, hsecond⟩ := append_cons_inj_of_notMem_right hb hb' h
  exact ⟨String.toList_inj.mp (List.append_cancel_right hfirst), String.toList_inj.mp hsecond⟩

end VKernelX
