/-
  Foundation/Schedules.lean --- schedules of inputs that name what they work on.

  Two inputs that name nothing in common are independent.  Two schedules are rearrangements of
  one another when one comes from the other by swapping neighbours that are independent, and
  that is so exactly when, for every name, both have the same inputs of that name in the same
  order.  A machine on which independent neighbours can be swapped gives the same answers on
  both, and ends in equivalent states.
-/
import VKernelX.Foundation.Runs

set_option autoImplicit false

namespace VKernelX

/-! ## Rearrangements -/

section

variable {ι κ : Type} (names : ι → List κ)

/-- Two inputs that name nothing in common. -/
def Independent (a b : ι) : Prop := ∀ k ∈ names a, k ∉ names b

/-- Schedules that differ by swaps of independent neighbours. -/
inductive Rearranged : List ι → List ι → Prop where
  | refl (l : List ι) : Rearranged l l
  | cons (a : ι) {l l' : List ι} (h : Rearranged l l') : Rearranged (a :: l) (a :: l')
  | swap {a b : ι} (hab : Independent names a b) (l : List ι) :
      Rearranged (a :: b :: l) (b :: a :: l)
  | trans {l m l' : List ι} (h : Rearranged l m) (h' : Rearranged m l') : Rearranged l l'

variable {names}

theorem Independent.symm {a b : ι} (h : Independent names a b) : Independent names b a :=
  fun k hb ha => h k ha hb

theorem Rearranged.perm {l l' : List ι} (h : Rearranged names l l') : l.Perm l' := by
  induction h with
  | refl l => exact .refl l
  | cons a _ ih => exact .cons a ih
  | @swap a b _ l => exact .swap b a l
  | trans _ _ ih ih' => exact ih.trans ih'

theorem Rearranged.symm {l l' : List ι} (h : Rearranged names l l') : Rearranged names l' l := by
  induction h with
  | refl l => exact .refl l
  | cons a _ ih => exact .cons a ih
  | swap hab l => exact .swap (Independent.symm hab) l
  | trans _ _ ih ih' => exact ih'.trans ih

/-- An input moves to the front past inputs that are independent of it. -/
theorem rearranged_to_front {a : ι} {front : List ι} (h : ∀ b ∈ front, Independent names b a)
    (rest : List ι) : Rearranged names (front ++ a :: rest) (a :: (front ++ rest)) := by
  induction front with
  | nil => exact .refl _
  | cons b front ih =>
    obtain ⟨hb, hfront⟩ := List.forall_mem_cons.mp h
    exact .trans (.cons b (ih hfront)) (.swap hb (front ++ rest))

/-! ## Schedules name by name -/

variable (names) [DecidableEq κ]

/-- The inputs of a name, in order. -/
def ofName (k : κ) (l : List ι) : List ι := l.filter (fun a => k ∈ names a)

/-- Schedules that have, for every name, the same inputs of that name in the same order. -/
def SameByName (l l' : List ι) : Prop := ∀ k, ofName names k l = ofName names k l'

variable {names}

@[simp] theorem ofName_nil (k : κ) : ofName names k [] = [] := rfl

theorem ofName_append (k : κ) (l l' : List ι) :
    ofName names k (l ++ l') = ofName names k l ++ ofName names k l' := List.filter_append ..

theorem ofName_cons_of_mem {k : κ} {a : ι} (h : k ∈ names a) (l : List ι) :
    ofName names k (a :: l) = a :: ofName names k l :=
  List.filter_cons_of_pos (decide_eq_true h)

theorem ofName_cons_of_not_mem {k : κ} {a : ι} (h : k ∉ names a) (l : List ι) :
    ofName names k (a :: l) = ofName names k l := List.filter_cons_of_neg (by simpa using h)

theorem mem_ofName {k : κ} {l : List ι} {a : ι} : a ∈ ofName names k l ↔ a ∈ l ∧ k ∈ names a := by
  simp [ofName]

/-- Swapping independent neighbours moves no input past another of the same name. -/
theorem Rearranged.sameByName {l l' : List ι} (h : Rearranged names l l') :
    SameByName names l l' := by
  intro k
  induction h with
  | refl l => rfl
  | @cons a l l' _ ih =>
    by_cases hk : k ∈ names a
    · rw [ofName_cons_of_mem hk, ofName_cons_of_mem hk, ih]
    · rw [ofName_cons_of_not_mem hk, ofName_cons_of_not_mem hk, ih]
  | @swap a b hab l =>
    by_cases hk : k ∈ names a
    · rw [ofName_cons_of_mem hk, ofName_cons_of_not_mem (hab k hk),
        ofName_cons_of_not_mem (hab k hk), ofName_cons_of_mem hk]
    · rw [ofName_cons_of_not_mem hk]
      by_cases hk' : k ∈ names b
      · rw [ofName_cons_of_mem hk', ofName_cons_of_mem hk', ofName_cons_of_not_mem hk]
      · rw [ofName_cons_of_not_mem hk', ofName_cons_of_not_mem hk', ofName_cons_of_not_mem hk]
  | trans _ _ ih ih' => exact ih.trans ih'

/-- The first input of one of its names comes before every input that shares a name with it. -/
theorem SameByName.front {a : ι} {l l' : List ι} (h : SameByName names (a :: l) l')
    (ha : names a ≠ []) :
    ∃ front rest, l' = front ++ a :: rest ∧ ∀ b ∈ front, Independent names b a := by
  obtain ⟨k, hk⟩ := List.exists_mem_of_ne_nil _ ha
  have hfirst : ∀ {k}, k ∈ names a → ofName names k l' = a :: ofName names k l := by
    intro k hk
    rw [← h k, ofName_cons_of_mem hk]
  obtain ⟨front, rest, rfl, hfront, _⟩ := List.filter_eq_cons_iff.mp (hfirst hk)
  refine ⟨front, rest, rfl, fun b hb k' hk' hka => ?_⟩
  -- Otherwise the first input of `k'` stands in front of `a`, and it is `a`.
  have hsplit := hfirst hka
  rw [ofName_append] at hsplit
  have hmem : b ∈ ofName names k' front := mem_ofName.mpr ⟨hb, hk'⟩
  obtain ⟨c, others, hc⟩ := List.exists_cons_of_ne_nil (List.ne_nil_of_mem hmem)
  rw [hc, List.cons_append] at hsplit
  obtain rfl := (List.cons.inj hsplit).1
  have hin : c ∈ ofName names k' front := hc ▸ List.mem_cons_self
  exact hfront c (mem_ofName.mp hin).1 (decide_eq_true hk)

/-- Taking the first input out of both schedules. -/
theorem SameByName.tail {a : ι} {l front rest : List ι}
    (h : SameByName names (a :: l) (front ++ a :: rest))
    (hfront : ∀ b ∈ front, Independent names b a) : SameByName names l (front ++ rest) := by
  intro k
  have hk := h k
  rw [ofName_append] at hk ⊢
  by_cases hka : k ∈ names a
  · have hnone : ofName names k front = [] := by
      refine List.eq_nil_iff_forall_not_mem.mpr (fun b hb => ?_)
      obtain ⟨hb, hkb⟩ := mem_ofName.mp hb
      exact hfront b hb k hkb hka
    rw [ofName_cons_of_mem hka, ofName_cons_of_mem hka, hnone] at hk
    rw [hnone]
    exact (List.cons.inj hk).2
  · rwa [ofName_cons_of_not_mem hka, ofName_cons_of_not_mem hka] at hk

/-- When every input names something, schedules are rearrangements of one another exactly if
they agree name by name. -/
theorem rearranged_iff_sameByName {l l' : List ι} (hl : ∀ a ∈ l, names a ≠ [])
    (hl' : ∀ a ∈ l', names a ≠ []) : Rearranged names l l' ↔ SameByName names l l' := by
  refine ⟨Rearranged.sameByName, fun h => ?_⟩
  induction l generalizing l' with
  | nil =>
    have hnil : l' = [] := by
      refine List.eq_nil_iff_forall_not_mem.mpr (fun a ha => ?_)
      obtain ⟨k, hk⟩ := List.exists_mem_of_ne_nil _ (hl' a ha)
      have hmem : a ∈ ofName names k l' := mem_ofName.mpr ⟨ha, hk⟩
      rw [← h k] at hmem
      exact List.not_mem_nil hmem
    rw [hnil]
    exact .refl []
  | cons a l ih =>
    obtain ⟨ha, hl⟩ := List.forall_mem_cons.mp hl
    obtain ⟨front, rest, rfl, hfront⟩ := h.front ha
    have hrest : ∀ b ∈ front ++ rest, names b ≠ [] := by
      intro b hb
      exact hl' b (by simp only [List.mem_append, List.mem_cons] at hb ⊢; tauto)
    have htail := ih hl hrest (h.tail hfront)
    exact (Rearranged.cons a htail).trans (rearranged_to_front hfront rest).symm

end

/-! ## Answers -/

section

variable {σ ι ο κ : Type} (step : σ → ι → σ) (answer : σ → ι → ο)

/-- The inputs of a run, each with the answer the machine gives to it. -/
def answers : σ → List ι → List (ι × ο)
  | _, [] => []
  | s, i :: inputs => (i, answer s i) :: answers (step s i) inputs

variable (names : ι → List κ) (Inv : σ → Prop) (good : ο → Prop) (sim : σ → σ → Prop)

/-- A machine on which independent neighbours can be swapped, as long as all answers are good.
States are taken up to `sim`, which the machine cannot tell apart. -/
structure Swappable : Prop where
  inv : ∀ s i, Inv s → Inv (step s i)
  sim_refl : ∀ s, sim s s
  sim_trans : ∀ s t u, sim s t → sim t u → sim s u
  sim_step : ∀ s t i, Inv s → sim s t → good (answer s i) →
    answer t i = answer s i ∧ sim (step s i) (step t i)
  swap : ∀ s a b, Inv s → Independent names a b → good (answer s a) →
    good (answer (step s a) b) → answer s b = answer (step s a) b ∧
      answer (step s b) a = answer s a ∧ sim (step (step s a) b) (step (step s b) a)

variable {step answer names Inv good sim}

/-- States the machine cannot tell apart give the same answers. -/
theorem Swappable.answers_congr (h : Swappable step answer names Inv good sim) {s t : σ}
    (hs : Inv s) (hsim : sim s t) {inputs : List ι}
    (hgood : ∀ p ∈ answers step answer s inputs, good p.2) :
    answers step answer t inputs = answers step answer s inputs ∧
      sim (runFrom step s inputs) (runFrom step t inputs) := by
  induction inputs generalizing s t with
  | nil => exact ⟨rfl, hsim⟩
  | cons i inputs ih =>
    obtain ⟨hi, hrest⟩ := List.forall_mem_cons.mp hgood
    obtain ⟨hanswer, hstep⟩ := h.sim_step s t i hs hsim hi
    obtain ⟨hanswers, hend⟩ := ih (h.inv s i hs) hstep hrest
    refine ⟨?_, hend⟩
    rw [answers, answers, hanswer, hanswers]

/-- Rearranging a schedule whose answers are all good rearranges the answers with it, and leads
to a state the machine cannot tell apart from the one before. -/
theorem Swappable.rearranged (h : Swappable step answer names Inv good sim)
    {inputs inputs' : List ι} (hre : Rearranged names inputs inputs') {s : σ} (hs : Inv s)
    (hgood : ∀ p ∈ answers step answer s inputs, good p.2) :
    Rearranged (fun p : ι × ο => names p.1) (answers step answer s inputs)
        (answers step answer s inputs') ∧
      sim (runFrom step s inputs) (runFrom step s inputs') := by
  induction hre generalizing s with
  | refl l => exact ⟨.refl _, h.sim_refl _⟩
  | cons a _ ih =>
    obtain ⟨_, hrest⟩ := List.forall_mem_cons.mp hgood
    obtain ⟨hanswers, hend⟩ := ih (h.inv s a hs) hrest
    exact ⟨.cons _ hanswers, hend⟩
  | @swap a b hab l =>
    obtain ⟨ha, hrest⟩ := List.forall_mem_cons.mp hgood
    obtain ⟨hb, hrest⟩ := List.forall_mem_cons.mp hrest
    obtain ⟨hanswerB, hanswerA, hsim⟩ := h.swap s a b hs hab ha hb
    obtain ⟨hanswers, hend⟩ :=
      h.answers_congr (h.inv _ b (h.inv s a hs)) hsim hrest
    refine ⟨?_, hend⟩
    have hswap := @Rearranged.swap _ _ (fun p : ι × ο => names p.1) (a, answer s a)
      (b, answer (step s a) b) hab (answers step answer (step (step s a) b) l)
    rwa [answers, answers, answers, answers, hanswers, hanswerA, hanswerB]
  | @trans l m l' _ _ ih ih' =>
    obtain ⟨hanswers, hend⟩ := ih hs hgood
    obtain ⟨hanswers', hend'⟩ := ih' hs
      (fun p hp => hgood p (hanswers.perm.mem_iff.mpr hp))
    exact ⟨hanswers.trans hanswers', h.sim_trans _ _ _ hend hend'⟩

end

end VKernelX
