/-
  Foundation/Cuts.lean --- cutting a list, and a causal list, off.

  A selection of a list's entries that takes with an entry everything before it takes an
  initial part of the list.  An initial part of a causal list is the causal list of the vertices
  in it.  Where every entry waits for the one before it there is only one order to cut.
-/
import VKernelX.Foundation.CausalOrder

set_option autoImplicit false

namespace VKernelX

variable {α : Type}

/-- With every selected entry the entries before it are selected. -/
def TakesEarlier (keep : α → Bool) (l : List α) : Prop :=
  ∀ before v after, l = before ++ v :: after → keep v = true → ∀ w ∈ before, keep w = true

/-- Such a selection is an initial part of the list. -/
theorem TakesEarlier.filter_prefix {keep : α → Bool} {l : List α} (h : TakesEarlier keep l) :
    l.filter keep <+: l := by
  induction l using List.reverseRecOn with
  | nil => exact List.prefix_rfl
  | append_singleton l v ih =>
    obtain ⟨hl, hv⟩ := forall_split_snoc.mp h
    by_cases hkeep : keep v = true
    · have hall : l.filter keep = l := List.filter_eq_self.mpr (hv hkeep)
      rw [List.filter_append, hall, List.filter_cons_of_pos hkeep, List.filter_nil]
    · rw [List.filter_append, List.filter_cons_of_neg hkeep, List.filter_nil, List.append_nil]
      exact (ih hl).trans (List.prefix_append l [v])

/-- Nothing else is one. -/
theorem takesEarlier_iff_prefix {keep : α → Bool} {l : List α} :
    TakesEarlier keep l ↔ l.filter keep <+: l := by
  refine ⟨TakesEarlier.filter_prefix, fun hprefix => ?_⟩
  rintro before v after hsplit hkeep w hw
  obtain ⟨rest, hrest⟩ := hprefix
  -- No kept entry is left in the rest, so the kept `v` and what is before it are in front.
  have hnone : rest.filter keep = [] := by
    have hfilter := congrArg (List.filter keep) hrest
    rw [List.filter_append, List.filter_filter] at hfilter
    simpa using hfilter
  rcases List.append_eq_append_iff.mp (hrest.trans hsplit) with ⟨mid, _, hmid⟩ | ⟨mid, hfront, _⟩
  · have hv : v ∈ rest := by rw [hmid]; simp
    have hin : v ∈ rest.filter keep := List.mem_filter.mpr ⟨hv, hkeep⟩
    rw [hnone] at hin
    cases hin
  · have hin : w ∈ l.filter keep := by rw [hfront]; exact List.mem_append_left _ hw
    exact (List.mem_filter.mp hin).2

instance [DecidableEq α] (keep : α → Bool) (l : List α) : Decidable (TakesEarlier keep l) :=
  decidable_of_iff _ takesEarlier_iff_prefix.symm

/-- An initial part of a causal list is the causal list of the vertices in it. -/
theorem CausalList.cut {prefer prefer' : α → α → Prop} {nodes nodes' : List α}
    {parents parents' : α → List α} {done rest : List α}
    (h : CausalList prefer nodes parents (done ++ rest)) (hnodes : ∀ v, v ∈ nodes' ↔ v ∈ done)
    (hsame : ∀ v ∈ done, parents' v = parents v)
    (hprefer : ∀ v ∈ done, ∀ w ∈ done, prefer v w → prefer' v w) :
    CausalList prefer' nodes' parents' done where
  nodup := (List.nodup_append.mp h.nodup).1
  subset := fun v hv => (hnodes v).mpr hv
  parentsFirst := by
    intro before v after hsplit p hp
    rw [hsame v (by rw [hsplit]; simp)] at hp
    exact h.parentsFirst before v (after ++ rest) (by rw [hsplit]; simp) p hp
  preferred := by
    intro before v after hsplit w hw hnotin hne havailable
    have hdone : w ∈ done := (hnodes w).mp hw
    rw [hsame w hdone] at havailable
    exact hprefer v (by rw [hsplit]; simp) w hdone
      (h.preferred before v (after ++ rest) (by rw [hsplit]; simp) w
        (h.subset w (List.mem_append_left rest hdone)) hnotin hne havailable)
  maximal := fun v hv _ => (hnodes v).mp hv

/-- A chain whose entries wait for their predecessors can be listed in one way only. -/
theorem eq_of_perm_of_isChain [DecidableEq α] {R : α → α → Prop} {chain l : List α}
    (hperm : l.Perm chain) (hnodup : chain.Nodup) (hchain : chain.IsChain R)
    (hwaits : ∀ before v after, l = before ++ v :: after → ∀ p ∈ l, R p v → p ∈ before) :
    l = chain := by
  have hl : l.Nodup := hperm.nodup_iff.mpr hnodup
  -- Along the chain the positions in `l` grow.
  have hstep : ∀ p ∈ chain, ∀ v ∈ chain, R p v → l.idxOf p < l.idxOf v := by
    intro p hp v hv hedge
    obtain ⟨before, after, hsplit, hnot⟩ := List.eq_append_cons_of_mem (hperm.mem_iff.mpr hv)
    have hbefore := hwaits before v after hsplit p (hperm.mem_iff.mpr hp) hedge
    rw [hsplit, List.idxOf_append_of_mem hbefore, List.idxOf_append_of_notMem hnot]
    have := List.idxOf_lt_length_of_mem hbefore
    omega
  have hgrows : chain.Pairwise (fun p v => l.idxOf p < l.idxOf v) := by
    refine List.isChain_iff_pairwise.mp ?_
    exact hchain.imp_of_mem_imp (fun p v hp hv hedge => hstep p hp v hv hedge)
  have hown : l.Pairwise (fun p v => l.idxOf p < l.idxOf v) := by
    rw [List.pairwise_iff_getElem]
    intro i j hi hj hlt
    rwa [hl.idxOf_getElem i hi, hl.idxOf_getElem j hj]
  exact hperm.eq_of_pairwise (fun a b _ _ hab hba => absurd hab (by omega)) hown hgrows

end VKernelX
