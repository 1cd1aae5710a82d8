/-
  Foundation/CausalOrder.lean --- orderings of a finite graph given by parent lists.

  `nodes` lists the vertices and `parents v` the parents of a vertex.  A `CausalList` is
  what repeatedly emitting a vertex whose parents are all emitted leads to: it is duplicate-free,
  parents come first, and nothing that could still be emitted is missing.

  TWO FACTS ABOUT IT.  It contains every vertex exactly when the graph has no cycle
  (`acyclic_iff_complete`); and when a preference settles which of the available vertices
  is emitted next, the list is unique (`CausalList.unique`), so it depends on the graph only
  and not on how the graph was presented.
-/
import VKernelX.Foundation.Splits

set_option autoImplicit false

namespace VKernelX

open Relation

variable {α : Type}

/-- `p` is a parent of the vertex `v`. -/
def ParentEdge (nodes : List α) (parents : α → List α) (p v : α) : Prop :=
  v ∈ nodes ∧ p ∈ parents v

/-- No cycle of any length. -/
def Acyclic (nodes : List α) (parents : α → List α) : Prop :=
  ∀ v, ¬ TransGen (ParentEdge nodes parents) v v

/-- Every entry's parents come before it. -/
def ParentsFirst (parents : α → List α) (done : List α) : Prop :=
  ∀ before v after, done = before ++ v :: after → ∀ p ∈ parents v, p ∈ before

/-- Every entry is preferred to the vertices that could have been emitted in its place:
those not emitted before it whose parents all were. -/
def Preferred (prefer : α → α → Prop) (nodes : List α) (parents : α → List α)
    (done : List α) : Prop :=
  ∀ before v after, done = before ++ v :: after →
    ∀ w ∈ nodes, w ∉ before → w ≠ v → (∀ p ∈ parents w, p ∈ before) → prefer v w

/-- A list of vertices that respects parents and preference and cannot be extended. -/
structure CausalList (prefer : α → α → Prop) (nodes : List α) (parents : α → List α)
    (done : List α) : Prop where
  nodup : done.Nodup
  subset : ∀ v ∈ done, v ∈ nodes
  parentsFirst : ParentsFirst parents done
  preferred : Preferred prefer nodes parents done
  maximal : ∀ v ∈ nodes, (∀ p ∈ parents v, p ∈ done) → v ∈ done

section Extend

variable {prefer : α → α → Prop} {nodes : List α} {parents : α → List α} {done : List α}

theorem ParentsFirst.nil : ParentsFirst parents ([] : List α) := by
  intro before v after h
  simp at h

theorem ParentsFirst.snoc (h : ParentsFirst parents done) {v : α}
    (hv : ∀ p ∈ parents v, p ∈ done) : ParentsFirst parents (done ++ [v]) :=
  forall_split_snoc.mpr ⟨h, hv⟩

theorem Preferred.nil : Preferred prefer nodes parents ([] : List α) := by
  intro before v after h
  simp at h

theorem Preferred.snoc (h : Preferred prefer nodes parents done) {v : α}
    (hv : ∀ w ∈ nodes, w ∉ done → w ≠ v → (∀ p ∈ parents w, p ∈ done) → prefer v w) :
    Preferred prefer nodes parents (done ++ [v]) :=
  forall_split_snoc.mpr ⟨h, hv⟩

/-- In a parents-first list without duplicates a parent has the smaller position. -/
theorem ParentsFirst.idxOf_lt [DecidableEq α] (h : ParentsFirst parents done) {p v : α}
    (hv : v ∈ done) (hp : p ∈ parents v) : done.idxOf p < done.idxOf v := by
  obtain ⟨before, after, hsplit, hnot⟩ := List.eq_append_cons_of_mem hv
  have hpb : p ∈ before := h before v after hsplit p hp
  rw [hsplit, List.idxOf_append_of_mem hpb, List.idxOf_append_of_notMem hnot]
  have := List.idxOf_lt_length_of_mem hpb
  omega

end Extend

/-! ## One more vertex -/

/-- A new vertex whose only parent is the last entry comes last, and nothing else changes. -/
theorem CausalList.extend {prefer prefer' : α → α → Prop} {nodes : List α}
    {parents parents' : α → List α} {done : List α} {last v : α}
    (h : CausalList prefer nodes parents done)
    (hclosed : ∀ w ∈ nodes, ∀ p ∈ parents w, p ∈ nodes)
    (hsame : ∀ w ∈ nodes, parents' w = parents w)
    (hprefer : ∀ w ∈ nodes, ∀ w' ∈ nodes, prefer w w' → prefer' w w')
    (hlast : done.getLast? = some last) (hv : v ∉ nodes) (hparents : parents' v = [last]) :
    CausalList prefer' (nodes ++ [v]) parents' (done ++ [v]) := by
  have hlastMem : last ∈ done := List.mem_of_getLast? hlast
  have hvdone : v ∉ done := fun hin => hv (h.subset v hin)
  refine {
    nodup := List.nodup_append.mpr ⟨h.nodup, List.nodup_singleton v, ?_⟩
    subset := ?_
    parentsFirst := ParentsFirst.snoc ?_ (by rw [hparents]; simpa using hlastMem)
    preferred := Preferred.snoc ?_ ?_
    maximal := ?_ }
  · rintro w hw _ hv' rfl
    exact hvdone (List.mem_singleton.mp hv' ▸ hw)
  · intro w hw
    rcases List.mem_append.mp hw with hw | hw
    · exact List.mem_append_left _ (h.subset w hw)
    · exact List.mem_append_right _ hw
  · intro before w after hsplit
    rw [hsame w (h.subset w (by rw [hsplit]; simp))]
    exact h.parentsFirst before w after hsplit
  · intro before w after hsplit w' hw' hnotin hne havailable
    have hw : w ∈ nodes := h.subset w (by rw [hsplit]; simp)
    rcases List.mem_append.mp hw' with hw' | hw'
    · rw [hsame w' hw'] at havailable
      exact hprefer w hw w' hw' (h.preferred before w after hsplit w' hw' hnotin hne havailable)
    · -- The new vertex has to wait for the last entry.
      obtain rfl := List.mem_singleton.mp hw'
      have hbefore : last ∈ before := havailable last (by rw [hparents]; simp)
      have hend : last ∈ w :: after := by
        rw [hsplit, List.getLast?_append_of_ne_nil _ (List.cons_ne_nil _ _)] at hlast
        exact List.mem_of_getLast? hlast
      have hnodup := h.nodup
      rw [hsplit] at hnodup
      exact absurd rfl ((List.nodup_append.mp hnodup).2.2 last hbefore last hend)
  · intro w hw hnotin hne havailable
    have hw := (List.mem_append.mp hw).resolve_right (fun heq => hne (List.mem_singleton.mp heq))
    rw [hsame w hw] at havailable
    exact absurd (h.maximal w hw havailable) hnotin
  · intro w hw havailable
    rcases List.mem_append.mp hw with hw | hw
    · refine List.mem_append_left _ (h.maximal w hw (fun p hp => ?_))
      have hin := havailable p (by rwa [hsame w hw])
      refine (List.mem_append.mp hin).resolve_right (fun heq => hv ?_)
      rw [← List.mem_singleton.mp heq]
      exact hclosed w hw p hp
    · exact List.mem_append_right _ hw

/-! ## Cycles -/

/-- A rank that grows along a relation excludes cycles. -/
theorem acyclic_of_rank {r : α → α → Prop} (rank : α → ℕ) (h : ∀ a b, r a b → rank a < rank b)
    (a : α) : ¬ TransGen r a a := by
  have hlt : ∀ a b, TransGen r a b → rank a < rank b := by
    intro a b hpath
    induction hpath with
    | single hedge => exact h _ _ hedge
    | tail _ hedge ih => exact ih.trans (h _ _ hedge)
  exact fun hcycle => Nat.lt_irrefl _ (hlt a a hcycle)

/-- A relation on finitely many vertices that has no cycle is well founded. -/
theorem wellFounded_of_acyclic {nodes : List α} {r : α → α → Prop}
    (hsource : ∀ a b, r a b → a ∈ nodes) (h : ∀ a, ¬ TransGen r a a) : WellFounded r := by
  -- Reachability, restricted to the finite set of vertices, is irreflexive and transitive.
  let step : { v // v ∈ nodes } → { v // v ∈ nodes } → Prop := fun a b => TransGen r a.1 b.1
  have : Finite { v // v ∈ nodes } := List.finite_toSet nodes
  have : IsTrans _ step := ⟨fun _ _ _ hab hbc => hab.trans hbc⟩
  have : Std.Irrefl step := ⟨fun v hv => h v.1 hv⟩
  have hwf : WellFounded step := Finite.wellFounded_of_trans_of_irrefl step
  have hacc : ∀ x : { v // v ∈ nodes }, Acc r x.1 := by
    intro x
    induction x using hwf.induction with
    | _ x ih => exact ⟨_, fun a hedge => ih ⟨a, hsource a x.1 hedge⟩ (.single hedge)⟩
  exact ⟨fun v => ⟨v, fun a hedge => hacc ⟨a, hsource a v hedge⟩⟩⟩

/-- Following such a relation ends where nothing follows. -/
theorem exists_reflTransGen_terminal {nodes : List α} {r : α → α → Prop}
    (htarget : ∀ a b, r a b → b ∈ nodes) (h : ∀ a, ¬ TransGen r a a) (a : α) :
    ∃ b, ReflTransGen r a b ∧ ∀ c, ¬ r b c := by
  have hwf : WellFounded (Function.swap r) :=
    wellFounded_of_acyclic (fun b a hedge => htarget a b hedge)
      (fun a hcycle => h a (transGen_swap.mp hcycle))
  induction a using hwf.induction with
  | _ a ih =>
    by_cases hnext : ∃ c, r a c
    · obtain ⟨c, hc⟩ := hnext
      obtain ⟨b, hpath, hb⟩ := ih c hc
      exact ⟨b, .head hc hpath, hb⟩
    · exact ⟨a, .refl, fun c hc => hnext ⟨c, hc⟩⟩

/-- A parents-first list of all vertices excludes cycles. -/
theorem acyclic_of_parentsFirst {nodes : List α} {parents : α → List α} {done : List α}
    (h : ParentsFirst parents done) (hall : ∀ v ∈ nodes, v ∈ done) : Acyclic nodes parents := by
  classical
  exact acyclic_of_rank done.idxOf (fun v w hedge => h.idxOf_lt (hall w hedge.1) hedge.2)

/-- Over finitely many vertices a cycle-free parent relation is well founded. -/
theorem Acyclic.wellFounded {nodes : List α} {parents : α → List α}
    (h : Acyclic nodes parents) (hclosed : ∀ v ∈ nodes, ∀ p ∈ parents v, p ∈ nodes) :
    WellFounded (ParentEdge nodes parents) :=
  wellFounded_of_acyclic (fun p v hedge => hclosed v hedge.1 p hedge.2) h

/-! ## Completeness -/

/-- A causal list contains every vertex exactly when the graph has no cycle. -/
theorem acyclic_iff_complete {prefer : α → α → Prop} {nodes : List α}
    {parents : α → List α} {done : List α}
    (hclosed : ∀ v ∈ nodes, ∀ p ∈ parents v, p ∈ nodes)
    (h : CausalList prefer nodes parents done) :
    Acyclic nodes parents ↔ ∀ v ∈ nodes, v ∈ done := by
  constructor
  · intro hacyclic v
    induction v using (hacyclic.wellFounded hclosed).induction with
    | _ v ih =>
      intro hv
      exact h.maximal v hv (fun p hp => ih p ⟨hv, hp⟩ (hclosed v hv p hp))
  · exact acyclic_of_parentsFirst h.parentsFirst

/-- Counting form of completeness, for a duplicate-free vertex list. -/
theorem CausalList.length_eq_iff {prefer : α → α → Prop} {nodes : List α}
    {parents : α → List α} {done : List α} (hnodes : nodes.Nodup)
    (h : CausalList prefer nodes parents done) :
    done.length = nodes.length ↔ ∀ v ∈ nodes, v ∈ done := by
  have hsub : done.Subperm nodes := h.nodup.subperm (fun v hv => h.subset v hv)
  constructor
  · intro hlen v hv
    exact (hsub.perm_of_length_le hlen.ge).mem_iff.mpr hv
  · intro hall
    exact ((List.perm_ext_iff_of_nodup h.nodup hnodes).mpr
      (fun v => ⟨h.subset v, hall v⟩)).length_eq

/-! ## Uniqueness -/

/-- With an antisymmetric preference the causal list is determined by the graph: only the
set of vertices and their parent lists matter. -/
theorem CausalList.unique {prefer : α → α → Prop} {nodes nodes' : List α}
    (hanti : ∀ v ∈ nodes, ∀ w ∈ nodes, prefer v w → prefer w v → v = w)
    (hnodes : ∀ v, v ∈ nodes ↔ v ∈ nodes') {parents : α → List α}
    {done done' : List α} (h : CausalList prefer nodes parents done)
    (h' : CausalList prefer nodes' parents done') : done = done' := by
  -- Along a common prefix both lists have to pick the same next vertex.
  suffices key : ∀ tail tail' before, done = before ++ tail → done' = before ++ tail' →
      tail = tail' from key done done' [] rfl rfl
  intro tail
  induction tail with
  | nil =>
    intro tail' before hd hd'
    cases tail' with
    | nil => rfl
    | cons w tail' =>
      have hparents := h'.parentsFirst before w tail' hd'
      have hw : w ∈ done := h.maximal w
        ((hnodes w).mpr (h'.subset w (by rw [hd']; simp))) (by rw [hd]; simpa using hparents)
      have hnodup := h'.nodup
      rw [hd'] at hnodup
      rw [hd, List.append_nil] at hw
      exact absurd rfl ((List.nodup_append.mp hnodup).2.2 w hw w (by simp))
  | cons v tail ih =>
    intro tail' before hd hd'
    have hvnodup := h.nodup
    rw [hd] at hvnodup
    have hvb : v ∉ before := fun hv =>
      absurd rfl ((List.nodup_append.mp hvnodup).2.2 v hv v (by simp))
    have hvparents := h.parentsFirst before v tail hd
    have hvnodes : v ∈ nodes := h.subset v (by rw [hd]; simp)
    cases tail' with
    | nil =>
      have hv : v ∈ done' := h'.maximal v ((hnodes v).mp hvnodes)
        (by rw [hd']; simpa using hvparents)
      rw [hd', List.append_nil] at hv
      exact absurd hv hvb
    | cons w tail' =>
      have hwnodup := h'.nodup
      rw [hd'] at hwnodup
      have hwb : w ∉ before := fun hw =>
        absurd rfl ((List.nodup_append.mp hwnodup).2.2 w hw w (by simp))
      have hwnodes : w ∈ nodes' := h'.subset w (by rw [hd']; simp)
      have heq : v = w := by
        by_contra hne
        exact hne (hanti v hvnodes w ((hnodes w).mpr hwnodes)
          (h.preferred before v tail hd w ((hnodes w).mpr hwnodes) hwb (Ne.symm hne)
            (h'.parentsFirst before w tail' hd'))
          (h'.preferred before w tail' hd' v ((hnodes v).mp hvnodes) hvb hne hvparents))
      subst heq
      have := ih tail' (before ++ [v]) (by simpa using hd) (by simpa using hd')
      rw [this]

end VKernelX
