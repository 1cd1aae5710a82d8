/-
  Foundation/Kahn.lean --- draining a graph by in-degrees.

  The graph is held in two maps, the children of each vertex and the number of parents it
  still waits for.  The loop emits a ready vertex, counts down its children and makes the
  ones that reach zero ready.  Counting below zero and a lookup that fails inside a sort
  are panics, and the results below show that on tables built edge by edge neither
  happens, that the loop ends, and that what it emits is a causal list.

  The order of the ready list is a parameter: a queue leaves it alone, a priority list
  sorts it after every step.
-/
import VKernelX.Foundation.CausalOrder
import VKernelX.Foundation.OrderedMap
import VKernelX.Foundation.Outcome

set_option autoImplicit false

namespace VKernelX

variable {α β κ ε : Type} [Ord α]

/-- Children lists and in-degrees. -/
structure GraphTables (α : Type) [Ord α] where
  children : BTreeMap α (List α)
  indegree : BTreeMap α ℕ

section Definitions

variable [Std.TransOrd α]

namespace GraphTables

def empty : GraphTables α := { children := ∅, indegree := ∅ }

/-- `entry(v).or_insert(..)` in both maps. -/
def addNode (t : GraphTables α) (v : α) : GraphTables α where
  children := t.children.insertIfNew v []
  indegree := t.indegree.insertIfNew v 0

/-- Record that `child` has the parent `parent`. -/
def addEdge (t : GraphTables α) (parent child : α) : GraphTables α where
  children := t.children.insert parent ((t.children[parent]?).getD [] ++ [child])
  indegree := t.indegree.insert child ((t.indegree[child]?).getD 0 + 1)

/-- The vertices that wait for no parent, in key order. -/
def roots (t : GraphTables α) : List α :=
  (t.indegree.toList.filter (fun entry => entry.2 = 0)).map Prod.fst

end GraphTables

/-- `sort_by` with a key that may be missing.  Sorting fewer than two elements compares
nothing; otherwise every element is compared at least once. -/
def sortByKey [LinearOrder κ] (key : α → Option κ) (l : List α) : Outcome ε (List α) :=
  if l.length < 2 then .ok l
  else do
    let keyed ← l.mapM (fun v => Outcome.unwrap ((key v).map (fun k => (k, v))))
    return (keyed.insertionSort (fun a b => a.1 ≤ b.1)).map Prod.snd

/-- Count a child down once, and make it ready when it reaches zero. -/
def release (state : BTreeMap α ℕ × List α) (child : α) : Outcome ε (BTreeMap α ℕ × List α) :=
  match state.1[child]? with
  | none => .ok state
  | some 0 => .error .panicked
  | some (d + 1) =>
      .ok (state.1.insert child d, if d = 0 then state.2 ++ [child] else state.2)

/-- Count down a list of children. -/
def releaseAll (children : List α) (state : BTreeMap α ℕ × List α) :
    Outcome ε (BTreeMap α ℕ × List α) := children.foldlM release state

/-- How many vertices still wait for a parent. -/
def waiting (indegree : BTreeMap α ℕ) : ℕ :=
  (BTreeMap.values indegree).countP (fun d => decide (0 < d))

end Definitions

/-- A way of arranging the ready list, which may fail but never changes its length. -/
structure Arrangement (α ε : Type) where
  arrange : List α → Outcome ε (List α)
  length_eq : ∀ l l', arrange l = .ok l' → l'.length = l.length

/-- First in, first out. -/
def Arrangement.queue : Arrangement α ε where
  arrange := .ok
  length_eq := by
    intro l l' h
    rw [Except.ok.inj h]

section Loop

theorem mapM_length {γ δ : Type} {f : γ → Outcome ε δ} {l : List γ} {l' : List δ}
    (h : l.mapM f = .ok l') : l'.length = l.length := by
  induction l generalizing l' with
  | nil =>
      obtain rfl : [] = l' := Except.ok.inj h
      rfl
  | cons a l ih =>
      simp only [List.mapM_cons, Outcome.bind_eq_ok_iff] at h
      obtain ⟨b, _, bs, hbs, hl'⟩ := h
      obtain rfl : b :: bs = l' := Except.ok.inj hl'
      simp [ih hbs]

omit [Ord α] in
theorem sortByKey_length [LinearOrder κ] {key : α → Option κ} {l l' : List α}
    (h : sortByKey (ε := ε) key l = .ok l') : l'.length = l.length := by
  unfold sortByKey at h
  split at h
  · rw [Except.ok.inj h]
  · obtain ⟨keyed, hkeyed, hl'⟩ := Outcome.bind_eq_ok_iff.mp h
    rw [← Except.ok.inj hl', List.length_map, List.length_insertionSort]
    exact mapM_length hkeyed

/-- Least key first. -/
def Arrangement.priority [LinearOrder κ] (key : α → Option κ) : Arrangement α ε where
  arrange := sortByKey key
  length_eq := fun _ _ h => sortByKey_length h

variable [Std.TransOrd α]

/-- Counting down moves a vertex from waiting to ready or leaves the total alone. -/
theorem release_measure [Std.LawfulEqOrd α] {state state' : BTreeMap α ℕ × List α} {child : α}
    (h : release (ε := ε) state child = .ok state') :
    state'.2.length + waiting state'.1 = state.2.length + waiting state.1 := by
  unfold release at h
  split at h
  · rw [Except.ok.inj h]
  · cases h
  · rename_i d hd
    have hperm := BTreeMap.values_insert_perm state.1 child d
    have hperm' := BTreeMap.values_perm_erase hd
    rw [← Except.ok.inj h]
    simp only [waiting, hperm.countP_eq, hperm'.countP_eq, List.countP_cons]
    split <;> rename_i h0
    · subst h0
      simp
      omega
    · simp [Nat.pos_of_ne_zero h0]

theorem releaseAll_measure [Std.LawfulEqOrd α] {children : List α}
    {state state' : BTreeMap α ℕ × List α}
    (h : releaseAll (ε := ε) children state = .ok state') :
    state'.2.length + waiting state'.1 = state.2.length + waiting state.1 := by
  induction children generalizing state with
  | nil => rw [Except.ok.inj h]
  | cons child children ih =>
      obtain ⟨mid, hmid, hrest⟩ := Outcome.bind_eq_ok_iff.mp h
      rw [ih hrest, release_measure hmid]

/-- The draining loop: emit the head of the ready list, release its children in sorted
order, arrange the ready list, and go on.  Every round consumes one ready vertex. -/
def drainLoop [Std.LawfulEqOrd α] (children : BTreeMap α (List α)) (emit : α → Outcome ε β)
    (sortChildren : List α → Outcome ε (List α)) (arrangement : Arrangement α ε) :
    List α → BTreeMap α ℕ → List β → Outcome ε (List β)
  | [], _, out => .ok out
  | node :: rest, indegree, out => do
      let b ← emit node
      let next ← sortChildren ((children[node]?).getD [])
      match _hrelease : releaseAll next (indegree, rest) with
      | .error e => .error e
      | .ok state =>
          match _harrange : arrangement.arrange state.2 with
          | .error e => .error e
          | .ok ready => drainLoop children emit sortChildren arrangement ready state.1 (out ++ [b])
termination_by ready indegree _ => ready.length + waiting indegree
decreasing_by
  have hmeasure := releaseAll_measure _hrelease
  have hlength := arrangement.length_eq _ _ _harrange
  simp only [List.length_cons] at hmeasure ⊢
  omega

/-- A round in which every part goes well. -/
theorem drainLoop_cons [Std.LawfulEqOrd α] {children : BTreeMap α (List α)}
    {emit : α → Outcome ε β} {sortChildren : List α → Outcome ε (List α)}
    {arrangement : Arrangement α ε} {node : α} {rest next ready : List α}
    {indegree : BTreeMap α ℕ} {state : BTreeMap α ℕ × List α} {out : List β} {b : β}
    (hemit : emit node = .ok b) (hsort : sortChildren ((children[node]?).getD []) = .ok next)
    (hrelease : releaseAll (ε := ε) next (indegree, rest) = .ok state)
    (harrange : arrangement.arrange state.2 = .ok ready) :
    drainLoop children emit sortChildren arrangement (node :: rest) indegree out =
      drainLoop children emit sortChildren arrangement ready state.1 (out ++ [b]) := by
  rw [drainLoop, hemit, hsort]
  show (match _h : releaseAll (ε := ε) next (indegree, rest) with
    | .error e => Except.error e
    | .ok state => _) = _
  split
  · rename_i heq
    rw [hrelease] at heq
    cases heq
  · rename_i state' heq
    rw [hrelease] at heq
    obtain rfl := Except.ok.inj heq
    split
    · rename_i heq'
      rw [harrange] at heq'
      cases heq'
    · rename_i ready' heq'
      rw [harrange] at heq'
      rw [Except.ok.inj heq']

/-! ### The loop with a trace -/

/-- What the loop has done: the vertices that have entered the ready list, and those it has
emitted, one in every round. -/
structure DrainTrace (α : Type) where
  entered : List α
  emitted : List α

/-- One more round, which emits a vertex and makes others ready. -/
def DrainTrace.round (trace : DrainTrace α) (node : α) (new : List α) : DrainTrace α where
  entered := trace.entered ++ new
  emitted := trace.emitted ++ [node]

/-- The draining loop, keeping a trace in place of its output. -/
def drainTrace [Std.LawfulEqOrd α] (children : BTreeMap α (List α)) (emit : α → Outcome ε β)
    (sortChildren : List α → Outcome ε (List α)) (arrangement : Arrangement α ε) :
    List α → BTreeMap α ℕ → DrainTrace α → Outcome ε (DrainTrace α)
  | [], _, trace => .ok trace
  | node :: rest, indegree, trace => do
      let _ ← emit node
      let next ← sortChildren ((children[node]?).getD [])
      match _hrelease : releaseAll next (indegree, rest) with
      | .error e => .error e
      | .ok state =>
          match _harrange : arrangement.arrange state.2 with
          | .error e => .error e
          | .ok ready => drainTrace children emit sortChildren arrangement ready state.1
                          (trace.round node (state.2.drop rest.length))
termination_by ready indegree _ => ready.length + waiting indegree
decreasing_by
  have hmeasure := releaseAll_measure _hrelease
  have hlength := arrangement.length_eq _ _ _harrange
  simp only [List.length_cons] at hmeasure ⊢
  omega

theorem drainTrace_cons [Std.LawfulEqOrd α] {children : BTreeMap α (List α)}
    {emit : α → Outcome ε β} {sortChildren : List α → Outcome ε (List α)}
    {arrangement : Arrangement α ε} {node : α} {rest next new ready : List α}
    {indegree indegree' : BTreeMap α ℕ} (trace : DrainTrace α) {b : β}
    (hemit : emit node = .ok b) (hsort : sortChildren ((children[node]?).getD []) = .ok next)
    (hrelease : releaseAll (ε := ε) next (indegree, rest) = .ok (indegree', rest ++ new))
    (harrange : arrangement.arrange (rest ++ new) = .ok ready) :
    drainTrace children emit sortChildren arrangement (node :: rest) indegree trace =
      drainTrace children emit sortChildren arrangement ready indegree'
        (trace.round node new) := by
  rw [drainTrace, hemit, hsort]
  show (match _h : releaseAll (ε := ε) next (indegree, rest) with
    | .error e => Except.error e
    | .ok state => _) = _
  split
  · rename_i heq
    rw [hrelease] at heq
    cases heq
  · rename_i state' heq
    rw [hrelease] at heq
    obtain rfl := Except.ok.inj heq
    split
    · rename_i heq'
      rw [harrange] at heq'
      cases heq'
    · rename_i ready' heq'
      rw [harrange] at heq'
      rw [Except.ok.inj heq', List.drop_left]

end Loop

/-! ## Sorting -/

omit [Ord α] in
/-- When every element has a key, sorting succeeds, permutes, and orders by the keys. -/
theorem sortByKey_spec [LinearOrder κ] {key : α → Option κ} {f : α → κ} {l : List α}
    (hkey : ∀ v ∈ l, key v = some (f v)) :
    ∃ l', sortByKey (ε := ε) key l = .ok l' ∧ l'.Perm l ∧
      l'.Pairwise (fun a b => f a ≤ f b) := by
  unfold sortByKey
  split
  · rename_i hshort
    refine ⟨l, rfl, List.Perm.refl l, ?_⟩
    match l, hshort with
    | [], _ => exact List.Pairwise.nil
    | [a], _ => exact List.pairwise_singleton _ a
  · have hmap : l.mapM (fun v => Outcome.unwrap (ε := ε) ((key v).map (fun k => (k, v)))) =
        .ok (l.map (fun v => (f v, v))) := by
      clear * - hkey
      induction l with
      | nil => rfl
      | cons a l ih =>
          rw [List.mapM_cons, hkey a List.mem_cons_self,
            ih (fun v hv => hkey v (List.mem_cons_of_mem a hv))]
          rfl
    rw [hmap]
    have hperm := List.perm_insertionSort (fun a b : κ × α => a.1 ≤ b.1)
      (l.map (fun v => (f v, v)))
    refine ⟨_, rfl, ?_, ?_⟩
    · simpa [Function.comp_def] using hperm.map Prod.snd
    · rw [List.pairwise_map]
      refine (List.pairwise_insertionSort (fun a b : κ × α => a.1 ≤ b.1) _).imp_of_mem ?_
      intro a b ha hb hab
      have hfst : ∀ c ∈ (l.map (fun v => (f v, v))).insertionSort (fun a b => a.1 ≤ b.1),
          c.1 = f c.2 := by
        intro c hc
        obtain ⟨v, _, rfl⟩ := List.mem_map.mp (hperm.mem_iff.mp hc)
        rfl
      rwa [hfst a ha, hfst b hb] at hab

/-! ## One round -/

section Round

variable [DecidableEq α] [Std.TransOrd α] [Std.LawfulEqOrd α]

/-- Counting down a list of children: nobody goes below zero as long as each child's
count covers its occurrences, every count drops by the number of occurrences, and the
newly ready vertices are those whose count is used up. -/
theorem releaseAll_spec {children : List α} {indegree : BTreeMap α ℕ} (ready : List α)
    (h : ∀ v ∈ children, ∃ d, indegree[v]? = some d ∧ children.count v ≤ d) :
    ∃ indegree' new,
      releaseAll (ε := ε) children (indegree, ready) = .ok (indegree', ready ++ new) ∧
      (∀ v, indegree'[v]? = (indegree[v]?).map (· - children.count v)) ∧
      new.Nodup ∧
      ∀ v, v ∈ new ↔ v ∈ children ∧ indegree[v]? = some (children.count v) := by
  induction children generalizing indegree ready with
  | nil =>
    refine ⟨indegree, [], ?_, by simp, List.nodup_nil, by simp⟩
    rw [List.append_nil]
    rfl
  | cons child rest ih =>
    obtain ⟨d, hd, hcount⟩ := h child List.mem_cons_self
    rw [List.count_cons_self] at hcount
    obtain ⟨d, rfl⟩ : ∃ d', d = d' + 1 := ⟨d - 1, by omega⟩
    have hrest : ∀ v ∈ rest, ∃ d', (indegree.insert child d)[v]? = some d' ∧
        rest.count v ≤ d' := by
      intro v hv
      rw [BTreeMap.lookup_insert]
      by_cases hvc : child = v
      · subst hvc
        exact ⟨d, if_pos rfl, by omega⟩
      · obtain ⟨d', hd', hle⟩ := h v (List.mem_cons_of_mem child hv)
        rw [List.count_cons_of_ne hvc] at hle
        exact ⟨d', by rw [if_neg hvc, hd'], hle⟩
    obtain ⟨indegree', new, hrun, hcounts, hnodup, hmem⟩ :=
      ih (if d = 0 then ready ++ [child] else ready) hrest
    have hstep : release (ε := ε) (indegree, ready) child =
        .ok (indegree.insert child d, if d = 0 then ready ++ [child] else ready) := by
      simp [release, hd]
    have hall : releaseAll (ε := ε) (child :: rest) (indegree, ready) =
        releaseAll rest (indegree.insert child d, if d = 0 then ready ++ [child] else ready) := by
      show (release (indegree, ready) child >>= fun state => rest.foldlM release state) = _
      rw [hstep]
      rfl
    have hcounts' : ∀ v, indegree'[v]? =
        (indegree[v]?).map (· - (child :: rest).count v) := by
      intro v
      rw [hcounts, BTreeMap.lookup_insert]
      by_cases hvc : child = v
      · subst hvc
        rw [if_pos rfl, hd, List.count_cons_self]
        simp
      · rw [if_neg hvc, List.count_cons_of_ne hvc]
    by_cases hzero : d = 0
    · subst hzero
      have hnone : rest.count child = 0 := by omega
      have hnotin : child ∉ rest := List.count_eq_zero.mp hnone
      refine ⟨indegree', child :: new, ?_, hcounts', ?_, ?_⟩
      · rw [hall, hrun]
        simp
      · refine List.nodup_cons.mpr ⟨?_, hnodup⟩
        rw [hmem]
        exact fun hc => hnotin hc.1
      · intro v
        rw [List.mem_cons, List.mem_cons, hmem, BTreeMap.lookup_insert]
        by_cases hvc : child = v
        · subst hvc
          simp [hd, hnone]
        · rw [if_neg hvc, List.count_cons_of_ne hvc]
          simp [Ne.symm hvc]
    · refine ⟨indegree', new, ?_, hcounts', hnodup, ?_⟩
      · rw [hall, hrun, if_neg hzero]
      · intro v
        rw [hmem, List.mem_cons, BTreeMap.lookup_insert]
        by_cases hvc : child = v
        · subst hvc
          rw [if_pos rfl, hd, List.count_cons_self]
          -- The count is used up only by a later occurrence, as one of this many is left.
          constructor
          · rintro ⟨_, hcnt⟩
            exact ⟨Or.inl rfl, by simpa using hcnt⟩
          · rintro ⟨_, hcnt⟩
            have hcnt' : d = rest.count child := by simpa using hcnt
            exact ⟨List.count_pos_iff.mp (by omega), by rw [hcnt']⟩
        · rw [if_neg hvc, List.count_cons_of_ne hvc]
          simp [Ne.symm hvc]

end Round

/-! ## The loop -/

/-- What the tables say about the graph. -/
structure GraphTables.Represents [DecidableEq α] [Std.TransOrd α] (t : GraphTables α)
    (nodes : List α) (parents : α → List α) : Prop where
  nodup : nodes.Nodup
  closed : ∀ v ∈ nodes, ∀ p ∈ parents v, p ∈ nodes
  children_count : ∀ u v, ((t.children[u]?).getD []).count v =
    if v ∈ nodes then (parents v).count u else 0
  indegree_eq : ∀ v, t.indegree[v]? = if v ∈ nodes then some (parents v).length else none

/-- The state of the loop after emitting `done`: the counts are the parents still to come,
and the ready vertices are those that wait for none. -/
structure Draining [DecidableEq α] [Std.TransOrd α] (nodes : List α) (parents : α → List α)
    (indegree : BTreeMap α ℕ) (ready done : List α) : Prop where
  nodup_done : done.Nodup
  nodup_ready : ready.Nodup
  subset : ∀ v ∈ done, v ∈ nodes
  parentsFirst : ParentsFirst parents done
  indegree_eq : ∀ v, indegree[v]? =
    if v ∈ nodes then some ((parents v).countP (· ∉ done)) else none
  mem_ready : ∀ v, v ∈ ready ↔ v ∈ nodes ∧ v ∉ done ∧ ∀ p ∈ parents v, p ∈ done

/-- The ready list may be arranged whatever vertices it holds, and comes out ordered. -/
def Arrangement.Orders (arrangement : Arrangement α ε) (prefer : α → α → Prop)
    (nodes : List α) : Prop :=
  ∀ l, (∀ v ∈ l, v ∈ nodes) →
    ∃ l', arrangement.arrange l = .ok l' ∧ l'.Perm l ∧ l'.Pairwise prefer

omit [Ord α] in
theorem Arrangement.queue_orders (nodes : List α) :
    (Arrangement.queue : Arrangement α ε).Orders (fun _ _ => True) nodes :=
  fun l _ => ⟨l, rfl, List.Perm.refl l, List.pairwise_of_forall (fun _ _ => trivial)⟩

omit [Ord α] in
theorem Arrangement.priority_orders [LinearOrder κ] {key : α → Option κ} {f : α → κ}
    {nodes : List α} (hkey : ∀ v ∈ nodes, key v = some (f v)) :
    (Arrangement.priority key : Arrangement α ε).Orders (fun a b => f a ≤ f b) nodes :=
  fun _ hl => sortByKey_spec (fun v hv => hkey v (hl v hv))

section Drain

variable [DecidableEq α] [Std.TransOrd α] [Std.LawfulEqOrd α]

/-- Emitting one more vertex takes its occurrences out of the parents to come. -/
theorem countP_notMem_snoc {done : List α} {node : α} (hnode : node ∉ done) (ps : List α) :
    ps.countP (· ∉ done ++ [node]) = ps.countP (· ∉ done) - ps.count node := by
  induction ps with
  | nil => rfl
  | cons p ps ih =>
    have hle : ps.count node ≤ ps.countP (· ∉ done) := by
      rw [List.count]
      refine List.countP_mono_left ?_
      intro x _ hx
      have : x = node := by simpa using hx
      simpa [this] using hnode
    rw [List.countP_cons, List.countP_cons, List.count_cons, ih]
    by_cases hp : p = node
    · subst hp
      simp [hnode]
    · by_cases hd : p ∈ done
      · simp [hp, hd]
      · simp [hp, hd] at hle ⊢
        omega

/-- One round keeps the state of the loop. -/
theorem Draining.round {t : GraphTables α} {nodes : List α} {parents : α → List α}
    {indegree : BTreeMap α ℕ} {rest done children : List α} {node : α}
    (ht : t.Represents nodes parents)
    (h : Draining nodes parents indegree (node :: rest) done)
    (hchildren : children.Perm ((t.children[node]?).getD [])) :
    ∃ indegree' new,
      releaseAll (ε := ε) children (indegree, rest) = .ok (indegree', rest ++ new) ∧
      ∀ ready, ready.Perm (rest ++ new) →
        Draining nodes parents indegree' ready (done ++ [node]) := by
  obtain ⟨hnode, hnotDone, hnodeParents⟩ := (h.mem_ready node).mp List.mem_cons_self
  have hcount : ∀ v, children.count v = if v ∈ nodes then (parents v).count node else 0 := by
    intro v
    rw [hchildren.count_eq, ht.children_count]
  have hle : ∀ v, (parents v).count node ≤ (parents v).countP (· ∉ done) := by
    intro v
    rw [List.count]
    refine List.countP_mono_left ?_
    intro x _ hx
    have : x = node := by simpa using hx
    simpa [this] using hnotDone
  have hcover : ∀ v ∈ children, ∃ d, indegree[v]? = some d ∧ children.count v ≤ d := by
    intro v hv
    have hpos : 0 < children.count v := List.count_pos_iff.mpr hv
    rw [hcount] at hpos ⊢
    by_cases hvn : v ∈ nodes
    · rw [if_pos hvn]
      exact ⟨_, by rw [h.indegree_eq, if_pos hvn], hle v⟩
    · rw [if_neg hvn] at hpos
      omega
  obtain ⟨indegree', new, hrun, hcounts, hnodup, hmem⟩ :=
    releaseAll_spec (ε := ε) rest hcover
  have hrest : ∀ v, v ∈ rest ↔
      v ≠ node ∧ v ∈ nodes ∧ v ∉ done ∧ ∀ p ∈ parents v, p ∈ done := by
    intro v
    rw [← h.mem_ready, List.mem_cons]
    constructor
    · intro hv
      refine ⟨?_, Or.inr hv⟩
      rintro rfl
      exact (List.nodup_cons.mp h.nodup_ready).1 hv
    · rintro ⟨hne, rfl | hv⟩
      · exact absurd rfl hne
      · exact hv
  -- A vertex becomes ready in this round when the emitted one was all it waited for.
  have hnew : ∀ v, v ∈ new ↔ v ∈ nodes ∧ node ∈ parents v ∧
      (parents v).countP (· ∉ done) = (parents v).count node := by
    intro v
    rw [hmem, h.indegree_eq, ← List.count_pos_iff, hcount]
    by_cases hvn : v ∈ nodes
    · rw [if_pos hvn, if_pos hvn, List.count_pos_iff]
      simp [hvn]
    · simp [hvn]
  have hready : ∀ v, v ∈ rest ++ new ↔
      v ∈ nodes ∧ v ∉ done ++ [node] ∧ ∀ p ∈ parents v, p ∈ done ++ [node] := by
    intro v
    have hzero : (∀ p ∈ parents v, p ∈ done ++ [node]) ↔
        (parents v).countP (· ∉ done ++ [node]) = 0 := by
      rw [List.countP_eq_zero]
      simp [or_iff_not_imp_left]
    rw [List.mem_append, hrest, hnew, hzero, countP_notMem_snoc hnotDone]
    have hall : (∀ p ∈ parents v, p ∈ done) ↔ (parents v).countP (· ∉ done) = 0 := by
      rw [List.countP_eq_zero]
      simp
    rw [hall, List.mem_append, List.mem_singleton]
    have hlev := hle v
    constructor
    · rintro (⟨hne, hvn, hvd, hz⟩ | ⟨hvn, hmemNode, heq⟩)
      · exact ⟨hvn, by tauto, by omega⟩
      · refine ⟨hvn, ?_, by omega⟩
        rintro (hvd | rfl)
        · -- An emitted vertex has its parents among the emitted ones, and `node` is not.
          obtain ⟨before, after, hsplit⟩ := List.append_of_mem hvd
          have := h.parentsFirst before v after hsplit node hmemNode
          exact hnotDone (by rw [hsplit]; exact List.mem_append_left _ this)
        · exact hnotDone (hnodeParents v hmemNode)
    · rintro ⟨hvn, hvd, hz⟩
      rcases Nat.eq_zero_or_pos ((parents v).count node) with h0 | hpos
      · exact Or.inl ⟨by tauto, hvn, by tauto, by omega⟩
      · exact Or.inr ⟨hvn, List.count_pos_iff.mp hpos, by omega⟩
  refine ⟨indegree', new, hrun, ?_⟩
  intro ready hperm
  refine {
    nodup_done := ?_
    nodup_ready := ?_
    subset := ?_
    parentsFirst := h.parentsFirst.snoc hnodeParents
    indegree_eq := ?_
    mem_ready := ?_ }
  · refine List.nodup_append.mpr ⟨h.nodup_done, List.nodup_singleton node, ?_⟩
    intro a ha b hb
    obtain rfl := List.mem_singleton.mp hb
    rintro rfl
    exact hnotDone ha
  · refine hperm.nodup_iff.mpr (List.nodup_append.mpr
      ⟨(List.nodup_cons.mp h.nodup_ready).2, hnodup, ?_⟩)
    intro a ha b hb hab
    subst hab
    obtain ⟨_, _, _, hparents⟩ := (hrest a).mp ha
    exact hnotDone (hparents node ((hnew a).mp hb).2.1)
  · intro v hv
    rcases List.mem_append.mp hv with hv | hv
    · exact h.subset v hv
    · rwa [List.mem_singleton.mp hv]
  · intro v
    rw [hcounts, h.indegree_eq, hcount]
    by_cases hvn : v ∈ nodes
    · simp only [if_pos hvn, Option.map_some, countP_notMem_snoc hnotDone]
    · simp [hvn]
  · intro v
    rw [hperm.mem_iff, hready]

/-- The loop neither fails nor panics on tables of a graph.  It emits a causal list, and every
vertex that has entered the ready list exactly once. -/
theorem drainTrace_spec {t : GraphTables α} {nodes : List α} {parents : α → List α}
    {prefer : α → α → Prop} {emit : α → Outcome ε β} {f : α → β}
    {sortChildren : List α → Outcome ε (List α)} {arrangement : Arrangement α ε}
    (ht : t.Represents nodes parents)
    (hemit : ∀ v ∈ nodes, emit v = .ok (f v))
    (hsort : ∀ l, (∀ v ∈ l, v ∈ nodes) → ∃ l', sortChildren l = .ok l' ∧ l'.Perm l)
    (harrange : arrangement.Orders prefer nodes)
    {indegree : BTreeMap α ℕ} {ready done entered : List α}
    (h : Draining nodes parents indegree ready done) (hsorted : ready.Pairwise prefer)
    (hpref : Preferred prefer nodes parents done) (hentered : entered.Perm (done ++ ready)) :
    ∃ trace, CausalList prefer nodes parents trace.emitted ∧
      trace.entered.Perm trace.emitted ∧
      drainTrace t.children emit sortChildren arrangement ready indegree ⟨entered, done⟩ =
        .ok trace ∧
      drainLoop t.children emit sortChildren arrangement ready indegree (done.map f) =
        .ok (trace.emitted.map f) := by
  induction hfuel : nodes.length - done.length using Nat.strong_induction_on
    generalizing indegree ready done entered with
  | _ fuel ih =>
    cases ready with
    | nil =>
      rw [List.append_nil] at hentered
      refine ⟨⟨entered, done⟩, ?_, hentered, by rw [drainTrace], by rw [drainLoop]⟩
      refine ⟨h.nodup_done, h.subset, h.parentsFirst, hpref, ?_⟩
      intro v hv hparents
      by_contra hvd
      exact List.not_mem_nil ((h.mem_ready v).mpr ⟨hv, hvd, hparents⟩)
    | cons node rest =>
      obtain ⟨hnode, hnotDone, hnodeParents⟩ := (h.mem_ready node).mp List.mem_cons_self
      have hmemChildren : ∀ v ∈ (t.children[node]?).getD [], v ∈ nodes := by
        intro v hv
        by_contra hvn
        have := ht.children_count node v
        rw [if_neg hvn] at this
        exact List.count_eq_zero.mp this hv
      obtain ⟨children, hchildren, hperm⟩ := hsort _ hmemChildren
      obtain ⟨indegree', new, hrelease, hnext⟩ := h.round (ε := ε) ht hperm
      have hsub : ∀ v ∈ rest ++ new, v ∈ nodes := fun v hv =>
        (((hnext _ (List.Perm.refl _)).mem_ready v).mp hv).1
      obtain ⟨ready', hready', hpermReady, hsorted'⟩ := harrange _ hsub
      have h' := hnext ready' hpermReady
      have hpref' : Preferred prefer nodes parents (done ++ [node]) := by
        refine hpref.snoc ?_
        intro w hw hwd hwn hwp
        have hwready : w ∈ node :: rest := (h.mem_ready w).mpr ⟨hw, hwd, hwp⟩
        rcases List.mem_cons.mp hwready with rfl | hwrest
        · exact absurd rfl hwn
        · exact (List.pairwise_cons.mp hsorted).1 w hwrest
      have hlt : nodes.length - (done ++ [node]).length < fuel := by
        have hsubperm := h'.nodup_done.subperm (fun v hv => h'.subset v hv)
        have := hsubperm.length_le
        rw [List.length_append, List.length_singleton] at this ⊢
        omega
      have hentered' : (entered ++ new).Perm (done ++ [node] ++ ready') := by
        refine (hentered.append_right new).trans ?_
        rw [List.append_assoc, List.append_assoc, List.cons_append, List.singleton_append]
        exact ((hpermReady.symm.cons node).append_left done)
      obtain ⟨trace, hall, hperm', htrace, hrun⟩ := ih _ hlt h' hsorted' hpref' hentered' rfl
      refine ⟨trace, hall, hperm', ?_, ?_⟩
      · rw [drainTrace_cons _ (hemit node hnode) hchildren hrelease hready']
        exact htrace
      · rw [drainLoop_cons (hemit node hnode) hchildren hrelease hready']
        simpa using hrun

end Drain

/-! ## Building the tables -/

section Build

/-- The edges of the graph, parent lists in vertex order. -/
def edgeList (nodes : List α) (parents : α → List α) : List (α × α) :=
  nodes.flatMap (fun v => (parents v).map (fun p => (p, v)))

omit [Ord α] in
/-- Edges into a vertex, counted by a property of the parent. -/
theorem countP_edgeList [DecidableEq α] {nodes : List α} (hnodes : nodes.Nodup)
    (parents : α → List α) (r : α → Bool) (v : α) :
    (edgeList nodes parents).countP (fun e => r e.1 && decide (e.2 = v)) =
      if v ∈ nodes then (parents v).countP r else 0 := by
  induction nodes with
  | nil => simp [edgeList]
  | cons w nodes ih =>
    obtain ⟨hw, hrest⟩ := List.nodup_cons.mp hnodes
    have hcons : edgeList (w :: nodes) parents =
        (parents w).map (fun p => (p, w)) ++ edgeList nodes parents := by
      simp [edgeList]
    rw [hcons, List.countP_append, ih hrest, List.countP_map]
    by_cases hwv : w = v
    · subst hwv
      simp [hw, Function.comp_def]
    · have hzero : (parents w).countP
          ((fun e : α × α => r e.1 && decide (e.2 = v)) ∘ fun p => (p, w)) = 0 := by
        rw [List.countP_eq_zero]
        simp [hwv]
      rw [hzero, Nat.zero_add]
      simp [Ne.symm hwv]

variable [DecidableEq α] [Std.TransOrd α] [Std.LawfulEqOrd α]

namespace GraphTables

/-- The tables after `entry(..).or_insert(..)` for every vertex. -/
theorem foldl_addNode (nodes : List α) (t : GraphTables α) :
    (∀ u : α, ((nodes.foldl addNode t).children[u]?).getD [] = (t.children[u]?).getD []) ∧
      ∀ v : α, (nodes.foldl addNode t).indegree[v]? =
        if v ∈ nodes then some ((t.indegree[v]?).getD 0) else t.indegree[v]? := by
  induction nodes generalizing t with
  | nil => exact ⟨fun _ => rfl, fun v => by simp⟩
  | cons w nodes ih =>
    obtain ⟨hchildren, hindegree⟩ := ih (t.addNode w)
    constructor
    · intro u
      rw [List.foldl_cons, hchildren]
      simp only [addNode, Std.ExtTreeMap.getElem?_insertIfNew]
      split
      · rename_i hu
        rw [Std.LawfulEqOrd.compare_eq_iff_eq] at hu
        rw [← hu.1]
        have : t.children[w]? = none := by simpa using hu.2
        simp [this]
      · rfl
    · intro v
      rw [List.foldl_cons, hindegree]
      simp only [addNode, Std.ExtTreeMap.getElem?_insertIfNew,
        Std.LawfulEqOrd.compare_eq_iff_eq, List.mem_cons]
      by_cases hwv : w = v
      · subst hwv
        by_cases hw : w ∈ t.indegree
        · simp [hw]
        · simp [hw]
      · simp [hwv, Ne.symm hwv]

/-- The tables after adding edges whose targets are vertices. -/
theorem foldl_addEdge (edges : List (α × α)) (t : GraphTables α)
    (htargets : ∀ e ∈ edges, ∃ d, t.indegree[e.2]? = some d) :
    (∀ u : α, ((edges.foldl (fun t e => t.addEdge e.1 e.2) t).children[u]?).getD [] =
      (t.children[u]?).getD [] ++ (edges.filter (fun e => decide (e.1 = u))).map Prod.snd) ∧
    ∀ v : α, (edges.foldl (fun t e => t.addEdge e.1 e.2) t).indegree[v]? =
      (t.indegree[v]?).map (· + edges.countP (fun e => decide (e.2 = v))) := by
  induction edges generalizing t with
  | nil => exact ⟨fun u => by simp, fun v => by simp⟩
  | cons e edges ih =>
    have htargets' : ∀ e' ∈ edges, ∃ d, (t.addEdge e.1 e.2).indegree[e'.2]? = some d := by
      intro e' he'
      simp only [addEdge, BTreeMap.lookup_insert]
      split
      · exact ⟨_, rfl⟩
      · exact htargets e' (List.mem_cons_of_mem e he')
    obtain ⟨hchildren, hindegree⟩ := ih (t.addEdge e.1 e.2) htargets'
    constructor
    · intro u
      rw [List.foldl_cons, hchildren]
      simp only [addEdge, BTreeMap.lookup_insert, List.filter_cons, decide_eq_true_eq]
      by_cases hu : e.1 = u
      · subst hu
        simp
      · simp [hu]
    · intro v
      rw [List.foldl_cons, hindegree]
      simp only [addEdge, BTreeMap.lookup_insert, List.countP_cons, decide_eq_true_eq]
      by_cases hv : e.2 = v
      · obtain ⟨d, hd⟩ := htargets e List.mem_cons_self
        subst hv
        simp [hd]
        omega
      · simp [hv]

/-- Tables with every vertex added and then every edge of the graph represent it. -/
theorem represents_build {nodes : List α} {parents : α → List α} (hnodes : nodes.Nodup)
    (hclosed : ∀ v ∈ nodes, ∀ p ∈ parents v, p ∈ nodes) :
    ((edgeList nodes parents).foldl (fun t e => t.addEdge e.1 e.2)
      (nodes.foldl addNode empty)).Represents nodes parents := by
  obtain ⟨hchildren, hindegree⟩ := foldl_addNode nodes (empty : GraphTables α)
  have htarget : ∀ e ∈ edgeList nodes parents, e.2 ∈ nodes := by
    intro e he
    obtain ⟨v, hv, hev⟩ := List.mem_flatMap.mp he
    obtain ⟨p, _, rfl⟩ := List.mem_map.mp hev
    exact hv
  obtain ⟨hchildren', hindegree'⟩ := foldl_addEdge (edgeList nodes parents)
    (nodes.foldl addNode empty) (fun e he => ⟨_, by rw [hindegree, if_pos (htarget e he)]⟩)
  refine ⟨hnodes, hclosed, ?_, ?_⟩
  · intro u v
    have hcount := countP_edgeList hnodes parents (fun p => p == u) v
    have hempty : ((empty : GraphTables α).children[u]?).getD [] = [] := by simp [empty]
    rw [hchildren', hchildren, hempty, List.nil_append, List.count, List.countP_map,
      List.countP_filter, List.count, ← hcount]
    refine List.countP_congr ?_
    intro e _
    simp [and_comm]
  · intro v
    have hcount := countP_edgeList hnodes parents (fun _ => true) v
    simp only [Bool.true_and, List.countP_true] at hcount
    rw [hindegree', hindegree, hcount]
    by_cases hv : v ∈ nodes
    · simp [hv, empty]
    · simp [hv, empty]

end GraphTables

/-- The roots of a represented graph are the vertices without parents. -/
theorem GraphTables.Represents.mem_roots {t : GraphTables α} {nodes : List α}
    {parents : α → List α} (h : t.Represents nodes parents) (v : α) :
    v ∈ t.roots ↔ v ∈ nodes ∧ parents v = [] := by
  rw [GraphTables.roots, List.mem_map]
  simp only [List.mem_filter, decide_eq_true_eq, Prod.exists, BTreeMap.mem_toList]
  constructor
  · rintro ⟨w, d, ⟨hw, rfl⟩, rfl⟩
    rw [h.indegree_eq] at hw
    by_cases hwn : w ∈ nodes
    · rw [if_pos hwn] at hw
      exact ⟨hwn, List.length_eq_zero_iff.mp (Option.some.inj hw)⟩
    · rw [if_neg hwn] at hw
      cases hw
  · rintro ⟨hv, hnone⟩
    exact ⟨v, 0, ⟨by rw [h.indegree_eq, if_pos hv, hnone]; rfl, rfl⟩, rfl⟩

omit [DecidableEq α] in
theorem GraphTables.nodup_roots (t : GraphTables α) : t.roots.Nodup := by
  refine List.Pairwise.map Prod.fst ?_ ((Std.ExtTreeMap.distinct_keys_toList).filter _)
  intro a b h hab
  exact h (Std.LawfulEqOrd.compare_eq_iff_eq.mpr hab)

/-- The loop starts out at the roots. -/
theorem GraphTables.Represents.draining {t : GraphTables α} {nodes : List α}
    {parents : α → List α} (h : t.Represents nodes parents) {ready : List α}
    (hready : ready.Perm t.roots) : Draining nodes parents t.indegree ready [] where
  nodup_done := List.nodup_nil
  nodup_ready := hready.nodup_iff.mpr t.nodup_roots
  subset := by simp
  parentsFirst := ParentsFirst.nil
  indegree_eq := by
    intro v
    rw [h.indegree_eq]
    simp
  mem_ready := by
    intro v
    rw [hready.mem_iff, h.mem_roots]
    simp [List.eq_nil_iff_forall_not_mem]

/-- No vertex has entered the ready list twice, and there were at most as many rounds as there
are vertices. -/
structure DrainTrace.Bounded (trace : DrainTrace α) (nodes : List α) : Prop where
  entered_nodup : trace.entered.Nodup
  rounds_le : trace.emitted.length ≤ nodes.length

/-- Draining the tables of a graph from its roots leaves a bounded trace. -/
theorem GraphTables.Represents.trace {t : GraphTables α} {nodes : List α}
    {parents : α → List α} {prefer : α → α → Prop} {emit : α → Outcome ε β} {f : α → β}
    {sortChildren : List α → Outcome ε (List α)} {arrangement : Arrangement α ε}
    (h : t.Represents nodes parents) (hemit : ∀ v ∈ nodes, emit v = .ok (f v))
    (hsort : ∀ l, (∀ v ∈ l, v ∈ nodes) → ∃ l', sortChildren l = .ok l' ∧ l'.Perm l)
    (harrange : arrangement.Orders prefer nodes) {ready : List α} (hready : ready.Perm t.roots)
    (hsorted : ready.Pairwise prefer) :
    ∃ trace, trace.Bounded nodes ∧ CausalList prefer nodes parents trace.emitted ∧
      drainTrace t.children emit sortChildren arrangement ready t.indegree ⟨ready, []⟩ =
        .ok trace ∧
      drainLoop t.children emit sortChildren arrangement ready t.indegree [] =
        .ok (trace.emitted.map f) := by
  obtain ⟨trace, hall, hperm, htrace, hrun⟩ := drainTrace_spec h hemit hsort harrange
    (h.draining hready) hsorted Preferred.nil (List.Perm.refl ready)
  refine ⟨trace, ⟨hperm.nodup_iff.mpr hall.nodup, ?_⟩, hall, htrace, hrun⟩
  exact (hall.nodup.subperm hall.subset).length_le

/-- Draining the tables of a graph with the ready list sorted by a key that every vertex
has. -/
theorem GraphTables.Represents.traceByKey [LinearOrder κ] {t : GraphTables α} {nodes : List α}
    {parents : α → List α} {key : α → Option κ} {k : α → κ} {emit : α → Outcome ε β} {f : α → β}
    (h : t.Represents nodes parents) (hkey : ∀ v ∈ nodes, key v = some (k v))
    (hemit : ∀ v ∈ nodes, emit v = .ok (f v)) :
    ∃ ready trace, sortByKey (ε := ε) key t.roots = .ok ready ∧ trace.Bounded nodes ∧
      CausalList (fun v w => k v ≤ k w) nodes parents trace.emitted ∧
      drainTrace t.children emit (sortByKey key) (Arrangement.priority key) ready t.indegree
        ⟨ready, []⟩ = .ok trace ∧
      drainLoop t.children emit (sortByKey key) (Arrangement.priority key) ready t.indegree [] =
        .ok (trace.emitted.map f) := by
  obtain ⟨ready, hready, hperm, hsorted⟩ := sortByKey_spec (fun v hv =>
    hkey v ((h.mem_roots v).mp hv).1)
  have hsort : ∀ l : List α, (∀ v ∈ l, v ∈ nodes) →
      ∃ l', sortByKey (ε := ε) key l = .ok l' ∧ l'.Perm l := by
    intro l hl
    obtain ⟨l', hl', hperm', _⟩ := sortByKey_spec (ε := ε) (fun v hv => hkey v (hl v hv))
    exact ⟨l', hl', hperm'⟩
  obtain ⟨trace, hbounded, hall, htrace, hdrain⟩ := h.trace hemit hsort
    (Arrangement.priority_orders hkey) hperm hsorted
  exact ⟨ready, trace, hready, hbounded, hall, htrace, hdrain⟩

end Build

end VKernelX
