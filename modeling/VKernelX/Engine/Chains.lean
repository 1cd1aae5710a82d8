/-
  Engine/Chains.lean --- when the history of every entity is one unbranched chain.

  The engine does not remember which event of a vector came last; it takes the one that sorts
  last by clock, time stamp and hash.  A transfer leaves the clock of its two vectors where it
  is, so within one millisecond it is the hash that decides.
-/
import VKernelX.Engine.Orderly

set_option autoImplicit false

namespace VKernelX

/-! ## Chains -/

/-- Every event after the first has the event before it as its only parent. -/
def Chained (h : List VectorEvent) : Prop := h.IsChain (fun p e => e.parentHashes = [p.eventHash])

instance (h : List VectorEvent) : Decidable (Chained h) :=
  inferInstanceAs (Decidable (h.IsChain (fun p e => e.parentHashes = [p.eventHash])))

theorem chained_snoc {h : List VectorEvent} {e : VectorEvent} :
    Chained (h ++ [e]) ↔
      Chained h ∧ ∀ earlier last, h = earlier ++ [last] → e.parentHashes = [last.eventHash] := by
  rw [Chained, List.isChain_append]
  constructor
  · rintro ⟨hchained, _, hlast⟩
    refine ⟨hchained, fun earlier last heq => hlast last ?_ e (by simp)⟩
    rw [heq, List.getLast?_concat]
    rfl
  · rintro ⟨hchained, hlast⟩
    refine ⟨hchained, .singleton e, fun last hmem e' he' => ?_⟩
    obtain rfl : e = e' := by simpa using he'
    obtain ⟨earlier, rfl⟩ := List.getLast?_eq_some_iff.mp hmem
    exact hlast earlier last rfl

/-- No event of the history sorts after its last one: none has a greater clock, or the same
clock and time stamp and a greater hash. -/
def LastIsLatest (h : List VectorEvent) : Prop :=
  ∀ earlier last, h = earlier ++ [last] → ∀ p ∈ earlier, p.logicalClock ≤ last.logicalClock ∧
    (p.logicalClock = last.logicalClock → p.timestamp = last.timestamp →
      p.eventHash ≤ last.eventHash)

/-- The sort key in its parts. -/
theorem canonicalEventSortKey_le_iff {a b : VectorEvent} :
    canonicalEventSortKey a ≤ canonicalEventSortKey b ↔
      a.logicalClock < b.logicalClock ∨ a.logicalClock = b.logicalClock ∧
        (a.timestamp < b.timestamp ∨ a.timestamp = b.timestamp ∧
          (a.eventHash < b.eventHash ∨ a.eventHash = b.eventHash ∧ a.eventId ≤ b.eventId)) := by
  simp only [canonicalEventSortKey, Prod.Lex.toLex_le_toLex, UInt64.lt_iff_toNat_lt,
    UInt64.toNat_inj]

section

variable {env : Platform} {policy : ConsensusPolicy}

variable (env policy)

/-- What a call has to meet for histories to stay chains. -/
structure KeepsChains (before : List TimedCall) (c : TimedCall) : Prop where
  region_fresh : ∀ request actorPublicKey, c.call = .createRegion request actorPublicKey →
    history env policy before (canonicalRegionId env request actorPublicKey 1) = []
  latest : c.call.IsMutation → ∀ id ∈ c.call.named, LastIsLatest (history env policy before id)

variable {env policy}

/-- In time order, the last event is the latest exactly when nothing sorts after it. -/
theorem OrderlyRun.isLatest_iff {calls : List TimedCall} (h : OrderlyRun env policy calls)
    {entityId : String} {earlier : List VectorEvent} {last : VectorEvent}
    (hsplit : history env policy calls entityId = earlier ++ [last]) :
    IsLatest (engineRun env policy calls) entityId last ↔
      LastIsLatest (history env policy calls entityId) := by
  have hmem : ∀ {e : VectorEvent}, e ∈ (engineRun env policy calls).store.listEvents ∧
      e.entityId = entityId ↔ e ∈ earlier ++ [last] := by
    intro e
    rw [← hsplit, mem_history]
  obtain ⟨hstored, hentity⟩ := hmem.mpr (List.mem_append_right earlier List.mem_cons_self)
  have hstamped := h.stamped entityId
  rw [hsplit] at hstamped ⊢
  obtain ⟨_, _, htimes⟩ := List.pairwise_append.mp hstamped.sorted
  constructor
  · intro hlatest earlier' last' heq p hp
    obtain ⟨rfl, hlast⟩ := List.append_inj' heq rfl
    obtain rfl : last = last' := by simpa using hlast
    obtain ⟨hpmem, hpentity⟩ := hmem.mpr (List.mem_append_left [last] hp)
    have hkey := canonicalEventSortKey_le_iff.mp (hlatest.le p hpmem hpentity)
    rcases hkey with hclock | ⟨hclock, htime | ⟨_, hhash⟩⟩
    · exact ⟨UInt64.le_of_lt hclock, fun heq => absurd (heq ▸ hclock) (UInt64.lt_irrefl _)⟩
    · exact ⟨UInt64.le_of_eq hclock,
        fun _ heq => absurd (heq ▸ htime) (UInt64.lt_irrefl _)⟩
    · exact ⟨UInt64.le_of_eq hclock,
        fun _ _ => hhash.elim le_of_lt (fun heq => le_of_eq heq.1)⟩
  · intro hlatest
    refine ⟨hstored, hentity, fun p hpmem hpentity => ?_⟩
    rcases List.mem_append.mp (hmem.mp ⟨hpmem, hpentity⟩) with hp | hp
    · obtain ⟨hclock, htie⟩ := hlatest earlier last rfl p hp
      have htime := htimes p hp last List.mem_cons_self
      rw [canonicalEventSortKey_le_iff]
      have hnodup := @nodup_history env policy calls entityId
      rw [hsplit, List.map_append, List.nodup_append] at hnodup
      have hne : p.eventHash ≠ last.eventHash :=
        hnodup.2.2 _ (List.mem_map_of_mem hp) _ (by simp)
      rcases UInt64.lt_or_eq_of_le hclock with hlt | heq
      · exact Or.inl hlt
      · refine Or.inr ⟨heq, ?_⟩
        rcases UInt64.lt_or_eq_of_le htime with hlt | htimeEq
        · exact Or.inl hlt
        · exact Or.inr ⟨htimeEq, Or.inl (lt_of_le_of_ne (htie heq htimeEq) hne)⟩
    · rw [List.mem_singleton.mp hp]

/-- The engine picks the last event of a history as the parent exactly when it is the latest. -/
theorem OrderlyRun.latestParent_iff {calls : List TimedCall} (h : OrderlyRun env policy calls)
    {entityId : String} {earlier : List VectorEvent} {last : VectorEvent}
    (hsplit : history env policy calls entityId = earlier ++ [last]) :
    (engineRun env policy calls).latestParentHashForEntity entityId = [last.eventHash] ↔
      LastIsLatest (history env policy calls entityId) := by
  rw [← h.isLatest_iff hsplit]
  refine ⟨fun hparent => ?_, latestParent_of_isLatest⟩
  rcases latestParent_spec (engineRun env policy calls) entityId with ⟨hnil, _⟩ | ⟨e, he, heq⟩
  · rw [hparent] at hnil
    cases hnil
  · rw [hparent] at heq
    have hkeyed := (engineRun_reachable env policy calls).wellKeyed
    have hlast : last ∈ (engineRun env policy calls).store.listEvents :=
      (mem_history.mp (by rw [hsplit]; simp :
        last ∈ history env policy calls entityId)).1
    obtain rfl := List.inj_on_of_nodup_map hkeyed.nodup_eventHash hlast he.mem
      (List.cons.inj heq).1
    exact he

/-- One more call: all histories stay chains exactly when the call keeps them so. -/
theorem OrderlyCall.chained_iff {calls : List TimedCall} {c : TimedCall}
    (h : OrderlyRun env policy calls) (hc : OrderlyCall env policy calls c) :
    (∀ entityId, Chained (history env policy (calls ++ [c]) entityId)) ↔
      (∀ entityId, Chained (history env policy calls entityId)) ∧
        KeepsChains env policy calls c := by
  have hkeyed := (engineRun_reachable env policy calls).wellKeyed
  constructor
  · intro hchained
    refine ⟨fun entityId => ?_, ?_, ?_⟩
    · obtain ⟨new, hnew, _⟩ := hc.extends entityId
      have hall := hchained entityId
      rw [hnew] at hall
      exact (List.isChain_append.mp hall).1
    · intro request actor hcall
      obtain ⟨new, hnew, hstep⟩ := hc.extends (canonicalRegionId env request actor 1)
      have hall := hchained (canonicalRegionId env request actor 1)
      rw [hnew] at hall
      cases hstep with
      | idle hother _ => exact absurd (by simp [Call.entities, hcall]) hother
      | created hcall' _ _ _ _ => cases hcall.symm.trans hcall'
      | updated hupdate _ _ _ =>
        rw [hcall] at hupdate
        cases hupdate
      | transferred hcall' _ _ _ => cases hcall.symm.trans hcall'
      | founded _ _ _ hevent _ =>
        rcases List.eq_nil_or_concat (history env policy calls
          (canonicalRegionId env request actor 1)) with hnil | ⟨earlier, last, hsplit⟩
        · exact hnil
        · have hparents := (chained_snoc.mp hall).2 earlier last (by simpa using hsplit)
          rw [buildRegionGenesisEvent_parents (regionEvent_built hevent)] at hparents
          cases hparents
    · intro hmutation id hid earlier last hsplit
      obtain ⟨new, hnew, hstep⟩ := hc.extends id
      have hall := hchained id
      rw [hnew] at hall
      have hlatest : (engineRun env policy calls).latestParentHashForEntity id =
          [last.eventHash] := by
        cases hstep with
        | idle hother _ =>
          refine absurd ?_ hother
          cases hcall : c.call <;> rw [hcall] at hmutation hid <;>
            first | exact hid | cases hmutation
        | created hcall _ _ _ _ =>
          rw [hcall] at hmutation
          cases hmutation
        | updated _ _ _ hmoves =>
          rw [← hmoves.parents hkeyed]
          exact (chained_snoc.mp hall).2 earlier last hsplit
        | transferred _ _ _ hmoves =>
          rw [← hmoves.parents hkeyed]
          exact (chained_snoc.mp hall).2 earlier last hsplit
        | founded hcall _ _ _ _ =>
          rw [hcall] at hmutation
          cases hmutation
      exact (h.latestParent_iff hsplit).mp hlatest earlier last hsplit
  · rintro ⟨hchained, hregion, hlatest⟩ entityId
    obtain ⟨new, hnew, hstep⟩ := hc.extends entityId
    rw [hnew]
    -- The parent of a moved vector's event is the last event, which is the latest.
    have hmoved : ∀ {operation timestamp before after e},
        Moves env (engineRun env policy calls) entityId (engineRun env policy (calls ++ [c]))
          operation timestamp before after e →
        LastIsLatest (history env policy calls entityId) →
        Chained (history env policy calls entityId ++ [e]) := by
      intro operation timestamp before after e hmoves hlast
      refine chained_snoc.mpr ⟨hchained entityId, fun earlier last hsplit => ?_⟩
      rw [hmoves.parents hkeyed]
      exact (h.latestParent_iff hsplit).mpr hlast
    cases hstep with
    | idle _ _ =>
      rw [List.append_nil]
      exact hchained entityId
    | created hcall hid _ _ _ =>
      rw [← hid, OrderlyCall.history_eq_nil h hc hcall]
      exact .singleton _
    | updated hupdate hid _ hmoves =>
      refine hmoved hmoves (hlatest ?_ entityId ?_)
      · cases hcall : c.call <;> rw [hcall] at hupdate <;> trivial
      · rw [named_of_update hupdate, hid]
        exact List.mem_cons_self
    | transferred hcall hside _ hmoves =>
      refine hmoved hmoves (hlatest (by rw [hcall]; trivial) entityId ?_)
      rw [hcall]
      rcases hside with ⟨rfl, _⟩ | ⟨rfl, _⟩ <;> simp [Call.named]
    | founded hcall hid _ _ _ =>
      rw [← hid, hregion _ _ hcall]
      exact .singleton _

/-- Along an orderly run every history is one unbranched chain exactly when every call meets
the condition: a region is founded under an id without events, and the vectors an operation
names have no event that sorts after their last one. -/
theorem histories_chained_iff {calls : List TimedCall} (h : OrderlyRun env policy calls) :
    (∀ entityId, Chained (history env policy calls entityId)) ↔
      AllSteps (engineStep env) (KernelEngine.initial policy)
        (fun before _ c => KeepsChains env policy before c) calls := by
  refine OrderlyRun.induction (I := fun calls =>
    (∀ entityId, Chained (history env policy calls entityId)) ↔
      AllSteps (engineStep env) (KernelEngine.initial policy)
        (fun before _ c => KeepsChains env policy before c) calls) ?_ ?_ h
  · exact ⟨fun _ => AllSteps.nil, fun _ _ => .nil⟩
  · intro calls c hcalls hc ih
    rw [OrderlyCall.chained_iff hcalls hc, ih, allSteps_snoc]

end

/-! ## Runs -/

theorem histories_chained_iff_spaced :
    (∀ entityId, Chained (history samplePlatform ConsensusPolicy.default spacedTransfers
        entityId)) ↔
      AllSteps (engineStep samplePlatform) (KernelEngine.initial ConsensusPolicy.default)
        (fun before _ c => KeepsChains samplePlatform ConsensusPolicy.default before c)
        spacedTransfers :=
  histories_chained_iff spacedTransfers_orderly

/-- In every orderly run the history of each vector is one chain. -/
def HistoriesChained : Prop :=
  ∀ env : Platform, env.CollisionFree → ∀ (policy : ConsensusPolicy) (calls : List TimedCall),
    OrderlyRun env policy calls → ∀ entityId, Chained (history env policy calls entityId)

/-- Two transfers of a vector in the millisecond of its creation. -/
def tiedTransfers : List TimedCall :=
  [callAt 1 (.originCreate (sampleOrigin "a" [7])), callAt 1 (.originCreate (sampleOrigin "b" [5])),
    callAt 1 (.transfer "a" "b" [1]), callAt 1 (.transfer "a" "b" [1])]

/-- The creation has the greater hash, so the second transfer names it as its parent too. -/
theorem historiesChained_fails : ¬ HistoriesChained := by
  intro h
  have hrun : AllSteps (engineStep (platformFor tiedTransfers))
        (KernelEngine.initial ConsensusPolicy.default)
        (fun _ eng c => (eng.call (platformFor tiedTransfers) c.now c.call).1.IsOk)
        tiedTransfers ∧
      ((engineAfter samplePlatform tiedTransfers).eventInputs.map shortDigest).Nodup ∧
      ¬ Chained (history (platformFor tiedTransfers) ConsensusPolicy.default tiedTransfers
        "a") := by
    decide +kernel
  obtain ⟨hok, hdigests, hbranches⟩ := hrun
  have horderly : OrderlyRun (platformFor tiedTransfers) ConsensusPolicy.default tiedTransfers :=
    .of_checks hok (by decide) (by decide) (by decide) (by decide)
  exact hbranches (h _ (platformFor_collisionFree tiedTransfers hdigests) _ _ horderly "a")

end VKernelX
