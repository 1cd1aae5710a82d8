/-
  Engine/Frame.lean --- what the operations on existing vectors leave alone, however they end.
-/
import VKernelX.Engine.Writes

set_option autoImplicit false

namespace VKernelX

/-! ## Identity fields -/

/-- Two states of one vector: everything fixed at its creation agrees. -/
structure SameIdentity (s after : VectorStateV1) : Prop where
  schema : after.schema = s.schema
  vectorId : after.vectorId = s.vectorId
  ownerPubkey : after.ownerPubkey = s.ownerPubkey
  spaceId : after.spaceId = s.spaceId
  origin : after.origin = s.origin
  typeMetadata : after.typeMetadata = s.typeMetadata
  createdAtMs : after.createdAtMs = s.createdAtMs
  threshold : after.certification.threshold = s.certification.threshold
  length_eq : after.components.length = s.components.length

theorem SameIdentity.refl (s : VectorStateV1) : SameIdentity s s :=
  ⟨rfl, rfl, rfl, rfl, rfl, rfl, rfl, rfl, rfl⟩

theorem SameIdentity.symm {s after : VectorStateV1} (h : SameIdentity s after) :
    SameIdentity after s :=
  ⟨h.schema.symm, h.vectorId.symm, h.ownerPubkey.symm, h.spaceId.symm, h.origin.symm,
    h.typeMetadata.symm, h.createdAtMs.symm, h.threshold.symm, h.length_eq.symm⟩

theorem SameIdentity.trans {s mid after : VectorStateV1} (h : SameIdentity s mid)
    (h' : SameIdentity mid after) : SameIdentity s after :=
  ⟨h'.schema.trans h.schema, h'.vectorId.trans h.vectorId, h'.ownerPubkey.trans h.ownerPubkey,
    h'.spaceId.trans h.spaceId, h'.origin.trans h.origin, h'.typeMetadata.trans h.typeMetadata,
    h'.createdAtMs.trans h.createdAtMs, h'.threshold.trans h.threshold,
    h'.length_eq.trans h.length_eq⟩

variable {env : Platform}

/-- The fields that are neither amounts nor a vector's own name and tags. -/
structure SameCreation (s after : VectorStateV1) : Prop where
  schema : after.schema = s.schema
  origin : after.origin = s.origin
  createdAtMs : after.createdAtMs = s.createdAtMs

theorem SameVector.identity {s after : VectorStateV1} (h : SameVector s after)
    (hcreation : SameCreation s after)
    (hlength : after.components.length = s.components.length) : SameIdentity s after where
  schema := hcreation.schema
  vectorId := h.vectorId
  ownerPubkey := h.ownerPubkey
  spaceId := h.spaceId
  origin := hcreation.origin
  typeMetadata := h.typeMetadata
  createdAtMs := hcreation.createdAtMs
  threshold := h.threshold
  length_eq := hlength

/-- No operation on one vector rewrites how the vector came about. -/
theorem update_next_creation {now : ℕ → UInt64} {c : Call} {u : Update}
    (hupdate : c.update? env now = some u) {s after : VectorStateV1}
    (h : u.next s = .ok after) : SameCreation s after := by
  cases c with
  | certify vectorId =>
    obtain rfl := Option.some.inj hupdate
    simp only [certifyNext, Outcome.bind_eq_ok_iff] at h
    obtain ⟨_, _, _, _, hafter⟩ := h
    obtain rfl := Except.ok.inj hafter
    exact ⟨rfl, rfl, rfl⟩
  | drain vectorId basisPoints =>
    obtain rfl := Option.some.inj hupdate
    simp only [drainNext, Outcome.bind_eq_ok_iff] at h
    obtain ⟨⟨_, _⟩, _, _, _, _, _, hafter⟩ := h
    obtain rfl := Except.ok.inj hafter
    exact ⟨rfl, rfl, rfl⟩
  | project vectorId projected escrowId =>
    obtain rfl := Option.some.inj hupdate
    simp only [projectNext, projectVector, Outcome.bind_eq_ok_iff] at h
    obtain ⟨_, ⟨_, _, _, _, _, _, hmid⟩, _, _, hafter⟩ := h
    obtain rfl := Except.ok.inj hmid
    obtain rfl := Except.ok.inj hafter
    exact ⟨rfl, rfl, rfl⟩
  | reconstruct vectorId outcome =>
    obtain rfl := Option.some.inj hupdate
    simp only [reconstructNext, reconstructVector, Outcome.bind_eq_ok_iff] at h
    obtain ⟨_, ⟨_, _, _, _, ⟨_, _⟩, _, _, _, hmid⟩, _, _, hafter⟩ := h
    obtain rfl := Except.ok.inj hmid
    obtain rfl := Except.ok.inj hafter
    exact ⟨rfl, rfl, rfl⟩
  | originCreate _ => cases hupdate
  | transfer _ _ _ => cases hupdate
  | createRegion _ _ => cases hupdate

/-- No operation on one vector changes the number of its components. -/
theorem update_next_length {now : ℕ → UInt64} {c : Call} {u : Update}
    (hupdate : c.update? env now = some u) {s after : VectorStateV1}
    (h : u.next s = .ok after) (hsound : SoundState s) :
    after.components.length = s.components.length := by
  cases c with
  | certify vectorId =>
    obtain rfl := Option.some.inj hupdate
    rw [(certifyNext_ok h).2.1]
  | drain vectorId basisPoints =>
    obtain rfl := Option.some.inj hupdate
    exact (drainNext_ok h).2.1
  | project vectorId projected escrowId =>
    obtain rfl := Option.some.inj hupdate
    exact (projectNext_ok h).2.1.length_eq
  | reconstruct vectorId outcome =>
    obtain rfl := Option.some.inj hupdate
    obtain ⟨projection, hprojection⟩ := reconstructNext_projection h
    exact (reconstructNext_ok hprojection (hsound.shape projection hprojection) h).2.1.length_eq
  | originCreate _ => cases hupdate
  | transfer _ _ _ => cases hupdate
  | createRegion _ _ => cases hupdate

theorem update_next_identity {now : ℕ → UInt64} {c : Call} {u : Update}
    (hupdate : c.update? env now = some u) {s after : VectorStateV1}
    (h : u.next s = .ok after) (hsound : SoundState s) (hcanonical : CanonicalState after) :
    SameIdentity s after :=
  (update_next_ok hupdate h hsound hcanonical).1.same.identity (update_next_creation hupdate h)
    (update_next_length hupdate h hsound)

theorem transferNext_identity {now : ℕ → UInt64} {amount : List U128}
    {sender receiver afterFrom afterTo : VectorStateV1}
    (h : transferNext env now amount sender receiver = .ok (afterFrom, afterTo)) :
    SameIdentity sender afterFrom ∧ SameIdentity receiver afterTo := by
  have htransfers := transferNext_ok h
  simp only [transferNext, transferComponents, Outcome.bind_eq_ok_iff] at h
  obtain ⟨⟨_, _⟩, ⟨_, _, _, _, _, _, hmid⟩, _, _, _, _, _, _, _, _, hafter⟩ := h
  obtain ⟨rfl, rfl⟩ := Prod.mk.inj (Except.ok.inj hmid)
  obtain ⟨rfl, rfl⟩ := Prod.mk.inj (Except.ok.inj hafter)
  exact ⟨htransfers.same_from.identity ⟨rfl, rfl, rfl⟩ htransfers.length_from,
    htransfers.same_to.identity ⟨rfl, rfl, rfl⟩ htransfers.length_to⟩

/-! ## Calls -/

/-- The vectors a call names. -/
def Call.named : Call → List String
  | .originCreate request => [request.vectorId]
  | .certify vectorId => [vectorId]
  | .transfer fromId toId _ => [fromId, toId]
  | .drain vectorId _ => [vectorId]
  | .project vectorId _ _ => [vectorId]
  | .reconstruct vectorId _ => [vectorId]
  | .createRegion _ _ => []

/-- The operations on existing vectors: all but the two creations. -/
def Call.IsMutation : Call → Prop
  | .originCreate _ => False
  | .createRegion _ _ => False
  | _ => True

theorem named_of_update {now : ℕ → UInt64} {c : Call} {u : Update}
    (hupdate : c.update? env now = some u) : c.named = [u.vectorId] := by
  cases c <;> cases hupdate <;> rfl

/-- What is left alone by rewriting the states of the named vectors: the set of ids, all
other states, and the identity of the named ones. -/
structure StatesFramed (named : List String) (states states' : BTreeMap String VectorStateV1) :
    Prop where
  ids : ∀ id : String, states'[id]? = none ↔ states[id]? = none
  others : ∀ id : String, id ∉ named → states'[id]? = states[id]?
  kept : ∀ (id : String) (s s' : VectorStateV1), states[id]? = some s → states'[id]? = some s' →
    SameIdentity s s'

theorem StatesFramed.refl (named : List String) (states : BTreeMap String VectorStateV1) :
    StatesFramed named states states where
  ids _ := Iff.rfl
  others _ _ := rfl
  kept id s s' hs hs' := by
    rw [Option.some.inj (hs.symm.trans hs')]
    exact SameIdentity.refl s'

theorem StatesFramed.trans {named : List String}
    {states mid states' : BTreeMap String VectorStateV1} (h : StatesFramed named states mid)
    (h' : StatesFramed named mid states') : StatesFramed named states states' where
  ids id := (h'.ids id).trans (h.ids id)
  others id hid := (h'.others id hid).trans (h.others id hid)
  kept id s s' hs hs' := by
    cases hmid : mid[id]? with
    | none => rw [(h.ids id).mp hmid] at hs; cases hs
    | some t => exact (h.kept id s t hs hmid).trans (h'.kept id t s' hmid hs')

/-- Storing another state of a named vector. -/
theorem StatesFramed.insert {named : List String} {states : BTreeMap String VectorStateV1}
    {id : String} {s after : VectorStateV1} (hnamed : id ∈ named) (hs : states[id]? = some s)
    (hid : after.vectorId = id) (hidentity : SameIdentity s after) :
    StatesFramed named states (states.insert after.vectorId after) := by
  subst hid
  refine ⟨fun other => ?_, fun other hother => ?_, fun other t t' ht ht' => ?_⟩
  · rw [BTreeMap.lookup_insert]
    split
    · rename_i heq
      rw [← heq, hs]
      simp
    · rfl
  · exact BTreeMap.lookup_insert_of_ne _ _ (fun heq => hother (heq ▸ hnamed))
  · rw [BTreeMap.lookup_insert] at ht'
    split at ht'
    · rename_i heq
      rw [← heq, hs] at ht
      rw [← Option.some.inj ht, ← Option.some.inj ht']
      exact hidentity
    · rw [Option.some.inj (ht.symm.trans ht')]
      exact SameIdentity.refl t'

theorem StatesChange.framed {eng : KernelEngine} {now : ℕ → UInt64} {c : Call}
    {states : BTreeMap String VectorStateV1} (h : StatesChange env eng now c states)
    (hc : c.IsMutation) (hkeyed : WellKeyed eng.store) (hsound : SoundStates eng.store) :
    StatesFramed c.named eng.store.states states := by
  cases h with
  | none => exact .refl _ _
  | update u before after hupdate hplan =>
    obtain ⟨hbefore, hnext, hcanonical⟩ := Update.plan_eq_ok_iff.mp hplan
    have hidentity := update_next_identity hupdate hnext (hsound _ _ hbefore) hcanonical
    rw [named_of_update hupdate]
    exact .insert List.mem_cons_self hbefore
      (hidentity.vectorId.trans (hkeyed.states _ _ hbefore).1) hidentity
  | origin request s hcall _ =>
    subst hcall
    cases hc
  | transfer fromId toId amount plan hcall hplan =>
    subst hcall
    obtain ⟨hsender, hreceiver, hnext⟩ := transferPlan_eq_ok_iff.mp hplan
    obtain ⟨hfrom, hto⟩ := transferNext_identity hnext
    have hfromId := hfrom.vectorId.trans (hkeyed.states _ _ hsender).1
    have htoId := hto.vectorId.trans (hkeyed.states _ _ hreceiver).1
    have hfirst : StatesFramed [fromId, toId] eng.store.states
        (eng.store.states.insert plan.afterFrom.vectorId plan.afterFrom) :=
      .insert (by simp) hsender hfromId hfrom
    refine hfirst.trans ?_
    -- The receiver is found as it was, unless it is the sender, which is then stored twice.
    by_cases heq : fromId = toId
    · subst heq
      have hsame : plan.sender = plan.receiver := Option.some.inj (hsender.symm.trans hreceiver)
      exact .insert (by simp) (by rw [hfromId]; simp) htoId (hfrom.symm.trans (hsame ▸ hto))
    · refine .insert (show toId ∈ [fromId, toId] by simp) ?_ htoId hto
      rw [hfromId, BTreeMap.lookup_insert_of_ne _ _ heq]
      exact hreceiver

/-- No write removes or changes a stored event. -/
theorem EngineWrites.events_kept {eng eng' : KernelEngine} (h : EngineWrites env eng eng') :
    ∀ (hash : String) (e : VectorEvent), eng.store.events[hash]? = some e →
      eng'.store.events[hash]? = some e := by
  intro hash e he
  refine EngineWrites.invariant (I := fun eng => eng.store.events[hash]? = some e) ?_ h he
  intro mid mid' hwrite hmid
  cases hwrite with
  | state s _ => exact hmid
  | record r => rwa [KernelEngine.events_withRecord]
  | event e' _ hadmissible =>
    rw [KernelEngine.events_addEvent, BTreeMap.lookup_insert_of_ne]
    · exact hmid
    · rintro rfl
      rw [hadmissible.appendable.hash_fresh] at hmid
      cases hmid

/-- However a call of an operation on existing vectors ends: no vector appears or disappears,
vectors it does not name are as before, the named ones keep their identity, and every stored
event is still there. -/
theorem mutation_framed (env : Platform) {policy : ConsensusPolicy} {eng : KernelEngine}
    (h : ReachableEngine env policy eng) (now : ℕ → UInt64) {c : Call} (hc : c.IsMutation) :
    StatesFramed c.named eng.store.states (eng.call env now c).2.store.states ∧
      ∀ (hash : String) (e : VectorEvent), eng.store.events[hash]? = some e →
        (eng.call env now c).2.store.events[hash]? = some e := by
  have hends : CallEnds env eng now c _ _ := call_ends eng now c
  exact ⟨hends.states.framed hc h.wellKeyed h.soundStates, hends.writes.events_kept⟩

theorem mutation_framed_drain :
    let eng := engineAfter samplePlatform oneVector
    let c : Call := .drain "a" 100
    StatesFramed c.named eng.store.states
        (eng.call samplePlatform (fun _ => 2) c).2.store.states ∧
      ∀ (hash : String) (e : VectorEvent), eng.store.events[hash]? = some e →
        (eng.call samplePlatform (fun _ => 2) c).2.store.events[hash]? = some e :=
  mutation_framed samplePlatform (engineAfter_reachable samplePlatform oneVector) (fun _ => 2)
    trivial

end VKernelX
