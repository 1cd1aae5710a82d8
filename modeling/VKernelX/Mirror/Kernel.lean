/-
  Mirror/Kernel.lean --- how an operation of the mirror can end.

  The mirror changes objects through references.  While no two vectors share an object, its
  operations act like operations on a map of values; a transfer from a vector to itself
  takes an amount away and puts the same amount back.
-/
import VKernelX.Model.Mirror

set_option autoImplicit false

namespace VKernelX.Mirror

variable {k : VectorKernel} {fromId toId vectorId : String}

theorem exec_stateRef_bind {α : Type} (f : ℕ → KernelProc α) :
    (stateRef vectorId >>= f).exec k =
      match k.names[vectorId]? with
      | some ref => (f ref).exec k
      | none => (.error (.err (.keyError vectorId)), k) := by
  rw [stateRef, Proc.exec_query_bind]
  cases k.names[vectorId]? <;> rfl

theorem exec_deref_bind {α : Type} {ref : ℕ} {s : VectorStateV1} (hs : k.heap[ref]? = some s)
    (f : VectorStateV1 → KernelProc α) : (deref ref >>= f).exec k = (f s).exec k := by
  rw [deref, Proc.exec_query_bind, hs]
  rfl

/-! ## Operations on one vector -/

/-- The endings of an operation on one vector. -/
inductive ObjectEnds (k : VectorKernel) (vectorId : String) (now : ℤ)
    (next : VectorStateV1 → Outcome PyError VectorStateV1) :
    Outcome PyError ℕ → VectorKernel → Prop where
  /-- there is no such vector -/
  | unknown (hlookup : k.lookup vectorId = none) :
      ObjectEnds k vectorId now next (.error (.err (.keyError vectorId))) k
  /-- the arguments are turned down -/
  | raised (s : VectorStateV1) {f : Failure PyError} (hlookup : k.lookup vectorId = some s)
      (hnext : next s = .error f) : ObjectEnds k vectorId now next (.error f) k
  /-- the vector's object is changed -/
  | done (s after : VectorStateV1) {ref : ℕ} {k' : VectorKernel}
      (hlookup : k.lookup vectorId = some s) (hnext : next s = .ok after) (hseparate : k'.Separate)
      (hafter : ∀ id, k'.lookup id =
        if vectorId = id then some (certified now after) else k.lookup id) :
      ObjectEnds k vectorId now next (.ok ref) k'

theorem updateObject_ends (h : k.Separate) (vectorId : String) (now : ℤ)
    (next : VectorStateV1 → Outcome PyError VectorStateV1) :
    ObjectEnds k vectorId now next ((updateObject vectorId now next).exec k).1
      ((updateObject vectorId now next).exec k).2 := by
  rw [updateObject, exec_stateRef_bind]
  cases hname : k.names[vectorId]? with
  | none => exact .unknown (h.lookup_eq_none_iff.mpr hname)
  | some ref =>
    obtain ⟨s, hheap, hlookup⟩ := h.lookup_eq hname
    simp only [exec_deref_bind hheap, Proc.exec_lift_bind]
    cases hnext : next s with
    | error f => exact .raised s hlookup hnext
    | ok after =>
      have hassigned := h.modify ref (fun _ => after)
      have hname' : (k.modify ref (fun _ => after)).names[vectorId]? = some ref := hname
      have hname'' : ((k.modify ref (fun _ => after)).modify ref (certified now)).names[vectorId]? =
          some ref := hname
      simp only [modify, storeRef, Proc.exec_write_bind, Proc.exec_pure,
        Objects.assign_self hname'']
      refine .done s after hlookup hnext (hassigned.modify ref (certified now)) ?_
      intro id
      rw [hassigned.lookup_modify hname', h.lookup_modify hname]
      split
      · rename_i heq
        rw [← heq, hlookup]
        rfl
      · rfl

/-! ## Transfers -/

/-- The sender after the first assignment of a transfer. -/
def debited (amount : List ℤ) (s : VectorStateV1) : VectorStateV1 :=
  { s with components := (s.components.zip amount).map (fun sa => sa.1 - sa.2) }

/-- The receiver after the second one. -/
def credited (amount : List ℤ) (r : VectorStateV1) : VectorStateV1 :=
  { r with components := (r.components.zip amount).map (fun ra => ra.1 + ra.2) }

/-- What a transfer asks of its arguments. -/
def Transferable (amount : List ℤ) (s r : VectorStateV1) : Prop :=
  (s.components.length = r.components.length ∧ amount.length = s.components.length) ∧
    (amount.zip s.components).all (fun as => as.1 ≤ as.2) = true

/-- What a transfer leaves under each name. -/
def transferred (now : ℕ → ℤ) (fromId toId : String) (amount : List ℤ) (s r : VectorStateV1)
    (k : VectorKernel) (id : String) : Option VectorStateV1 :=
  if fromId = toId then
    if fromId = id then
      some (certified (now 1) (certified (now 0) (credited amount (debited amount s))))
    else k.lookup id
  else if fromId = id then some (certified (now 0) (debited amount s))
  else if toId = id then some (certified (now 1) (credited amount r))
  else k.lookup id

/-- The endings of `transfer`. -/
inductive TransferEnds (k : VectorKernel) (now : ℕ → ℤ) (fromId toId : String)
    (amount : List ℤ) : Outcome PyError (ℕ × ℕ) → VectorKernel → Prop where
  /-- a vector is missing -/
  | unknown {key : String} (hlookup : k.lookup fromId = none ∨ k.lookup toId = none) :
      TransferEnds k now fromId toId amount (.error (.err (.keyError key))) k
  /-- the amount is turned down -/
  | raised (s r : VectorStateV1) {message : String} (hsender : k.lookup fromId = some s)
      (hreceiver : k.lookup toId = some r) (hamount : ¬ Transferable amount s r) :
      TransferEnds k now fromId toId amount (.error (.err (.valueError message))) k
  /-- the objects are changed -/
  | done (s r : VectorStateV1) {refs : ℕ × ℕ} {k' : VectorKernel}
      (hsender : k.lookup fromId = some s) (hreceiver : k.lookup toId = some r)
      (hamount : Transferable amount s r) (hseparate : k'.Separate)
      (hafter : ∀ id, k'.lookup id = transferred now fromId toId amount s r k id) :
      TransferEnds k now fromId toId amount (.ok refs) k'

/-- The four changes a transfer makes, seen under the names. -/
theorem lookup_transfer (h : k.Separate) {sender receiver : ℕ} {s r : VectorStateV1}
    (hfrom : k.names[fromId]? = some sender) (hto : k.names[toId]? = some receiver)
    (hsender : k.lookup fromId = some s) (hreceiver : k.lookup toId = some r)
    (now : ℕ → ℤ) (amount : List ℤ) (id : String) :
    ((((k.modify sender (debited amount)).modify receiver (credited amount)).modify sender
        (certified (now 0))).modify receiver (certified (now 1))).lookup id =
      transferred now fromId toId amount s r k id := by
  have h₁ := h.modify sender (debited amount)
  have h₂ := h₁.modify receiver (credited amount)
  have h₃ := h₂.modify sender (certified (now 0))
  rw [h₃.lookup_modify (show _ = some receiver from hto),
    h₂.lookup_modify (show _ = some sender from hfrom),
    h₁.lookup_modify (show _ = some receiver from hto), h.lookup_modify hfrom, transferred]
  by_cases hself : fromId = toId
  · subst hself
    by_cases hid : fromId = id
    · subst hid
      simp [hsender]
    · simp [hid]
  · by_cases hid : fromId = id
    · subst hid
      simp [hself, Ne.symm hself, hsender]
    · by_cases hid' : toId = id
      · subst hid'
        simp [hself, hreceiver]
      · simp [hself, hid, hid']

theorem transfer_ends (h : k.Separate) (now : ℕ → ℤ) (fromId toId : String) (amount : List ℤ) :
    TransferEnds k now fromId toId amount ((transfer now fromId toId amount).exec k).1
      ((transfer now fromId toId amount).exec k).2 := by
  rw [transfer, exec_stateRef_bind]
  cases hfrom : k.names[fromId]? with
  | none => exact .unknown (Or.inl (h.lookup_eq_none_iff.mpr hfrom))
  | some sender =>
    simp only [exec_stateRef_bind]
    cases hto : k.names[toId]? with
    | none => exact .unknown (Or.inr (h.lookup_eq_none_iff.mpr hto))
    | some receiver =>
      obtain ⟨s, hheap, hsender⟩ := h.lookup_eq hfrom
      obtain ⟨r, hheap', hreceiver⟩ := h.lookup_eq hto
      simp only [exec_deref_bind hheap, exec_deref_bind hheap', Proc.exec_lift_bind]
      by_cases hshape : s.components.length = r.components.length ∧
          amount.length = s.components.length
      · rw [Outcome.require_of hshape]
        by_cases hcovered : (amount.zip s.components).all (fun as => as.1 ≤ as.2) = true
        · rw [Outcome.require_of hcovered]
          have hnames : ∀ {name : String} {ref : ℕ}, k.names[name]? = some ref →
              ((((k.modify sender (debited amount)).modify receiver (credited amount)).modify
                sender (certified (now 0))).modify receiver (certified (now 1))).names[name]? =
                  some ref := fun hname => hname
          have hafter := lookup_transfer h hfrom hto hsender hreceiver now amount
          simp only [modify, storeRef, Proc.exec_write_bind, Proc.exec_pure]
          change TransferEnds k now fromId toId amount _
            ((((((k.modify sender (debited amount)).modify receiver (credited amount)).modify
              sender (certified (now 0))).modify receiver (certified (now 1))).assign fromId
                sender).assign toId receiver)
          rw [Objects.assign_self (hnames hfrom), Objects.assign_self (hnames hto)]
          exact .done s r hsender hreceiver ⟨hshape, hcovered⟩
            ((((h.modify sender _).modify receiver _).modify sender _).modify receiver _) hafter
        · rw [Outcome.require_of_not hcovered]
          exact .raised s r hsender hreceiver (fun hamount => hcovered hamount.2)
      · rw [Outcome.require_of_not hshape]
        exact .raised s r hsender hreceiver (fun hamount => hshape hamount.1)

/-! ## Creations -/

/-- A creation that goes through lets the name hold a new object. -/
theorem createOrigin_of_ok {sha256Hex : List UInt8 → String} {now : ℕ → ℤ}
    {ownerPubkey spaceId : String} {components : List ℤ} {seed : String} {nonce difficulty : ℤ}
    (hok : ((createOrigin sha256Hex now vectorId ownerPubkey spaceId components seed nonce
      difficulty).exec k).1.IsOk) :
    ∃ origin, ((createOrigin sha256Hex now vectorId ownerPubkey spaceId components seed nonce
        difficulty).exec k).2 =
      (k.alloc (certified (now 1)
        { VectorStateV1.new vectorId ownerPubkey spaceId components .origin (now 0) with
          origin := some origin })).assign vectorId k.heap.length := by
  simp only [createOrigin, Proc.exec_lift_bind] at hok ⊢
  by_cases hproof : difficulty ≤
      ((sha256Hex (strBytes (seed ++ ":" ++ toString nonce))).toList.takeWhile (· = '0')).length
  · rw [Outcome.require_of hproof]
    simp only [Proc.exec_read_bind, storeRef, Proc.exec_write_bind, Proc.exec_pure]
    exact ⟨_, rfl⟩
  · rw [Outcome.require_of_not hproof] at hok
    exact absurd hok (Outcome.not_isOk_error _)

end VKernelX.Mirror
