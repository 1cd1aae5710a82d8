/-
  Engine/Debits.lean --- whose amounts a call lowers, and in whose name its events are.

  No operation is told who asks for it.  An event names the owner of its vector as the actor.
-/
import VKernelX.Engine.Frame
import VKernelX.Engine.History

set_option autoImplicit false

namespace VKernelX

variable {env : Platform}

/-! ## The debited vector -/

/-- The vector a call takes amounts from. -/
def Call.debited : Call → Option String
  | .transfer fromId _ _ => some fromId
  | .drain vectorId _ => some vectorId
  | .project vectorId _ _ => some vectorId
  | _ => none

theorem VectorStateV1.component_le_max (s : VectorStateV1) (i : ℕ) : s.component i ≤ u128Max :=
  Nat.le_sub_one_of_lt (s.components.getD i 0).isLt

/-- The event of a transition names the owner as the actor. -/
theorem transitionEvent_actor {eng : KernelEngine} {before : Option VectorStateV1}
    {after : VectorStateV1} {operation : OperationType} {timestamp : UInt64}
    {parentHashes : List String} {e : VectorEvent}
    (h : transitionEvent env eng before after operation timestamp parentHashes = .ok e) :
    e.entityId = after.vectorId ∧ e.actorPublicKey = after.ownerPubkey := by
  obtain ⟨hbuilt, _⟩ := transitionEvent_eq_ok_iff.mp h
  simp only [buildTransitionEvent, Outcome.bind_eq_ok_iff] at hbuilt
  obtain ⟨_, _, _, _, _, _, he⟩ := hbuilt
  obtain rfl := Except.ok.inj he
  exact ⟨rfl, rfl⟩

end VKernelX
