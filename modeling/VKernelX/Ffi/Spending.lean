/-
  Ffi/Spending.lean --- whose amounts a submit request can lower.

  Validation checks that the request is signed by the key it names, and the engine is called
  with the parameters alone.  Nothing compares that key with the owner of the debited vector.
-/
import VKernelX.Engine.Debits
import VKernelX.Ffi.AtMostOnce

set_option autoImplicit false

namespace VKernelX

section

variable {env : Platform} {serde : Serde}

/-- A request that returns leaves the engine alone or makes the call it asks for. -/
theorem SubmitEnds.engine {m m' : KernelHandle} {now : ℕ → UInt64}
    {request : SubmitEventRequest} {answer : Except String SubmitReply}
    (h : SubmitEnds env serde m now request (.ok (answer, m'))) {c : Call}
    (hasks : request.Asks serde c) :
    m'.value.engine = m.value.engine ∨
      m'.value.engine = (m.value.engine.call env now c).2 := by
  cases h with
  | refused e hinvalid => exact .inl rfl
  | stopped label c' e hvalid hcollect =>
    obtain rfl := hvalid.asks.unique hasks
    exact .inr rfl
  | duplicate label c' reply hvalid hcollect =>
    obtain rfl := hvalid.asks.unique hasks
    exact .inr rfl

end

/-! ## A drain signed by a stranger -/

end VKernelX
