/-
  Model/Mining.lean --- the search for a proof of work, as `origin.rs` does it.
-/
import VKernelX.Model.Operations

set_option autoImplicit false

namespace VKernelX

/-- `find_valid_nonce`. -/
def findValidNonce (env : Platform) (seed : String) (difficulty : UInt32)
    (maxAttempts : UInt64) : Option UInt64 :=
  if difficulty = 0 then some 0
  else ((List.range maxAttempts.toNat).map UInt64.ofNat).find?
    (fun nonce => verifyOrigin env seed nonce difficulty)

end VKernelX
