/-
  Model/RegionAccess.lean --- the lookup keys and the access rule of `region.rs`.
-/
import VKernelX.Model.Engine

set_option autoImplicit false

namespace VKernelX

/-- A prefix and a name as one lookup key. -/
def regionLookupKey (normalizedPrefix : Option String) (normalizedName : String) : String :=
  normalizedPrefix.getD "" ++ "::" ++ normalizedName

/-- `RegionCreateRequest::lookup_key`. -/
def RegionCreateRequest.lookupKey (request : RegionCreateRequest) : String :=
  regionLookupKey request.normalizedPrefix request.normalizedName

/-- `RegionState::lookup_key`. -/
def RegionState.lookupKey (region : RegionState) : String :=
  regionLookupKey (normalizePrefix region.regionPrefix)
    (toAsciiLowercase (trim region.normalizedName))

/-- `authorize_region_access`. -/
def authorizeRegionAccess (env : Platform) (region : RegionState) (accessKey : Option String) :
    Bool :=
  match region.visibility with
  | .public_ => true
  | .private_ =>
      match region.accessKeyHash, accessKey with
      | some expected, some provided => hashHex env provided == expected
      | _, _ => false

/-- `authorize_region`. -/
def KernelEngine.authorizeRegion (env : Platform) (eng : KernelEngine) (regionId : String)
    (accessKey : Option String) : Outcome KernelXError Bool := do
  match ← eng.queryRegion regionId with
  | some region => return authorizeRegionAccess env region accessKey
  | none => Outcome.fail (.invalidState "region not found")

end VKernelX
