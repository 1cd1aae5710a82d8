/-
  Model/Region.lean --- signatures (`signature.rs`) and regions (`region.rs`).
-/
import VKernelX.Model.Serialization

set_option autoImplicit false

namespace VKernelX

/-! ## Hexadecimal and signatures -/

/-- `HEX`. -/
def hexAlphabet : List Char :=
  ['0', '1', '2', '3', '4', '5', '6', '7', '8', '9', 'a', 'b', 'c', 'd', 'e', 'f']

/-- The character of a nibble. -/
def hexChar (nibble : UInt8) : Char := hexAlphabet.getD nibble.toNat '0'

/-- `hex_encode`. -/
def hexEncode (bytes : List UInt8) : String :=
  String.ofList (bytes.flatMap (fun b : UInt8 => [hexChar (b >>> 4), hexChar (b &&& 0x0f)]))

/-- `hex_value`. -/
def hexValue (byte : UInt8) : Outcome String UInt8 :=
  if 0x30 ≤ byte ∧ byte ≤ 0x39 then .ok (byte - 0x30)
  else if 0x61 ≤ byte ∧ byte ≤ 0x66 then .ok (byte - 0x61 + 10)
  else if 0x41 ≤ byte ∧ byte ≤ 0x46 then .ok (byte - 0x41 + 10)
  else Outcome.fail ("invalid hex character: " ++ String.singleton (Char.ofNat byte.toNat))

/-- The loop of `hex_decode`, two bytes at a time.  A single byte at the end would be an
index out of bounds. -/
def hexPairs : List UInt8 → Outcome String (List UInt8)
  | [] => .ok []
  | [_] => .error .panicked
  | hiByte :: loByte :: rest => do
      let hi ← hexValue hiByte
      let lo ← hexValue loByte
      let tail ← hexPairs rest
      return ((hi <<< 4) ||| lo) :: tail

/-- The same loop as it indexes the bytes, from position `i` on. -/
def hexLoop (bytes : List UInt8) (i : ℕ) (out : List UInt8) : Outcome String (List UInt8) :=
  if i < bytes.length then do
    let hiByte ← Outcome.unwrap bytes[i]?
    let hi ← hexValue hiByte
    let loByte ← Outcome.unwrap bytes[i + 1]?
    let lo ← hexValue loByte
    hexLoop bytes (i + 2) (out ++ [(hi <<< 4) ||| lo])
  else .ok out
termination_by bytes.length - i

/-- `hex_decode`. -/
def hexDecode (input : String) : Outcome String (List UInt8) := do
  Outcome.require ((strBytes input).length % 2 = 0) "hex string must have even length"
  hexPairs (strBytes input)

section

variable (env : Platform)

/-- `verifying_key_from_hex`: the key as its bytes. -/
def verifyingKeyFromHex (publicKeyHex : String) : Outcome String (List UInt8) := do
  let bytes ← hexDecode publicKeyHex
  Outcome.require (bytes.length = 32) "ed25519 verifying key must be 32 bytes"
  match env.verifyingKeyError bytes with
  | some e => Outcome.fail ("public key parse error: " ++ e)
  | none => return bytes

/-- `verify_event_signature`. -/
def verifyEventSignature (verifyingKey payload : List UInt8) (signatureHex : String) :
    Outcome String Bool := do
  let sigBytes ← hexDecode signatureHex
  match env.signatureError sigBytes with
  | some e => Outcome.fail ("signature parse error: " ++ e)
  | none => return env.ed25519Verify verifyingKey payload sigBytes

/-! ## Region requests -/

/-- `REGION_CREATE_OPERATION_NAME`. -/
def regionCreateOperationName : String := "REGION_CREATE"

/-- `REGION_TYPE_TAG`. -/
def regionTypeTag : String := "region"

/-- `DEFAULT_REGION_AUTH_RATIO_BPS`. -/
def defaultRegionAuthRatioBps : UInt64 := 1000

/-- Insert the entries one after the other. -/
def insertAll (m : BTreeMap String String) (entries : List (String × String)) :
    BTreeMap String String :=
  entries.foldl (fun m entry => m.insert entry.1 entry.2) m

/-- `RegionCreateRequest::normalized_name`. -/
def RegionCreateRequest.normalizedName (request : RegionCreateRequest) : String :=
  toAsciiLowercase (trim request.regionName)

/-- Trim and upper-case a prefix; a blank one counts as none. -/
def normalizePrefix (pre : Option String) : Option String :=
  (pre.map (fun v => toAsciiUppercase (trim v))).filter (· ≠ "")

/-- `RegionCreateRequest::normalized_prefix`. -/
def RegionCreateRequest.normalizedPrefix (request : RegionCreateRequest) : Option String :=
  normalizePrefix request.regionPrefix

/-- `canonical_region_seed_bytes`. -/
def canonicalRegionSeedBytes (request : RegionCreateRequest) (actorPublicKey : String) :
    List UInt8 :=
  strBytes (env.jsonOfMap (insertAll ∅ [
    ("actor_public_key", actorPublicKey),
    ("region_name", request.regionName),
    ("region_prefix", request.regionPrefix.getD ""),
    ("suggested_title", request.suggestedTitle.getD ""),
    ("visibility", request.visibility.asStr),
    ("section", decimal request.section_.toNat),
    ("trigger_event_hash", request.triggerEventHash),
    ("creation_proof_hash", hashHex env request.creationProof),
    ("access_key_hash", (request.accessKey.map (hashHex env)).getD ""),
    ("metadata", env.jsonOfMap request.metadata)]))

/-- `canonical_region_request_signature_bytes`. -/
def canonicalRegionRequestSignatureBytes (request : RegionCreateRequest) : List UInt8 :=
  strBytes (env.jsonOfMap (insertAll ∅ [
    ("region_name", request.regionName),
    ("region_prefix", request.regionPrefix.getD ""),
    ("suggested_title", request.suggestedTitle.getD ""),
    ("visibility", request.visibility.asStr),
    ("section", decimal request.section_.toNat),
    ("trigger_event_hash", request.triggerEventHash),
    ("creation_proof", request.creationProof),
    ("access_key", request.accessKey.getD ""),
    ("metadata", env.jsonOfMap request.metadata)]))

/-- `validate_region_create_request`. -/
def validateRegionCreateRequest (request : RegionCreateRequest) : Outcome KernelXError Unit := do
  Outcome.require (isBlank request.regionName = false)
    (.invalidState "region_name cannot be empty")
  Outcome.require (request.section_ ≠ 0) (.invalidState "section must be greater than zero")
  Outcome.require (isBlank request.triggerEventHash = false)
    (.invalidState "trigger_event_hash cannot be empty")
  Outcome.require (isBlank request.creationProof = false)
    (.invalidState "creation_proof cannot be empty")
  Outcome.require (isBlank request.requestSignature = false)
    (.invalidState "request_signature cannot be empty")
  match request.visibility with
  | .public_ =>
      Outcome.require (request.accessKey = none)
        (.invalidState "public regions must not include an access_key")
  | .private_ =>
      Outcome.require ((request.accessKey.map isBlank).getD true = false)
        (.invalidState "private regions require a non-empty access_key")

/-- `verify_region_create_request_signature`, through the report it asks for. -/
def verifyRegionCreateRequestSignature (actorPublicKey : String)
    (request : RegionCreateRequest) : Outcome KernelXError Unit := do
  let vk ← (verifyingKeyFromHex env actorPublicKey).mapErr
    (fun e => .invalidState ("region actor key error: " ++ e))
  let verified ← (verifyEventSignature env vk
    (canonicalRegionRequestSignatureBytes env request) request.requestSignature).mapErr
      (fun e => .invalidState ("region request signature error: " ++ e))
  Outcome.require (verified = true)
    (.invalidState "region request signature verification failed")

/-- `canonical_region_id`.  A digest is hexadecimal text, so its first 24 bytes are its
first 24 characters. -/
def canonicalRegionId (request : RegionCreateRequest) (actorPublicKey : String)
    (sequence : UInt64) : String :=
  let digest := env.blake3Hex (canonicalRegionSeedBytes env request actorPublicKey)
  (request.normalizedPrefix.getD "RGN") ++ "::rgn_" ++ takeChars 24 digest ++ "::" ++
    decimal sequence.toNat

/-- `region_create_operation`. -/
def regionCreateOperation : OperationType := .other regionCreateOperationName

/-- The reserved metadata of a region's genesis event. -/
def regionGenesisMetadata (request : RegionCreateRequest) (actorPublicKey : String) :
    List (String × String) := [
  ("region_kind", regionTypeTag),
  ("region_name", request.regionName),
  ("normalized_name", request.normalizedName),
  ("region_prefix", request.normalizedPrefix.getD ""),
  ("section", decimal request.section_.toNat),
  ("suggested_title", request.suggestedTitle.getD ""),
  ("visibility", request.visibility.asStr),
  ("creator_public_key", actorPublicKey),
  ("trigger_event_hash", request.triggerEventHash),
  ("creation_proof_hash", hashHex env request.creationProof),
  ("access_key_hash", (request.accessKey.map (hashHex env)).getD ""),
  ("initial_auth_ratio_bps", decimal defaultRegionAuthRatioBps.toNat),
  ("core_registry", "core"),
  ("default_auth_ratio", "1.0")]

/-- `build_region_genesis_event`. -/
def buildRegionGenesisEvent (request : RegionCreateRequest) (actorPublicKey : String)
    (logicalClock timestamp sequence : UInt64) : Outcome KernelXError VectorEvent := do
  validateRegionCreateRequest request
  let regionId := canonicalRegionId env request actorPublicKey sequence
  let metadata := insertAll (insertAll ∅ (regionGenesisMetadata env request actorPublicKey))
    (request.metadata.toList.map (fun entry => ("meta:" ++ entry.1, entry.2)))
  let event : VectorEvent := {
    eventId := canonicalEventId regionId regionId regionCreateOperation logicalClock sequence
    parentHashes := []
    regionId := regionId
    entityId := regionId
    operation := regionCreateOperation
    vectorBefore := VectorState.zero 0 "" regionTypeTag
    vectorAfter :=
      { components := [], ownerPublicKey := "", typeTag := regionTypeTag, metadata := metadata }
    authRatio := F64.one
    certified := true
    actorPublicKey := actorPublicKey
    logicalClock := logicalClock
    timestamp := timestamp
    payloadHash := ""
    eventHash := ""
    signature := request.requestSignature }
  return event.seal env

end

/-! ## Regions from events -/

/-- `is_region_create_event`. -/
def isRegionCreateEvent (e : VectorEvent) : Bool :=
  (e.operation = .originCreate && e.vectorAfter.metadata["region_kind"]? = some regionTypeTag) ||
    e.operation = .other regionCreateOperationName

/-- A required metadata entry. -/
def requireEntry (md : BTreeMap String String) (key : String) : Outcome KernelXError String :=
  Outcome.okOr (.invalidState ("missing " ++ key)) md[key]?

/-- An optional metadata entry; a blank one counts as none. -/
def optionalEntry (md : BTreeMap String String) (key : String) : Option String :=
  match md[key]? with
  | some v => if isBlank v = false then some v else none
  | none => none

/-- A number in a metadata entry. -/
def parseEntry (key value : String) : Outcome KernelXError UInt64 :=
  match parseU64 value with
  | .ok n => .ok n
  | .error e => Outcome.fail (.invalidState ("invalid " ++ key ++ ": " ++ e))

/-- The visibility entry of a region's metadata. -/
def parseVisibility (md : BTreeMap String String) : Outcome KernelXError RegionVisibility :=
  match md["visibility"]? with
  | some v =>
      if v = "public" then .ok .public_
      else if v = "private" then .ok .private_
      else Outcome.fail (.invalidState ("invalid region visibility: " ++ v))
  | none => Outcome.fail (.invalidState "missing visibility")

/-- `region_state_from_event`. -/
def regionStateFromEvent (e : VectorEvent) : Outcome KernelXError RegionState := do
  Outcome.require (isRegionCreateEvent e = true)
    (.invalidState "event is not a region creation event")
  Outcome.require (isBlank e.eventHash = false)
    (.invalidState "region event hash cannot be empty")
  let md := e.vectorAfter.metadata
  let regionName ← requireEntry md "region_name"
  let normalizedName ← requireEntry md "normalized_name"
  let sectionText ← requireEntry md "section"
  let sectionNumber ← parseEntry "section" sectionText
  let authRatioBps ←
    match md["initial_auth_ratio_bps"]? with
    | some v => parseEntry "initial_auth_ratio_bps" v
    | none => .ok defaultRegionAuthRatioBps
  Outcome.require (authRatioBps ≠ 0)
    (.invalidState "initial_auth_ratio_bps must be greater than zero")
  let visibility ← parseVisibility md
  let creatorPublicKey ← requireEntry md "creator_public_key"
  let triggerEventHash ← requireEntry md "trigger_event_hash"
  let creationProofHash ← requireEntry md "creation_proof_hash"
  return {
    regionId := e.entityId
    regionRoot := e.eventHash
    regionName := regionName
    normalizedName := normalizedName
    regionPrefix := optionalEntry md "region_prefix"
    suggestedTitle := optionalEntry md "suggested_title"
    visibility := visibility
    section_ := sectionNumber
    authRatioBps := authRatioBps
    creatorPublicKey := creatorPublicKey
    triggerEventHash := triggerEventHash
    creationProofHash := creationProofHash
    accessKeyHash := optionalEntry md "access_key_hash"
    createdAtMs := e.timestamp
    updatedAtMs := e.timestamp
    version := 1
    metadata := insertAll ∅ (md.toList.filterMap
      (fun entry => (stripPrefix "meta:" entry.1).map (fun key => (key, entry.2)))) }

/-- The order of `list_regions_from_events`. -/
def regionSortKey (r : RegionState) : String ×ₗ WithBot String ×ₗ ℕ ×ₗ String :=
  toLex (r.normalizedName, toLex (r.regionPrefix, toLex (r.section_.toNat, r.regionId)))

/-- `list_regions_from_events`. -/
def listRegionsFromEvents (events : List VectorEvent) :
    Outcome KernelXError (List RegionState) := do
  let regions ← events.foldlM (fun regions e => do
    if isRegionCreateEvent e then
      let region ← regionStateFromEvent e
      return regions.insert region.regionId region
    else return regions) (∅ : BTreeMap String RegionState)
  return (BTreeMap.values regions).insertionSort (fun a b => regionSortKey a ≤ regionSortKey b)

/-- `find_region_by_lookup_key`. -/
def findRegionByLookupKey (events : List VectorEvent) (regionName : String)
    (regionPrefix : Option String) : Outcome KernelXError (Option RegionState) := do
  let regions ← listRegionsFromEvents events
  return regions.find? (fun region =>
    region.normalizedName = toAsciiLowercase (trim regionName) &&
      normalizePrefix region.regionPrefix = normalizePrefix regionPrefix)

/-! ## The core registry -/

/-- `region.rs`, `CoreState`. -/
structure CoreState where
  regions : BTreeMap String RegionState
  totalAuthRatioBps : UInt64
  coreRoot : String
  version : UInt64
  deriving DecidableEq

section

variable (env : Platform)

/-- `canonical_core_bytes`, of the three fields it reads. -/
def canonicalCoreBytes (regions : BTreeMap String RegionState)
    (totalAuthRatioBps version : UInt64) : List UInt8 :=
  strBytes (env.jsonOfMap (insertAll ∅ [
    ("version", decimal version.toNat),
    ("total_auth_ratio_bps", decimal totalAuthRatioBps.toNat),
    ("region_count", decimal regions.size),
    ("regions", env.jsonOfMap (insertAll ∅
      (regions.toList.map (fun entry => (entry.1, env.jsonOfRegion entry.2)))))]))

/-- `canonical_core_root`. -/
def canonicalCoreRoot (regions : BTreeMap String RegionState)
    (totalAuthRatioBps version : UInt64) : String :=
  env.blake3Hex (canonicalCoreBytes env regions totalAuthRatioBps version)

/-- `CoreState::new`. -/
def CoreState.new : CoreState where
  regions := ∅
  totalAuthRatioBps := 0
  coreRoot := canonicalCoreRoot env ∅ 0 0
  version := 0

/-- `u64::checked_add`. -/
def u64CheckedAdd (a b : UInt64) : Option UInt64 :=
  if a.toNat + b.toNat < 2 ^ 64 then some (a + b) else none

/-- `CoreState::insert_region`.  Every caller drops the core on `Err`, so the half-made
update the source leaves behind a version overflow is not kept. -/
def CoreState.insertRegion (core : CoreState) (region : RegionState) :
    Outcome KernelXError CoreState := do
  Outcome.require (core.regions[region.regionId]? = none)
    (.invalidState ("region already exists in core: " ++ region.regionId))
  let total ← Outcome.okOr (.invalidState "core auth ratio overflow")
    (u64CheckedAdd core.totalAuthRatioBps region.authRatioBps)
  let version ← Outcome.okOr (.invalidState "core version overflow")
    (u64CheckedAdd core.version 1)
  let regions := core.regions.insert region.regionId region
  return {
    regions := regions
    totalAuthRatioBps := total
    coreRoot := canonicalCoreRoot env regions total version
    version := version }

/-- `apply_region_event`. -/
def applyRegionEvent (core : CoreState) (e : VectorEvent) : Outcome KernelXError CoreState := do
  let region ← regionStateFromEvent e
  core.insertRegion env region

/-- The loop body of `core_state_from_events`. -/
def registerEvent (core : CoreState) (e : VectorEvent) : Outcome KernelXError CoreState :=
  if isRegionCreateEvent e = true then applyRegionEvent env core e else .ok core

/-- `core_state_from_events`. -/
def coreStateFromEvents (events : List VectorEvent) : Outcome KernelXError CoreState :=
  events.foldlM (registerEvent env) (CoreState.new env)

end

end VKernelX
