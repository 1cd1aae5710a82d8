/-
  Model/Platform.lean --- what the kernel takes from outside its own source.

  The data types whose JSON text the kernel hashes, and `Platform`: the hash, the
  signature scheme, the JSON writer and the build's overflow behaviour, as parameters.
  The kernel relies on none of them beyond the one law a `Platform` carries: a hash is
  never the empty string.  Results that need more say so.
-/
import VKernelX.Model.State

set_option autoImplicit false

namespace VKernelX

/-! ## JSON values -/

/-- `serde_json::Number`. -/
inductive JsonNumber where
  | posInt (n : UInt64)
  | negInt (n : Int64)
  | float (x : F64)
  deriving DecidableEq

/-- `serde_json::Value`.  The entries of an object are listed in key order, as the
writer emits them. -/
inductive Value where
  | null
  | bool (b : Bool)
  | number (n : JsonNumber)
  | string (s : String)
  | array (items : List Value)
  | object (entries : List (String × Value))

/-- `json!` on an unsigned number. -/
def Value.ofU64 (n : UInt64) : Value := .number (.posInt n)

/-- `json!` on a list of `u128`.  The macro unwraps a conversion that has no number for
values above `u64::MAX`, so such a value panics. -/
def Value.ofU128s (xs : List U128) : Outcome KernelXError Value := do
  let items ← xs.mapM (fun x => Outcome.unwrap ((u64TryFrom x).map Value.ofU64))
  return .array items

/-- Every entry of a list that `json!` accepts fits in 64 bits. -/
theorem le_u64Max_of_ofU128s {xs : List U128} {v : Value} (h : Value.ofU128s xs = .ok v) :
    ∀ x ∈ xs, x.toNat ≤ u64Max := by
  simp only [Value.ofU128s, Outcome.bind_eq_ok_iff] at h
  obtain ⟨items, hitems, -⟩ := h
  induction xs generalizing items with
  | nil => simp
  | cons x xs ih =>
      simp only [List.mapM_cons, Outcome.bind_eq_ok_iff] at hitems
      obtain ⟨v, hv, vs, hvs, -⟩ := hitems
      intro y hy
      rcases List.mem_cons.mp hy with rfl | hy
      · by_contra hlt
        rw [u64TryFrom_eq_none_iff.mpr (by omega)] at hv
        cases hv
      · exact ih vs hvs y hy

/-- `json!` accepts a list whose entries fit. -/
theorem exists_ofU128s {xs : List U128} (h : ∀ x ∈ xs, x.toNat ≤ u64Max) :
    ∃ v, Value.ofU128s xs = .ok v := by
  obtain ⟨items, hitems, _⟩ := @Outcome.exists_mapM_ok KernelXError U128 Value
    (fun x => Outcome.unwrap ((u64TryFrom x).map Value.ofU64)) xs (fun x hx => by
      rw [u64TryFrom, if_pos (h x hx)]
      exact ⟨_, rfl⟩)
  exact ⟨_, by rw [Value.ofU128s, hitems]; rfl⟩

/-! ## Regions -/

/-- `region.rs`, `RegionVisibility`. -/
inductive RegionVisibility where
  | public_
  | private_
  deriving DecidableEq, Repr

/-- `RegionVisibility::as_str`. -/
def RegionVisibility.asStr : RegionVisibility → String
  | .public_ => "public"
  | .private_ => "private"

/-- `region.rs`, `RegionCreateRequest`. -/
structure RegionCreateRequest where
  regionName : String
  regionPrefix : Option String
  suggestedTitle : Option String
  visibility : RegionVisibility
  section_ : UInt64
  triggerEventHash : String
  creationProof : String
  accessKey : Option String
  metadata : BTreeMap String String
  requestSignature : String
  deriving DecidableEq

/-- `region.rs`, `RegionState`. -/
structure RegionState where
  regionId : String
  regionRoot : String
  regionName : String
  normalizedName : String
  regionPrefix : Option String
  suggestedTitle : Option String
  visibility : RegionVisibility
  section_ : UInt64
  authRatioBps : UInt64
  creatorPublicKey : String
  triggerEventHash : String
  creationProofHash : String
  accessKeyHash : Option String
  createdAtMs : UInt64
  updatedAtMs : UInt64
  version : UInt64
  metadata : BTreeMap String String
  deriving DecidableEq

/-! ## The platform -/

/-- The code outside the kernel's source that it calls. -/
structure Platform where
  /-- `blake3::hash(bytes).to_hex().to_string()` -/
  blake3Hex : List UInt8 → String
  /-- a digest is never the empty string -/
  blake3Hex_ne_empty : ∀ bytes, blake3Hex bytes ≠ ""
  /-- whether the build panics on arithmetic overflow -/
  overflowChecks : Bool
  /-- `VerifyingKey::from_bytes` on 32 bytes: the error text, if they are no key -/
  verifyingKeyError : List UInt8 → Option String
  /-- `Signature::from_slice`: the error text, if the bytes are no signature -/
  signatureError : List UInt8 → Option String
  /-- `VerifyingKey::verify(payload, signature).is_ok()` -/
  ed25519Verify : List UInt8 → List UInt8 → List UInt8 → Bool
  /-- `serde_json::to_string` on a map of strings -/
  jsonOfMap : BTreeMap String String → String
  /-- `serde_json::to_vec` on a vector state -/
  jsonOfState : VectorStateV1 → List UInt8
  /-- `serde_json::to_vec` on a certification -/
  jsonOfCertification : CertificationState → List UInt8
  /-- `serde_json::to_string` on a region -/
  jsonOfRegion : RegionState → String
  /-- `Value::to_string`, which is also `serde_json::to_string` on a value -/
  jsonOfValue : Value → String
  /-- `Number::to_string` -/
  jsonOfNumber : JsonNumber → String

/-- No two byte strings share a digest. -/
def Platform.CollisionFree (env : Platform) : Prop := Function.Injective env.blake3Hex

/-- Every digest shows a character, as hexadecimal text does. -/
def Platform.DigestsVisible (env : Platform) : Prop :=
  ∀ bytes, isBlank (env.blake3Hex bytes) = false

/-! ## Sample platforms

Platforms on which runs can be evaluated.  They accept every signature and write as JSON
what tells the values of short runs apart. -/

mutual

/-- The text of a value. -/
def sampleJson : Value → String
  | .null => "null"
  | .bool b => if b then "true" else "false"
  | .number (.posInt n) => decimal n.toNat
  | .number _ => "number"
  | .string s => s
  | .array items => "[" ++ sampleJsonItems items ++ "]"
  | .object entries => "\x7b" ++ sampleJsonEntries entries ++ "\x7d"

/-- The texts of the items of an array. -/
def sampleJsonItems : List Value → String
  | [] => ""
  | item :: items => sampleJson item ++ "," ++ sampleJsonItems items

/-- The texts of the entries of an object. -/
def sampleJsonEntries : List (String × Value) → String
  | [] => ""
  | (key, value) :: entries => key ++ ":" ++ sampleJson value ++ "," ++ sampleJsonEntries entries

end

/-- A platform with a given digest. -/
def platformOf (digest : List UInt8 → String) (hne : ∀ bytes, digest bytes ≠ "") : Platform where
  blake3Hex := digest
  blake3Hex_ne_empty := hne
  overflowChecks := true
  verifyingKeyError := fun _ => none
  signatureError := fun _ => none
  ed25519Verify := fun _ _ _ => true
  jsonOfMap := fun m => String.join (m.toList.map (fun entry => entry.1 ++ "=" ++ entry.2 ++ ";"))
  jsonOfState := fun s => strBytes s.vectorId
  jsonOfCertification := fun c => [UInt8.ofNat c.authRatio.toNat]
  jsonOfRegion := fun r => r.regionId
  jsonOfValue := sampleJson
  jsonOfNumber := fun _ => "number"

/-! Two digests: one is short, the other spells its input out. -/

/-- A remainder in decimal, after a letter. -/
def shortDigest (bytes : List UInt8) : String :=
  "x" ++ decimal (bytes.foldl (fun acc b => (acc * 257 + b.toNat + 1) % 9973) 7)

theorem shortDigest_ne_empty (bytes : List UInt8) : shortDigest bytes ≠ "" := by
  intro h
  have := congrArg String.length h
  simp [shortDigest] at this

/-- Every byte as one character, after a letter. -/
def spelledDigest (bytes : List UInt8) : String :=
  String.ofList ('l' :: bytes.map (fun b => Char.ofNat b.toNat))

theorem spelledDigest_ne_empty (bytes : List UInt8) : spelledDigest bytes ≠ "" := by
  intro h
  have := congrArg String.toList h
  simp [spelledDigest] at this

theorem charOfByte_injective : Function.Injective (fun b : UInt8 => Char.ofNat b.toNat) := by
  intro a b h
  have hvalid : ∀ c : UInt8, (Char.ofNat c.toNat).toNat = c.toNat := by
    intro c
    have hc := c.toNat_lt
    rw [Char.toNat_ofNat, if_pos (Or.inl (by omega))]
  have := congrArg Char.toNat h
  rw [hvalid, hvalid] at this
  exact UInt8.toNat_inj.mp this

theorem spelledDigest_injective : Function.Injective spelledDigest := by
  intro a b h
  have hlist := congrArg String.toList h
  simp only [spelledDigest, String.toList_ofList, List.cons.injEq, true_and] at hlist
  exact List.map_injective_iff.mpr charOfByte_injective hlist

/-- The platform of the sample runs. -/
def samplePlatform : Platform := platformOf shortDigest shortDigest_ne_empty

/-- The short digest of known inputs, and the spelled one of all others. -/
def separatedDigest (known : List (List UInt8)) (bytes : List UInt8) : String :=
  if bytes ∈ known then shortDigest bytes else spelledDigest bytes

theorem separatedDigest_ne_empty (known : List (List UInt8)) (bytes : List UInt8) :
    separatedDigest known bytes ≠ "" := by
  unfold separatedDigest
  split
  · exact shortDigest_ne_empty bytes
  · exact spelledDigest_ne_empty bytes

/-- Short digests and spelled ones begin with different letters, so known inputs with
distinct short digests are all it takes. -/
theorem separatedDigest_injective {known : List (List UInt8)}
    (h : (known.map shortDigest).Nodup) : Function.Injective (separatedDigest known) := by
  have hletter : ∀ a b, shortDigest a ≠ spelledDigest b := by
    intro a b heq
    have := congrArg (fun s => s.toList.head?) heq
    simp [shortDigest, spelledDigest] at this
  intro a b hab
  unfold separatedDigest at hab
  split at hab <;> split at hab
  · rename_i ha hb
    exact List.inj_on_of_nodup_map h ha hb hab
  · exact absurd hab (hletter a b)
  · exact absurd hab.symm (hletter b a)
  · exact spelledDigest_injective hab

/-- The sample platform with no collisions. -/
def separatedPlatform (known : List (List UInt8)) : Platform :=
  platformOf (separatedDigest known) (separatedDigest_ne_empty known)

theorem separatedPlatform_digestsVisible (known : List (List UInt8)) :
    (separatedPlatform known).DigestsVisible := by
  intro bytes
  show isBlank (separatedDigest known bytes) = false
  unfold separatedDigest
  split
  · exact isBlank_eq_false_of_mem (c := 'x') (by simp [shortDigest]) (by decide)
  · exact isBlank_eq_false_of_mem (c := 'l') (by simp [spelledDigest]) (by decide)

theorem separatedPlatform_nil_collisionFree : (separatedPlatform []).CollisionFree :=
  @separatedDigest_injective [] List.nodup_nil

end VKernelX
