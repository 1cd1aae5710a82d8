/-
  Model/Serialization.lean --- the canonical byte encodings of `serialization.rs`, and
  the hashes of `hash.rs` over them.

  The source appends to a buffer; here each writer returns the bytes it appends.
-/
import VKernelX.Model.Platform

set_option autoImplicit false

namespace VKernelX

/-- The low `width` bytes of a number, most significant first. -/
def beBytes : ℕ → ℕ → List UInt8
  | 0, _ => []
  | width + 1, n => UInt8.ofNat (n / 256 ^ width) :: beBytes width n

/-- `write_bool`. -/
def writeBool (b : Bool) : List UInt8 := [if b then 1 else 0]

/-- `write_u32`. -/
def writeU32 (v : UInt32) : List UInt8 := beBytes 4 v.toNat

/-- `write_u64`: the high half, then the low half. -/
def writeU64 (v : UInt64) : List UInt8 :=
  writeU32 (v >>> 32).toUInt32 ++ writeU32 (v &&& 0xFFFFFFFF).toUInt32

/-- `write_u64` of `state.rs` and `record.rs`, which take the bytes directly. -/
def writeBeU64 (v : UInt64) : List UInt8 := beBytes 8 v.toNat

theorem beBytes_add (a b n : ℕ) :
    beBytes (a + b) n = beBytes a (n / 256 ^ b) ++ beBytes b n := by
  induction a with
  | zero => simp [beBytes]
  | succ a ih =>
      rw [Nat.succ_add, beBytes, beBytes, ih, List.cons_append, Nat.div_div_eq_div_mul,
        ← pow_add, Nat.add_comm b a]

theorem beBytes_mod (width n k : ℕ) (h : width ≤ k) :
    beBytes width (n % 256 ^ k) = beBytes width n := by
  induction width with
  | zero => rfl
  | succ width ih =>
      rw [beBytes, beBytes, ih (by omega)]
      congr 1
      apply UInt8.toNat_inj.mp
      have hk : 256 ^ k = 256 ^ width * 256 ^ (k - width) := by
        rw [← pow_add]
        congr 1
        omega
      have hdvd : 256 ∣ 256 ^ (k - width) := dvd_pow_self 256 (by omega)
      rw [UInt8.toNat_ofNat', UInt8.toNat_ofNat', hk, Nat.mod_mul_right_div_self,
        Nat.mod_mod_of_dvd _ hdvd]

/-- The two ways the source writes a `u64` agree. -/
theorem writeU64_eq_writeBeU64 (v : UInt64) : writeU64 v = writeBeU64 v := by
  have hhi : (v >>> 32).toUInt32.toNat = v.toNat / 256 ^ 4 := by
    have := v.toNat_lt
    rw [UInt64.toNat_toUInt32, UInt64.toNat_shiftRight, Nat.shiftRight_eq_div_pow]
    show v.toNat / 2 ^ 32 % 2 ^ 32 = v.toNat / 256 ^ 4
    omega
  have hlo : (v &&& 0xFFFFFFFF).toUInt32.toNat = v.toNat % 256 ^ 4 := by
    rw [UInt64.toNat_toUInt32, UInt64.toNat_and]
    show (v.toNat &&& (2 ^ 32 - 1)) % 2 ^ 32 = _
    rw [Nat.and_two_pow_sub_one_eq_mod, Nat.mod_mod]
    norm_num
  rw [writeU64, writeU32, writeU32, writeBeU64, hhi, hlo, beBytes_mod 4 _ 4 le_rfl,
    ← beBytes_add]

/-- `write_f64`. -/
def writeF64 (x : F64) : List UInt8 := beBytes 8 x.bits.toNat

/-- `write_bytes`. -/
def writeBytes (bytes : List UInt8) : List UInt8 :=
  writeU64 (UInt64.ofNat bytes.length) ++ bytes

/-- `write_str`. -/
def writeStr (s : String) : List UInt8 := writeBytes (strBytes s)

/-- `write_vec_str`. -/
def writeVecStr (values : List String) : List UInt8 :=
  writeU64 (UInt64.ofNat values.length) ++ values.flatMap writeStr

/-- `write_btreemap_str_str`. -/
def writeStrMap (map : BTreeMap String String) : List UInt8 :=
  writeU64 (UInt64.ofNat map.size) ++
    map.toList.flatMap (fun entry => writeStr entry.1 ++ writeStr entry.2)

/-- `write_vec_u64`. -/
def writeVecU64 (values : List UInt64) : List UInt8 :=
  writeU64 (UInt64.ofNat values.length) ++ values.flatMap writeU64

/-- `OperationType::canonical_bytes`: only `Other` carries a second string. -/
def OperationType.canonicalBytes : OperationType → List UInt8
  | .other name => writeStr "OTHER" ++ writeStr name
  | operation => writeStr operation.canonicalName

/-- `VectorState::canonical_bytes`. -/
def VectorState.canonicalBytes (s : VectorState) : List UInt8 :=
  writeVecU64 s.components ++ writeStr s.ownerPublicKey ++ writeStr s.typeTag ++
    writeStrMap s.metadata

/-- `canonical_event_payload_bytes`: everything but the two hashes and the signature. -/
def canonicalEventPayloadBytes (e : VectorEvent) : List UInt8 :=
  writeStr e.eventId ++ writeVecStr e.parentHashes ++ writeStr e.regionId ++
    writeStr e.entityId ++ e.operation.canonicalBytes ++ e.vectorBefore.canonicalBytes ++
    e.vectorAfter.canonicalBytes ++ writeF64 e.authRatio ++ writeBool e.certified ++
    writeStr e.actorPublicKey ++ writeU64 e.logicalClock ++ writeU64 e.timestamp

/-- `canonical_event_bytes`: the payload bytes and the payload hash. -/
def canonicalEventBytes (e : VectorEvent) : List UInt8 :=
  canonicalEventPayloadBytes e ++ writeStr e.payloadHash

/-- `VectorEvent::canonical_bytes`, a second writer of the full event. -/
def VectorEvent.canonicalBytes (e : VectorEvent) : List UInt8 :=
  writeStr e.eventId ++ writeVecStr e.parentHashes ++ writeStr e.regionId ++
    writeStr e.entityId ++ e.operation.canonicalBytes ++ e.vectorBefore.canonicalBytes ++
    e.vectorAfter.canonicalBytes ++ writeF64 e.authRatio ++ writeBool e.certified ++
    writeStr e.actorPublicKey ++ writeU64 e.logicalClock ++ writeU64 e.timestamp ++
    writeStr e.payloadHash

/-- `canonical_state_map_bytes`. -/
def canonicalStateMapBytes (state : BTreeMap String VectorState) : List UInt8 :=
  writeU64 (UInt64.ofNat state.size) ++
    state.toList.flatMap (fun entry => writeStr entry.1 ++ entry.2.canonicalBytes)

/-- `canonical_event_sequence_bytes`. -/
def canonicalEventSequenceBytes (eventHashes : List String) : List UInt8 :=
  writeU64 (UInt64.ofNat eventHashes.length) ++ eventHashes.flatMap writeStr

/-- `canonical_blob_bytes`. -/
def canonicalBlobBytes (tag : String) (payload : List UInt8) : List UInt8 :=
  writeStr tag ++ writeBytes payload

/-! ## Hashes -/

section Hashes

variable (env : Platform)

/-- `canonical_payload_hash`. -/
def canonicalPayloadHash (e : VectorEvent) : String :=
  env.blake3Hex (canonicalEventPayloadBytes e)

/-- `canonical_event_hash`. -/
def canonicalEventHash (e : VectorEvent) : String := env.blake3Hex (canonicalEventBytes e)

/-- `canonical_replay_hash`. -/
def canonicalReplayHash (eventHashes : List String) : String :=
  env.blake3Hex (canonicalBlobBytes "replay-v1" [] ++ canonicalEventSequenceBytes eventHashes)

/-- `hash_hex`. -/
def hashHex (input : String) : String := env.blake3Hex (strBytes input)

/-- `state.rs`, `compute_state_root_from_canonical_bytes`. -/
def computeStateRootFromCanonicalBytes (canonicalStateBytes : List UInt8)
    (eventCount logicalClock : UInt64) : StateRoot where
  rootHash := env.blake3Hex (strBytes "v-kernelx/state-root-v1" ++ writeBeU64 eventCount ++
    writeBeU64 logicalClock ++ writeBeU64 (UInt64.ofNat canonicalStateBytes.length) ++
    canonicalStateBytes)
  eventCount := eventCount
  logicalClock := logicalClock

/-- Sealing an event sets its two hashes to the canonical ones.  The payload hash does
not cover itself, and the event hash does not cover itself. -/
def VectorEvent.seal (e : VectorEvent) : VectorEvent :=
  let hashed := { e with payloadHash := canonicalPayloadHash env e }
  { hashed with eventHash := canonicalEventHash env hashed }

theorem canonicalPayloadHash_seal (e : VectorEvent) :
    canonicalPayloadHash env (e.seal env) = (e.seal env).payloadHash := rfl

theorem canonicalEventHash_seal (e : VectorEvent) :
    canonicalEventHash env (e.seal env) = (e.seal env).eventHash := rfl

end Hashes

end VKernelX
