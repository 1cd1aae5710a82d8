/-
  Model/Interpreter.lean --- the script interpreter of `interpreter.rs`.

  A script is read as a whole before its first instruction is executed.  Upper-casing, the JSON
  reader and the JSON writer are the libraries' own and enter as parameters; instruction `k`
  takes its readings of the clock from `now k`.
-/
import VKernelX.Foundation.Lines
import VKernelX.Model.Engine

set_option autoImplicit false

namespace VKernelX

/-- What the interpreter calls outside the kernel. -/
structure ScriptLibrary where
  /-- `str::to_uppercase` -/
  toUppercase : String → String
  /-- `serde_json::from_str` on a value -/
  fromStr : String → Except String Value
  /-- `serde_json::to_string` on what a query found, or `null` where it fails -/
  vectorText : Option VectorStateV1 → String

/-! ## Scripts -/

/-- `Opcode`. -/
inductive Opcode where
  | originCreate
  | transfer
  | drain
  | project
  | reconstruct
  | certify
  | query
  deriving DecidableEq, Repr

/-- `Instruction`. -/
structure Instruction where
  opcode : Opcode
  params : Value

/-- The opcode a word stands for. -/
def Opcode.ofWord (word : String) : Option Opcode :=
  if word = "ORIGIN" ∨ word = "ORIGIN_CREATE" then some .originCreate
  else if word = "TRANSFER" then some .transfer
  else if word = "DRAIN" then some .drain
  else if word = "PROJECT" then some .project
  else if word = "RECONSTRUCT" then some .reconstruct
  else if word = "CERTIFY" then some .certify
  else if word = "QUERY" then some .query
  else none

/-- `line.splitn(2, ' ')`: what stands before the first blank, and what stands after it. -/
def splitnBlank (line : String) : String × Option String :=
  (String.ofList (line.toList.takeWhile (· != ' ')),
    match line.toList.dropWhile (· != ' ') with
    | [] => none
    | _ :: rest => some (String.ofList rest))

/-- Whether a trimmed line holds an instruction: it is not empty and no comment. -/
def isInstructionLine (line : String) : Bool := !(line == "") && !(line.toList.head? == some '#')

section

variable (lib : ScriptLibrary)

/-- The body of the loop of `parse_script`, for a line that holds an instruction. -/
def parseInstruction (line : String) : Outcome KernelXError Instruction := do
  let parts := splitnBlank line
  let opcodeStr := lib.toUppercase parts.1
  let params := parts.2.getD "{}"
  let opcode ← Outcome.okOr (.rejected ("unknown opcode: " ++ opcodeStr))
    (Opcode.ofWord opcodeStr)
  let params ← (Outcome.ofResult (lib.fromStr params)).mapErr
    (fun e => .rejected ("invalid params json: " ++ e))
  return { opcode := opcode, params := params }

/-- `parse_script`: blank lines and comments are skipped. -/
def parseScript (script : String) : Outcome KernelXError (List Instruction) :=
  (((lines script).map trim).filter isInstructionLine).mapM (parseInstruction lib)

end

/-! ## Parameters -/

/-- `Value::get` with a key. -/
def Value.get : Value → String → Option Value
  | .object entries, key => (entries.find? (fun entry => entry.1 = key)).map Prod.snd
  | _, _ => none

/-- `Value::as_str`. -/
def Value.asStr : Value → Option String
  | .string s => some s
  | _ => none

/-- `Value::as_u64`. -/
def Value.asU64 : Value → Option UInt64
  | .number (.posInt n) => some n
  | _ => none

/-- `Value::as_array`. -/
def Value.asArray : Value → Option (List Value)
  | .array items => some items
  | _ => none

/-- `param_str`. -/
def paramStr (params : Value) (key default : String) : String :=
  ((params.get key).bind Value.asStr).getD default

/-- `param_u64`. -/
def paramU64 (params : Value) (key : String) (default : UInt64) : UInt64 :=
  ((params.get key).bind Value.asU64).getD default

/-- `param_u16`: the number is cast with `as u16`. -/
def paramU16 (params : Value) (key : String) (default : UInt16) : UInt16 :=
  (((params.get key).bind Value.asU64).map UInt64.toUInt16).getD default

/-- `param_u128_vec`. -/
def paramU128Vec (params : Value) (key : String) : List U128 :=
  (((params.get key).bind Value.asArray).getD []).map
    (fun v => BitVec.ofNat 128 (v.asU64.getD 0).toNat)

/-! ## Execution -/

section

variable (env : Platform) (lib : ScriptLibrary)

/-- The body of the loop of `execute_script`: the text an instruction results in. -/
def executeInstruction (now : ℕ → UInt64) (ins : Instruction) : EngineProc String :=
  let params := ins.params
  match ins.opcode with
  | .originCreate => do
      let s ← originCreate env now {
        vectorId := paramStr params "vector_id" "vector"
        ownerPubkey := paramStr params "owner_pubkey" ""
        spaceId := paramStr params "space_id" "default"
        components := paramU128Vec params "components"
        seed := paramStr params "seed" ""
        nonce := paramU64 params "nonce" 0
        difficulty := (paramU64 params "difficulty" 1).toUInt32 }
      return "origin:" ++ s.vectorId
  | .transfer => do
      let fromId := paramStr params "from" ""
      let toId := paramStr params "to" ""
      let states ← transfer env now fromId toId (paramU128Vec params "amount")
      let sent ← Proc.lift (states.1.magnitude env.overflowChecks)
      let received ← Proc.lift (states.2.magnitude env.overflowChecks)
      return "transfer:" ++ fromId ++ "->" ++ toId ++ ":" ++ decimal sent.toNat ++ "|" ++
        decimal received.toNat
  | .drain => do
      let s ← drain env now (paramStr params "vector_id" "") (paramU16 params "basis_points" 0)
      return "drain:" ++ s.vectorId
  | .project => do
      let s ← project env now (paramStr params "vector_id" "")
        (paramU128Vec params "projected_components") (paramStr params "escrow_id" "escrow")
      return "project:" ++ s.vectorId
  | .reconstruct => do
      let s ← reconstruct env now (paramStr params "vector_id" "") {
        outcomeTag := paramStr params "outcome_tag" "settled"
        gains := paramU128Vec params "gains"
        losses := paramU128Vec params "losses" }
      return "reconstruct:" ++ s.vectorId
  | .certify => do
      let s ← certify env now (paramStr params "vector_id" "")
      return "certify:" ++ s.vectorId ++ ":" ++ decimal s.certification.authRatio.toNat
  | .query => do
      let found ← Proc.read (fun eng : KernelEngine =>
        eng.store.getState (paramStr params "vector_id" ""))
      return lib.vectorText found

/-- The loop of `execute_script`. -/
def executeInstructions (now : ℕ → ℕ → UInt64) :
    List Instruction → List String → EngineProc (List String)
  | [], results => return results
  | ins :: rest, results => do
      let result ← executeInstruction env lib (now 0) ins
      executeInstructions (fun k => now (k + 1)) rest (results ++ [result])

/-- `execute_script`. -/
def executeScript (now : ℕ → ℕ → UInt64) (script : String) : EngineProc (List String) := do
  let instructions ← Proc.lift (parseScript lib script)
  executeInstructions env lib now instructions []

end

end VKernelX
