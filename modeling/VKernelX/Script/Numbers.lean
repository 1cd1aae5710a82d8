/-
  Script/Numbers.lean --- the numbers a script passes to the engine.

  A parameter is decoded where it is used, and decoding never fails: a number that does not fit
  is cut off by a cast, and a value that is no natural number is replaced by the default, or by
  zero inside a list.  So the call an instruction makes carries the numbers of the script
  exactly if every value it decodes is a natural number in the range of its parameter.
-/
import VKernelX.Engine.Writes
import VKernelX.Model.Interpreter

set_option autoImplicit false

namespace VKernelX

/-! ## The calls of a script -/

/-- The call an instruction makes, with its parameters decoded; a query makes none. -/
def Instruction.call (ins : Instruction) : Option Call :=
  match ins.opcode with
  | .originCreate => some (.originCreate {
      vectorId := paramStr ins.params "vector_id" "vector"
      ownerPubkey := paramStr ins.params "owner_pubkey" ""
      spaceId := paramStr ins.params "space_id" "default"
      components := paramU128Vec ins.params "components"
      seed := paramStr ins.params "seed" ""
      nonce := paramU64 ins.params "nonce" 0
      difficulty := (paramU64 ins.params "difficulty" 1).toUInt32 })
  | .transfer => some (.transfer (paramStr ins.params "from" "") (paramStr ins.params "to" "")
      (paramU128Vec ins.params "amount"))
  | .drain => some (.drain (paramStr ins.params "vector_id" "")
      (paramU16 ins.params "basis_points" 0))
  | .project => some (.project (paramStr ins.params "vector_id" "")
      (paramU128Vec ins.params "projected_components") (paramStr ins.params "escrow_id" "escrow"))
  | .reconstruct => some (.reconstruct (paramStr ins.params "vector_id" "") {
      outcomeTag := paramStr ins.params "outcome_tag" "settled"
      gains := paramU128Vec ins.params "gains"
      losses := paramU128Vec ins.params "losses" })
  | .certify => some (.certify (paramStr ins.params "vector_id" ""))
  | .query => none

section

variable (env : Platform) (lib : ScriptLibrary)

/-- Executing an instruction changes the engine as its call does. -/
theorem executeInstruction_of_call {ins : Instruction} {c : Call} (h : ins.call = some c)
    (now : ℕ → UInt64) (eng : KernelEngine) :
    ((executeInstruction env lib now ins).exec eng).2 = (eng.call env now c).2 := by
  obtain ⟨opcode, params⟩ := ins
  cases opcode with
  | transfer =>
    obtain rfl := Option.some.inj h
    simp only [executeInstruction, KernelEngine.call, Call.proc, Proc.exec_map, Proc.exec_bind]
    rcases (transfer env now _ _ _).exec eng with ⟨_ | states, eng'⟩
    · rfl
    · dsimp only [Proc.exec_lift]
      rcases states.1.magnitude env.overflowChecks with _ | sent
      · rfl
      · rcases states.2.magnitude env.overflowChecks with _ | received <;> rfl
  | query => cases h
  | _ =>
    obtain rfl := Option.some.inj h
    simp only [executeInstruction, KernelEngine.call, Call.proc, Proc.exec_map, Proc.exec_bind]
    split <;> simp_all

/-- A query leaves the engine as it is. -/
theorem executeInstruction_of_query {ins : Instruction} (h : ins.call = none)
    (now : ℕ → UInt64) (eng : KernelEngine) :
    ((executeInstruction env lib now ins).exec eng).2 = eng := by
  obtain ⟨opcode, params⟩ := ins
  cases opcode with
  | query => rfl
  | _ => cases h

/-- The instructions that are executed, each with its readings of the clock: those up to the
first one that fails. -/
def executed (now : ℕ → ℕ → UInt64) :
    List Instruction → KernelEngine → List (Instruction × (ℕ → UInt64))
  | [], _ => []
  | ins :: rest, eng => (ins, now 0) ::
      match (executeInstruction env lib (now 0) ins).exec eng with
      | (.ok _, eng') => executed (fun k => now (k + 1)) rest eng'
      | (.error _, _) => []

/-- The call of an executed instruction, at the time of the instruction. -/
def timedCall (x : Instruction × (ℕ → UInt64)) : Option TimedCall :=
  x.1.call.map (fun c => { call := c, now := x.2 })

/-- Executing instructions is a run of the engine over their calls. -/
theorem executeInstructions_run (now : ℕ → ℕ → UInt64) (instructions : List Instruction)
    (results : List String) (eng : KernelEngine) :
    ((executeInstructions env lib now instructions results).exec eng).2 =
      runFrom (engineStep env) eng
        ((executed env lib now instructions eng).filterMap timedCall) := by
  induction instructions generalizing now results eng with
  | nil => rfl
  | cons ins rest ih =>
    have hstate : ((executeInstruction env lib (now 0) ins).exec eng).2 =
        runFrom (engineStep env) eng ((timedCall (ins, now 0)).toList) := by
      cases hcall : ins.call with
      | none =>
        rw [executeInstruction_of_query env lib hcall]
        simp [timedCall, hcall]
      | some c =>
        rw [executeInstruction_of_call env lib hcall]
        simp [timedCall, hcall, runFrom, engineStep]
    have hsplit : ∀ more, List.filterMap timedCall ((ins, now 0) :: more) =
        (timedCall (ins, now 0)).toList ++ more.filterMap timedCall := by
      intro more
      cases htimed : timedCall (ins, now 0) <;> simp [htimed]
    rw [executeInstructions, Proc.exec_bind, executed, hsplit, runFrom_append, ← hstate]
    rcases (executeInstruction env lib (now 0) ins).exec eng with ⟨_ | result, eng'⟩
    · rfl
    · exact ih (fun k => now (k + 1)) (results ++ [result]) eng'

/-- The instructions of a script that are executed: none if it cannot be read. -/
def executedOf (now : ℕ → ℕ → UInt64) (script : String) (eng : KernelEngine) :
    List (Instruction × (ℕ → UInt64)) :=
  match parseScript lib script with
  | .ok instructions => executed env lib now instructions eng
  | .error _ => []

/-- Executing a script is a run of the engine over its calls. -/
theorem executeScript_run (now : ℕ → ℕ → UInt64) (script : String) (eng : KernelEngine) :
    ((executeScript env lib now script).exec eng).2 =
      runFrom (engineStep env) eng ((executedOf env lib now script eng).filterMap timedCall) := by
  rw [executeScript, Proc.exec_lift_bind, executedOf]
  cases parseScript lib script with
  | error f => rfl
  | ok instructions => exact executeInstructions_run env lib now instructions [] eng

end

/-! ## Numbers -/

/-- The natural number that a value is. -/
def Value.natural? : Value → Option ℕ
  | .number (.posInt n) => some n.toNat
  | _ => none

theorem natural?_eq (v : Value) : v.natural? = v.asU64.map UInt64.toNat := by
  cases v with
  | number n => cases n <;> rfl
  | _ => rfl

/-- If there is a value under the key, it is this number. -/
def CarriesNumber (params : Value) (key : String) (n : ℕ) : Prop :=
  ∀ v, params.get key = some v → v.natural? = some n

/-- If there is a value under the key, it is an array of these numbers. -/
def CarriesNumbers (params : Value) (key : String) (amounts : List U128) : Prop :=
  ∀ v, params.get key = some v → ∃ items, v = .array items ∧
    items.map Value.natural? = amounts.map (fun a => some a.toNat)

/-- The numbers of a call are those that are written under its keys. -/
def Carries (params : Value) : Call → Prop
  | .originCreate request => CarriesNumbers params "components" request.components ∧
      CarriesNumber params "nonce" request.nonce.toNat ∧
      CarriesNumber params "difficulty" request.difficulty.toNat
  | .transfer _ _ amount => CarriesNumbers params "amount" amount
  | .drain _ basisPoints => CarriesNumber params "basis_points" basisPoints.toNat
  | .project _ projectedComponents _ =>
      CarriesNumbers params "projected_components" projectedComponents
  | .reconstruct _ outcome => CarriesNumbers params "gains" outcome.gains ∧
      CarriesNumbers params "losses" outcome.losses
  | .certify _ => True
  | .createRegion _ _ => True

/-- If there is a value under the key, it is a natural number below the bound. -/
def NumberFits (params : Value) (key : String) (bound : ℕ) : Prop :=
  ∀ v, params.get key = some v → ∃ n, v.natural? = some n ∧ n < bound

/-- If there is a value under the key, it is an array of natural numbers. -/
def ListFits (params : Value) (key : String) : Prop :=
  ∀ v, params.get key = some v → ∃ items, v = .array items ∧
    ∀ item ∈ items, item.natural?.isSome = true

/-- Every number an instruction decodes fits its parameter. -/
def Instruction.NumbersFit (ins : Instruction) : Prop :=
  match ins.opcode with
  | .originCreate => ListFits ins.params "components" ∧
      NumberFits ins.params "nonce" (2 ^ 64) ∧ NumberFits ins.params "difficulty" (2 ^ 32)
  | .transfer => ListFits ins.params "amount"
  | .drain => NumberFits ins.params "basis_points" (2 ^ 16)
  | .project => ListFits ins.params "projected_components"
  | .reconstruct => ListFits ins.params "gains" ∧ ListFits ins.params "losses"
  | .certify => True
  | .query => True

/-- A parameter that is decoded by a cast to `bound` values carries what fits. -/
theorem carriesNumber_iff {params : Value} {key : String} {bound decoded : ℕ}
    (hdecoded : ∀ v n, params.get key = some v → v.natural? = some n → decoded = n % bound)
    (hbound : decoded < bound) :
    CarriesNumber params key decoded ↔ NumberFits params key bound := by
  constructor
  · intro h v hv
    exact ⟨decoded, h v hv, hbound⟩
  · intro h v hv
    obtain ⟨n, hn, hlt⟩ := h v hv
    rw [hn, hdecoded v n hv hn, Nat.mod_eq_of_lt hlt]

theorem paramU64_of_natural {params v : Value} {key : String} {n : ℕ} (default : UInt64)
    (hv : params.get key = some v) (hn : v.natural? = some n) :
    (paramU64 params key default).toNat = n := by
  rw [natural?_eq, Option.map_eq_some_iff] at hn
  obtain ⟨m, hm, rfl⟩ := hn
  rw [paramU64, hv, Option.bind_some, hm, Option.getD_some]

theorem paramU16_of_natural {params v : Value} {key : String} {n : ℕ} (default : UInt16)
    (hv : params.get key = some v) (hn : v.natural? = some n) :
    (paramU16 params key default).toNat = n % 2 ^ 16 := by
  rw [natural?_eq, Option.map_eq_some_iff] at hn
  obtain ⟨m, hm, rfl⟩ := hn
  rw [paramU16, hv, Option.bind_some, hm, Option.map_some, Option.getD_some,
    UInt64.toNat_toUInt16]

theorem natural?_lt {v : Value} {n : ℕ} (h : v.natural? = some n) : n < 2 ^ 64 := by
  rw [natural?_eq, Option.map_eq_some_iff] at h
  obtain ⟨m, _, rfl⟩ := h
  exact m.toNat_lt

/-- A list parameter carries the script's numbers exactly if they are all numbers. -/
theorem carriesNumbers_iff {params : Value} {key : String} :
    CarriesNumbers params key (paramU128Vec params key) ↔ ListFits params key := by
  refine forall₂_congr (fun v hv => exists_congr (fun items => and_congr_right ?_))
  rintro rfl
  have hdecoded : paramU128Vec params key =
      items.map (fun item => BitVec.ofNat 128 (item.asU64.getD 0).toNat) := by
    rw [paramU128Vec, hv]
    rfl
  rw [hdecoded, List.map_map]
  constructor
  · intro h item hitem
    have hsame := List.map_inj_left.mp h item hitem
    rw [hsame]
    rfl
  · intro h
    refine List.map_inj_left.mpr (fun item hitem => ?_)
    obtain ⟨n, hn⟩ := Option.isSome_iff_exists.mp (h item hitem)
    have hlt := natural?_lt hn
    rw [hn]
    rw [natural?_eq, Option.map_eq_some_iff] at hn
    obtain ⟨m, hm, rfl⟩ := hn
    simp only [Function.comp_apply, hm, Option.getD_some, BitVec.toNat_ofNat]
    rw [Nat.mod_eq_of_lt (by omega)]

/-- The call of an instruction carries the numbers of the script exactly if they fit. -/
theorem carries_iff_numbersFit {ins : Instruction} {c : Call} (h : ins.call = some c) :
    Carries ins.params c ↔ ins.NumbersFit := by
  obtain ⟨opcode, params⟩ := ins
  cases opcode with
  | originCreate =>
    obtain rfl := Option.some.inj h
    have hnonce := paramU64 params "nonce" 0
    refine and_congr carriesNumbers_iff (and_congr (carriesNumber_iff ?_ ?_)
      (carriesNumber_iff ?_ ?_))
    · intro v n hv hn
      rw [paramU64_of_natural 0 hv hn, Nat.mod_eq_of_lt (natural?_lt hn)]
    · exact UInt64.toNat_lt _
    · intro v n hv hn
      rw [UInt64.toNat_toUInt32, paramU64_of_natural 1 hv hn]
    · exact UInt32.toNat_lt _
  | transfer =>
    obtain rfl := Option.some.inj h
    exact carriesNumbers_iff
  | drain =>
    obtain rfl := Option.some.inj h
    exact carriesNumber_iff (fun v n hv hn => paramU16_of_natural 0 hv hn) (UInt16.toNat_lt _)
  | project =>
    obtain rfl := Option.some.inj h
    exact carriesNumbers_iff
  | reconstruct =>
    obtain rfl := Option.some.inj h
    exact and_congr carriesNumbers_iff carriesNumbers_iff
  | certify => exact iff_of_true (by obtain rfl := Option.some.inj h; trivial) trivial
  | query => cases h

/-- Every call a script makes carries the numbers of its instruction. -/
def PassesNumbers (env : Platform) (lib : ScriptLibrary) (now : ℕ → ℕ → UInt64) (script : String)
    (eng : KernelEngine) : Prop :=
  ∀ x ∈ executedOf env lib now script eng, ∀ c, x.1.call = some c → Carries x.1.params c

/-- The engine takes the steps of the script's calls and no others, and these carry the numbers
of the script exactly if every executed instruction decodes numbers that fit. -/
theorem script_passesNumbers_iff (env : Platform) (lib : ScriptLibrary) (now : ℕ → ℕ → UInt64)
    (script : String) (eng : KernelEngine) :
    ((executeScript env lib now script).exec eng).2 =
        runFrom (engineStep env) eng ((executedOf env lib now script eng).filterMap timedCall) ∧
      (PassesNumbers env lib now script eng ↔
        ∀ x ∈ executedOf env lib now script eng, x.1.NumbersFit) := by
  refine ⟨executeScript_run env lib now script eng, forall₂_congr (fun x _ => ?_)⟩
  cases hcall : x.1.call with
  | none =>
    obtain ⟨⟨opcode, params⟩, _⟩ := x
    refine iff_of_true (fun c hc => by cases hc) ?_
    cases opcode with
    | query => trivial
    | _ => cases hcall
  | some c =>
    rw [← carries_iff_numbersFit hcall]
    exact ⟨fun h => h c rfl, fun h c' hc' => Option.some.inj hc' ▸ h⟩

/-- Scripts pass their numbers faithfully. -/
def ScriptsPassNumbers : Prop :=
  ∀ (env : Platform) (lib : ScriptLibrary) (now : ℕ → ℕ → UInt64) (script : String)
    (eng : KernelEngine), PassesNumbers env lib now script eng

/-- The parameters of a drain by more than 2^16 basis points. -/
def wideDrainParams : Value :=
  .object [("basis_points", .ofU64 65537), ("vector_id", .string "a")]

/-- The script of this drain. -/
def wideDrainScript : String := "drain \x7b\"vector_id\":\"a\",\"basis_points\":65537\x7d"

/-- A reader that knows the text of these parameters. -/
def wideDrainLibrary : ScriptLibrary where
  toUppercase := toAsciiUppercase
  fromStr := fun text =>
    if text = "\x7b\"vector_id\":\"a\",\"basis_points\":65537\x7d" then .ok wideDrainParams
    else .error "expected value at line 1 column 1"
  vectorText := fun _ => "null"

theorem parseScript_wideDrain :
    parseScript wideDrainLibrary wideDrainScript = .ok [⟨.drain, wideDrainParams⟩] := by
  have hlines : ((lines wideDrainScript).map trim).filter isInstructionLine =
      [wideDrainScript] := by
    decide +kernel
  have hparts : splitnBlank wideDrainScript =
      ("drain", some "\x7b\"vector_id\":\"a\",\"basis_points\":65537\x7d") := by
    decide +kernel
  have hword : Opcode.ofWord (toAsciiUppercase "drain") = some .drain := by decide +kernel
  rw [parseScript, hlines, List.mapM_cons, parseInstruction, hparts]
  simp only [wideDrainLibrary, hword]
  rfl

/-- A drain by 65537 basis points is made as a drain by one. -/
theorem scriptsPassNumbers_fails : ¬ ScriptsPassNumbers := by
  intro h
  have hexecuted : (⟨.drain, wideDrainParams⟩, fun _ => 2) ∈ executedOf samplePlatform
      wideDrainLibrary (fun _ _ => 2) wideDrainScript (engineAfter samplePlatform oneVector) := by
    rw [executedOf, parseScript_wideDrain]
    exact List.mem_cons_self
  have hcarries := h samplePlatform wideDrainLibrary (fun _ _ => 2) wideDrainScript
    (engineAfter samplePlatform oneVector) _ hexecuted (.drain "a" 1) rfl
  exact absurd (hcarries (.ofU64 65537) rfl) (by decide)

end VKernelX
