/-
  Script/Compose.lean --- scripts one after the other.

  A line of a script says the same wherever it stands, so the instructions of two scripts joined
  by a line feed are those of both.  The joined script is read before anything of it is executed;
  after that it is executed as the two scripts are, one after the other.
-/
import VKernelX.Model.Interpreter

set_option autoImplicit false

namespace VKernelX

variable {env : Platform} {lib : ScriptLibrary}

/-! ## Reading -/

/-- The instructions of a joined script. -/
theorem parseScript_join (s t : String) :
    parseScript lib (s ++ "\n" ++ t) = (do
      let first ← parseScript lib s
      let second ← parseScript lib t
      return first ++ second) := by
  simp only [parseScript]
  rw [filter_trim_lines_join (by decide), List.mapM_append]

theorem parseScript_join_eq_ok_iff {s t : String} {instructions : List Instruction} :
    parseScript lib (s ++ "\n" ++ t) = .ok instructions ↔
      ∃ first second, parseScript lib s = .ok first ∧ parseScript lib t = .ok second ∧
        instructions = first ++ second := by
  rw [parseScript_join]
  simp only [Outcome.bind_eq_ok_iff]
  constructor
  · rintro ⟨first, hfirst, second, hsecond, heq⟩
    exact ⟨first, second, hfirst, hsecond, (Except.ok.inj heq).symm⟩
  · rintro ⟨first, second, hfirst, hsecond, rfl⟩
    exact ⟨first, hfirst, second, hsecond, rfl⟩

theorem noPanic_parseInstruction (line : String) : (parseInstruction lib line).NoPanic :=
  Outcome.noPanic_bind (Outcome.noPanic_okOr _ _) (fun _ _ =>
    Outcome.noPanic_bind (Outcome.noPanic_mapErr_iff.mpr (Outcome.noPanic_ofResult _))
      (fun _ _ => Outcome.noPanic_ok _))

/-- Reading never panics. -/
theorem noPanic_parseScript (script : String) : (parseScript lib script).NoPanic :=
  Outcome.noPanic_mapM noPanic_parseInstruction _

/-! ## Executing -/

/-- Instructions are executed one list after the other. -/
theorem executeInstructions_append (now : ℕ → ℕ → UInt64) (first second : List Instruction)
    (results : List String) :
    executeInstructions env lib now (first ++ second) results = (do
      let results ← executeInstructions env lib now first results
      executeInstructions env lib (fun k => now (k + first.length)) second results) := by
  induction first generalizing now results with
  | nil => simp [executeInstructions]
  | cons ins first ih =>
    simp only [List.cons_append, executeInstructions, bind_assoc]
    congr 1
    funext result
    rw [ih]
    simp only [List.length_cons, Nat.add_assoc]

/-- The results are appended to what is there. -/
theorem executeInstructions_results (now : ℕ → ℕ → UInt64) (instructions : List Instruction)
    (results : List String) :
    executeInstructions env lib now instructions results =
      (fun more => results ++ more) <$> executeInstructions env lib now instructions [] := by
  induction instructions generalizing now results with
  | nil => simp [executeInstructions]
  | cons ins instructions ih =>
    simp only [executeInstructions, map_bind]
    congr 1
    funext result
    rw [ih _ (results ++ [result]), ih _ ([] ++ [result])]
    simp [Functor.map_map]

/-- A script that is read executes its instructions. -/
theorem executeScript_of_parse {script : String} {instructions : List Instruction}
    (h : parseScript lib script = .ok instructions) (now : ℕ → ℕ → UInt64) (eng : KernelEngine) :
    (executeScript env lib now script).exec eng =
      (executeInstructions env lib now instructions []).exec eng := by
  rw [executeScript, Proc.exec_lift_bind, h]

/-- A script that cannot be read fails before it touches the engine. -/
theorem executeScript_of_parse_isErr {script : String} (h : ¬ (parseScript lib script).IsOk)
    (now : ℕ → ℕ → UInt64) (eng : KernelEngine) :
    ∃ e, (executeScript env lib now script).exec eng = (.error (.err e), eng) := by
  obtain ⟨e, he⟩ := (noPanic_parseScript script).isErr h
  refine ⟨e, ?_⟩
  rw [executeScript, Proc.exec_lift_bind, he]

/-- One script and then, if it returned `Ok`, another, with the results of both. -/
def executeBoth (first second : EngineProc (List String)) (eng : KernelEngine) :
    Outcome KernelXError (List String) × KernelEngine :=
  match first.exec eng with
  | (.ok results, eng') => (((second.exec eng').1).map (results ++ ·), (second.exec eng').2)
  | (.error f, eng') => (.error f, eng')

/-- Two scripts joined by a line feed: the joined script is read exactly if both are, and gives
the instructions of both; if one is not read, the engine is untouched; and if both are, the
joined script does what the two do one after the other, the second with the readings of the
clock that the first has left. -/
theorem scripts_compose (env : Platform) (lib : ScriptLibrary) (s t : String) :
    (∀ instructions, parseScript lib (s ++ "\n" ++ t) = .ok instructions ↔
      ∃ first second, parseScript lib s = .ok first ∧ parseScript lib t = .ok second ∧
        instructions = first ++ second) ∧
    ∀ (now : ℕ → ℕ → UInt64) (eng : KernelEngine),
      (¬ ((parseScript lib s).IsOk ∧ (parseScript lib t).IsOk) →
        ∃ e, (executeScript env lib now (s ++ "\n" ++ t)).exec eng = (.error (.err e), eng)) ∧
      ∀ first second, parseScript lib s = .ok first → parseScript lib t = .ok second →
        (executeScript env lib now (s ++ "\n" ++ t)).exec eng =
          executeBoth (executeScript env lib now s)
            (executeScript env lib (fun k => now (k + first.length)) t) eng := by
  refine ⟨fun _ => parseScript_join_eq_ok_iff, fun now eng => ⟨fun h => ?_, ?_⟩⟩
  · refine executeScript_of_parse_isErr (fun hok => h ?_) now eng
    obtain ⟨instructions, hok⟩ := hok
    obtain ⟨first, second, hfirst, hsecond, _⟩ := parseScript_join_eq_ok_iff.mp hok
    exact ⟨⟨first, hfirst⟩, ⟨second, hsecond⟩⟩
  · intro first second hfirst hsecond
    have hjoin := parseScript_join_eq_ok_iff.mpr ⟨first, second, hfirst, hsecond, rfl⟩
    rw [executeScript_of_parse hjoin, executeBoth, executeScript_of_parse hfirst,
      executeInstructions_append, Proc.exec_bind]
    rcases (executeInstructions env lib now first []).exec eng with ⟨_ | results, eng'⟩
    · rfl
    · dsimp only
      rw [executeScript_of_parse hsecond, executeInstructions_results, Proc.exec_map]

end VKernelX
