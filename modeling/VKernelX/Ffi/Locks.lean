/-
  Ffi/Locks.lean --- which calls come back with the handle free.

  `set_last_error` and `clear_last_error` lock the handle.  An entry point that notes or clears
  an error before its own guard is dropped waits for itself, and one that panics aborts.  A
  request that is carried out clears the error under its guard; one that is turned down, or
  whose replay fails, does not.
-/
import VKernelX.Ffi.Requests
import VKernelX.Replay.Recorded

set_option autoImplicit false

namespace VKernelX

open LockProc

/-! ## The error helpers -/

section

variable {m : KernelHandle}

theorem not_returns_writeLastError (hheld : m.held = true) (lastError : Option String) :
    ¬ Returns (writeLastError .blocks lastError) m :=
  not_returns_locking_of_held _ hheld

theorem not_returns_clearLastError_bind (hheld : m.held = true) {α : Type}
    (f : Unit → HandleProc α) : ¬ Returns (clearLastError .blocks >>= f) m :=
  fun h => not_returns_writeLastError hheld none h.of_bind

theorem not_returns_failWith (hheld : m.held = true) (msg : String) :
    ¬ Returns (failWith .blocks msg) m :=
  fun h => not_returns_writeLastError hheld (some msg) h.of_bind

/-- On a free mutex the last error is written. -/
theorem run_writeLastError (relock : Relock) (hfree : m.held = false)
    (lastError : Option String) :
    (writeLastError relock lastError).run m =
      .ok ((), { m with value := { m.value with lastError := lastError } }) := by
  obtain ⟨value, held⟩ := m
  obtain rfl : held = false := hfree
  rw [writeLastError, run_locking_of_free relock _ rfl]
  rfl

theorem returnsFree_writeLastError_bind (hfree : m.held = false) (lastError : Option String)
    {α : Type} (a : α) :
    ReturnsFree (writeLastError .blocks lastError >>= fun _ => pure a) m := by
  refine ⟨a, { m with value := { m.value with lastError := lastError } }, ?_, hfree⟩
  rw [run_bind_of_ok (run_writeLastError .blocks hfree lastError)]
  rfl

theorem returnsFree_failWith (hfree : m.held = false) (msg : String) :
    ReturnsFree (failWith .blocks msg) m :=
  returnsFree_writeLastError_bind hfree (some msg) _

/-! ## The frames of an entry point -/

/-- An input that cannot be read is safe; otherwise it depends on what comes next. -/
theorem returnsFree_withInput_iff (hfree : m.held = false) {α : Type} (input : Except String α)
    (body : α → HandleProc FfiReply) :
    ReturnsFree (withInput .blocks input body) m ↔
      ∀ a, input = .ok a → ReturnsFree (body a) m := by
  cases input with
  | error e => exact iff_of_true (returnsFree_failWith hfree e) nofun
  | ok a =>
    refine ⟨?_, fun h => h a rfl⟩
    rintro h _ ⟨⟩
    exact h

theorem mapError_eq_ok_iff {ε ε' α : Type} {f : ε → ε'} {r : Except ε α} {a : α} :
    r.mapError f = .ok a ↔ r = .ok a := by
  cases r <;> simp [Except.mapError]

/-- An input that is read, and then leads to a call that does not return. -/
theorem returnsFree_reader_iff (hfree : m.held = false) {α : Type} (reader : Reader α)
    (label : String) (body : α → HandleProc FfiReply) (hbody : ∀ a, ¬ Returns (body a) m)
    (input : Except String String) :
    ReturnsFree (withInput .blocks input fun text =>
        withInput .blocks ((reader.fromStr text).mapError (fun e => label ++ e)) body) m ↔
      ∀ text, input = .ok text → ¬ ∃ a, reader.fromStr text = .ok a := by
  rw [returnsFree_withInput_iff hfree]
  refine forall₂_congr (fun text _ => ?_)
  rw [returnsFree_withInput_iff hfree, not_exists]
  refine forall_congr' (fun a => ?_)
  rw [mapError_eq_ok_iff]
  exact ⟨fun h hread => hbody a (h hread).returns, fun h hread => absurd hread h⟩

/-- A body that clears the error first waits. -/
theorem not_returns_of_clears (body : KernelInner → HandleProc FfiReply) :
    ¬ Returns (withInner .blocks do
      let inner ← peek
      clearLastError .blocks
      body inner) m := by
  rw [withInner, returns_locking_iff]
  rintro ⟨_, a, m', h⟩
  obtain ⟨inner, mid, hpeek, hrest⟩ := run_bind_eq_ok_iff.mp h
  cases hpeek
  exact not_returns_clearLastError_bind rfl _ ⟨a, m', hrest⟩

theorem not_returns_kernelQueryVectors : ¬ Returns (kernelQueryVectors .blocks) m :=
  not_returns_of_clears _

theorem not_returns_kernelQueryRecords : ¬ Returns (kernelQueryRecords .blocks) m :=
  not_returns_of_clears _

/-- A body that runs something and then notes or clears the error waits, or aborts. -/
theorem not_returns_of_guarded {ε α : Type} (x : Proc KernelInner ε α)
    (body : Except ε α → HandleProc FfiReply)
    (hbody : ∀ r m', m'.held = true → ¬ Returns (body r) m') :
    ¬ Returns (withInner .blocks (guarded x >>= body)) m := by
  rw [withInner, returns_locking_iff]
  exact fun h => not_returns_guarded_bind (fun r v => hbody r _ rfl) h.2

variable (env : Platform) (serde : Serde)

theorem not_returns_operation (x : Proc KernelInner String OperationReply) :
    ¬ Returns (withInner .blocks do
      match ← guarded x with
      | .ok result => do
          clearLastError .blocks
          return .operation result
      | .error e => failWith .blocks e) m := by
  refine not_returns_of_guarded _ _ ?_
  rintro (e | result) m' hheld
  · exact not_returns_failWith hheld e
  · exact not_returns_clearLastError_bind hheld _

/-- An operation that stands alone comes back only if its input is not read. -/
theorem returnsFree_kernelOperation_iff (hfree : m.held = false) (op : Operation)
    (now : ℕ → UInt64) (input : Except String String) :
    ReturnsFree (kernelOperation .blocks env op now input) m ↔
      ∀ text, input = .ok text → ¬ ∃ call, op.reader.fromStr text = .ok call :=
  returnsFree_reader_iff hfree op.reader _ _ (fun _ => not_returns_operation _) input

theorem not_returns_kernelReplay : ¬ Returns (kernelReplay .blocks env) m := by
  refine not_returns_of_guarded _ _ ?_
  rintro (e | summary) m' hheld
  · exact fun h => not_returns_writeLastError hheld (some e) h.of_bind
  · exact not_returns_clearLastError_bind hheld _

theorem returnsFree_kernelComputeStateRoot (hfree : m.held = false) :
    ReturnsFree (kernelComputeStateRoot .blocks env) m := by
  rw [kernelComputeStateRoot, withInner, returnsFree_locking_iff _ _ hfree]
  exact ⟨_, _, rfl⟩

theorem returnsFree_kernelVerifyRecord (hfree : m.held = false) (input : Except String String) :
    ReturnsFree (kernelVerifyRecord .blocks env serde input) m := by
  refine (returnsFree_withInput_iff hfree _ _).mpr (fun text _ => ?_)
  refine (returnsFree_withInput_iff hfree _ _).mpr (fun e _ => ?_)
  dsimp only
  split
  · exact returnsFree_writeLastError_bind hfree none _
  · exact returnsFree_failWith hfree _

/-! ## Submitting -/

/-- Where a second lock waits, a submit request that is carried out is never answered: it
clears the error under its own guard. -/
theorem run_executeSubmitRequest_blocks (hfree : m.held = false) (now : ℕ → UInt64)
    (request : SubmitEventRequest) :
    (executeSubmitRequest .blocks env serde now request).run m =
      match (submitOperation env serde now request).exec m.value with
      | (.ok _, _) => .error .deadlocked
      | (.error (.err e), v) => .ok (.error e, { m with value := v })
      | (.error .panicked, _) => .error .aborted := by
  obtain ⟨value, held⟩ := m
  obtain rfl : held = false := hfree
  rw [executeSubmitRequest, run_locking_of_free .blocks _ rfl, run_guarded_bind]
  rcases (submitOperation env serde now request).exec value with ⟨(e | _) | result, v⟩ <;> rfl

/-- Going on with an error after a submit request: the request has to end with one. -/
theorem returnsFree_executeSubmitRequest_bind (hfree : m.held = false) (now : ℕ → UInt64)
    (request : SubmitEventRequest) (onReply : SubmitReply → HandleProc FfiReply) :
    ReturnsFree (executeSubmitRequest .blocks env serde now request >>= fun r =>
        match r with
        | .ok reply => onReply reply
        | .error e => failWith .blocks e) m ↔
      ((submitOperation env serde now request).exec m.value).1.IsErr := by
  rw [ReturnsFree, StateT.run_bind, run_executeSubmitRequest_blocks env serde hfree]
  rcases (submitOperation env serde now request).exec m.value with ⟨(e | _) | result, v⟩
  · refine iff_of_true ?_ (Outcome.isErr_err e)
    exact @returnsFree_failWith { m with value := v } hfree e
  · refine iff_of_false ?_ Outcome.not_isErr_panicked
    rintro ⟨_, _, ⟨⟩, _⟩
  · refine iff_of_false ?_ (Outcome.not_isErr_ok _)
    rintro ⟨_, _, ⟨⟩, _⟩

/-- The loop over requests comes no further than the first one. -/
theorem returnsFree_executeRequests_iff (hfree : m.held = false)
    (requests : List (SubmitEventRequest × (ℕ → UInt64))) (results : List SubmitReply) :
    ReturnsFree (executeRequests .blocks env serde requests results) m ↔
      ∀ r ∈ requests.head?, ((submitOperation env serde r.2 r.1).exec m.value).1.IsErr := by
  cases requests with
  | nil => exact iff_of_true (returnsFree_writeLastError_bind hfree none _) nofun
  | cons r rest =>
    simp only [executeRequests, List.head?_cons, Option.mem_some_iff, forall_eq']
    exact returnsFree_executeSubmitRequest_bind env serde hfree r.2 r.1 _

end

end VKernelX
