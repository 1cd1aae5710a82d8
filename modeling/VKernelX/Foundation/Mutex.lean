/-
  Foundation/Mutex.lean --- calls on a state behind a mutex.

  A call locks the mutex, works on the state while the guard lives, and drops the guard at the
  end of its scope.  A mutex that is locked by the thread that holds it already does not let
  that thread go on, and a panic in a call that foreign code has made takes the whole process
  down.  In both cases there is no state afterwards, and no later call.
-/
import VKernelX.Foundation.Outcome

set_option autoImplicit false

namespace VKernelX

/-- A mutex and what it guards. -/
structure Mutex (σ : Type) where
  value : σ
  held : Bool

/-- How a call ends that does not return. -/
inductive Halt where
  /-- it waits for a mutex it holds itself -/
  | deadlocked
  /-- a panic aborts the process -/
  | aborted
  deriving DecidableEq, Repr

/-- What a lock does in a call that holds the mutex already: block for good, as a mutex that
is not reentrant does, or let the call through. -/
inductive Relock where
  | blocks
  | passes
  deriving DecidableEq, Repr

/-- A call on a state behind a mutex.  Only a call that returns leaves a state. -/
abbrev LockProc (σ α : Type) : Type := StateT (Mutex σ) (Except Halt) α

namespace LockProc

variable {σ α β ε : Type}

/-- Lock the mutex, run `body` and drop the guard. -/
def locking (relock : Relock) (body : LockProc σ α) : LockProc σ α := fun m =>
  if m.held = true ∧ relock = .blocks then .error .deadlocked
  else
    match body.run { m with held := true } with
    | .ok (a, m') => .ok (a, { m' with held := m.held })
    | .error halt => .error halt

/-- Look at the guarded state. -/
def peek : LockProc σ σ := fun m => .ok (m.value, m)

/-- Overwrite the guarded state. -/
def overwrite (f : σ → σ) : LockProc σ Unit := fun m => .ok ((), { m with value := f m.value })

/-- Run a fallible procedure on the guarded state.  Its `Err` is a value to go on with, its
panic is the end. -/
def guarded (x : Proc σ ε α) : LockProc σ (Except ε α) := fun m =>
  match x.exec m.value with
  | (.ok a, v) => .ok (.ok a, { m with value := v })
  | (.error (.err e), v) => .ok (.error e, { m with value := v })
  | (.error .panicked, _) => .error .aborted

/-! ## Running calls -/

theorem run_bind_eq_ok_iff {x : LockProc σ α} {f : α → LockProc σ β} {m m' : Mutex σ} {b : β} :
    (x >>= f).run m = .ok (b, m') ↔
      ∃ a mid, x.run m = .ok (a, mid) ∧ (f a).run mid = .ok (b, m') := by
  rw [StateT.run_bind]
  rcases x.run m with halt | ⟨a, mid⟩
  · exact iff_of_false nofun (fun ⟨_, _, h, _⟩ => nomatch h)
  · constructor
    · exact fun h => ⟨a, mid, rfl, h⟩
    · rintro ⟨_, _, h, hrest⟩
      cases h
      exact hrest

theorem run_bind_of_ok {x : LockProc σ α} {m mid : Mutex σ} {a : α} (h : x.run m = .ok (a, mid))
    (f : α → LockProc σ β) : (x >>= f).run m = (f a).run mid := by
  rw [StateT.run_bind, h]
  rfl

theorem run_pure_eq_ok_iff {a b : α} {m m' : Mutex σ} :
    (pure a : LockProc σ α).run m = .ok (b, m') ↔ a = b ∧ m = m' := by
  show Except.ok (a, m) = .ok (b, m') ↔ _
  simp

theorem run_locking_of_free (relock : Relock) (body : LockProc σ α) {m : Mutex σ}
    (hfree : m.held = false) :
    (locking relock body).run m =
      match body.run { m with held := true } with
      | .ok (a, m') => .ok (a, { m' with held := false })
      | .error halt => .error halt := by
  show locking relock body m = _
  rw [locking, if_neg (by simp [hfree]), hfree]

/-- Where a second lock passes, the guard that was there stays. -/
theorem run_locking_passes (body : LockProc σ α) (m : Mutex σ) :
    (locking .passes body).run m =
      match body.run { m with held := true } with
      | .ok (a, m') => .ok (a, { m' with held := m.held })
      | .error halt => .error halt := by
  show locking .passes body m = _
  rw [locking, if_neg (by simp)]

/-- A second lock in the same call blocks. -/
theorem run_locking_of_held (body : LockProc σ α) {m : Mutex σ} (hheld : m.held = true) :
    (locking .blocks body).run m = .error .deadlocked := by
  show locking .blocks body m = _
  rw [locking, if_pos ⟨hheld, rfl⟩]

theorem run_locking_eq_ok_iff {relock : Relock} {body : LockProc σ α} {m m' : Mutex σ} {a : α} :
    (locking relock body).run m = .ok (a, m') ↔
      ¬ (m.held = true ∧ relock = .blocks) ∧
        ∃ inner, body.run { m with held := true } = .ok (a, inner) ∧
          m' = { inner with held := m.held } := by
  show locking relock body m = _ ↔ _
  rw [locking]
  split
  · rename_i hblocked
    exact iff_of_false nofun (fun h => h.1 hblocked)
  · rename_i hpasses
    rcases body.run { m with held := true } with halt | ⟨b, inner⟩
    · exact iff_of_false nofun (fun ⟨_, _, h, _⟩ => nomatch h)
    · simp only [Except.ok.injEq, Prod.mk.injEq]
      constructor
      · rintro ⟨rfl, rfl⟩
        exact ⟨hpasses, inner, ⟨rfl, rfl⟩, rfl⟩
      · rintro ⟨_, _, ⟨rfl, rfl⟩, rfl⟩
        exact ⟨rfl, rfl⟩

theorem run_guarded (x : Proc σ ε α) (m : Mutex σ) :
    (guarded x).run m =
      match x.exec m.value with
      | (.ok a, v) => .ok (.ok a, { m with value := v })
      | (.error (.err e), v) => .ok (.error e, { m with value := v })
      | (.error .panicked, _) => .error .aborted := rfl

/-- Running a procedure on the guarded state does not touch the lock. -/
theorem run_guarded_bind (x : Proc σ ε α) (f : Except ε α → LockProc σ β) (m : Mutex σ) :
    (guarded x >>= f).run m =
      match x.exec m.value with
      | (.ok a, v) => (f (.ok a)).run { m with value := v }
      | (.error (.err e), v) => (f (.error e)).run { m with value := v }
      | (.error .panicked, _) => .error .aborted := by
  rw [StateT.run_bind, run_guarded]
  rcases x.exec m.value with ⟨(_ | _) | _, v⟩ <;> rfl

/-! ## Returning

A call that locks a mutex it holds never returns, nor does one that panics; nothing that comes
after is reached. -/

/-- What a call leaves behind, if it returns. -/
def after (x : LockProc σ α) (m : Mutex σ) : Option (Mutex σ) :=
  match x.run m with
  | .ok (_, m') => some m'
  | .error _ => none

theorem after_eq_some_iff {x : LockProc σ α} {m m' : Mutex σ} :
    x.after m = some m' ↔ ∃ a, x.run m = .ok (a, m') := by
  unfold after
  rcases x.run m with halt | ⟨a, mid⟩
  · exact iff_of_false nofun (fun ⟨_, h⟩ => nomatch h)
  · simp

/-- The call comes to its end. -/
def Returns (x : LockProc σ α) (m : Mutex σ) : Prop := ∃ a m', x.run m = .ok (a, m')

/-- The call comes to its end, and the mutex is free then. -/
def ReturnsFree (x : LockProc σ α) (m : Mutex σ) : Prop :=
  ∃ a m', x.run m = .ok (a, m') ∧ m'.held = false

theorem ReturnsFree.returns {x : LockProc σ α} {m : Mutex σ} (h : ReturnsFree x m) :
    Returns x m := by
  obtain ⟨a, m', hrun, _⟩ := h
  exact ⟨a, m', hrun⟩

theorem Returns.of_bind {x : LockProc σ α} {f : α → LockProc σ β} {m : Mutex σ}
    (h : Returns (x >>= f) m) : Returns x m := by
  obtain ⟨b, m', h⟩ := h
  obtain ⟨a, mid, hrun, _⟩ := run_bind_eq_ok_iff.mp h
  exact ⟨a, mid, hrun⟩

theorem not_returns_locking_of_held (body : LockProc σ α) {m : Mutex σ} (hheld : m.held = true) :
    ¬ Returns (locking .blocks body) m := by
  rintro ⟨a, m', h⟩
  rw [run_locking_of_held body hheld] at h
  cases h

/-- A lock of a free mutex comes to its end, with the mutex free, if what is done under it comes
to an end. -/
theorem returnsFree_locking_iff (relock : Relock) (body : LockProc σ α) {m : Mutex σ}
    (hfree : m.held = false) :
    ReturnsFree (locking relock body) m ↔ Returns body { m with held := true } := by
  rw [ReturnsFree, Returns, run_locking_of_free relock body hfree]
  rcases body.run { m with held := true } with halt | ⟨a, m'⟩
  · exact iff_of_false (fun ⟨_, _, h, _⟩ => nomatch h) (fun ⟨_, _, h⟩ => nomatch h)
  · exact iff_of_true ⟨a, _, rfl, rfl⟩ ⟨a, m', rfl⟩

/-- Where a second lock waits, a lock comes to its end if it is the first and what is done under
it comes to an end. -/
theorem returns_locking_iff (body : LockProc σ α) {m : Mutex σ} :
    Returns (locking .blocks body) m ↔ m.held = false ∧ Returns body { m with held := true } := by
  cases hheld : m.held with
  | true => exact iff_of_false (not_returns_locking_of_held body hheld) (fun h => nomatch h.1)
  | false =>
    rw [← returnsFree_locking_iff .blocks body hheld]
    refine ⟨fun ⟨a, m', h⟩ => ⟨rfl, a, m', h, ?_⟩, fun h => h.2.returns⟩
    obtain ⟨_, inner, _, rfl⟩ := run_locking_eq_ok_iff.mp h
    exact hheld

/-- If whatever comes next waits for the mutex, the call does not return. -/
theorem not_returns_guarded_bind {x : Proc σ ε α} {f : Except ε α → LockProc σ β} {m : Mutex σ}
    (hnext : ∀ r v, ¬ Returns (f r) { m with value := v }) : ¬ Returns (guarded x >>= f) m := by
  rintro ⟨b, m', h⟩
  obtain ⟨r, mid, hrun, hrest⟩ := run_bind_eq_ok_iff.mp h
  rw [run_guarded] at hrun
  rcases hexec : x.exec m.value with ⟨(e | _) | a, v⟩ <;> rw [hexec] at hrun <;> cases hrun
  · exact hnext (.error e) v ⟨b, m', hrest⟩
  · exact hnext (.ok a) v ⟨b, m', hrest⟩

/-! ## What calls keep -/

/-- A call that returns keeps a property of the guarded state, and leaves the lock as it was. -/
def Keeps (P : σ → Prop) (x : LockProc σ α) : Prop :=
  ∀ m a m', P m.value → x.run m = .ok (a, m') → P m'.value ∧ m'.held = m.held

section

variable {P : σ → Prop}

theorem keeps_pure (a : α) : Keeps P (pure a : LockProc σ α) := by
  intro m b m' h hrun
  obtain ⟨_, rfl⟩ := run_pure_eq_ok_iff.mp hrun
  exact ⟨h, rfl⟩

theorem keeps_throw (halt : Halt) : Keeps P (throw halt : LockProc σ α) :=
  fun _ _ _ _ hrun => nomatch hrun

theorem keeps_peek : Keeps P (peek : LockProc σ σ) := by
  intro m a m' h hrun
  cases hrun
  exact ⟨h, rfl⟩

theorem keeps_overwrite {f : σ → σ} (hf : ∀ v, P v → P (f v)) : Keeps P (overwrite f) := by
  intro m a m' h hrun
  cases hrun
  exact ⟨hf m.value h, rfl⟩

theorem Keeps.bind {x : LockProc σ α} {f : α → LockProc σ β} (hx : Keeps P x)
    (hf : ∀ a, Keeps P (f a)) : Keeps P (x >>= f) := by
  intro m b m' h hrun
  obtain ⟨a, mid, hfirst, hrest⟩ := run_bind_eq_ok_iff.mp hrun
  obtain ⟨hmid, hheld⟩ := hx m a mid h hfirst
  obtain ⟨hend, hheld'⟩ := hf a mid b m' hmid hrest
  exact ⟨hend, hheld'.trans hheld⟩

theorem keeps_guarded {x : Proc σ ε α} (hx : ∀ v, P v → P (x.exec v).2) :
    Keeps P (guarded x) := by
  intro m r m' h hrun
  have hvalue := hx m.value h
  rw [run_guarded] at hrun
  rcases hexec : x.exec m.value with ⟨(_ | _) | _, v⟩ <;> rw [hexec] at hvalue hrun <;>
    cases hrun <;> exact ⟨hvalue, rfl⟩

theorem keeps_locking {relock : Relock} {body : LockProc σ α} (hbody : Keeps P body) :
    Keeps P (locking relock body) := by
  intro m a m' h hrun
  obtain ⟨_, inner, hinner, rfl⟩ := run_locking_eq_ok_iff.mp hrun
  exact ⟨(hbody { m with held := true } a inner h hinner).1, rfl⟩

/-- A call that never returns keeps everything. -/
theorem keeps_of_not_returns {x : LockProc σ α} (h : ∀ m, ¬ Returns x m) : Keeps P x :=
  fun m a m' _ hrun => absurd ⟨a, m', hrun⟩ (h m)

end

end LockProc

end VKernelX
