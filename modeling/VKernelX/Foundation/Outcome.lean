/-
  Foundation/Outcome.lean --- results that can fail or panic, and procedures on a
  mutable state.

  A Rust function returning `Result<T, E>` ends in one of three ways: `Ok`, `Err`,
  or a panic.  `Outcome` keeps the three apart.  A method taking `&mut self` also
  changes its receiver, and every write made before an error stays made; `Proc` is
  that: the state comes back on every path.
-/
import Mathlib

set_option autoImplicit false

namespace VKernelX

/-- How a call that does not return `Ok` ends. -/
inductive Failure (ε : Type) where
  /-- the call returned `Err e` -/
  | err (e : ε)
  /-- the call panicked -/
  | panicked
  deriving DecidableEq, Repr

/-- The outcome of a call: `Ok`, `Err` or a panic. -/
abbrev Outcome (ε α : Type) : Type := Except (Failure ε) α

namespace Outcome

variable {ε ε' α β : Type}

/-- The call returned `Ok`. -/
def IsOk (r : Outcome ε α) : Prop := ∃ a, r = .ok a

/-- The call returned `Err`; a panic does not count. -/
def IsErr (r : Outcome ε α) : Prop := ∃ e, r = .error (.err e)

instance (r : Outcome ε α) : Decidable r.IsOk :=
  match r with
  | .ok a => isTrue ⟨a, rfl⟩
  | .error _ => isFalse (fun ⟨_, h⟩ => nomatch h)

instance (r : Outcome ε α) : Decidable r.IsErr :=
  match r with
  | .ok _ => isFalse (fun ⟨_, h⟩ => nomatch h)
  | .error (.err e) => isTrue ⟨e, rfl⟩
  | .error .panicked => isFalse (fun ⟨_, h⟩ => nomatch h)

@[simp] theorem isOk_ok (a : α) : IsOk (.ok a : Outcome ε α) := ⟨a, rfl⟩

@[simp] theorem not_isOk_error (f : Failure ε) : ¬ IsOk (.error f : Outcome ε α) := by
  rintro ⟨a, h⟩
  cases h

@[simp] theorem isErr_err (e : ε) : IsErr (.error (.err e) : Outcome ε α) := ⟨e, rfl⟩

@[simp] theorem not_isErr_ok (a : α) : ¬ IsErr (.ok a : Outcome ε α) := by
  rintro ⟨e, h⟩
  cases h

@[simp] theorem not_isErr_panicked : ¬ IsErr (.error .panicked : Outcome ε α) := by
  rintro ⟨e, h⟩
  cases h

/-- A failure is an `Err` at whatever type of result it is passed on. -/
theorem isErr_congr {r : Outcome ε α} {f : Failure ε} (hr : r = .error f) :
    r.IsErr ↔ IsErr (.error f : Outcome ε β) := by
  subst hr
  constructor
  · rintro ⟨e, h⟩
    exact ⟨e, congrArg _ (Except.error.inj h)⟩
  · rintro ⟨e, h⟩
    exact ⟨e, congrArg _ (Except.error.inj h)⟩

theorem IsErr.not_isOk {r : Outcome ε α} (h : r.IsErr) : ¬ r.IsOk := by
  obtain ⟨e, rfl⟩ := h
  simp

/-- Return `Err e`. -/
def fail (e : ε) : Outcome ε α := .error (.err e)

/-- A result that comes without a panic. -/
def ofResult : Except ε α → Outcome ε α
  | .ok a => .ok a
  | .error e => fail e

@[simp] theorem ofResult_eq_ok_iff {r : Except ε α} {a : α} :
    ofResult r = .ok a ↔ r = .ok a := by
  cases r <;> simp [ofResult, fail]

/-- `Result::map`. -/
def map (f : α → β) (r : Outcome ε α) : Outcome ε β := Except.map f r

/-- `Result::map_err`. -/
def mapErr (f : ε → ε') : Outcome ε α → Outcome ε' α
  | .ok a => .ok a
  | .error (.err e) => .error (.err (f e))
  | .error .panicked => .error .panicked

@[simp] theorem mapErr_eq_ok_iff {f : ε → ε'} {r : Outcome ε α} {a : α} :
    r.mapErr f = .ok a ↔ r = .ok a := by
  rcases r with (e | _) | b <;> simp [mapErr]

/-- `Option::ok_or_else`. -/
def okOr (e : ε) : Option α → Outcome ε α
  | some a => .ok a
  | none => fail e

@[simp] theorem okOr_eq_ok_iff {e : ε} {x : Option α} {a : α} :
    okOr e x = .ok a ↔ x = some a := by
  cases x <;> simp [okOr, fail]

/-- `Option::unwrap`. -/
def unwrap : Option α → Outcome ε α
  | some a => .ok a
  | none => .error .panicked

@[simp] theorem unwrap_eq_ok_iff {x : Option α} {a : α} :
    unwrap (ε := ε) x = .ok a ↔ x = some a := by
  cases x <;> simp [unwrap]

/-- A guard: `Err e` unless the condition holds. -/
def require (c : Prop) [Decidable c] (e : ε) : Outcome ε Unit :=
  if c then .ok () else fail e

@[simp] theorem require_eq_ok_iff {c : Prop} [Decidable c] {e : ε} {u : Unit} :
    require c e = .ok u ↔ c := by
  unfold require
  split <;> simp_all [fail]

theorem require_of {c : Prop} [Decidable c] {e : ε} (h : c) : require c e = .ok () :=
  if_pos h

theorem require_of_not {c : Prop} [Decidable c] {e : ε} (h : ¬ c) :
    require c e = .error (.err e) := if_neg h

@[simp] theorem isOk_require_iff {c : Prop} [Decidable c] {e : ε} :
    (require c e).IsOk ↔ c := by
  constructor
  · rintro ⟨_, h⟩
    exact require_eq_ok_iff.mp h
  · intro hc
    exact ⟨(), require_eq_ok_iff.mpr hc⟩

@[simp] theorem ok_bind (a : α) (f : α → Outcome ε β) :
    ((.ok a : Outcome ε α) >>= f) = f a := rfl

@[simp] theorem error_bind (e : Failure ε) (f : α → Outcome ε β) :
    ((.error e : Outcome ε α) >>= f) = .error e := rfl

@[simp] theorem isErr_map_iff {f : α → β} {r : Outcome ε α} : (r.map f).IsErr ↔ r.IsErr := by
  rcases r with (e | _) | a <;> simp [map, Except.map]

@[simp] theorem map_eq_ok_iff {f : α → β} {r : Outcome ε α} {b : β} :
    r.map f = .ok b ↔ ∃ a, r = .ok a ∧ f a = b := by
  cases r <;> simp [map, Except.map]

theorem bind_eq_ok_iff {x : Outcome ε α} {f : α → Outcome ε β} {b : β} :
    (x >>= f) = .ok b ↔ ∃ a, x = .ok a ∧ f a = .ok b := by
  cases x with
  | ok a =>
      constructor
      · intro h
        exact ⟨a, rfl, h⟩
      · rintro ⟨_, h, h'⟩
        cases h
        exact h'
  | error e =>
      constructor
      · intro h
        cases h
      · rintro ⟨_, h, _⟩
        cases h

/-! Calls that can panic but never return `Err`. -/

theorem not_isErr_bind {x : Outcome ε α} {f : α → Outcome ε β} (hx : ¬ x.IsErr)
    (hf : ∀ a, ¬ (f a).IsErr) : ¬ (x >>= f).IsErr := by
  rcases x with (e | _) | a
  · exact absurd (isErr_err e) hx
  · exact not_isErr_panicked
  · exact hf a

theorem not_isErr_unwrap (x : Option α) : ¬ (unwrap x : Outcome ε α).IsErr := by
  cases x <;> simp [unwrap]

theorem not_isErr_mapM {f : α → Outcome ε β} (hf : ∀ a, ¬ (f a).IsErr) (l : List α) :
    ¬ (l.mapM f).IsErr := by
  induction l with
  | nil => exact not_isErr_ok _
  | cons a l ih =>
    rw [List.mapM_cons]
    exact not_isErr_bind (hf a) (fun _ => not_isErr_bind ih (fun _ => not_isErr_ok _))

theorem not_isErr_foldlM {f : β → α → Outcome ε β} (hf : ∀ b a, ¬ (f b a).IsErr) (l : List α)
    (b : β) : ¬ (l.foldlM f b).IsErr := by
  induction l generalizing b with
  | nil => exact not_isErr_ok _
  | cons a l ih =>
    rw [List.foldlM_cons]
    exact not_isErr_bind (hf b a) (fun _ => ih _)

/-- A list is mapped if each of its items is. -/
theorem exists_mapM_ok {f : α → Outcome ε β} {l : List α} (h : ∀ a ∈ l, ∃ b, f a = .ok b) :
    ∃ bs, l.mapM f = .ok bs ∧ bs.length = l.length := by
  induction l with
  | nil => exact ⟨[], rfl, rfl⟩
  | cons a l ih =>
    obtain ⟨⟨b, hb⟩, hrest⟩ := List.forall_mem_cons.mp h
    obtain ⟨bs, hbs, hlength⟩ := ih hrest
    refine ⟨b :: bs, ?_, by rw [List.length_cons, List.length_cons, hlength]⟩
    rw [List.mapM_cons, hb, hbs]
    rfl

/-! Calls that do not panic. -/

/-- The call returned, with `Ok` or with `Err`. -/
def NoPanic (r : Outcome ε α) : Prop := r ≠ .error .panicked

theorem noPanic_ok (a : α) : NoPanic (.ok a : Outcome ε α) := nofun

theorem noPanic_fail (e : ε) : NoPanic (fail e : Outcome ε α) := nofun

theorem noPanic_require (c : Prop) [Decidable c] (e : ε) : (require c e).NoPanic := by
  unfold require
  split
  · exact noPanic_ok ()
  · exact noPanic_fail e

theorem noPanic_okOr (e : ε) (x : Option α) : (okOr e x).NoPanic := by
  cases x with
  | some a => exact noPanic_ok a
  | none => exact noPanic_fail e

theorem noPanic_mapErr_iff {f : ε → ε'} {r : Outcome ε α} : (r.mapErr f).NoPanic ↔ r.NoPanic := by
  rcases r with (e | _) | a <;> simp [mapErr, NoPanic]

theorem noPanic_ofResult (r : Except ε α) : (ofResult r).NoPanic := by
  rcases r with e | a
  · exact noPanic_fail e
  · exact noPanic_ok a

/-- What neither panicked nor went through returned `Err`. -/
theorem NoPanic.isErr {r : Outcome ε α} (h : r.NoPanic) (hok : ¬ r.IsOk) : r.IsErr := by
  rcases r with (e | _) | a
  · exact isErr_err e
  · exact absurd rfl h
  · exact absurd ⟨a, rfl⟩ hok

theorem noPanic_bind {x : Outcome ε α} {f : α → Outcome ε β} (hx : x.NoPanic)
    (hf : ∀ a, x = .ok a → (f a).NoPanic) : (x >>= f).NoPanic := by
  rcases x with (e | _) | a
  · exact noPanic_fail e
  · exact absurd rfl hx
  · exact hf a rfl

theorem noPanic_foldlM {f : β → α → Outcome ε β} {l : List α}
    (hf : ∀ a ∈ l, ∀ b, (f b a).NoPanic) (b : β) : (l.foldlM f b).NoPanic := by
  induction l generalizing b with
  | nil => exact noPanic_ok b
  | cons a l ih =>
    rw [List.foldlM_cons]
    exact noPanic_bind (hf a List.mem_cons_self b)
      (fun b' _ => ih (fun a' ha' => hf a' (List.mem_cons_of_mem a ha')) b')

theorem noPanic_mapM {f : α → Outcome ε β} (hf : ∀ a, (f a).NoPanic) (l : List α) :
    (l.mapM f).NoPanic := by
  induction l with
  | nil => exact noPanic_ok []
  | cons a l ih =>
    rw [List.mapM_cons]
    exact noPanic_bind (hf a) (fun _ _ => noPanic_bind ih (fun _ _ => noPanic_ok _))

/-- A loop whose steps can be swapped reaches its result from any order of its inputs. -/
theorem foldlM_perm {f : β → α → Outcome ε β}
    (hswap : ∀ b a a' c, (f b a >>= fun b' => f b' a') = .ok c →
      (f b a' >>= fun b' => f b' a) = .ok c)
    {l l' : List α} (hperm : l.Perm l') {b c : β} (h : l.foldlM f b = .ok c) :
    l'.foldlM f b = .ok c := by
  induction hperm generalizing b with
  | nil => exact h
  | cons a _ ih =>
    rw [List.foldlM_cons] at h ⊢
    obtain ⟨b', hb', hrest⟩ := bind_eq_ok_iff.mp h
    exact bind_eq_ok_iff.mpr ⟨b', hb', ih hrest⟩
  | swap a a' l =>
    simp only [List.foldlM_cons, ← bind_assoc] at h ⊢
    obtain ⟨b', hb', hrest⟩ := bind_eq_ok_iff.mp h
    exact bind_eq_ok_iff.mpr ⟨b', hswap _ _ _ _ hb', hrest⟩
  | trans _ _ ih ih' => exact ih' (ih h)

end Outcome

/-! ## Procedures on a mutable state -/

/-- A method on `&mut self` whose receiver has type `σ`.  The state is returned on
every path, so a write made before an error is still there after it. -/
abbrev Proc (σ ε α : Type) : Type := ExceptT (Failure ε) (StateM σ) α

namespace Proc

variable {σ ε α β : Type}

/-- Run a procedure: its outcome and the state it leaves. -/
def exec (x : Proc σ ε α) (s : σ) : Outcome ε α × σ := (ExceptT.run x).run s

/-- Lift an outcome that touches no state. -/
def lift (r : Outcome ε α) : Proc σ ε α := fun s => (r, s)

/-- Read the state. -/
def read (f : σ → α) : Proc σ ε α := fun s => (.ok (f s), s)

/-- Read the state through a fallible query. -/
def query (f : σ → Outcome ε α) : Proc σ ε α := fun s => (f s, s)

/-- Overwrite the state. -/
def write (f : σ → σ) : Proc σ ε Unit := fun s => (.ok (), f s)

/-- Overwrite the state, or fail and leave it alone. -/
def update (f : σ → Outcome ε σ) : Proc σ ε Unit := fun s =>
  match f s with
  | .ok s' => (.ok (), s')
  | .error e => (.error e, s)

@[simp] theorem exec_pure (a : α) (s : σ) : (pure a : Proc σ ε α).exec s = (.ok a, s) := rfl

@[simp] theorem exec_lift (r : Outcome ε α) (s : σ) : (lift r).exec s = (r, s) := rfl

@[simp] theorem exec_read (f : σ → α) (s : σ) :
    (read f : Proc σ ε α).exec s = (.ok (f s), s) := rfl

@[simp] theorem exec_query (f : σ → Outcome ε α) (s : σ) : (query f).exec s = (f s, s) := rfl

@[simp] theorem exec_write (f : σ → σ) (s : σ) :
    (write f : Proc σ ε Unit).exec s = (.ok (), f s) := rfl

theorem exec_update (f : σ → Outcome ε σ) (s : σ) :
    (update f).exec s =
      match f s with
      | .ok s' => (.ok (), s')
      | .error e => (.error e, s) := rfl

theorem exec_bind (x : Proc σ ε α) (f : α → Proc σ ε β) (s : σ) :
    (x >>= f).exec s =
      match x.exec s with
      | (.ok a, s') => (f a).exec s'
      | (.error e, s') => (.error e, s') := by
  show (ExceptT.run (x >>= f)).run s = _
  rw [ExceptT.run_bind, StateT.run_bind]
  cases h : (ExceptT.run x).run s with
  | mk r s' => cases r <;> simp [exec, h] <;> rfl

@[simp] theorem exec_map (f : α → β) (x : Proc σ ε α) (s : σ) :
    (f <$> x).exec s = ((x.exec s).1.map f, (x.exec s).2) := by
  rw [map_eq_pure_bind, exec_bind]
  rcases x.exec s with ⟨e | a, s'⟩ <;> rfl

/-! A sequence that begins with an elementary step, by the outcome of that step. -/

theorem exec_query_bind (q : σ → Outcome ε α) (f : α → Proc σ ε β) (s : σ) :
    (query q >>= f).exec s =
      match q s with
      | .ok a => (f a).exec s
      | .error e => (.error e, s) := by
  rw [exec_bind, exec_query]
  cases q s <;> rfl

theorem exec_read_bind (q : σ → α) (f : α → Proc σ ε β) (s : σ) :
    (read q >>= f).exec s = (f (q s)).exec s := by
  rw [exec_bind, exec_read]

theorem exec_lift_bind (r : Outcome ε α) (f : α → Proc σ ε β) (s : σ) :
    (lift r >>= f).exec s =
      match r with
      | .ok a => (f a).exec s
      | .error e => (.error e, s) := by
  rw [exec_bind, exec_lift]
  cases r <;> rfl

theorem exec_write_bind (w : σ → σ) (f : Unit → Proc σ ε β) (s : σ) :
    (write w >>= f).exec s = (f ()).exec (w s) := by
  rw [exec_bind, exec_write]

end Proc

end VKernelX
