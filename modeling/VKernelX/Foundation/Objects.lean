/-
  Foundation/Objects.lean --- names that hold references to objects which change in place.

  An object can be changed through any reference to it.  As long as no two names hold the
  same reference, a change made through one name is seen under that name alone, and the
  objects behave like a map of values.
-/
import VKernelX.Foundation.OrderedMap

set_option autoImplicit false

namespace VKernelX

open Std

/-- The objects made so far, by reference, and the references that names hold. -/
structure Objects (κ ο : Type) [Ord κ] where
  heap : List ο
  names : BTreeMap κ ℕ

namespace Objects

variable {κ ο : Type} [Ord κ]

/-- No object and no name. -/
def empty : Objects κ ο := { heap := [], names := ∅ }

variable (objs : Objects κ ο)

/-- Change the object behind a reference. -/
def modify (ref : ℕ) (f : ο → ο) : Objects κ ο := { objs with heap := objs.heap.modify ref f }

/-- Make an object; its reference is the number of objects made before it. -/
def alloc (obj : ο) : Objects κ ο := { objs with heap := objs.heap ++ [obj] }

variable [TransOrd κ]

/-- Let a name hold a reference. -/
def assign (name : κ) (ref : ℕ) : Objects κ ο :=
  { objs with names := objs.names.insert name ref }

/-- The object under a name. -/
def lookup (name : κ) : Option ο := (objs.names[name]?).bind (fun ref => objs.heap[ref]?)

/-- Every name leads to an object, and no two names to the same one. -/
structure Separate : Prop where
  inRange : ∀ (name : κ) (ref : ℕ), objs.names[name]? = some ref → ref < objs.heap.length
  injective : ∀ (name name' : κ) (ref : ℕ), objs.names[name]? = some ref →
    objs.names[name']? = some ref → name = name'

variable {objs}

theorem separate_empty : (empty : Objects κ ο).Separate := by
  refine ⟨?_, ?_⟩ <;> intros <;> simp_all [empty]

theorem Separate.modify (h : objs.Separate) (ref : ℕ) (f : ο → ο) :
    (objs.modify ref f).Separate := by
  refine ⟨fun name ref' hname => ?_, h.injective⟩
  rw [Objects.modify, List.length_modify]
  exact h.inRange name ref' hname

/-- A name that holds a reference leads to its object. -/
theorem Separate.lookup_eq (h : objs.Separate) {name : κ} {ref : ℕ}
    (hname : objs.names[name]? = some ref) :
    ∃ obj, objs.heap[ref]? = some obj ∧ objs.lookup name = some obj := by
  have hlt := h.inRange name ref hname
  exact ⟨objs.heap[ref], List.getElem?_eq_getElem hlt, by simp [lookup, hname, hlt]⟩

/-- A name is unknown exactly when it holds no reference. -/
theorem Separate.lookup_eq_none_iff (h : objs.Separate) {name : κ} :
    objs.lookup name = none ↔ objs.names[name]? = none := by
  cases hname : objs.names[name]? with
  | none => simp [lookup, hname]
  | some ref =>
    obtain ⟨obj, _, hobj⟩ := h.lookup_eq hname
    simp [hobj]

variable [DecidableEq κ]

/-- A change made through a name is seen under that name alone. -/
theorem Separate.lookup_modify (h : objs.Separate) {name : κ} {ref : ℕ}
    (hname : objs.names[name]? = some ref) (f : ο → ο) (name' : κ) :
    (objs.modify ref f).lookup name' =
      if name = name' then (objs.lookup name').map f else objs.lookup name' := by
  simp only [lookup, Objects.modify]
  by_cases heq : name = name'
  · subst heq
    rw [if_pos rfl, hname, Option.bind_some, Option.bind_some, List.getElem?_modify_eq]
    rfl
  · rw [if_neg heq]
    cases hname' : objs.names[name']? with
    | none => rfl
    | some ref' =>
      have hne : ref ≠ ref' := by
        rintro rfl
        exact heq (h.injective name name' ref hname hname')
      rw [Option.bind_some, Option.bind_some, List.getElem?_modify_ne _ _ hne]

variable [LawfulEqOrd κ]

/-- Letting a name hold the reference it holds changes nothing. -/
theorem assign_self {name : κ} {ref : ℕ} (hname : objs.names[name]? = some ref) :
    objs.assign name ref = objs := by
  have hnames : objs.names.insert name ref = objs.names := by
    apply ExtTreeMap.ext_getElem?
    intro name'
    rw [BTreeMap.lookup_insert]
    by_cases heq : name = name'
    · rw [if_pos heq, ← heq, hname]
    · rw [if_neg heq]
  rw [assign, hnames]

/-- A new object under a name: nothing changes under the others. -/
theorem Separate.lookup_assign_alloc (h : objs.Separate) (name : κ) (obj : ο) (name' : κ) :
    ((objs.alloc obj).assign name objs.heap.length).lookup name' =
      if name = name' then some obj else objs.lookup name' := by
  simp only [lookup, assign, alloc, BTreeMap.lookup_insert]
  by_cases heq : name = name'
  · simp [heq]
  · rw [if_neg heq, if_neg heq]
    cases hname' : objs.names[name']? with
    | none => rfl
    | some ref =>
      rw [Option.bind_some, Option.bind_some,
        List.getElem?_append_left (h.inRange name' ref hname')]

theorem Separate.assign_alloc (h : objs.Separate) (name : κ) (obj : ο) :
    ((objs.alloc obj).assign name objs.heap.length).Separate := by
  have hcases : ∀ (name' : κ) (ref : ℕ), ((objs.alloc obj).assign name
      objs.heap.length).names[name']? = some ref →
      (name = name' ∧ ref = objs.heap.length) ∨ objs.names[name']? = some ref := by
    intro name' ref hname'
    simp only [assign, alloc, BTreeMap.lookup_insert] at hname'
    split at hname'
    · rename_i heq
      exact Or.inl ⟨heq, (Option.some.inj hname').symm⟩
    · exact Or.inr hname'
  refine ⟨fun name' ref hname' => ?_, fun name₁ name₂ ref h₁ h₂ => ?_⟩
  · simp only [assign, alloc, List.length_append, List.length_singleton]
    rcases hcases name' ref hname' with ⟨_, rfl⟩ | hold
    · omega
    · have := h.inRange name' ref hold
      omega
  · rcases hcases name₁ ref h₁ with ⟨rfl, rfl⟩ | hold₁ <;>
      rcases hcases name₂ _ h₂ with ⟨rfl, href⟩ | hold₂
    · rfl
    · exact absurd (h.inRange name₂ _ hold₂) (Nat.lt_irrefl _)
    · have := h.inRange name₁ ref hold₁
      omega
    · exact h.injective name₁ name₂ ref hold₁ hold₂

end Objects

end VKernelX
