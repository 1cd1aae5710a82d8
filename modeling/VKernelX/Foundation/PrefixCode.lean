/-
  Foundation/PrefixCode.lean --- self-delimiting encodings.

  A prefix code is a writer whose output can be followed by anything and still tells what was
  written and where it ends.  Such writers can be put one after the other: a record is peeled
  field by field, and a list is read off once its length is known.
-/
import Mathlib

set_option autoImplicit false

namespace VKernelX

variable {α β γ σ : Type}

/-- On the values that fit, what was written is determined by any continuation of it, and so
is the rest. -/
def PrefixCode (Fits : α → Prop) (write : α → List σ) : Prop :=
  ∀ a b rest rest', Fits a → Fits b → write a ++ rest = write b ++ rest' → a = b ∧ rest = rest'

namespace PrefixCode

variable {F : α → Prop} {f : α → List σ} {G : β → Prop} {g : β → List σ}

/-- A prefix code is one-to-one. -/
theorem eq_of_write_eq (h : PrefixCode F f) {a b : α} (ha : F a) (hb : F b) (heq : f a = f b) :
    a = b := (h a b [] [] ha hb (by rw [heq])).1

/-- A one-to-one writer of a fixed width is a prefix code. -/
theorem of_width {w : ℕ} (hwidth : ∀ a, (f a).length = w)
    (hinj : ∀ a b, F a → F b → f a = f b → a = b) : PrefixCode F f := by
  intro a b rest rest' ha hb heq
  obtain ⟨hwrite, hrest⟩ := List.append_inj heq ((hwidth a).trans (hwidth b).symm)
  exact ⟨hinj a b ha hb hwrite, hrest⟩

/-- Fewer values fit. -/
theorem mono (h : PrefixCode F f) {F' : α → Prop} (hF : ∀ a, F' a → F a) : PrefixCode F' f :=
  fun a b rest rest' ha hb heq => h a b rest rest' (hF a ha) (hF b hb) heq

/-- Write a value through a faithful view of it. -/
theorem comap (h : PrefixCode F f) (view : β → α) (hview : Function.Injective view) :
    PrefixCode (fun b => F (view b)) (fun b => f (view b)) := by
  intro a b rest rest' ha hb heq
  obtain ⟨hsame, hrest⟩ := h _ _ rest rest' ha hb heq
  exact ⟨hview hsame, hrest⟩

/-- Two values one after the other. -/
theorem pair (hf : PrefixCode F f) (hg : PrefixCode G g) :
    PrefixCode (fun p : α × β => F p.1 ∧ G p.2) (fun p => f p.1 ++ g p.2) := by
  rintro ⟨a, b⟩ ⟨a', b'⟩ rest rest' ⟨ha, hb⟩ ⟨ha', hb'⟩ heq
  simp only [List.append_assoc] at heq
  obtain ⟨hfirst, htail⟩ := hf _ _ _ _ ha ha' heq
  obtain ⟨hsecond, hrest⟩ := hg _ _ _ _ hb hb' htail
  exact ⟨Prod.ext hfirst hsecond, hrest⟩

/-- Values one after the other, of which there are as many on both sides. -/
theorem flatMap (hf : PrefixCode F f) {l l' : List α} {rest rest' : List σ}
    (hl : ∀ a ∈ l, F a) (hl' : ∀ a ∈ l', F a) (hlength : l.length = l'.length)
    (heq : l.flatMap f ++ rest = l'.flatMap f ++ rest') : l = l' ∧ rest = rest' := by
  induction l generalizing l' with
  | nil =>
    obtain rfl := List.length_eq_zero_iff.mp hlength.symm
    exact ⟨rfl, heq⟩
  | cons a l ih =>
    obtain ⟨a', l', rfl⟩ := List.exists_cons_of_length_eq_add_one hlength.symm
    obtain ⟨ha, hl⟩ := List.forall_mem_cons.mp hl
    obtain ⟨ha', hl'⟩ := List.forall_mem_cons.mp hl'
    simp only [List.flatMap_cons, List.append_assoc] at heq
    obtain ⟨hhead, htail⟩ := hf _ _ _ _ ha ha' heq
    obtain ⟨hlist, hrest⟩ := ih hl hl' (by simpa using hlength) htail
    exact ⟨by rw [hhead, hlist], hrest⟩

/-- A list after its length. -/
theorem counted {C : ℕ → Prop} {count : ℕ → List σ} (hcount : PrefixCode C count)
    (hf : PrefixCode F f) :
    PrefixCode (fun l : List α => C l.length ∧ ∀ a ∈ l, F a)
      (fun l => count l.length ++ l.flatMap f) := by
  rintro l l' rest rest' ⟨hlength, hl⟩ ⟨hlength', hl'⟩ heq
  simp only [List.append_assoc] at heq
  obtain ⟨hsame, heq⟩ := hcount _ _ _ _ hlength hlength' heq
  exact hf.flatMap hl hl' hsame heq

/-- Values up to an end mark with which none of them begins. -/
theorem terminated {stop : List σ} (hf : PrefixCode F f)
    (hstop : ∀ a rest rest', F a → f a ++ rest ≠ stop ++ rest') :
    PrefixCode (fun l : List α => ∀ a ∈ l, F a) (fun l => l.flatMap f ++ stop) := by
  intro l
  induction l with
  | nil =>
    rintro (_ | ⟨a', l'⟩) rest rest' _ hl' heq
    · exact ⟨rfl, List.append_cancel_left heq⟩
    · simp only [List.flatMap_nil, List.nil_append, List.flatMap_cons, List.append_assoc] at heq
      exact absurd heq.symm (hstop a' _ _ (hl' a' List.mem_cons_self))
  | cons a l ih =>
    rintro (_ | ⟨a', l'⟩) rest rest' hl hl' heq
    · simp only [List.flatMap_nil, List.nil_append, List.flatMap_cons, List.append_assoc] at heq
      exact absurd heq (hstop a _ _ (hl a List.mem_cons_self))
    · obtain ⟨ha, hl⟩ := List.forall_mem_cons.mp hl
      obtain ⟨ha', hl'⟩ := List.forall_mem_cons.mp hl'
      simp only [List.flatMap_cons, List.append_assoc] at heq
      obtain ⟨hhead, htail⟩ := hf _ _ _ _ ha ha' heq
      obtain ⟨hlist, hrest⟩ := ih l' rest rest' hl hl'
        (by simpa only [List.append_assoc] using htail)
      exact ⟨by rw [hhead, hlist], hrest⟩

/-- An optional value after a mark that says whether it is there. -/
theorem option {yes no : List σ} (hf : PrefixCode F f)
    (hmark : ∀ rest rest', yes ++ rest ≠ no ++ rest') :
    PrefixCode (fun o : Option α => ∀ a ∈ o, F a)
      (fun o => match o with
        | some a => yes ++ f a
        | none => no) := by
  rintro (_ | a) (_ | b) rest rest' ha hb heq
  · exact ⟨rfl, List.append_cancel_left heq⟩
  · rw [List.append_assoc] at heq
    exact absurd heq.symm (hmark _ _)
  · rw [List.append_assoc] at heq
    exact absurd heq (hmark _ _)
  · simp only [List.append_assoc, List.append_cancel_left_eq] at heq
    obtain ⟨rfl, hrest⟩ := hf _ _ _ _ (ha a rfl) (hb b rfl) heq
    exact ⟨rfl, hrest⟩

end PrefixCode

end VKernelX
