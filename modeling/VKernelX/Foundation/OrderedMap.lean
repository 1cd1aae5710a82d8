/-
  Foundation/OrderedMap.lean --- ordered maps.

  `BTreeMap` is the extensional tree map of the standard library at the key type's
  own comparison: two maps with the same lookups are equal, and `toList` is the
  iteration order of the source's maps.  This file adds what the developments over it
  use about the entry list of a map: how one insertion changes it, up to order.
-/
import Mathlib

set_option autoImplicit false

namespace VKernelX

open Std

/-- A map iterated in key order. -/
abbrev BTreeMap (α β : Type) [Ord α] : Type := ExtTreeMap α β compare

namespace BTreeMap

variable {α β : Type} [Ord α] [TransOrd α]

/-- The values in key order. -/
def values (m : BTreeMap α β) : List β := m.toList.map Prod.snd

@[simp] theorem values_empty : values (∅ : BTreeMap α β) = [] := rfl

theorem length_values (m : BTreeMap α β) : (values m).length = m.size := by
  rw [values, List.length_map, ExtTreeMap.length_toList]

/-- The size grows by one exactly at a fresh key. -/
theorem size_insert_eq_succ_iff {m : BTreeMap α β} {k : α} {v : β} :
    (m.insert k v).size = m.size + 1 ↔ m[k]? = none := by
  rw [ExtTreeMap.size_insert, getElem?_eq_none_iff]
  by_cases h : k ∈ m <;> simp [h]

variable [LawfulEqOrd α]

theorem lookup_insert [DecidableEq α] (m : BTreeMap α β) (k a : α) (v : β) :
    (m.insert k v)[a]? = if k = a then some v else m[a]? := by
  rw [ExtTreeMap.getElem?_insert]
  simp only [LawfulEqOrd.compare_eq_iff_eq]

theorem lookup_insert_of_ne (m : BTreeMap α β) {k a : α} (v : β) (h : k ≠ a) :
    (m.insert k v)[a]? = m[a]? := by
  classical
  rw [lookup_insert, if_neg h]

/-- Storing what is stored changes nothing. -/
theorem insert_eq_self_iff {m : BTreeMap α β} {k : α} {v : β} :
    m.insert k v = m ↔ m[k]? = some v := by
  classical
  constructor
  · intro h
    rw [← h, lookup_insert, if_pos rfl]
  · intro h
    refine ExtTreeMap.ext_getElem? (fun a => ?_)
    rw [lookup_insert]
    split
    · rename_i heq
      rw [← heq, h]
    · rfl

theorem lookup_erase [DecidableEq α] (m : BTreeMap α β) (k a : α) :
    (m.erase k)[a]? = if k = a then none else m[a]? := by
  rw [ExtTreeMap.getElem?_erase]
  simp only [LawfulEqOrd.compare_eq_iff_eq]

theorem mem_toList {m : BTreeMap α β} {k : α} {v : β} :
    (k, v) ∈ m.toList ↔ m[k]? = some v := ExtTreeMap.mem_toList_iff_getElem?_eq_some

/-- A map is determined by its entry list. -/
theorem toList_injective : Function.Injective (fun m : BTreeMap α β => m.toList) := by
  intro m m' h
  apply ExtTreeMap.ext_getElem?
  intro k
  have hiff : ∀ v, m[k]? = some v ↔ m'[k]? = some v := fun v => by
    rw [← mem_toList, ← mem_toList, show m.toList = m'.toList from h]
  exact Option.ext (fun v => hiff v)

theorem mem_values {m : BTreeMap α β} {v : β} : v ∈ values m ↔ ∃ k : α, m[k]? = some v := by
  simp only [values, List.mem_map, Prod.exists, mem_toList]
  constructor
  · rintro ⟨k, v', h, rfl⟩
    exact ⟨k, h⟩
  · rintro ⟨k, h⟩
    exact ⟨k, v, h, rfl⟩

/-- Values that carry their key have distinct keys. -/
theorem nodup_map_values {m : BTreeMap α β} {key : β → α}
    (h : ∀ (k : α) (v : β), m[k]? = some v → key v = k) : ((values m).map key).Nodup := by
  have hkeys : (values m).map key = m.toList.map Prod.fst := by
    rw [values, List.map_map]
    refine List.map_congr_left ?_
    rintro ⟨k, v⟩ hmem
    exact h k v (mem_toList.mp hmem)
  rw [hkeys]
  refine List.Pairwise.map Prod.fst ?_ m.distinct_keys_toList
  intro a b hab heq
  exact hab (Std.LawfulEqOrd.compare_eq_iff_eq.mpr heq)

theorem nodup_toList (m : BTreeMap α β) : m.toList.Nodup := by
  refine ExtTreeMap.distinct_keys_toList.imp ?_
  rintro a _ h rfl
  exact h ReflOrd.compare_self

/-- A map's entry list is the entry at one of its keys and the entries elsewhere. -/
theorem toList_perm_erase {m : BTreeMap α β} {k : α} {v : β} (h : m[k]? = some v) :
    m.toList.Perm ((k, v) :: (m.erase k).toList) := by
  classical
  have hnot : (k, v) ∉ (m.erase k).toList := by simp
  refine (List.perm_ext_iff_of_nodup (nodup_toList m)
    (List.nodup_cons.mpr ⟨hnot, nodup_toList _⟩)).mpr ?_
  rintro ⟨a, b⟩
  rw [List.mem_cons, mem_toList, mem_toList, lookup_erase]
  by_cases hk : k = a
  · subst hk
    simp [h, eq_comm]
  · simp [hk, Ne.symm hk]

/-- Inserting at a key leaves the entries elsewhere as they are. -/
theorem toList_insert_perm (m : BTreeMap α β) (k : α) (v : β) :
    (m.insert k v).toList.Perm ((k, v) :: (m.erase k).toList) := by
  classical
  have h : (m.insert k v)[k]? = some v := by simp
  have herase : (m.insert k v).erase k = m.erase k := by
    apply ExtTreeMap.ext_getElem?
    intro a
    rw [lookup_erase, lookup_erase, lookup_insert]
    by_cases hk : k = a <;> simp [hk]
  simpa only [herase] using toList_perm_erase h

theorem erase_of_lookup_eq_none {m : BTreeMap α β} {k : α} (h : m[k]? = none) :
    m.erase k = m := by
  classical
  apply ExtTreeMap.ext_getElem?
  intro a
  rw [lookup_erase]
  by_cases hk : k = a
  · subst hk
    simp [h]
  · simp [hk]

theorem values_perm_erase {m : BTreeMap α β} {k : α} {v : β} (h : m[k]? = some v) :
    (values m).Perm (v :: values (m.erase k)) :=
  (toList_perm_erase h).map Prod.snd

theorem values_insert_perm (m : BTreeMap α β) (k : α) (v : β) :
    (values (m.insert k v)).Perm (v :: values (m.erase k)) :=
  (toList_insert_perm m k v).map Prod.snd

/-- Inserting at a fresh key adds one value. -/
theorem values_insert_perm_of_none {m : BTreeMap α β} {k : α} (v : β) (h : m[k]? = none) :
    (values (m.insert k v)).Perm (v :: values m) := by
  simpa only [erase_of_lookup_eq_none h] using values_insert_perm m k v

/-- The effect of one insertion on the sum of a measure of the values. -/
theorem sum_values_insert {m : BTreeMap α β} {k : α} {v old : β} (f : β → ℕ)
    (h : m[k]? = some old) :
    ((values (m.insert k v)).map f).sum + f old = ((values m).map f).sum + f v := by
  rw [((values_insert_perm m k v).map f).sum_eq, ((values_perm_erase h).map f).sum_eq]
  simp only [List.map_cons, List.sum_cons]
  omega

end BTreeMap

/-- Entries with distinct keys are found by their key. -/
theorem find?_of_nodup_map {κ β : Type} [DecidableEq κ] {key : β → κ} {l : List β}
    (h : (l.map key).Nodup) {b : β} (hb : b ∈ l) :
    l.find? (fun b' => key b' = key b) = some b := by
  induction l with
  | nil => cases hb
  | cons a l ih =>
    obtain ⟨hnotin, hrest⟩ := List.nodup_cons.mp h
    rcases List.mem_cons.mp hb with rfl | hb
    · simp
    · have hne : key a ≠ key b := fun heq => hnotin (List.mem_map.mpr ⟨b, hb, heq.symm⟩)
      rw [List.find?_cons_of_neg (by simpa using hne), ih hrest hb]

/-! ## Several insertions -/

namespace BTreeMap

variable {α β : Type} [Ord α] [TransOrd α]

/-- Insert the entries one after the other. -/
def insertMany (m : BTreeMap α β) (entries : List (α × β)) : BTreeMap α β :=
  entries.foldl (fun m entry => m.insert entry.1 entry.2) m

@[simp] theorem insertMany_nil (m : BTreeMap α β) : insertMany m [] = m := rfl

@[simp] theorem insertMany_cons (m : BTreeMap α β) (entry : α × β) (entries : List (α × β)) :
    insertMany m (entry :: entries) = insertMany (m.insert entry.1 entry.2) entries := rfl

theorem size_insertMany_le (m : BTreeMap α β) (entries : List (α × β)) :
    (insertMany m entries).size ≤ m.size + entries.length := by
  induction entries generalizing m with
  | nil => simp
  | cons entry entries ih =>
    have hone : (m.insert entry.1 entry.2).size ≤ m.size + 1 := ExtTreeMap.size_insert_le
    have := ih (m.insert entry.1 entry.2)
    rw [insertMany_cons, List.length_cons]
    omega

variable [LawfulEqOrd α]

/-- Entries at fresh, distinct keys are all added, and nothing is overwritten. -/
theorem insertMany_of_fresh {m : BTreeMap α β} {entries : List (α × β)}
    (hdistinct : (entries.map Prod.fst).Nodup)
    (hfresh : ∀ entry ∈ entries, m[entry.1]? = none) :
    (insertMany m entries).size = m.size + entries.length ∧
      ∀ (k : α) (v : β), m[k]? = some v → (insertMany m entries)[k]? = some v := by
  induction entries generalizing m with
  | nil => simp
  | cons entry entries ih =>
    rw [List.map_cons, List.nodup_cons] at hdistinct
    obtain ⟨hfirst, hrest⟩ := List.forall_mem_cons.mp hfresh
    have hfresh' : ∀ entry' ∈ entries, (m.insert entry.1 entry.2)[entry'.1]? = none := by
      intro entry' hmem
      rw [lookup_insert_of_ne _ _ (fun heq => hdistinct.1 (List.mem_map.mpr ⟨_, hmem, heq.symm⟩))]
      exact hrest entry' hmem
    obtain ⟨hsize, hkept⟩ := ih hdistinct.2 hfresh'
    refine ⟨?_, ?_⟩
    · rw [insertMany_cons, hsize, size_insert_eq_succ_iff.mpr hfirst, List.length_cons]
      omega
    · intro k v hv
      refine hkept k v ?_
      rw [lookup_insert_of_ne _ _ (fun heq => by rw [← heq, hfirst] at hv; cases hv), hv]

/-- What is found after several insertions was there before or is one of the entries. -/
theorem of_lookup_insertMany {m : BTreeMap α β} {entries : List (α × β)} {k : α} {v : β}
    (h : (insertMany m entries)[k]? = some v) : m[k]? = some v ∨ (k, v) ∈ entries := by
  classical
  induction entries generalizing m with
  | nil => exact Or.inl h
  | cons entry entries ih =>
    rw [insertMany_cons] at h
    rcases ih h with h | h
    · rw [lookup_insert] at h
      split at h
      · rename_i hk
        obtain rfl := Option.some.inj h
        exact Or.inr (hk ▸ List.mem_cons_self)
      · exact Or.inl h
    · exact Or.inr (List.mem_cons_of_mem entry h)

/-- If the size grows by the number of entries, then none of their keys was taken. -/
theorem fresh_of_size_insertMany {m : BTreeMap α β} {entries : List (α × β)}
    (hsize : (insertMany m entries).size = m.size + entries.length) :
    ∀ entry ∈ entries, m[entry.1]? = none := by
  induction entries generalizing m with
  | nil => simp
  | cons entry entries ih =>
    rw [insertMany_cons, List.length_cons] at hsize
    have hle := size_insertMany_le (m.insert entry.1 entry.2) entries
    have hone : (m.insert entry.1 entry.2).size ≤ m.size + 1 := ExtTreeMap.size_insert_le
    have hfirst : m[entry.1]? = none :=
      size_insert_eq_succ_iff.mp (show (m.insert entry.1 entry.2).size = m.size + 1 by omega)
    refine List.forall_mem_cons.mpr ⟨hfirst, ?_⟩
    intro entry' hmem
    have := ih (m := m.insert entry.1 entry.2) (by omega) entry' hmem
    by_cases heq : entry.1 = entry'.1
    · rw [← heq, hfirst]
    · rwa [lookup_insert_of_ne _ _ heq] at this

theorem lookup_insertMany_of_not_mem {m : BTreeMap α β} {entries : List (α × β)} {k : α}
    (h : k ∉ entries.map Prod.fst) : (insertMany m entries)[k]? = m[k]? := by
  induction entries generalizing m with
  | nil => rfl
  | cons entry entries ih =>
    rw [List.map_cons, List.mem_cons, not_or] at h
    rw [insertMany_cons, ih h.2, lookup_insert_of_ne _ _ (Ne.symm h.1)]

/-- Among entries at distinct keys every entry is found. -/
theorem lookup_insertMany_of_nodup {m : BTreeMap α β} {entries : List (α × β)}
    (hdistinct : (entries.map Prod.fst).Nodup) {k : α} {v : β} (h : (k, v) ∈ entries) :
    (insertMany m entries)[k]? = some v := by
  induction entries generalizing m with
  | nil => cases h
  | cons entry entries ih =>
    rw [List.map_cons, List.nodup_cons] at hdistinct
    rw [insertMany_cons]
    rcases List.mem_cons.mp h with rfl | h
    · rw [lookup_insertMany_of_not_mem hdistinct.1]
      simp
    · exact ih hdistinct.2 h

/-- At a key that is written, what was there before plays no part. -/
theorem lookup_insertMany_of_mem (m m' : BTreeMap α β) {entries : List (α × β)} {k : α}
    (h : k ∈ entries.map Prod.fst) : (insertMany m entries)[k]? = (insertMany m' entries)[k]? := by
  classical
  induction entries generalizing m m' with
  | nil => cases h
  | cons entry entries ih =>
    rw [insertMany_cons, insertMany_cons]
    by_cases hrest : k ∈ entries.map Prod.fst
    · exact ih _ _ hrest
    · have hk : entry.1 = k := by
        rw [List.map_cons, List.mem_cons] at h
        exact (h.resolve_right hrest).symm
      rw [lookup_insertMany_of_not_mem hrest, lookup_insertMany_of_not_mem hrest, lookup_insert,
        lookup_insert, if_pos hk, if_pos hk]

/-- Insertions at disjoint keys can be made in either order. -/
theorem insertMany_comm (m : BTreeMap α β) {entries entries' : List (α × β)}
    (h : ∀ k ∈ entries.map Prod.fst, k ∉ entries'.map Prod.fst) :
    insertMany (insertMany m entries) entries' = insertMany (insertMany m entries') entries := by
  classical
  apply ExtTreeMap.ext_getElem?
  intro k
  by_cases hk : k ∈ entries.map Prod.fst
  · rw [lookup_insertMany_of_not_mem (h k hk)]
    exact lookup_insertMany_of_mem _ _ hk
  · rw [lookup_insertMany_of_not_mem (m := insertMany m entries') hk]
    by_cases hk' : k ∈ entries'.map Prod.fst
    · exact lookup_insertMany_of_mem _ _ hk'
    · rw [lookup_insertMany_of_not_mem hk', lookup_insertMany_of_not_mem hk,
        lookup_insertMany_of_not_mem hk']

end BTreeMap

end VKernelX
