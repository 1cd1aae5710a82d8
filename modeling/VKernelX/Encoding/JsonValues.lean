/-
  Encoding/JsonValues.lean --- the canonical bytes of JSON values, whatever the order of their
  members.

  Objects are finite maps.  Bringing the members of every object into key order changes neither
  the map nor the bytes, and on values in key order the bytes are a prefix code.
-/
import VKernelX.Encoding.Records

set_option autoImplicit false

namespace VKernelX

/-! ## Values as finite maps -/

/-- The same JSON value: objects are compared by what they have under each key. -/
inductive Value.Same : Value → Value → Prop where
  | null : Value.Same .null .null
  | bool (b : Bool) : Value.Same (.bool b) (.bool b)
  | number (n : JsonNumber) : Value.Same (.number n) (.number n)
  | string (s : String) : Value.Same (.string s) (.string s)
  | array {items items' : List Value} (h : List.Forall₂ Value.Same items items') :
      Value.Same (.array items) (.array items')
  | object {entries entries' : List (String × Value)}
      (h : ∀ key, Option.Rel Value.Same (entries.lookup key) (entries'.lookup key)) :
      Value.Same (.object entries) (.object entries')

theorem Value.same_array_iff {items items' : List Value} :
    (Value.array items).Same (.array items') ↔ List.Forall₂ Value.Same items items' :=
  ⟨fun h => by cases h; assumption, .array⟩

theorem Value.same_object_iff {entries entries' : List (String × Value)} :
    (Value.object entries).Same (.object entries') ↔
      ∀ key, Option.Rel Value.Same (entries.lookup key) (entries'.lookup key) :=
  ⟨fun h => by cases h; assumption, .object⟩

section

variable (env : Platform)

mutual

/-- A value as `serde_json` holds it, all its texts and lists shorter than 2^64: numbers are
canonical, and no key occurs twice in an object. -/
def Value.Short : Value → Prop
  | .null => True
  | .bool _ => True
  | .number n => n.Canonical ∧ ShortStr (env.jsonOfNumber n)
  | .string s => ShortStr s
  | .array items => items.length < 2 ^ 64 ∧ Value.ItemsShort items
  | .object entries => entries.length < 2 ^ 64 ∧ (entries.map Prod.fst).Nodup ∧
      Value.EntriesShort entries

/-- Every item of an array is short. -/
def Value.ItemsShort : List Value → Prop
  | [] => True
  | item :: items => Value.Short item ∧ Value.ItemsShort items

/-- Every key and every value of an object is short. -/
def Value.EntriesShort : List (String × Value) → Prop
  | [] => True
  | (key, value) :: entries => ShortStr key ∧ Value.Short value ∧ Value.EntriesShort entries

end

end

mutual

/-- The value with the members of all its objects in key order. -/
def Value.sorted : Value → Value
  | .null => .null
  | .bool b => .bool b
  | .number n => .number n
  | .string s => .string s
  | .array items => .array (Value.sortedItems items)
  | .object entries => .object ((Value.sortedEntries entries).insertionSort (fun a b => a.1 ≤ b.1))

def Value.sortedItems : List Value → List Value
  | [] => []
  | item :: items => item.sorted :: Value.sortedItems items

/-- The values sorted, each under its key. -/
def Value.sortedEntries : List (String × Value) → List (String × Value)
  | [] => []
  | (key, value) :: entries => (key, value.sorted) :: Value.sortedEntries entries

end

theorem Value.sortedItems_eq_map (items : List Value) :
    Value.sortedItems items = items.map Value.sorted := by
  induction items with
  | nil => rfl
  | cons item items ih => rw [Value.sortedItems, ih, List.map_cons]

theorem Value.sortedEntries_eq_map (entries : List (String × Value)) :
    Value.sortedEntries entries = entries.map (fun entry => (entry.1, entry.2.sorted)) := by
  induction entries with
  | nil => rfl
  | cons entry entries ih => rw [Value.sortedEntries, ih, List.map_cons]

theorem Value.keys_sortedEntries (entries : List (String × Value)) :
    (Value.sortedEntries entries).map Prod.fst = entries.map Prod.fst := by
  rw [Value.sortedEntries_eq_map, List.map_map]
  rfl

section

variable {env : Platform}

theorem Value.entriesShort_iff {entries : List (String × Value)} :
    Value.EntriesShort env entries ↔
      ∀ entry ∈ entries, ShortStr entry.1 ∧ Value.Short env entry.2 := by
  induction entries with
  | nil => simp [Value.EntriesShort]
  | cons entry entries ih => simp [Value.EntriesShort, ih, and_assoc]

theorem Value.entriesFit_iff {entries : List (String × Value)} :
    Value.EntriesFit env entries ↔
      ∀ entry ∈ entries, ShortStr entry.1 ∧ Value.Fits env entry.2 := by
  induction entries with
  | nil => simp [Value.EntriesFit]
  | cons entry entries ih => simp [Value.EntriesFit, ih, and_assoc]

/-! ## Key order -/

/-- Entries at distinct keys, once sorted, ascend. -/
theorem ascending_sortedEntries {entries : List (String × Value)}
    (hkeys : (entries.map Prod.fst).Nodup) :
    (((Value.sortedEntries entries).insertionSort (fun a b => a.1 ≤ b.1)).map
      Prod.fst).Pairwise (· < ·) := by
  have hperm := List.perm_insertionSort (fun a b : String × Value => a.1 ≤ b.1)
    (Value.sortedEntries entries)
  have hnodup : (((Value.sortedEntries entries).insertionSort (fun a b => a.1 ≤ b.1)).map
      Prod.fst).Nodup := by
    rw [(hperm.map Prod.fst).nodup_iff, Value.keys_sortedEntries]
    exact hkeys
  have hsorted := List.pairwise_insertionSort (fun a b : String × Value => a.1 ≤ b.1)
    (Value.sortedEntries entries)
  exact (List.sortedLT_iff_nodup_and_sortedLE.mpr
    ⟨hnodup, (List.pairwise_map.mpr hsorted).sortedLE⟩).pairwise

mutual

/-- A short value in key order fits. -/
theorem Value.fits_sorted (v : Value) (h : v.Short env) : v.sorted.Fits env := by
  cases v with
  | null => trivial
  | bool b => trivial
  | number n => exact h
  | string s => exact h
  | array items =>
    simp only [Value.Short] at h
    simp only [Value.sorted, Value.Fits]
    refine ⟨?_, Value.itemsFit_sorted items h.2⟩
    rw [Value.sortedItems_eq_map, List.length_map]
    exact h.1
  | object entries =>
    simp only [Value.Short] at h
    simp only [Value.sorted, Value.Fits]
    refine ⟨?_, ascending_sortedEntries h.2.1, ?_⟩
    · rw [List.length_insertionSort, Value.sortedEntries_eq_map, List.length_map]
      exact h.1
    · have hfit := Value.entriesFit_iff.mp (Value.entriesFit_sorted entries h.2.2)
      exact Value.entriesFit_iff.mpr (fun entry hentry =>
        hfit entry ((List.perm_insertionSort _ _).mem_iff.mp hentry))

theorem Value.itemsFit_sorted (items : List Value) (h : Value.ItemsShort env items) :
    Value.ItemsFit env (Value.sortedItems items) := by
  cases items with
  | nil => trivial
  | cons item items =>
    simp only [Value.ItemsShort] at h
    exact ⟨Value.fits_sorted item h.1, Value.itemsFit_sorted items h.2⟩

theorem Value.entriesFit_sorted (entries : List (String × Value))
    (h : Value.EntriesShort env entries) :
    Value.EntriesFit env (Value.sortedEntries entries) := by
  cases entries with
  | nil => trivial
  | cons entry entries =>
    obtain ⟨key, value⟩ := entry
    simp only [Value.EntriesShort] at h
    exact ⟨h.1, Value.fits_sorted value h.2.1, Value.entriesFit_sorted entries h.2.2⟩

end

variable (env)

theorem canonicalEntryBytes_eq_map (entries : List (String × Value)) :
    canonicalEntryBytes env entries =
      entries.map (fun entry => (entry.1, canonicalJsonBytes env entry.2)) := by
  induction entries with
  | nil => rfl
  | cons entry entries ih => rw [canonicalEntryBytes, ih, List.map_cons]

/-- Sorting the entries first makes no difference to what is written. -/
theorem insertionSort_canonicalEntryBytes_insertionSort (entries : List (String × Value)) :
    (canonicalEntryBytes env (entries.insertionSort (fun a b => a.1 ≤ b.1))).insertionSort
        (fun a b => a.1 ≤ b.1) =
      (canonicalEntryBytes env entries).insertionSort (fun a b => a.1 ≤ b.1) := by
  have hmap : canonicalEntryBytes env (entries.insertionSort (fun a b => a.1 ≤ b.1)) =
      (canonicalEntryBytes env entries).insertionSort (fun a b => a.1 ≤ b.1) := by
    rw [canonicalEntryBytes_eq_map, canonicalEntryBytes_eq_map]
    exact List.map_insertionSort _ _ _ _ (fun _ _ _ _ => Iff.rfl)
  rw [hmap]
  exact (List.pairwise_insertionSort _ _).insertionSort_eq

mutual

/-- The bytes are written in key order anyway. -/
theorem canonicalJsonBytes_sorted (v : Value) :
    canonicalJsonBytes env v.sorted = canonicalJsonBytes env v := by
  cases v with
  | null => rfl
  | bool b => rfl
  | number n => rfl
  | string s => rfl
  | array items =>
    simp only [Value.sorted, canonicalJsonBytes, canonicalItemBytes_sorted items]
    rw [Value.sortedItems_eq_map, List.length_map]
  | object entries =>
    simp only [Value.sorted, canonicalJsonBytes, List.length_insertionSort,
      insertionSort_canonicalEntryBytes_insertionSort, canonicalEntryBytes_sorted entries]
    rw [Value.sortedEntries_eq_map, List.length_map]

theorem canonicalItemBytes_sorted (items : List Value) :
    canonicalItemBytes env (Value.sortedItems items) = canonicalItemBytes env items := by
  cases items with
  | nil => rfl
  | cons item items =>
    rw [Value.sortedItems, canonicalItemBytes, canonicalItemBytes, canonicalJsonBytes_sorted item,
      canonicalItemBytes_sorted items]

theorem canonicalEntryBytes_sorted (entries : List (String × Value)) :
    canonicalEntryBytes env (Value.sortedEntries entries) = canonicalEntryBytes env entries := by
  cases entries with
  | nil => rfl
  | cons entry entries =>
    obtain ⟨key, value⟩ := entry
    rw [Value.sortedEntries, canonicalEntryBytes, canonicalEntryBytes,
      canonicalJsonBytes_sorted value, canonicalEntryBytes_sorted entries]

end

/-! ## Sameness -/

/-- Among entries at distinct keys, what is found under a key is the entry there. -/
theorem lookup_eq_some_iff_of_nodup {β : Type} {entries : List (String × β)}
    (hkeys : (entries.map Prod.fst).Nodup) {key : String} {b : β} :
    entries.lookup key = some b ↔ (key, b) ∈ entries := by
  induction entries with
  | nil => simp
  | cons entry entries ih =>
    obtain ⟨key', b'⟩ := entry
    obtain ⟨hnotin, hrest⟩ := List.nodup_cons.mp hkeys
    rw [List.lookup_cons, List.mem_cons, Prod.mk.injEq]
    by_cases hkey : key = key'
    · subst hkey
      have hnone : (key, b) ∉ entries := fun hmem => hnotin (List.mem_map.mpr ⟨_, hmem, rfl⟩)
      simp [hnone, eq_comm]
    · rw [beq_eq_false_iff_ne.mpr hkey]
      simp [hkey, ih hrest]

/-- Entries at distinct keys with the same lookups are the same up to order. -/
theorem perm_iff_lookup_eq {β : Type} {entries entries' : List (String × β)}
    (hkeys : (entries.map Prod.fst).Nodup) (hkeys' : (entries'.map Prod.fst).Nodup) :
    entries.Perm entries' ↔ ∀ key, entries.lookup key = entries'.lookup key := by
  rw [List.perm_ext_iff_of_nodup hkeys.of_map hkeys'.of_map, Prod.forall]
  refine forall_congr' (fun key => ?_)
  rw [Option.ext_iff]
  refine forall_congr' (fun b => ?_)
  rw [lookup_eq_some_iff_of_nodup hkeys, lookup_eq_some_iff_of_nodup hkeys']

theorem lookup_sortedEntries (entries : List (String × Value)) (key : String) :
    (Value.sortedEntries entries).lookup key = (entries.lookup key).map Value.sorted := by
  induction entries with
  | nil => rfl
  | cons entry entries ih =>
    obtain ⟨key', value⟩ := entry
    rw [Value.sortedEntries, List.lookup_cons, List.lookup_cons]
    cases key == key' with
    | true => rfl
    | false => exact ih

/-- Objects are equal once they are in key order exactly if their sorted values are equal under
every key. -/
theorem sorted_object_eq_iff {entries entries' : List (String × Value)}
    (hkeys : (entries.map Prod.fst).Nodup) (hkeys' : (entries'.map Prod.fst).Nodup) :
    (Value.object entries).sorted = (Value.object entries').sorted ↔
      ∀ key, (entries.lookup key).map Value.sorted = (entries'.lookup key).map Value.sorted := by
  have hlookup := perm_iff_lookup_eq
    ((Value.keys_sortedEntries entries).symm ▸ hkeys)
    ((Value.keys_sortedEntries entries').symm ▸ hkeys')
  simp only [lookup_sortedEntries] at hlookup
  rw [← hlookup, Value.sorted, Value.sorted, Value.object.injEq]
  constructor
  · intro h
    have hperm := List.perm_insertionSort (fun a b : String × Value => a.1 ≤ b.1)
      (Value.sortedEntries entries')
    rw [← h] at hperm
    exact (List.perm_insertionSort _ _).symm.trans hperm
  · intro hperm
    exact ((List.perm_insertionSort _ _).trans
      (hperm.trans (List.perm_insertionSort _ _).symm)).eq_of_pairwise
      (fun _ _ _ _ hab hba => absurd hab (lt_asymm hba))
      (List.pairwise_map.mp (ascending_sortedEntries hkeys))
      (List.pairwise_map.mp (ascending_sortedEntries hkeys'))

theorem option_rel_iff_map_eq {entries entries' : List (String × Value)} {key : String}
    (h : ∀ a, entries.lookup key = some a → ∀ b, entries'.lookup key = some b →
      (a.Same b ↔ a.sorted = b.sorted)) :
    Option.Rel Value.Same (entries.lookup key) (entries'.lookup key) ↔
      (entries.lookup key).map Value.sorted = (entries'.lookup key).map Value.sorted := by
  cases ha : entries.lookup key with
  | none =>
    cases hb : entries'.lookup key with
    | none => exact ⟨fun _ => rfl, fun _ => .none⟩
    | some b => exact ⟨nofun, nofun⟩
  | some a =>
    cases hb : entries'.lookup key with
    | none => exact ⟨nofun, nofun⟩
    | some b =>
      rw [Option.map_some, Option.map_some, Option.some.injEq, ← h a ha b hb]
      exact ⟨fun hrel => by cases hrel; assumption, .some⟩

variable {env}

mutual

/-- Short values are the same exactly if they are equal in key order. -/
theorem Value.same_iff_sorted_eq (v w : Value) (hv : v.Short env) (hw : w.Short env) :
    v.Same w ↔ v.sorted = w.sorted := by
  cases v with
  | null =>
    cases w with
    | null => exact ⟨fun _ => rfl, fun _ => .null⟩
    | _ => exact ⟨nofun, by simp [Value.sorted]⟩
  | bool b =>
    cases w with
    | bool b' =>
      rw [Value.sorted, Value.sorted]
      exact ⟨fun h => by cases h; rfl, fun h => Value.bool.inj h ▸ .bool b⟩
    | _ => exact ⟨nofun, by simp [Value.sorted]⟩
  | number n =>
    cases w with
    | number n' =>
      rw [Value.sorted, Value.sorted]
      exact ⟨fun h => by cases h; rfl, fun h => Value.number.inj h ▸ .number n⟩
    | _ => exact ⟨nofun, by simp [Value.sorted]⟩
  | string s =>
    cases w with
    | string s' =>
      rw [Value.sorted, Value.sorted]
      exact ⟨fun h => by cases h; rfl, fun h => Value.string.inj h ▸ .string s⟩
    | _ => exact ⟨nofun, by simp [Value.sorted]⟩
  | array items =>
    cases w with
    | array items' =>
      simp only [Value.Short] at hv hw
      rw [Value.same_array_iff, Value.sorted, Value.sorted, Value.array.injEq,
        Value.sortedItems_eq_map, Value.sortedItems_eq_map]
      exact Value.items_same_iff items items' hv.2 hw.2
    | _ => exact ⟨nofun, by simp [Value.sorted]⟩
  | object entries =>
    cases w with
    | object entries' =>
      simp only [Value.Short] at hv hw
      rw [Value.same_object_iff, sorted_object_eq_iff hv.2.1 hw.2.1]
      refine forall_congr' (fun key => option_rel_iff_map_eq (fun a ha b hb => ?_))
      have hb' := (lookup_eq_some_iff_of_nodup hw.2.1).mp hb
      exact Value.entries_same_iff entries hv.2.2 key a ((lookup_eq_some_iff_of_nodup hv.2.1).mp ha)
        b (Value.entriesShort_iff.mp hw.2.2 _ hb').2
    | _ => exact ⟨nofun, by simp [Value.sorted]⟩
termination_by structural v

theorem Value.items_same_iff (items items' : List Value) (h : Value.ItemsShort env items)
    (h' : Value.ItemsShort env items') :
    List.Forall₂ Value.Same items items' ↔ items.map Value.sorted = items'.map Value.sorted := by
  cases items with
  | nil => cases items' <;> simp
  | cons item items =>
    cases items' with
    | nil => simp
    | cons item' items' =>
      simp only [Value.ItemsShort] at h h'
      rw [List.forall₂_cons, List.map_cons, List.map_cons, List.cons.injEq,
        Value.same_iff_sorted_eq item item' h.1 h'.1, Value.items_same_iff items items' h.2 h'.2]
termination_by structural items

theorem Value.entries_same_iff (entries : List (String × Value))
    (h : Value.EntriesShort env entries) (key : String) (a : Value) (ha : (key, a) ∈ entries)
    (b : Value) (hb : b.Short env) : a.Same b ↔ a.sorted = b.sorted := by
  cases entries with
  | nil => cases ha
  | cons entry entries =>
    obtain ⟨key', value⟩ := entry
    simp only [Value.EntriesShort] at h
    rcases List.mem_cons.mp ha with heq | ha
    · rw [(Prod.mk.inj heq).2]
      exact Value.same_iff_sorted_eq value b h.2.1 hb
    · exact Value.entries_same_iff entries h.2.2 key a ha b hb
termination_by structural entries

end

/-- The canonical bytes of JSON values are injective and prefix-free: where they begin two byte
strings that are equal, the values are the same, objects being finite maps, and so is what comes
after.  Nothing more is needed for the strings to be equal. -/
theorem canonicalJsonBytes_prefixFree (hnumber : Set.InjOn env.jsonOfNumber {n | n.Canonical})
    (v w : Value) (hv : v.Short env) (hw : w.Short env) (x y : List UInt8) :
    canonicalJsonBytes env v ++ x = canonicalJsonBytes env w ++ y ↔ v.Same w ∧ x = y := by
  rw [Value.same_iff_sorted_eq v w hv hw, ← canonicalJsonBytes_sorted env v,
    ← canonicalJsonBytes_sorted env w]
  constructor
  · exact value_of_bytes hnumber v.sorted w.sorted (Value.fits_sorted v hv)
      (Value.fits_sorted w hw)
  · rintro ⟨hsorted, rfl⟩
    rw [hsorted]

end

/-- An object with two members, one way round and the other. -/
def twoMembers : List (String × Value) := [("b", .array [.null, .bool true]), ("a", .string "x")]

theorem canonicalJsonBytes_prefixFree_twoMembers :
    canonicalJsonBytes textPlatform (.object twoMembers) ++ [1] =
        canonicalJsonBytes textPlatform (.object twoMembers.reverse) ++ [1] ↔
      (Value.object twoMembers).Same (.object twoMembers.reverse) ∧ [(1 : UInt8)] = [1] :=
  canonicalJsonBytes_prefixFree textPlatform_faithful.number _ _
    (by simp only [Value.Short, Value.ItemsShort, Value.EntriesShort, twoMembers, ShortStr]; decide)
    (by simp only [Value.Short, Value.ItemsShort, Value.EntriesShort, twoMembers, ShortStr,
      List.reverse_cons, List.reverse_nil, List.nil_append, List.cons_append]; decide) [1] [1]

end VKernelX
