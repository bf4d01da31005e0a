import Mathlib.Data.List.Nodup
import Mathlib.Data.List.Basic

/-!
# Insertion-ordered maps

A finite map that remembers the order in which its keys were first inserted,
as the JavaScript `Map` does. Setting a present key replaces its value in
place; setting an absent key appends it. The distinctness of keys is a field,
so no operation needs it as a premise.

## Implementation notes

Mathlib's `AList` moves a key to the front when it is inserted again. Here the
position of a present key must survive, since the eviction policies built on
this map look at positions.
-/

namespace EncryptionGateway.Foundation

/-- Entries in insertion order, no key twice. -/
structure InsertionMap (κ ν : Type*) where
  entries : List (κ × ν)
  nodup : (entries.map Prod.fst).Nodup

namespace InsertionMap

variable {κ ν : Type*}

@[ext] theorem ext {m n : InsertionMap κ ν} (h : m.entries = n.entries) : m = n := by
  cases m; cases n; simpa using h

def empty : InsertionMap κ ν := ⟨[], by simp⟩

def keys (m : InsertionMap κ ν) : List κ := m.entries.map Prod.fst

def size (m : InsertionMap κ ν) : Nat := m.entries.length

/-- The first key in insertion order. -/
def oldest (m : InsertionMap κ ν) : Option κ := m.entries.head?.map Prod.fst

/-- Delete every entry whose test fails, keeping the order of the others. -/
def keep (m : InsertionMap κ ν) (p : κ → ν → Bool) : InsertionMap κ ν where
  entries := m.entries.filter fun e => p e.1 e.2
  nodup := m.nodup.sublist (List.filter_sublist.map _)

/-- Delete from the front while at least `bound` entries are left. -/
def shrinkEntries {α : Type*} (bound : ℕ) : List α → List α
  | [] => []
  | e :: rest => if bound ≤ rest.length + 1 then shrinkEntries bound rest else e :: rest

theorem shrinkEntries_eq_drop {α : Type*} (bound : ℕ) (l : List α) :
    shrinkEntries bound l = l.drop (l.length + 1 - bound) := by
  induction l with
  | nil => simp [shrinkEntries]
  | cons e rest ih =>
      simp only [shrinkEntries, List.length_cons]
      by_cases h : bound ≤ rest.length + 1
      · have hs : rest.length + 1 + 1 - bound = (rest.length + 1 - bound) + 1 := by omega
        rw [if_pos h, ih, hs, List.drop_succ_cons]
      · have hs : rest.length + 1 + 1 - bound = 0 := by omega
        rw [if_neg h, hs, List.drop_zero]

/-- Delete the oldest entries until fewer than `bound` are left. -/
def shrink (m : InsertionMap κ ν) (bound : ℕ) : InsertionMap κ ν where
  entries := shrinkEntries bound m.entries
  nodup := by
    rw [shrinkEntries_eq_drop]
    exact m.nodup.sublist ((List.drop_sublist _ _).map _)

theorem entries_shrink (m : InsertionMap κ ν) (bound : ℕ) :
    (m.shrink bound).entries = m.entries.drop (m.size + 1 - bound) :=
  shrinkEntries_eq_drop bound m.entries

theorem mem_of_mem_shrink {m : InsertionMap κ ν} {bound : ℕ} {e : κ × ν}
    (h : e ∈ (m.shrink bound).entries) : e ∈ m.entries := by
  rw [entries_shrink] at h
  exact List.mem_of_mem_drop h

theorem size_shrink_le (m : InsertionMap κ ν) (bound : ℕ) : (m.shrink bound).size ≤ bound - 1 := by
  rw [size, entries_shrink, List.length_drop, ← size]
  omega

theorem size_shrink_le_size (m : InsertionMap κ ν) (bound : ℕ) :
    (m.shrink bound).size ≤ m.size := by
  rw [size, entries_shrink, List.length_drop, ← size]
  exact Nat.sub_le _ _

@[simp] theorem entries_empty : (empty : InsertionMap κ ν).entries = [] := rfl

@[simp] theorem size_empty : (empty : InsertionMap κ ν).size = 0 := rfl

theorem length_keys (m : InsertionMap κ ν) : m.keys.length = m.size := by
  simp [keys, size]

theorem nodup_keys (m : InsertionMap κ ν) : m.keys.Nodup := m.nodup

theorem mem_keys {m : InsertionMap κ ν} {k : κ} : k ∈ m.keys ↔ ∃ v, (k, v) ∈ m.entries := by
  simp [keys]

/-- A key is bound to at most one value. -/
theorem value_unique {m : InsertionMap κ ν} {k : κ} {v w : ν}
    (hv : (k, v) ∈ m.entries) (hw : (k, w) ∈ m.entries) : v = w := by
  have h := List.inj_on_of_nodup_map m.nodup hv hw rfl
  exact congrArg Prod.snd h

@[simp] theorem mem_keep {m : InsertionMap κ ν} {p : κ → ν → Bool} {k : κ} {v : ν} :
    (k, v) ∈ (m.keep p).entries ↔ (k, v) ∈ m.entries ∧ p k v = true := by
  simp [keep]

theorem keys_keep_sublist (m : InsertionMap κ ν) (p : κ → ν → Bool) :
    (m.keep p).keys.Sublist m.keys :=
  List.filter_sublist.map _

theorem size_keep_le (m : InsertionMap κ ν) (p : κ → ν → Bool) : (m.keep p).size ≤ m.size :=
  List.length_filter_le _ _

theorem oldest_mem_keys {m : InsertionMap κ ν} {k : κ} (h : m.oldest = some k) : k ∈ m.keys := by
  obtain ⟨e, he, rfl⟩ := Option.map_eq_some_iff.mp h
  exact List.mem_map_of_mem (List.mem_of_mem_head? he)

theorem oldest_eq_head_keys (m : InsertionMap κ ν) : m.oldest = m.keys.head? := by
  rw [keys, List.head?_map, oldest]

theorem size_of_oldest_none {m : InsertionMap κ ν} (h : m.oldest = none) : m.size = 0 := by
  rw [oldest, Option.map_eq_none_iff, List.head?_eq_none_iff] at h
  rw [size, h, List.length_nil]

section Operations

variable [DecidableEq κ]

def get (m : InsertionMap κ ν) (k : κ) : Option ν :=
  (m.entries.find? fun e => decide (e.1 = k)).map Prod.snd

def has (m : InsertionMap κ ν) (k : κ) : Bool := (m.get k).isSome

def erase (m : InsertionMap κ ν) (k : κ) : InsertionMap κ ν :=
  m.keep fun k' _ => decide (k' ≠ k)

theorem entries_erase (m : InsertionMap κ ν) (k : κ) :
    (m.erase k).entries = m.entries.filter fun e => decide (e.1 ≠ k) := rfl

/-- The value replaced at its old position when the key is present, appended
otherwise. -/
def setEntries (l : List (κ × ν)) (k : κ) (v : ν) : List (κ × ν) :=
  if k ∈ l.map Prod.fst then l.map fun e => if e.1 = k then (k, v) else e else l ++ [(k, v)]

private theorem map_fst_replace (l : List (κ × ν)) (k : κ) (v : ν) :
    (l.map fun e => if e.1 = k then (k, v) else e).map Prod.fst = l.map Prod.fst := by
  rw [List.map_map]
  apply List.map_congr_left
  intro e _
  by_cases h : e.1 = k <;> simp [h]

def set (m : InsertionMap κ ν) (k : κ) (v : ν) : InsertionMap κ ν where
  entries := setEntries m.entries k v
  nodup := by
    unfold setEntries
    split
    · rw [map_fst_replace]
      exact m.nodup
    · next h =>
        rw [List.map_append, List.nodup_append]
        refine ⟨m.nodup, by simp, ?_⟩
        intro a ha b hb heq
        have hbk : b = k := by simpa using hb
        exact h (hbk ▸ heq ▸ ha)

theorem entries_set_of_present {m : InsertionMap κ ν} {k : κ} (v : ν) (h : k ∈ m.keys) :
    (m.set k v).entries = m.entries.map fun e => if e.1 = k then (k, v) else e :=
  if_pos h

/-- Setting an absent key appends it. -/
theorem entries_set_of_absent {m : InsertionMap κ ν} {k : κ} (v : ν) (h : k ∉ m.keys) :
    (m.set k v).entries = m.entries ++ [(k, v)] :=
  if_neg h

theorem get_eq_some {m : InsertionMap κ ν} {k : κ} {v : ν} :
    m.get k = some v ↔ (k, v) ∈ m.entries := by
  constructor
  · intro h
    obtain ⟨e, he, rfl⟩ := Option.map_eq_some_iff.mp h
    have hk : e.1 = k := by simpa using List.find?_some he
    exact hk ▸ List.mem_of_find?_eq_some he
  · intro h
    cases hf : m.entries.find? fun e => decide (e.1 = k) with
    | none =>
        have := List.find?_eq_none.mp hf (k, v) h
        simp at this
    | some e =>
        have hk : e.1 = k := by simpa using List.find?_some hf
        have he : (k, e.2) ∈ m.entries := hk ▸ List.mem_of_find?_eq_some hf
        simp [get, hf, value_unique he h]

theorem get_eq_none {m : InsertionMap κ ν} {k : κ} : m.get k = none ↔ k ∉ m.keys := by
  rw [mem_keys, ← not_iff_not, not_not, ← Ne, Option.ne_none_iff_exists']
  simp only [get_eq_some]

theorem has_eq_false {m : InsertionMap κ ν} {k : κ} : m.has k = false ↔ m.get k = none := by
  rw [has, Option.isSome_eq_false_iff, Option.isNone_iff_eq_none]

@[simp] theorem get_empty (k : κ) : (empty : InsertionMap κ ν).get k = none := rfl

@[simp] theorem mem_erase {m : InsertionMap κ ν} {k k' : κ} {v : ν} :
    (k', v) ∈ (m.erase k).entries ↔ (k', v) ∈ m.entries ∧ k' ≠ k := by
  simp [erase]

theorem get_keep_eq_some {m : InsertionMap κ ν} {p : κ → ν → Bool} {k : κ} {v : ν} :
    (m.keep p).get k = some v ↔ m.get k = some v ∧ p k v = true := by
  simp [get_eq_some]

@[simp] theorem get_erase_self (m : InsertionMap κ ν) (k : κ) : (m.erase k).get k = none := by
  simp [get_eq_none, mem_keys]

theorem get_erase_ne (m : InsertionMap κ ν) {k k' : κ} (h : k' ≠ k) :
    (m.erase k).get k' = m.get k' := by
  ext v
  simp [get_eq_some, h]

theorem mem_set {m : InsertionMap κ ν} {k k' : κ} {v v' : ν} :
    (k', v') ∈ (m.set k v).entries ↔
      (k' = k ∧ v' = v) ∨ (k' ≠ k ∧ (k', v') ∈ m.entries) := by
  by_cases hk : k ∈ m.keys
  · rw [entries_set_of_present v hk, List.mem_map]
    constructor
    · rintro ⟨e, he, heq⟩
      by_cases h : e.1 = k
      · rw [if_pos h] at heq
        cases heq
        exact Or.inl ⟨rfl, rfl⟩
      · rw [if_neg h] at heq
        subst heq
        exact Or.inr ⟨h, he⟩
    · rintro (⟨rfl, rfl⟩ | ⟨hne, hmem⟩)
      · obtain ⟨e, he, rfl⟩ := List.mem_map.mp hk
        exact ⟨e, he, if_pos rfl⟩
      · exact ⟨(k', v'), hmem, if_neg hne⟩
  · rw [entries_set_of_absent v hk, List.mem_append, List.mem_singleton, Prod.mk.injEq]
    constructor
    · rintro (hmem | heq)
      · refine Or.inr ⟨?_, hmem⟩
        rintro rfl
        exact hk (List.mem_map.mpr ⟨_, hmem, rfl⟩)
      · exact Or.inl heq
    · rintro (heq | ⟨_, hmem⟩)
      · exact Or.inr heq
      · exact Or.inl hmem

@[simp] theorem get_set_self (m : InsertionMap κ ν) (k : κ) (v : ν) :
    (m.set k v).get k = some v := by
  simp [get_eq_some, mem_set]

theorem get_set_ne (m : InsertionMap κ ν) {k k' : κ} (v : ν) (h : k' ≠ k) :
    (m.set k v).get k' = m.get k' := by
  ext w
  simp [get_eq_some, mem_set, h]

/-- Setting a present key leaves the keys and their order unchanged. -/
theorem keys_set_of_present {m : InsertionMap κ ν} {k : κ} (v : ν) (h : k ∈ m.keys) :
    (m.set k v).keys = m.keys := by
  rw [keys, entries_set_of_present v h, map_fst_replace, keys]

theorem keys_set_of_absent {m : InsertionMap κ ν} {k : κ} (v : ν) (h : k ∉ m.keys) :
    (m.set k v).keys = m.keys ++ [k] := by
  simp [keys, entries_set_of_absent v h]

theorem size_erase_le (m : InsertionMap κ ν) (k : κ) : (m.erase k).size ≤ m.size :=
  size_keep_le _ _

theorem size_set_of_absent {m : InsertionMap κ ν} {k : κ} (v : ν) (h : k ∉ m.keys) :
    (m.set k v).size = m.size + 1 := by
  simp [size, entries_set_of_absent v h]

theorem keys_erase (m : InsertionMap κ ν) (k : κ) : (m.erase k).keys = m.keys.erase k := by
  rw [m.nodup_keys.erase_eq_filter, keys, keys, entries_erase, List.filter_map]
  congr 1
  apply List.filter_congr
  intro e _
  by_cases h : e.1 = k <;> simp [h]

theorem size_le_size_erase (m : InsertionMap κ ν) (k : κ) : m.size ≤ (m.erase k).size + 1 := by
  rw [← length_keys, ← length_keys, keys_erase, List.length_erase]
  split <;> omega

theorem size_set_of_present {m : InsertionMap κ ν} {k : κ} (v : ν) (h : k ∈ m.keys) :
    (m.set k v).size = m.size := by
  rw [← length_keys, keys_set_of_present v h, length_keys]

theorem size_le_size_set (m : InsertionMap κ ν) (k : κ) (v : ν) : m.size ≤ (m.set k v).size := by
  by_cases h : k ∈ m.keys
  · exact Nat.le_of_eq (size_set_of_present v h).symm
  · rw [size_set_of_absent v h]
    exact Nat.le_succ _

theorem size_set_le (m : InsertionMap κ ν) (k : κ) (v : ν) : (m.set k v).size ≤ m.size + 1 := by
  by_cases h : k ∈ m.keys
  · rw [size_set_of_present v h]
    exact Nat.le_succ _
  · exact Nat.le_of_eq (size_set_of_absent v h)

theorem size_erase_of_present {m : InsertionMap κ ν} {k : κ} (h : k ∈ m.keys) :
    (m.erase k).size + 1 = m.size := by
  rw [← length_keys, ← length_keys, keys_erase, List.length_erase_of_mem h]
  exact Nat.sub_add_cancel (List.length_pos_of_mem h)

/-- What is erased does not depend on the value that was set. -/
theorem size_erase_set_self (m : InsertionMap κ ν) (k : κ) (v : ν) :
    ((m.set k v).erase k).size = (m.erase k).size := by
  rw [← length_keys, ← length_keys, keys_erase, keys_erase]
  by_cases h : k ∈ m.keys
  · rw [keys_set_of_present v h]
  · rw [keys_set_of_absent v h, List.erase_append_right _ h, List.erase_of_not_mem h]
    simp

theorem size_erase_set_of_present {m : InsertionMap κ ν} {k k' : κ} (v : ν) (h : k ∈ m.keys) :
    ((m.set k v).erase k').size = (m.erase k').size := by
  rw [← length_keys, ← length_keys, keys_erase, keys_erase, keys_set_of_present v h]

theorem erase_keep_comm (m : InsertionMap κ ν) (p : κ → ν → Bool) (k : κ) :
    (m.keep p).erase k = (m.erase k).keep p := by
  apply ext
  simp only [erase, keep, List.filter_filter, Bool.and_comm]

theorem not_mem_keys_erase (m : InsertionMap κ ν) (k : κ) : k ∉ (m.erase k).keys := by
  simp [mem_keys]

theorem erase_of_absent {m : InsertionMap κ ν} {k : κ} (h : k ∉ m.keys) : m.erase k = m := by
  apply ext
  refine List.filter_eq_self.mpr ?_
  intro e he
  have hne : e.1 ≠ k := by
    rintro rfl
    exact h (List.mem_map_of_mem he)
  simpa using hne

theorem erase_erase (m : InsertionMap κ ν) (k : κ) : (m.erase k).erase k = m.erase k :=
  erase_of_absent (m.not_mem_keys_erase k)

theorem mem_keys_set {m : InsertionMap κ ν} {k k' : κ} {v : ν} :
    k' ∈ (m.set k v).keys ↔ k' = k ∨ k' ∈ m.keys := by
  by_cases h : k ∈ m.keys
  · rw [keys_set_of_present v h]
    constructor
    · exact Or.inr
    · rintro (rfl | hk')
      · exact h
      · exact hk'
  · rw [keys_set_of_absent v h, List.mem_append, List.mem_singleton, or_comm]

end Operations

end InsertionMap

end EncryptionGateway.Foundation
