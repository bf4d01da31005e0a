import EncryptionGateway.Foundation.InsertionMap

/-!
# The key/value port and the in-process store

`KvStore` is the port behind the attestation state. `AtomicKvStore` says what a
store with an atomic `getDelete` guarantees about the values it returns; it
leaves the store free to forget entries. `MemoryKvStore` is such a store.

## Implementation notes

The clock is an argument. An operation of `MemoryKvStore` runs without
yielding, so it reads one time. A missing time to live is `Infinity`.
-/

namespace EncryptionGateway.Attestation

open Foundation

/-- The port: each operation is one atomic access at the time given first. -/
structure KvStore (σ : Type) where
  get : Int → String → σ → Option String × σ
  set : Int → String → String → Option Int → σ → σ
  setIfAbsent : Int → String → String → Option Int → σ → Bool × σ
  getDelete : Int → String → σ → Option String × σ
  delete : Int → String → σ → Bool × σ

/-- `Date.now() > expiresAt`. -/
def expired (expiresAt : Option Int) (now : Int) : Bool :=
  match expiresAt with
  | none => false
  | some t => decide (t < now)

/-- `Date.now() + ttlMs`. -/
def expiry (now : Int) (ttlMs : Option Int) : Option Int := ttlMs.map (now + ·)

/-- A store that returns only what was written under the very key, not yet
removed and not yet expired. `holds s k v e` says that `s` may still return `v`
for `k` until `e`. -/
structure AtomicKvStore (σ : Type) extends KvStore σ where
  holds : σ → String → String → Option Int → Prop
  get_returns : ∀ {s now k v}, (get now k s).1 = some v → ∃ e, holds s k v e ∧ expired e now = false
  holds_get : ∀ {s now k k' v e}, holds (get now k s).2 k' v e → holds s k' v e
  get_keeps : ∀ {s now k k' v e}, k' ≠ k → holds s k' v e → holds (get now k s).2 k' v e
  holds_set : ∀ {s now k v ttl k' v' e}, holds (set now k v ttl s) k' v' e →
    (k' = k ∧ v' = v ∧ e = expiry now ttl) ∨ (k' ≠ k ∧ holds s k' v' e)
  holds_setIfAbsent : ∀ {s now k v ttl k' v' e}, holds (setIfAbsent now k v ttl s).2 k' v' e →
    ((setIfAbsent now k v ttl s).1 = true ∧ k' = k ∧ v' = v ∧ e = expiry now ttl) ∨ holds s k' v' e
  getDelete_returns : ∀ {s now k v}, (getDelete now k s).1 = some v →
    ∃ e, holds s k v e ∧ expired e now = false
  holds_getDelete : ∀ {s now k k' v e},
    holds (getDelete now k s).2 k' v e ↔ k' ≠ k ∧ holds s k' v e
  holds_delete : ∀ {s now k k' v e}, holds (delete now k s).2 k' v e ↔ k' ≠ k ∧ holds s k' v e

structure Entry where
  value : String
  expiresAt : Option Int

/-- The default of the constructor's `maxEntries`. -/
def DEFAULT_MAX_ENTRIES : ℕ := 10000

/-- In-process store, never above its cap: a write makes room first, so even a
cap of zero leaves the one entry just written. -/
structure MemoryKvStore (maxEntries : ℕ) where
  entries : InsertionMap String Entry
  bounded : entries.size ≤ max 1 maxEntries

namespace MemoryKvStore

variable {maxEntries : ℕ}

def empty : MemoryKvStore maxEntries := ⟨InsertionMap.empty, by simp⟩

/-- `this.entries.delete(key)`. -/
def remove (key : String) (s : MemoryKvStore maxEntries) : MemoryKvStore maxEntries :=
  ⟨s.entries.erase key, Nat.le_trans (s.entries.size_erase_le key) s.bounded⟩

@[simp] theorem entries_remove (key : String) (s : MemoryKvStore maxEntries) :
    (s.remove key).entries = s.entries.erase key := rfl

/-- Deletes the entry it finds expired. -/
def lookup (now : Int) (key : String) (s : MemoryKvStore maxEntries) :
    Option String × MemoryKvStore maxEntries :=
  match s.entries.get key with
  | none => (none, s)
  | some entry =>
      if expired entry.expiresAt now then (none, s.remove key) else (some entry.value, s)

/-- The unexpired entries. -/
def sweep (now : Int) (entries : InsertionMap String Entry) : InsertionMap String Entry :=
  entries.keep fun _ e => !expired e.expiresAt now

/-- Drops expired entries first, then the oldest insertion, to stay within the cap. -/
def evictIfFull (maxEntries : ℕ) (now : Int) (entries : InsertionMap String Entry) :
    InsertionMap String Entry :=
  if entries.size < maxEntries then entries else (sweep now entries).shrink maxEntries

theorem size_evictIfFull_le (now : Int) (entries : InsertionMap String Entry) :
    (evictIfFull maxEntries now entries).size ≤ maxEntries - 1 := by
  unfold evictIfFull
  split
  · omega
  · exact InsertionMap.size_shrink_le _ _

theorem mem_of_mem_evictIfFull {now : Int} {entries : InsertionMap String Entry}
    {e : String × Entry} (h : e ∈ (evictIfFull maxEntries now entries).entries) :
    e ∈ entries.entries := by
  unfold evictIfFull at h
  split at h
  · exact h
  · exact (InsertionMap.mem_keep.mp (InsertionMap.mem_of_mem_shrink h)).1

/-- The entries after making room for `key`. -/
def cleared (now : Int) (key : String) (s : MemoryKvStore maxEntries) :
    InsertionMap String Entry :=
  evictIfFull maxEntries now (s.entries.erase key)

theorem not_mem_keys_cleared (now : Int) (key : String) (s : MemoryKvStore maxEntries) :
    key ∉ (s.cleared now key).keys := by
  intro h
  obtain ⟨v, hv⟩ := InsertionMap.mem_keys.mp h
  exact (InsertionMap.mem_erase.mp (mem_of_mem_evictIfFull hv)).2 rfl

def write (now : Int) (key value : String) (ttlMs : Option Int) (s : MemoryKvStore maxEntries) :
    MemoryKvStore maxEntries where
  entries := (s.cleared now key).set key ⟨value, expiry now ttlMs⟩
  bounded := by
    have hsize : (evictIfFull maxEntries now (s.entries.erase key)).size ≤ maxEntries - 1 :=
      size_evictIfFull_le now _
    rw [InsertionMap.size_set_of_absent _ (s.not_mem_keys_cleared now key)]
    unfold cleared
    omega

def get (now : Int) (key : String) (s : MemoryKvStore maxEntries) :
    Option String × MemoryKvStore maxEntries :=
  lookup now key s

def set (now : Int) (key value : String) (ttlMs : Option Int) (s : MemoryKvStore maxEntries) :
    MemoryKvStore maxEntries :=
  write now key value ttlMs s

/-- Check and write without yielding. -/
def setIfAbsent (now : Int) (key value : String) (ttlMs : Option Int)
    (s : MemoryKvStore maxEntries) : Bool × MemoryKvStore maxEntries :=
  let (found, s) := lookup now key s
  if found.isSome then (false, s) else (true, write now key value ttlMs s)

/-- Read and remove in one step. -/
def getDelete (now : Int) (key : String) (s : MemoryKvStore maxEntries) :
    Option String × MemoryKvStore maxEntries :=
  let (value, s) := lookup now key s
  (value, s.remove key)

def delete (_now : Int) (key : String) (s : MemoryKvStore maxEntries) :
    Bool × MemoryKvStore maxEntries :=
  (s.entries.has key, s.remove key)

theorem size_write_le (now : Int) (key value : String) (ttlMs : Option Int)
    (s : MemoryKvStore maxEntries) :
    (write now key value ttlMs s).entries.size ≤ s.entries.size + 1 := by
  rw [write, InsertionMap.size_set_of_absent _ (s.not_mem_keys_cleared now key),
    cleared, evictIfFull]
  have herase := s.entries.size_erase_le key
  split
  · omega
  · have hsweep : (sweep now (s.entries.erase key)).size ≤ (s.entries.erase key).size :=
      InsertionMap.size_keep_le _ _
    have hshrink := (sweep now (s.entries.erase key)).size_shrink_le_size maxEntries
    omega

theorem size_lookup_le (now : Int) (key : String) (s : MemoryKvStore maxEntries) :
    (lookup now key s).2.entries.size ≤ s.entries.size := by
  unfold lookup
  split
  · exact Nat.le_refl _
  · split
    · exact s.entries.size_erase_le key
    · exact Nat.le_refl _

/-- A lookup returns the value of the unexpired entry stored under the key. -/
theorem lookup_eq_some {now : Int} {key value : String} {s : MemoryKvStore maxEntries} :
    (lookup now key s).1 = some value ↔
      ∃ e, s.entries.get key = some ⟨value, e⟩ ∧ expired e now = false := by
  unfold lookup
  cases h : s.entries.get key with
  | none => simp
  | some entry =>
      obtain ⟨v, e⟩ := entry
      by_cases hx : expired e now
      · simp [hx]
      · simp [hx]

theorem lookup_of_fresh {now : Int} {key value : String} {e : Option Int}
    {s : MemoryKvStore maxEntries} (h : s.entries.get key = some ⟨value, e⟩)
    (hfresh : expired e now = false) : lookup now key s = (some value, s) := by
  simp [lookup, h, hfresh]

theorem lookup_of_absent {now : Int} {key : String} {s : MemoryKvStore maxEntries}
    (h : s.entries.get key = none) : lookup now key s = (none, s) := by
  simp [lookup, h]

/-- A lookup leaves every entry but an expired one under its key. -/
theorem get_lookup {now : Int} {key k : String} {s : MemoryKvStore maxEntries} {entry : Entry} :
    (lookup now key s).2.entries.get k = some entry ↔
      s.entries.get k = some entry ∧ (k = key → expired entry.expiresAt now = false) := by
  unfold lookup
  cases h : s.entries.get key with
  | none =>
      simp only [iff_self_and]
      rintro hk rfl
      rw [h] at hk
      cases hk
  | some found =>
      by_cases hx : expired found.expiresAt now
      · simp only [hx, if_true, entries_remove]
        by_cases hk : k = key
        · subst hk
          simp only [InsertionMap.get_erase_self, h, Option.some.injEq, reduceCtorEq, false_iff]
          rintro ⟨rfl, hfresh⟩
          simp [hx] at hfresh
        · simp [InsertionMap.get_erase_ne _ hk, hk]
      · simp only [hx, Bool.false_eq_true, if_false, iff_self_and]
        rintro hk rfl
        rw [h, Option.some.injEq] at hk
        subst hk
        simpa using hx

/-- What a write leaves behind: the new entry, and older ones under other keys. -/
theorem get_write {now : Int} {key value k : String} {ttlMs : Option Int}
    {s : MemoryKvStore maxEntries} {entry : Entry}
    (h : (write now key value ttlMs s).entries.get k = some entry) :
    (k = key ∧ entry = ⟨value, expiry now ttlMs⟩) ∨ (k ≠ key ∧ s.entries.get k = some entry) := by
  by_cases hk : k = key
  · subst hk
    rw [write, InsertionMap.get_set_self, Option.some.injEq] at h
    exact Or.inl ⟨rfl, h.symm⟩
  · rw [write, InsertionMap.get_set_ne _ _ hk, InsertionMap.get_eq_some] at h
    exact Or.inr ⟨hk, InsertionMap.get_eq_some.mpr
      (InsertionMap.mem_erase.mp (mem_of_mem_evictIfFull h)).1⟩

@[simp] theorem get_write_self (now : Int) (key value : String) (ttlMs : Option Int)
    (s : MemoryKvStore maxEntries) :
    (write now key value ttlMs s).entries.get key = some ⟨value, expiry now ttlMs⟩ :=
  InsertionMap.get_set_self _ _ _

/-- Writing `key` pushes `k` out: the store is full of unexpired entries other
than the written one, and `k` is the one inserted first. -/
def Displaces (now : Int) (key : String) (s : MemoryKvStore maxEntries) (k : String) : Prop :=
  maxEntries ≤ (sweep now (s.entries.erase key)).size ∧
    (sweep now (s.entries.erase key)).oldest = some k

instance (now : Int) (key : String) (s : MemoryKvStore maxEntries) (k : String) :
    Decidable (s.Displaces now key k) :=
  inferInstanceAs (Decidable (_ ∧ _))

/-- An unexpired entry survives the write of another key exactly when that
write does not push it out. -/
theorem get_write_iff {now : Int} {key value k : String} {ttlMs : Option Int}
    {s : MemoryKvStore maxEntries} {entry : Entry} (hk : k ≠ key)
    (hget : s.entries.get k = some entry) (hfresh : expired entry.expiresAt now = false) :
    (write now key value ttlMs s).entries.get k = some entry ↔ ¬ s.Displaces now key k := by
  have hlive : (k, entry) ∈ (sweep now (s.entries.erase key)).entries := by
    simp [sweep, InsertionMap.get_eq_some.mp hget, hk, hfresh]
  have hsize : (sweep now (s.entries.erase key)).size ≤ max 1 maxEntries :=
    Nat.le_trans (InsertionMap.size_keep_le _ _)
      (Nat.le_trans (s.entries.size_erase_le key) s.bounded)
  rw [write, InsertionMap.get_set_ne _ _ hk, InsertionMap.get_eq_some, cleared, evictIfFull]
  generalize hm : sweep now (s.entries.erase key) = m at hlive hsize
  split
  · next hroom =>
      have hlt : m.size < maxEntries := by
        rw [← hm]
        exact Nat.lt_of_le_of_lt (InsertionMap.size_keep_le _ _) hroom
      simp only [Displaces, hm]
      constructor
      · rintro - ⟨hfull, -⟩
        omega
      · intro _
        simp [hk, InsertionMap.get_eq_some.mp hget]
  · simp only [Displaces, hm, InsertionMap.entries_shrink]
    by_cases hfull : maxEntries ≤ m.size
    · obtain ⟨first, rest, hcons⟩ := List.exists_cons_of_ne_nil (List.ne_nil_of_mem hlive)
      have hlen : m.size = rest.length + 1 := by simp [InsertionMap.size, hcons]
      have hnodup := m.nodup
      rw [hcons, List.map_cons, List.nodup_cons] at hnodup
      have holdest : m.oldest = some first.1 := by simp [InsertionMap.oldest, hcons]
      rw [holdest, Option.some.injEq]
      have hdrop : m.entries.drop (m.size + 1 - maxEntries) = rest.drop (m.size - maxEntries) := by
        rw [hcons, show m.size + 1 - maxEntries = (m.size - maxEntries) + 1 by omega,
          List.drop_succ_cons]
      rw [hdrop]
      rw [hcons] at hlive
      constructor
      · rintro hmem ⟨-, rfl⟩
        exact hnodup.1 (List.mem_map.mpr ⟨_, List.mem_of_mem_drop hmem, rfl⟩)
      · intro hno
        have hne : first.1 ≠ k := fun h => hno ⟨hfull, h⟩
        have htail : (k, entry) ∈ rest := by
          rcases List.mem_cons.mp hlive with rfl | h
          · exact absurd rfl hne
          · exact h
        have hrest : 1 ≤ rest.length := List.length_pos_of_mem htail
        rw [show m.size - maxEntries = 0 by omega, List.drop_zero]
        exact htail
    · rw [show m.size + 1 - maxEntries = 0 by omega, List.drop_zero]
      exact ⟨fun _ h => hfull h.1, fun _ => hlive⟩

/-- Nothing is pushed out of a store with room to spare. -/
theorem not_displaces_of_room {now : Int} {key k : String} {s : MemoryKvStore maxEntries}
    (h : s.entries.size < maxEntries) : ¬ s.Displaces now key k := by
  rintro ⟨hfull, -⟩
  have hsweep : (sweep now (s.entries.erase key)).size ≤ (s.entries.erase key).size :=
    InsertionMap.size_keep_le _ _
  have herase := s.entries.size_erase_le key
  omega

/-- Looking the written key up first makes no difference to what is pushed out. -/
theorem displaces_lookup {now : Int} {key k : String} {s : MemoryKvStore maxEntries} :
    (lookup now key s).2.Displaces now key k ↔ s.Displaces now key k := by
  have herase : (lookup now key s).2.entries.erase key = s.entries.erase key := by
    unfold lookup
    split
    · rfl
    · split
      · rw [entries_remove, InsertionMap.erase_erase]
      · rfl
  rw [Displaces, herase, Displaces]

/-- With room to spare, a new key is appended. -/
theorem entries_write_of_room {now : Int} {key value : String} {ttlMs : Option Int}
    {s : MemoryKvStore maxEntries} (hkey : key ∉ s.entries.keys)
    (hroom : s.entries.size < maxEntries) :
    (write now key value ttlMs s).entries.entries =
      s.entries.entries ++ [(key, ⟨value, expiry now ttlMs⟩)] := by
  have hclear : s.cleared now key = s.entries := by
    rw [cleared, InsertionMap.erase_of_absent hkey, evictIfFull, if_pos hroom]
  rw [write, InsertionMap.entries_set_of_absent _ (s.not_mem_keys_cleared now key), hclear]

/-- In a full store without expired entries, a new key takes the place of the
entry inserted first. -/
theorem entries_write_of_full {now : Int} {key value : String} {ttlMs : Option Int}
    {s : MemoryKvStore maxEntries} (hkey : key ∉ s.entries.keys)
    (hfull : s.entries.size = maxEntries)
    (hfresh : ∀ e ∈ s.entries.entries, expired e.2.expiresAt now = false) :
    (write now key value ttlMs s).entries.entries =
      s.entries.entries.drop 1 ++ [(key, ⟨value, expiry now ttlMs⟩)] := by
  have hsweep : sweep now s.entries = s.entries := by
    apply InsertionMap.ext
    refine List.filter_eq_self.mpr ?_
    intro e he
    simp [hfresh e he]
  have hclear : (s.cleared now key).entries = s.entries.entries.drop 1 := by
    rw [cleared, InsertionMap.erase_of_absent hkey, evictIfFull, if_neg (by omega), hsweep,
      InsertionMap.entries_shrink, hfull, Nat.add_sub_cancel_left]
  rw [write, InsertionMap.entries_set_of_absent _ (s.not_mem_keys_cleared now key), hclear]

theorem setIfAbsent_fst {now : Int} {key value : String} {ttlMs : Option Int}
    {s : MemoryKvStore maxEntries} :
    (setIfAbsent now key value ttlMs s).1 = true ↔ (lookup now key s).1 = none := by
  unfold setIfAbsent
  cases h : (lookup now key s).1 <;> simp [h]

theorem setIfAbsent_of_found {now : Int} {key value : String} {ttlMs : Option Int}
    {s : MemoryKvStore maxEntries} {found : String} (h : (lookup now key s).1 = some found) :
    setIfAbsent now key value ttlMs s = (false, (lookup now key s).2) := by
  simp [setIfAbsent, h]

theorem setIfAbsent_of_absent {now : Int} {key value : String} {ttlMs : Option Int}
    {s : MemoryKvStore maxEntries} (h : (lookup now key s).1 = none) :
    setIfAbsent now key value ttlMs s = (true, write now key value ttlMs (lookup now key s).2) := by
  simp [setIfAbsent, h]

theorem size_setIfAbsent_le (now : Int) (key value : String) (ttlMs : Option Int)
    (s : MemoryKvStore maxEntries) :
    (setIfAbsent now key value ttlMs s).2.entries.size ≤ s.entries.size + 1 := by
  have hlookup := size_lookup_le now key s
  cases h : (lookup now key s).1 with
  | none =>
      rw [setIfAbsent_of_absent h]
      exact Nat.le_trans (size_write_le _ _ _ _ _) (Nat.succ_le_succ hlookup)
  | some found =>
      rw [setIfAbsent_of_found h]
      exact Nat.le_trans hlookup (Nat.le_succ _)

/-- The in-process store as an instance of the port. -/
def port (maxEntries : ℕ) : KvStore (MemoryKvStore maxEntries) :=
  { get, set, setIfAbsent, getDelete, delete }

/-- The in-process store returns nothing that was not written, removed or
expired. -/
def atomic (maxEntries : ℕ) : AtomicKvStore (MemoryKvStore maxEntries) where
  toKvStore := port maxEntries
  holds s k v e := s.entries.get k = some ⟨v, e⟩
  get_returns h := lookup_eq_some.mp h
  holds_get h := (get_lookup.mp h).1
  get_keeps hk h := get_lookup.mpr ⟨h, fun heq => absurd heq hk⟩
  holds_set h := by
    rcases get_write h with ⟨rfl, heq⟩ | hold
    · cases heq
      exact Or.inl ⟨rfl, rfl, rfl⟩
    · exact Or.inr hold
  holds_setIfAbsent {s now k v ttl k' v' e} h := by
    cases hl : (lookup now k s).1 with
    | some found =>
        simp only [port, setIfAbsent_of_found hl] at h
        exact Or.inr (get_lookup.mp h).1
    | none =>
        simp only [port, setIfAbsent_of_absent hl] at h ⊢
        rcases get_write h with ⟨rfl, heq⟩ | ⟨_, hold⟩
        · cases heq
          exact Or.inl ⟨trivial, rfl, rfl, rfl⟩
        · exact Or.inr (get_lookup.mp hold).1
  getDelete_returns h := lookup_eq_some.mp h
  holds_getDelete {s now k k' v e} := by
    constructor
    · intro h
      have hmem := InsertionMap.mem_erase.mp (InsertionMap.get_eq_some.mp h)
      exact ⟨hmem.2, (get_lookup.mp (InsertionMap.get_eq_some.mpr hmem.1)).1⟩
    · rintro ⟨hk, h⟩
      have hl : (lookup now k s).2.entries.get k' = some ⟨v, e⟩ :=
        get_lookup.mpr ⟨h, fun heq => absurd heq hk⟩
      exact InsertionMap.get_eq_some.mpr
        (InsertionMap.mem_erase.mpr ⟨InsertionMap.get_eq_some.mp hl, hk⟩)
  holds_delete {s now k k' v e} := by
    simp only [port, delete, entries_remove, InsertionMap.get_eq_some, InsertionMap.mem_erase,
      and_comm]

end MemoryKvStore

end EncryptionGateway.Attestation
