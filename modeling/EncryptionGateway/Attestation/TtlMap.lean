import EncryptionGateway.Attestation.KvStore
import EncryptionGateway.Foundation.Run
import Mathlib.Data.Set.Card

/-!
# The in-process store as a map with expiry

The abstract store is a total map whose entries expire and carry the number of
their last write. A write drops at most one unexpired entry: the one written
least recently, when the cap is reached by unexpired entries of other keys.
`MemoryKvStore` gives the same answers in every run, although it removes
expired entries late or never.

## Implementation notes

The abstract store has no order of its own and no bound on what it keeps, so
the set of competing entries is a `Set` and its size an `ℕ∞`.
-/

namespace EncryptionGateway.Attestation

open Foundation

/-- The operations of the port with their arguments. -/
inductive Operation
  | get (key : String)
  | set (key value : String) (ttlMs : Option Int)
  | setIfAbsent (key value : String) (ttlMs : Option Int)
  | getDelete (key : String)
  | delete (key : String)

/-- What a caller learns from the map. The answer of `delete` tells whether an
entry was stored, expired or not, and is left out. -/
inductive Answer
  | value (found : Option String)
  | stored (done : Bool)
  | done
deriving DecidableEq

/-- An operation at a time with its answer. -/
structure Access where
  now : Int
  operation : Operation
  answer : Answer

/-- The last time and the store. -/
abbrev Timed (σ : Type) := Int × σ

/-- An access at a time that is not before the last one. -/
def AccessStep {σ : Type} (perform : Int → Operation → σ → Answer × σ) (s : Timed σ) (a : Access)
    (s' : Timed σ) : Prop :=
  s.1 ≤ a.now ∧ s'.1 = a.now ∧ perform a.now a.operation s.2 = (a.answer, s'.2)

namespace MemoryKvStore

variable {maxEntries : ℕ}

def perform (now : Int) (operation : Operation) (s : MemoryKvStore maxEntries) :
    Answer × MemoryKvStore maxEntries :=
  match operation with
  | .get key => (.value (get now key s).1, (get now key s).2)
  | .set key value ttlMs => (.done, set now key value ttlMs s)
  | .setIfAbsent key value ttlMs =>
      (.stored (setIfAbsent now key value ttlMs s).1, (setIfAbsent now key value ttlMs s).2)
  | .getDelete key => (.value (getDelete now key s).1, (getDelete now key s).2)
  | .delete key => (.done, (delete now key s).2)

end MemoryKvStore

/-- A value with its expiry and the number of its write. -/
structure Written where
  value : String
  expiresAt : Option Int
  stamp : ℕ

structure TtlMap where
  cell : String → Option Written
  writes : ℕ

namespace TtlMap

def empty : TtlMap := ⟨fun _ => none, 0⟩

/-- The unexpired value under a key. -/
def read (now : Int) (key : String) (m : TtlMap) : Option String :=
  match m.cell key with
  | none => none
  | some w => if expired w.expiresAt now then none else some w.value

theorem read_eq_some {now : Int} {key value : String} {m : TtlMap} :
    m.read now key = some value ↔
      ∃ e n, m.cell key = some ⟨value, e, n⟩ ∧ expired e now = false := by
  unfold read
  cases m.cell key with
  | none => simp
  | some w =>
      obtain ⟨v, e, n⟩ := w
      by_cases hexp : expired e now = true
      · simp [hexp]
      · simp [hexp]

def Live (now : Int) (m : TtlMap) (key : String) : Prop :=
  ∃ w, m.cell key = some w ∧ expired w.expiresAt now = false

/-- The unexpired keys other than the written one. -/
def rivals (now : Int) (key : String) (m : TtlMap) : Set String := { k | k ≠ key ∧ m.Live now k }

/-- Of these keys the one written least recently. -/
def LeastRecent (m : TtlMap) (keys : Set String) (k : String) : Prop :=
  k ∈ keys ∧ ∀ k' ∈ keys, ∀ w w', m.cell k = some w → m.cell k' = some w' → w.stamp ≤ w'.stamp

/-- The key that a write drops. -/
def Dropped (maxEntries : ℕ) (now : Int) (key : String) (m : TtlMap) (k : String) : Prop :=
  (maxEntries : ℕ∞) ≤ (m.rivals now key).encard ∧ m.LeastRecent (m.rivals now key) k

open Classical in
noncomputable def write (maxEntries : ℕ) (now : Int) (key value : String) (ttlMs : Option Int)
    (m : TtlMap) : TtlMap where
  cell k :=
    if k = key then some ⟨value, expiry now ttlMs, m.writes⟩
    else if m.Dropped maxEntries now key k then none
    else m.cell k
  writes := m.writes + 1

def remove (key : String) (m : TtlMap) : TtlMap where
  cell k := if k = key then none else m.cell k
  writes := m.writes

noncomputable def perform (maxEntries : ℕ) (now : Int) (operation : Operation) (m : TtlMap) :
    Answer × TtlMap :=
  match operation with
  | .get key => (.value (m.read now key), m)
  | .set key value ttlMs => (.done, m.write maxEntries now key value ttlMs)
  | .setIfAbsent key value ttlMs =>
      match m.read now key with
      | some _ => (.stored false, m)
      | none => (.stored true, m.write maxEntries now key value ttlMs)
  | .getDelete key => (.value (m.read now key), m.remove key)
  | .delete key => (.done, m.remove key)

/-- A store whose unexpired entries are those of the map, in the order of their
last writes. -/
structure Matches (now : Int) (entries : InsertionMap String Entry) (m : TtlMap) : Prop where
  live : ∀ k v e, (MemoryKvStore.sweep now entries).get k = some ⟨v, e⟩ ↔
    ∃ n, m.cell k = some ⟨v, e, n⟩ ∧ expired e now = false
  order : (MemoryKvStore.sweep now entries).keys.Pairwise fun a b =>
    ∀ w w', m.cell a = some w → m.cell b = some w' → w.stamp < w'.stamp
  stamped : ∀ k w, m.cell k = some w → w.stamp < m.writes

variable {maxEntries : ℕ} {now : Int} {m : TtlMap}

theorem matches_empty : Matches now InsertionMap.empty empty where
  live k v e := by
    constructor
    · intro h
      cases h
    · rintro ⟨n, h, -⟩
      cases h
  order := List.Pairwise.nil
  stamped k w h := by cases h

section Library

theorem expired_later {e : Option Int} {now now' : Int} (h : expired e now' = false)
    (hle : now ≤ now') : expired e now = false := by
  cases e with
  | none => rfl
  | some t =>
      simp only [expired, decide_eq_false_iff_not, not_lt] at h ⊢
      exact hle.trans h

theorem get_sweep {entries : InsertionMap String Entry} {k : String} {entry : Entry} :
    (MemoryKvStore.sweep now entries).get k = some entry ↔
      entries.get k = some entry ∧ expired entry.expiresAt now = false := by
  rw [MemoryKvStore.sweep, InsertionMap.get_keep_eq_some, Bool.not_eq_true']

theorem sweep_sweep {entries : InsertionMap String Entry} {now' : Int} (hle : now ≤ now') :
    MemoryKvStore.sweep now' (MemoryKvStore.sweep now entries) =
      MemoryKvStore.sweep now' entries := by
  apply InsertionMap.ext
  show (entries.entries.filter fun e => !expired e.2.expiresAt now).filter
      (fun e => !expired e.2.expiresAt now') =
    entries.entries.filter fun e => !expired e.2.expiresAt now'
  rw [List.filter_filter]
  apply List.filter_congr
  intro e _
  cases h : expired e.2.expiresAt now' with
  | true => rfl
  | false => rw [expired_later h hle]; rfl

theorem keys_sweep_sublist (entries : InsertionMap String Entry) :
    (MemoryKvStore.sweep now entries).keys.Sublist entries.keys :=
  entries.keys_keep_sublist _

end Library

theorem Matches.later {now' : Int} {entries : InsertionMap String Entry}
    (h : Matches now entries m) (hle : now ≤ now') : Matches now' entries m where
  live k v e := by
    rw [get_sweep]
    constructor
    · rintro ⟨hget, hfresh⟩
      obtain ⟨n, hcell, -⟩ := (h.live k v e).mp (get_sweep.mpr ⟨hget, expired_later hfresh hle⟩)
      exact ⟨n, hcell, hfresh⟩
    · rintro ⟨n, hcell, hfresh⟩
      have hget := (h.live k v e).mpr ⟨n, hcell, expired_later hfresh hle⟩
      exact ⟨(get_sweep.mp hget).1, hfresh⟩
  order := by
    rw [← sweep_sweep hle]
    exact h.order.sublist (keys_sweep_sublist _)
  stamped := h.stamped

section Rivals

variable {s : MemoryKvStore maxEntries} {key : String}

theorem live_iff (h : Matches now s.entries m) {k : String} :
    m.Live now k ↔ k ∈ (MemoryKvStore.sweep now s.entries).keys := by
  rw [InsertionMap.mem_keys]
  constructor
  · rintro ⟨⟨v, e, n⟩, hcell, hfresh⟩
    exact ⟨⟨v, e⟩, InsertionMap.get_eq_some.mp ((h.live k v e).mpr ⟨n, hcell, hfresh⟩)⟩
  · rintro ⟨⟨v, e⟩, hmem⟩
    obtain ⟨n, hcell, hfresh⟩ := (h.live k v e).mp (InsertionMap.get_eq_some.mpr hmem)
    exact ⟨⟨v, e, n⟩, hcell, hfresh⟩

theorem sweep_erase (entries : InsertionMap String Entry) :
    MemoryKvStore.sweep now (entries.erase key) = (MemoryKvStore.sweep now entries).erase key :=
  (InsertionMap.erase_keep_comm _ _ _).symm

/-- The rivals of a written key are the unexpired entries left without it. -/
theorem rivals_eq (h : Matches now s.entries m) (key : String) :
    m.rivals now key = (MemoryKvStore.sweep now (s.entries.erase key)).keys.toFinset := by
  ext k
  show k ≠ key ∧ m.Live now k ↔ _
  rw [live_iff h, sweep_erase, Finset.mem_coe, List.mem_toFinset, InsertionMap.keys_erase,
    (InsertionMap.nodup_keys _).mem_erase_iff]

/-- The first of them in the store is the least recently written one. -/
theorem dropped_iff (h : Matches now s.entries m) (k : String) :
    m.Dropped maxEntries now key k ↔ s.Displaces now key k := by
  have hkeys := rivals_eq h key
  have horder : (MemoryKvStore.sweep now (s.entries.erase key)).keys.Pairwise fun a b =>
      ∀ w w', m.cell a = some w → m.cell b = some w' → w.stamp < w'.stamp := by
    rw [sweep_erase, InsertionMap.keys_erase]
    exact h.order.sublist List.erase_sublist
  rw [Dropped, MemoryKvStore.Displaces, hkeys, Set.encard_coe_eq_coe_finsetCard,
    List.toFinset_card_of_nodup (InsertionMap.nodup_keys _), InsertionMap.length_keys,
    Nat.cast_le]
  apply and_congr_right
  intro _
  have hlive : ∀ k ∈ (MemoryKvStore.sweep now (s.entries.erase key)).keys,
      ∃ w, m.cell k = some w := by
    intro k hk
    have hrival : k ∈ m.rivals now key := by
      rw [hkeys]
      simpa using hk
    obtain ⟨w, hw, -⟩ := hrival.2
    exact ⟨w, hw⟩
  rw [InsertionMap.oldest_eq_head_keys, LeastRecent]
  simp only [Finset.mem_coe, List.mem_toFinset]
  generalize (MemoryKvStore.sweep now (s.entries.erase key)).keys = keys at horder hlive
  cases keys with
  | nil => simp
  | cons first rest =>
      rw [List.pairwise_cons] at horder
      simp only [List.head?_cons, Option.some.injEq]
      constructor
      · rintro ⟨hmem, hleast⟩
        rcases List.mem_cons.mp hmem with rfl | hrest
        · rfl
        · -- a later key was written after the first one
          obtain ⟨w, hw⟩ := hlive k hmem
          obtain ⟨w', hw'⟩ := hlive first List.mem_cons_self
          have hle := hleast first List.mem_cons_self w w' hw hw'
          have hlt := horder.1 k hrest w' w hw' hw
          omega
      · rintro rfl
        refine ⟨List.mem_cons_self, ?_⟩
        intro k' hk' w w' hw hw'
        rcases List.mem_cons.mp hk' with rfl | hrest
        · rw [hw, Option.some.injEq] at hw'
          rw [hw']
        · exact (horder.1 k' hrest w w' hw hw').le

end Rivals

section Operations

variable {s : MemoryKvStore maxEntries} {key : String}

/-- Looking a key up removes nothing that is unexpired. -/
theorem sweep_lookup : MemoryKvStore.sweep now (MemoryKvStore.lookup now key s).2.entries =
    MemoryKvStore.sweep now s.entries := by
  unfold MemoryKvStore.lookup
  split
  · rfl
  · next entry hget =>
      split
      · next hexp =>
          rw [MemoryKvStore.entries_remove, sweep_erase, InsertionMap.erase_of_absent]
          rw [← InsertionMap.get_eq_none, ← Option.not_isSome_iff_eq_none,
            Option.isSome_iff_exists]
          rintro ⟨entry', hget'⟩
          obtain ⟨hsome, hfresh⟩ := get_sweep.mp hget'
          rw [hget, Option.some.injEq] at hsome
          rw [← hsome, hexp] at hfresh
          cases hfresh
      · rfl

theorem Matches.of_sweep_eq {entries entries' : InsertionMap String Entry}
    (h : Matches now entries m)
    (heq : MemoryKvStore.sweep now entries' = MemoryKvStore.sweep now entries) :
    Matches now entries' m :=
  ⟨heq ▸ h.live, heq ▸ h.order, h.stamped⟩

theorem Matches.lookup (h : Matches now s.entries m) :
    Matches now (MemoryKvStore.lookup now key s).2.entries m :=
  h.of_sweep_eq sweep_lookup

theorem lookup_eq_read (h : Matches now s.entries m) (key : String) :
    (MemoryKvStore.lookup now key s).1 = m.read now key := by
  apply Option.ext
  intro v
  rw [MemoryKvStore.lookup_eq_some, read_eq_some]
  apply exists_congr
  intro e
  rw [← h.live, get_sweep]

theorem cell_remove_eq_some {k : String} {w : Written} :
    (m.remove key).cell k = some w ↔ k ≠ key ∧ m.cell k = some w := by
  rw [TtlMap.remove]
  simp only
  split
  · next hk => simp [hk]
  · next hk => simp [hk]

theorem Matches.remove (h : Matches now s.entries m) :
    Matches now (s.remove key).entries (m.remove key) where
  live k v e := by
    simp only [MemoryKvStore.entries_remove, sweep_erase, cell_remove_eq_some]
    by_cases hk : k = key
    · simp [hk]
    · rw [InsertionMap.get_erase_ne _ hk, h.live]
      simp [hk]
  order := by
    rw [MemoryKvStore.entries_remove, sweep_erase, InsertionMap.keys_erase]
    refine (h.order.sublist List.erase_sublist).imp ?_
    intro a b hab w w' hw hw'
    exact hab w w' (cell_remove_eq_some.mp hw).2 (cell_remove_eq_some.mp hw').2
  stamped k w hw := h.stamped k w (cell_remove_eq_some.mp hw).2

/-- The unexpired entries after a write come from those of the other keys. -/
theorem keys_sweep_write {value : String} {ttlMs : Option Int} :
    (MemoryKvStore.sweep now (MemoryKvStore.write now key value ttlMs s).entries).keys.Sublist
      ((MemoryKvStore.sweep now (s.entries.erase key)).keys ++ [key]) := by
  have hentries : (MemoryKvStore.write now key value ttlMs s).entries.entries =
      (s.cleared now key).entries ++ [(key, ⟨value, expiry now ttlMs⟩)] :=
    InsertionMap.entries_set_of_absent _ (s.not_mem_keys_cleared now key)
  have hcleared : (s.cleared now key).entries.Sublist (s.entries.erase key).entries := by
    unfold MemoryKvStore.cleared MemoryKvStore.evictIfFull
    split
    · exact List.Sublist.refl _
    · rw [InsertionMap.entries_shrink]
      exact (List.drop_sublist _ _).trans List.filter_sublist
  show (((MemoryKvStore.write now key value ttlMs s).entries.entries.filter _).map _).Sublist _
  rw [hentries, List.filter_append, List.map_append]
  refine List.Sublist.append ((hcleared.filter _).map _) ?_
  exact List.filter_sublist.map _

theorem cell_write_self (value : String) (ttlMs : Option Int) :
    (m.write maxEntries now key value ttlMs).cell key =
      some ⟨value, expiry now ttlMs, m.writes⟩ :=
  if_pos rfl

theorem cell_write_eq_some {value k : String} {ttlMs : Option Int} {w : Written} (hk : k ≠ key) :
    (m.write maxEntries now key value ttlMs).cell k = some w ↔
      ¬ m.Dropped maxEntries now key k ∧ m.cell k = some w := by
  rw [TtlMap.write]
  simp only [if_neg hk]
  split
  · next hdropped => simp [hdropped]
  · next hdropped => simp [hdropped]

theorem Matches.write (h : Matches now s.entries m) (value : String) (ttlMs : Option Int) :
    Matches now (MemoryKvStore.write now key value ttlMs s).entries
      (m.write maxEntries now key value ttlMs) where
  live k v e := by
    rw [get_sweep]
    by_cases hk : k = key
    · subst hk
      rw [MemoryKvStore.get_write_self, cell_write_self]
      simp
    · simp only [cell_write_eq_some hk, dropped_iff h]
      constructor
      · rintro ⟨hget, hfresh⟩
        have hold := ((MemoryKvStore.get_write hget).resolve_left fun heq => hk heq.1).2
        obtain ⟨n, hcell, -⟩ := (h.live k v e).mp (get_sweep.mpr ⟨hold, hfresh⟩)
        exact ⟨n, ⟨(MemoryKvStore.get_write_iff hk hold hfresh).mp hget, hcell⟩, hfresh⟩
      · rintro ⟨n, ⟨hstays, hcell⟩, hfresh⟩
        obtain ⟨hold, -⟩ := get_sweep.mp ((h.live k v e).mpr ⟨n, hcell, hfresh⟩)
        exact ⟨(MemoryKvStore.get_write_iff hk hold hfresh).mpr hstays, hfresh⟩
  order := by
    refine List.Pairwise.sublist keys_sweep_write ?_
    rw [sweep_erase, InsertionMap.keys_erase, List.pairwise_append]
    have hne : ∀ a ∈ (MemoryKvStore.sweep now s.entries).keys.erase key, a ≠ key := fun a ha =>
      ((InsertionMap.nodup_keys _).mem_erase_iff.mp ha).1
    refine ⟨?_, List.pairwise_singleton _ _, ?_⟩
    · refine (h.order.sublist List.erase_sublist).imp_of_mem ?_
      intro a b ha hb hab w w' hw hw'
      exact hab w w' ((cell_write_eq_some (hne a ha)).mp hw).2
        ((cell_write_eq_some (hne b hb)).mp hw').2
    · intro a ha b hb w w' hw hw'
      rw [List.mem_singleton.mp hb, cell_write_self, Option.some.injEq] at hw'
      rw [← hw']
      exact h.stamped a w ((cell_write_eq_some (hne a ha)).mp hw).2
  stamped k w hw := by
    by_cases hk : k = key
    · rw [hk, cell_write_self, Option.some.injEq] at hw
      rw [← hw]
      exact Nat.lt_succ_self _
    · exact Nat.lt_succ_of_lt (h.stamped k w ((cell_write_eq_some hk).mp hw).2)

/-- Each operation answers as the map does and keeps the two in step. -/
theorem Matches.perform (h : Matches now s.entries m) (operation : Operation) :
    (s.perform now operation).1 = (m.perform maxEntries now operation).1 ∧
      Matches now (s.perform now operation).2.entries (m.perform maxEntries now operation).2 := by
  cases operation with
  | get key => exact ⟨congrArg Answer.value (lookup_eq_read h key), h.lookup⟩
  | set key value ttlMs => exact ⟨rfl, h.write value ttlMs⟩
  | setIfAbsent key value ttlMs =>
      have hread := lookup_eq_read h key
      simp only [MemoryKvStore.perform, TtlMap.perform]
      cases hfound : m.read now key with
      | some found =>
          rw [MemoryKvStore.setIfAbsent_of_found (hread.trans hfound)]
          exact ⟨rfl, h.lookup⟩
      | none =>
          rw [MemoryKvStore.setIfAbsent_of_absent (hread.trans hfound)]
          exact ⟨rfl, h.lookup.write value ttlMs⟩
  | getDelete key => exact ⟨congrArg Answer.value (lookup_eq_read h key), h.lookup.remove⟩
  | delete key => exact ⟨rfl, h.remove⟩

/-- The store and the map at the same time. -/
def InStep (s : Timed (MemoryKvStore maxEntries)) (r : Timed TtlMap) : Prop :=
  s.1 = r.1 ∧ Matches s.1 s.2.entries r.2

theorem InStep.step {s s' : Timed (MemoryKvStore maxEntries)} {r : Timed TtlMap} {a : Access}
    (h : InStep s r) (hstep : AccessStep MemoryKvStore.perform s a s') :
    ∃ r', AccessStep (TtlMap.perform maxEntries) r a r' ∧ InStep s' r' := by
  obtain ⟨hclock, hmatches⟩ := h
  obtain ⟨hle, hnow, hperform⟩ := hstep
  obtain ⟨hanswer, hafter⟩ := (hmatches.later hle).perform a.operation
  rw [hperform] at hanswer hafter
  refine ⟨(a.now, (r.2.perform maxEntries a.now a.operation).2), ⟨hclock ▸ hle, rfl, ?_⟩, hnow, ?_⟩
  · exact Prod.ext hanswer.symm rfl
  · rw [hnow]
    exact hafter

end Operations

end TtlMap

/-- The in-process store never holds more than its cap, and every run of it is
a run of the map with expiry: the same operations, times and answers. -/
theorem memory_store_is_ttl_map (maxEntries : ℕ) (start : Int) (tr : List Access)
    (s : Timed (MemoryKvStore maxEntries)) (hcap : 1 ≤ maxEntries)
    (run : Run (AccessStep MemoryKvStore.perform) (start, MemoryKvStore.empty) tr s) :
    s.2.entries.size ≤ maxEntries ∧
      ∃ r, Run (AccessStep (TtlMap.perform maxEntries)) (start, TtlMap.empty) tr r := by
  have hsize := s.2.bounded
  rw [max_eq_right hcap] at hsize
  have hstart : TtlMap.InStep
      ((start, MemoryKvStore.empty) : Timed (MemoryKvStore maxEntries)) (start, TtlMap.empty) :=
    ⟨rfl, TtlMap.matches_empty⟩
  obtain ⟨r, hrun, -⟩ := run.simulation hstart TtlMap.InStep.step
  exact ⟨hsize, r, hrun⟩

/-- A store of two entries drops the one written first, then an expired one. -/
def turnover : List Access :=
  [⟨0, .set "a" "1" none, .done⟩, ⟨1, .set "b" "2" (some 5), .done⟩, ⟨2, .set "c" "3" none, .done⟩,
    ⟨3, .get "a", .value none⟩, ⟨7, .setIfAbsent "b" "4" none, .stored true⟩,
    ⟨8, .getDelete "c", .value (some "3")⟩]

theorem memory_store_is_ttl_map_turnover :
    ∃ r, Run (AccessStep (TtlMap.perform 2)) (0, TtlMap.empty) turnover r :=
  (memory_store_is_ttl_map 2 0 turnover (8, _) (by decide)
    (.cons (t := (0, _)) ⟨by decide, rfl, rfl⟩ (.cons (t := (1, _)) ⟨by decide, rfl, rfl⟩
      (.cons (t := (2, _)) ⟨by decide, rfl, rfl⟩ (.cons (t := (3, _)) ⟨by decide, rfl, rfl⟩
        (.cons (t := (7, _)) ⟨by decide, rfl, rfl⟩ (.cons (t := (8, _)) ⟨by decide, rfl, rfl⟩
          (.nil _)))))))).2

end EncryptionGateway.Attestation
