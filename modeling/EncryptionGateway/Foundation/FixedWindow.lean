import Mathlib.Algebra.Order.Group.Int
import Mathlib.Data.List.Basic
import Mathlib.Data.List.Infix

/-!
# Fixed-window counters

A counter opens a window at its first hit, counts the hits of that window, and
opens the next window at the first hit after its end. A hit is admitted while
the count of its window is within the limit.

## Implementation notes

Histories are lists of times with the latest first, so that a counter is
defined by recursion on its history.
-/

namespace EncryptionGateway.Foundation

structure Window where
  count : ℕ
  resetAt : Int
deriving DecidableEq, Repr

namespace Window

/-- The window of a hit at `now` on a counter in the given window. -/
def hit (ttl : ℕ) (now : Int) : Option Window → Window
  | none => ⟨1, now + ttl⟩
  | some w => if w.resetAt ≤ now then ⟨1, now + ttl⟩ else ⟨w.count + 1, w.resetAt⟩

theorem hit_of_over {ttl : ℕ} {now : Int} {w : Option Window}
    (h : ∀ v, w = some v → v.resetAt ≤ now) : hit ttl now w = ⟨1, now + ttl⟩ := by
  cases w with
  | none => rfl
  | some v => exact if_pos (h v rfl)

theorem hit_of_open {ttl : ℕ} {now : Int} {w : Window} (h : now < w.resetAt) :
    hit ttl now (some w) = ⟨w.count + 1, w.resetAt⟩ :=
  if_neg (not_le.mpr h)

/-- The window left by the hits at the given times, the latest first. -/
def tally (ttl : ℕ) : List Int → Option Window
  | [] => none
  | now :: earlier => some (hit ttl now (tally ttl earlier))

@[simp] theorem tally_cons (ttl : ℕ) (now : Int) (earlier : List Int) :
    tally ttl (now :: earlier) = some (hit ttl now (tally ttl earlier)) := rfl

/-- The counter is in the tallied window, or has forgotten one that is over. -/
def Held (now : Int) (stored tallied : Option Window) : Prop :=
  stored = tallied ∨ stored = none ∧ ∀ w, tallied = some w → w.resetAt ≤ now

theorem Held.later {now now' : Int} {stored tallied : Option Window}
    (h : Held now stored tallied) (hle : now ≤ now') : Held now' stored tallied :=
  h.imp_right fun ⟨hnone, hover⟩ => ⟨hnone, fun w hw => (hover w hw).trans hle⟩

/-- What was forgotten does not change the next window. -/
theorem Held.hit_eq {ttl : ℕ} {now : Int} {stored tallied : Option Window}
    (h : Held now stored tallied) : hit ttl now stored = hit ttl now tallied := by
  rcases h with rfl | ⟨rfl, hover⟩
  · rfl
  · rw [hit_of_over hover]
    rfl

/-- A stored window is the tallied one. -/
theorem Held.tally_eq {now : Int} {tallied : Option Window} {w : Window}
    (h : Held now (some w) tallied) : tallied = some w := by
  rcases h with heq | ⟨hnone, -⟩
  · exact heq.symm
  · cases hnone

/-- The number of hits admitted at times from `start` on, for one period. -/
def admittedIn (ttl limit : ℕ) (start : Int) : List Int → ℕ
  | [] => 0
  | now :: earlier =>
      admittedIn ttl limit start earlier +
        if start ≤ now ∧ now < start + ttl ∧ (hit ttl now (tally ttl earlier)).count ≤ limit
        then 1 else 0

section Bounds

variable {ttl limit : ℕ} {start : Int}

theorem admittedIn_of_before {times : List Int} (h : ∀ t ∈ times, t < start) :
    admittedIn ttl limit start times = 0 := by
  induction times with
  | nil => rfl
  | cons now earlier ih =>
      have hnow := h now List.mem_cons_self
      rw [admittedIn, ih fun t ht => h t (List.mem_cons_of_mem _ ht), if_neg]
      omega

/-- A window that ends inside the period was opened before it, so the hit that
opened it is not among those counted; one that ends later was opened inside. -/
def Counted (ttl limit : ℕ) (start : Int) (admitted : ℕ) : Option Window → Prop
  | none => admitted = 0
  | some w =>
      if w.resetAt < start + ttl then admitted + 1 ≤ min w.count limit
      else admitted + 1 ≤ limit + min w.count limit

theorem counted_admittedIn (hlimit : 0 < limit) {times : List Int}
    (hsorted : times.Pairwise (· ≥ ·)) (hbefore : ∀ t ∈ times, t < start + ttl) :
    Counted ttl limit start (admittedIn ttl limit start times) (tally ttl times) := by
  induction times with
  | nil => rfl
  | cons now earlier ih =>
      obtain ⟨hlast, hsorted⟩ := List.pairwise_cons.mp hsorted
      have ih := ih hsorted fun t ht => hbefore t (List.mem_cons_of_mem _ ht)
      have hnow := hbefore now List.mem_cons_self
      have hprior : now < start → admittedIn ttl limit start earlier = 0 := fun hlt =>
        admittedIn_of_before fun t ht => lt_of_le_of_lt (hlast t ht) hlt
      have hnew : Counted ttl limit start (admittedIn ttl limit start earlier +
          if start ≤ now ∧ now < start + ttl ∧ 1 ≤ limit then 1 else 0)
          (some ⟨1, now + ttl⟩) ↔ now < start ∨ admittedIn ttl limit start earlier < limit := by
        simp only [Counted]
        by_cases hstart : start ≤ now
        · rw [if_neg (by omega), if_pos ⟨hstart, hnow, hlimit⟩]
          omega
        · rw [if_pos (by omega), if_neg fun h => hstart h.1, hprior (not_le.mp hstart)]
          omega
      rw [tally_cons, admittedIn]
      cases hw : tally ttl earlier with
      | none =>
          rw [hw] at ih
          have hzero : admittedIn ttl limit start earlier = 0 := ih
          exact hnew.mpr (Or.inr (by omega))
      | some w =>
          rw [hw, Counted] at ih
          by_cases hover : w.resetAt ≤ now
          · -- the window that is over was opened before the period
            rw [if_pos (by omega)] at ih
            rw [hit, if_pos hover]
            exact hnew.mpr (Or.inr (by omega))
          · rw [hit, if_neg hover, Counted]
            simp only
            by_cases hcount : start ≤ now ∧ now < start + ttl ∧ w.count + 1 ≤ limit
            · rw [if_pos hcount]
              split <;> simp only [*, if_true, if_false] at ih <;> omega
            · rw [if_neg hcount]
              split <;> simp only [*, if_true, if_false] at ih <;> omega

/-- One counter admits less than twice the limit in any period. -/
theorem admittedIn_le (hlimit : 0 < limit) {times : List Int}
    (hsorted : times.Pairwise (· ≥ ·)) :
    admittedIn ttl limit start times + 1 ≤ 2 * limit := by
  induction times with
  | nil =>
      simp only [admittedIn]
      omega
  | cons now earlier ih =>
      obtain ⟨hlast, hsorted'⟩ := List.pairwise_cons.mp hsorted
      by_cases hnow : now < start + ttl
      · have hbefore : ∀ t ∈ now :: earlier, t < start + ttl := by
          intro t ht
          rcases List.mem_cons.mp ht with rfl | ht
          · exact hnow
          · exact lt_of_le_of_lt (hlast t ht) hnow
        have hcounted := counted_admittedIn hlimit hsorted hbefore
        rw [tally_cons, Counted] at hcounted
        split at hcounted <;> omega
      · rw [admittedIn, if_neg (by omega)]
        exact ih hsorted'

end Bounds

end Window

end EncryptionGateway.Foundation
