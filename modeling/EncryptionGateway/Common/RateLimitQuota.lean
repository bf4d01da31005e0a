import EncryptionGateway.Common.RateLimitWindows
import Mathlib.Data.List.Dedup

/-!
# Clients with a quota of their own

Where no request meets a full map, the limiter answers as one with unbounded
memory: each client by its own requests. A map is full by the counters it
stores, and counters whose windows are over stay stored until the next sweep,
so a map can be full while few windows are open.
-/

namespace EncryptionGateway.Common.RateLimitGuard

open JavaScript Foundation

variable {g : RateLimitGuard}

/-- The times of a client's own requests, the latest first. -/
def ownTimes (tr : List Hit) (client : ClientKey) : List Int :=
  ((tr.filter fun h => decide (h.client = client)).map Hit.now).reverse

/-- The limiter with one counter for each client and no bound on their number. -/
def unbounded (g : RateLimitGuard) (earlier : List Int) (now : Int) : Decision :=
  g.decision (Window.hit g.ttlMs now (Window.tally g.ttlMs earlier)) now

/-- The clients that have an open window in the unbounded limiter. -/
def liveClients (g : RateLimitGuard) (tr : List Hit) (now : Int) : List ClientKey :=
  (tr.map Hit.client).dedup.filter fun client =>
    ((Window.tally g.ttlMs (ownTimes tr client)).map fun w => decide (now < w.resetAt)).getD false

/-- At every request fewer clients have an open window than there are places. -/
def FewLive (g : RateLimitGuard) (tr : List Hit) : Prop :=
  ∀ (k : ℕ) (_ : k < tr.length),
    (liveClients g (tr.take (k + 1)) tr[k].now).length < g.maxEntries - 1

instance decidableFewLive (g : RateLimitGuard) (tr : List Hit) : Decidable (FewLive g tr) :=
  inferInstanceAs (Decidable (∀ (k : ℕ) (_ : k < tr.length), _))

/-- Every request is counted for its own client, and answered by the requests
of that client alone as in the unbounded limiter. -/
def OwnQuota (g : RateLimitGuard) (tr : List Hit) : Prop :=
  ∀ (k : ℕ) (_ : k < tr.length), tr[k].bucket = tr[k].client ∧
    tr[k].decision = g.unbounded (ownTimes (tr.take k) tr[k].client) tr[k].now

/-- The client has a counter, or the sweep that is due leaves a place for one. -/
def HasRoom (g : RateLimitGuard) (s : State) (h : Hit) : Prop :=
  (g.sweep h.now s.counters).hits.has h.client = true ∨
    (g.sweep h.now s.counters).hits.size < g.maxEntries - 1

/-- A request that finds room. -/
def RoomyStep (g : RateLimitGuard) (s : State) (h : Hit) (s' : State) : Prop :=
  Step g s h s' ∧ HasRoom g s h

theorem Step.bucket_eq_client_iff {s s' : State} {h : Hit} (hstep : Step g s h s') :
    h.bucket = h.client ↔ HasRoom g s h := by
  rw [hstep.spec.1, bucketOf, HasRoom]
  split
  · next hfull =>
      refine ⟨fun heq => absurd heq.symm h.client.2, fun hroom => ?_⟩
      rcases hroom with hhas | hsize
      · rw [hfull.1] at hhas
        cases hhas
      · exact absurd hfull.2 (not_le.mpr hsize)
  · next hnot =>
      refine ⟨fun _ => ?_, fun _ => rfl⟩
      by_contra hno
      rw [not_or, Bool.not_eq_true, not_lt] at hno
      exact hnot hno

section Runs

variable {start : Int} {tr : List Hit} {s : State}

/-- A client that is never charged to the overflow bucket is charged for its own
requests. -/
theorem charged_eq_ownTimes (hown : ∀ h ∈ tr, h.bucket = h.client) (client : ClientKey) :
    charged tr client = ownTimes tr client := by
  unfold charged ownTimes
  congr 2
  apply List.filter_congr
  intro h hmem
  rw [hown h hmem]
  simp only [Subtype.ext_iff]

/-- A request that finds room after others that found it. -/
theorem decision_of_room {s s' : State} {h : Hit} {pre : List Hit}
    (run : Run (Step g) (State.initial start) pre s) (hstep : Step g s h s')
    (hown : ∀ h' ∈ pre, h'.bucket = h'.client) (hbucket : h.bucket = h.client) :
    h.decision = g.unbounded (ownTimes pre h.client) h.now := by
  obtain ⟨-, entry, hentry, hdecision, -⟩ := hstep.spec
  have hheld := held_sweep (g := g) ((tallied_of_run run h.bucket).later hstep.1)
  rw [hheld.hit_eq, hbucket, charged_eq_ownTimes hown] at hentry
  rw [hdecision, hentry, unbounded]

theorem ownQuota_of_room (run : Run (RoomyStep g) (State.initial start) tr s) : OwnQuota g tr := by
  have hbucket : ∀ (k : ℕ) (_ : k < tr.length), tr[k].bucket = tr[k].client := by
    intro k hk
    obtain ⟨s₀, s₁, -, hstep, hroom⟩ := run.at_index hk
    exact hstep.bucket_eq_client_iff.mpr hroom
  intro k hk
  obtain ⟨s₀, s₁, hpre, hstep, -⟩ := run.at_index hk
  refine ⟨hbucket k hk, decision_of_room (hpre.mono fun h => h.1) hstep ?_ (hbucket k hk)⟩
  intro h hmem
  obtain ⟨j, hj, rfl⟩ := List.mem_iff_getElem.mp (List.mem_of_mem_take hmem)
  exact hbucket j hj

theorem room_of_buckets {s₀ : State} (run : Run (Step g) s₀ tr s)
    (hown : ∀ h ∈ tr, h.bucket = h.client) : Run (RoomyStep g) s₀ tr s := by
  induction run with
  | nil s => exact .nil s
  | cons head tail ih =>
      refine .cons ⟨head, head.bucket_eq_client_iff.mp (hown _ List.mem_cons_self)⟩ ?_
      exact ih fun h hmem => hown h (List.mem_cons_of_mem _ hmem)

end Runs

/-- The limiter keeps the clients of a run apart exactly when each of their
requests finds room. -/
theorem own_quota_iff_room (g : RateLimitGuard) (start : Int) (tr : List Hit) (s : State)
    (run : Run (Step g) (State.initial start) tr s) :
    OwnQuota g tr ↔ Run (RoomyStep g) (State.initial start) tr s := by
  constructor
  · intro hquota
    apply room_of_buckets run
    intro h hmem
    obtain ⟨k, hk, rfl⟩ := List.mem_iff_getElem.mp hmem
    exact (hquota k hk).1
  · exact ownQuota_of_room

/-- One request in a hundred milliseconds, for up to three clients. -/
def crowded : RateLimitGuard :=
  { strict with limit := 1, maxEntries := 4, limit_pos := Nat.one_pos, maxEntries_pos := by decide }

/-- Never more than two clients at a time, each leaving a counter behind. -/
def staggered : List (ClientKey × Int) :=
  [(host '1', 0), (host '2', 50), (host '2', 100), (host '3', 110), (host '4', 155),
    (host '3', 200), (host '5', 215), (host '6', 256), (host '6', 300)]

theorem not_ownQuota_staggered :
    ¬ OwnQuota crowded (crowded.serveAll (State.initial 0) staggered).1 := by
  intro hquota
  have hlast := congrArg Decision.admitted (hquota 8 (by decide)).2
  revert hlast
  decide

/-- The last client is charged to the overflow bucket because of two windows
that are over, and so admitted twice in its window. -/
theorem quota_shared_with_stale_windows :
    ¬ ∀ (g : RateLimitGuard) (start : Int) (tr : List Hit) (s : State),
      Run (Step g) (State.initial start) tr s → FewLive g tr → OwnQuota g tr := by
  intro hclaim
  have hrun := run_serveAll crowded (State.initial 0) staggered (by decide)
  exact not_ownQuota_staggered (hclaim crowded 0 _ _ hrun (by decide))

/-- Two clients find room and keep their quotas; the staggered ones do neither. -/
theorem own_quota_iff_room_burst :
    OwnQuota strict (strict.serveAll (State.initial 0) burst).1 ∧
      ¬ Run (RoomyStep crowded) (State.initial 0)
        (crowded.serveAll (State.initial 0) staggered).1
        (crowded.serveAll (State.initial 0) staggered).2 := by
  have hburst := run_serveAll strict (State.initial 0) burst (by decide)
  have hstaggered := run_serveAll crowded (State.initial 0) staggered (by decide)
  constructor
  · exact (own_quota_iff_room strict 0 _ _ hburst).mpr (room_of_buckets hburst (by decide))
  · intro hroom
    exact not_ownQuota_staggered ((own_quota_iff_room crowded 0 _ _ hstaggered).mpr hroom)

end EncryptionGateway.Common.RateLimitGuard
