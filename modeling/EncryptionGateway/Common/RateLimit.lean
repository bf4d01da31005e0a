import EncryptionGateway.Common.Config
import EncryptionGateway.Foundation.FixedWindow
import EncryptionGateway.Foundation.InsertionMap
import EncryptionGateway.Foundation.Run
import Mathlib.Data.Rat.Floor

/-!
# Rate limiting

`RateLimitGuard.canActivate` over its bounded map of counters, and its runs.
Clients share one counter, the overflow bucket, while the map is full; expired
windows leave the map in a sweep that runs at most once per period.

## Implementation notes

A client key comes from an address and holds no NUL, so it is never the key of
the overflow bucket. The source changes a stored counter in place; here the
changed counter is set at its old position.
-/

namespace EncryptionGateway.Common

open JavaScript Foundation

def OVERFLOW_KEY : String := "\u0000rate-limit-overflow"

/-- What `clientIpKey` makes of the address of a request. -/
abbrev ClientKey := { key : String // key ≠ OVERFLOW_KEY }

theorem address_ne_overflow (last : Char) :
    String.ofList ("10.0.0.".toList ++ [last]) ≠ OVERFLOW_KEY := by
  intro h
  have hhead := congrArg (fun s => s.toList.head?) h
  simp [OVERFLOW_KEY] at hhead

/-- A client by the last figure of its address. -/
def host (last : Char) : ClientKey :=
  ⟨String.ofList ("10.0.0.".toList ++ [last]), address_ne_overflow last⟩

structure RateLimitGuard where
  ttlMs : ℕ
  limit : ℕ
  maxEntries : ℕ
  ttlMs_pos : 0 < ttlMs
  limit_pos : 0 < limit
  maxEntries_pos : 0 < maxEntries

namespace RateLimitGuard

section Configuration

variable {N : Type} [JsNumber N] (json : JsonText N) (config : Config)

/-- A reader whose result carries its own check. -/
def positive (name : String) (fallback : ℕ) (hfallback : 0 < fallback) :
    Except String { n : ℕ // 0 < n } :=
  match h : positiveInteger json config name fallback with
  | .error e => .error e
  | .ok n => .ok ⟨n, positiveInteger_pos hfallback h⟩

theorem default_ttlMs_pos : 0 < 60000 := by decide

theorem default_limit_pos : 0 < 60 := by decide

theorem default_maxEntries_pos : 0 < 10000 := by decide

def configured : Except String RateLimitGuard := do
  let ttlMs ← positive json config "THROTTLE_TTL_MS" 60000 default_ttlMs_pos
  let limit ← positive json config "THROTTLE_LIMIT" 60 default_limit_pos
  let maxEntries ← positive json config "THROTTLE_MAX_ENTRIES" 10000 default_maxEntries_pos
  return ⟨ttlMs, limit, maxEntries, ttlMs.2, limit.2, maxEntries.2⟩

end Configuration

structure Counters where
  hits : InsertionMap String Window
  nextSweepAt : Int

def Counters.initial : Counters := ⟨.empty, 0⟩

/-- The headers set on the response, in their order, and whether the request
goes on. -/
structure Decision where
  headers : List (String × Int)
  outcome : Except HttpException Unit

def Decision.admitted (d : Decision) : Bool :=
  match d.outcome with
  | .ok _ => true
  | .error _ => false

/-- Drops expired windows at most once per period. -/
def sweep (g : RateLimitGuard) (now : Int) (s : Counters) : Counters :=
  if now < s.nextSweepAt then s
  else ⟨s.hits.keep fun _ w => decide (now < w.resetAt), now + g.ttlMs⟩

/-- The counter a request is charged to: new addresses share one bucket while
the map is full. -/
def bucketOf (g : RateLimitGuard) (client : ClientKey) (s : Counters) : String :=
  if s.hits.has client = false ∧ g.maxEntries - 1 ≤ s.hits.size then OVERFLOW_KEY else client

/-- Count a request in the window of its bucket, which it opens if need be. -/
def charge (g : RateLimitGuard) (key : String) (now : Int) (s : Counters) : Window × Counters :=
  let entry := Window.hit g.ttlMs now (s.hits.get key)
  (entry, { s with hits := s.hits.set key entry })

/-- `Math.ceil((entry.resetAt - now) / 1000)`. -/
def resetSeconds (entry : Window) (now : Int) : Int := ⌈((entry.resetAt - now : Int) : ℚ) / 1000⌉

def decision (g : RateLimitGuard) (entry : Window) (now : Int) : Decision :=
  let headers := [("X-RateLimit-Limit", (g.limit : Int)),
    ("X-RateLimit-Remaining", max 0 ((g.limit : Int) - entry.count)),
    ("X-RateLimit-Reset", resetSeconds entry now)]
  if g.limit < entry.count then
    ⟨headers ++ [("Retry-After", resetSeconds entry now)],
      .error ⟨429, none, "ThrottlerException: Too Many Requests"⟩⟩
  else ⟨headers, .ok ()⟩

/-- `skip` is the mark of an exempt route. -/
def canActivate (g : RateLimitGuard) (skip : Bool) (client : ClientKey) (now : Int)
    (s : Counters) : Decision × Counters :=
  if skip then (⟨[], .ok ()⟩, s)
  else
    let s := g.sweep now s
    let (entry, s) := g.charge (g.bucketOf client s) now s
    (g.decision entry now, s)

theorem admitted_decision (g : RateLimitGuard) (entry : Window) (now : Int) :
    (g.decision entry now).admitted = true ↔ entry.count ≤ g.limit := by
  unfold decision
  by_cases h : g.limit < entry.count
  · simp [h, Decision.admitted, not_le.mpr h]
  · simp [h, Decision.admitted, not_lt.mp h]

theorem canActivate_limited (g : RateLimitGuard) (client : ClientKey) (now : Int) (s : Counters) :
    g.canActivate false client now s =
      (g.decision (g.charge (g.bucketOf client (g.sweep now s)) now (g.sweep now s)).1 now,
        (g.charge (g.bucketOf client (g.sweep now s)) now (g.sweep now s)).2) := rfl

section Runs

/-- A rate-limited request with the bucket it was charged to and the answer. -/
structure Hit where
  client : ClientKey
  now : Int
  bucket : String
  decision : Decision

def Hit.admitted (h : Hit) : Bool := h.decision.admitted

/-- The counters and the time of the last request. -/
structure State where
  clock : Int
  counters : Counters

def State.initial (clock : Int) : State := ⟨clock, .initial⟩

/-- The bucket that a request of the client at this time is charged to. -/
def State.bucketAt (g : RateLimitGuard) (s : State) (client : ClientKey) (now : Int) : String :=
  g.bucketOf client (g.sweep now s.counters)

/-- A rate-limited request at a time that is not before the last one. -/
def Step (g : RateLimitGuard) (s : State) (h : Hit) (s' : State) : Prop :=
  s.clock ≤ h.now ∧ s'.clock = h.now ∧ h.bucket = s.bucketAt g h.client h.now ∧
    g.canActivate false h.client h.now s.counters = (h.decision, s'.counters)

/-- The times of the requests a bucket was charged with, the latest first. -/
def charged (tr : List Hit) (bucket : String) : List Int :=
  ((tr.filter fun h => decide (h.bucket = bucket)).map Hit.now).reverse

/-- The answer to one request, as a label of a run. -/
def serve (g : RateLimitGuard) (s : State) (request : ClientKey × Int) : Hit × State :=
  let (decision, counters) := g.canActivate false request.1 request.2 s.counters
  (⟨request.1, request.2, s.bucketAt g request.1 request.2, decision⟩, ⟨request.2, counters⟩)

theorem step_serve (g : RateLimitGuard) {s : State} {request : ClientKey × Int}
    (h : s.clock ≤ request.2) : Step g s (g.serve s request).1 (g.serve s request).2 :=
  ⟨h, rfl, rfl, rfl⟩

/-- A list of requests answered one after the other. -/
def serveAll (g : RateLimitGuard) (s : State) : List (ClientKey × Int) → List Hit × State
  | [] => ([], s)
  | request :: later =>
      let (h, s) := g.serve s request
      let (hits, s) := g.serveAll s later
      (h :: hits, s)

/-- Requests in the order of their times make a run. -/
theorem run_serveAll (g : RateLimitGuard) (s : State) (requests : List (ClientKey × Int))
    (h : (s.clock :: requests.map Prod.snd).IsChain (· ≤ ·)) :
    Run (Step g) s (g.serveAll s requests).1 (g.serveAll s requests).2 := by
  induction requests generalizing s with
  | nil => exact .nil s
  | cons request later ih =>
      rw [List.map_cons, List.isChain_cons_cons] at h
      exact .cons (g.step_serve h.1) (ih _ h.2)

theorem charged_snoc (tr : List Hit) (h : Hit) (bucket : String) :
    charged (tr ++ [h]) bucket =
      if h.bucket = bucket then h.now :: charged tr bucket else charged tr bucket := by
  unfold charged
  by_cases hb : h.bucket = bucket <;> simp [hb]

end Runs

end RateLimitGuard

end EncryptionGateway.Common
