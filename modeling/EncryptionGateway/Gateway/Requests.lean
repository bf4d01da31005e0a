import EncryptionGateway.Common.RateLimit
import EncryptionGateway.Common.ReplayWindow
import EncryptionGateway.Proxy.ProxyController

/-!
# Requests in flight

One gateway process with everything a request to `/api/gateway` passes: the rate
limiter, the validation of its body, decryption, the nonce cache, the checks of
`forward`, the upstream and the answer. Requests of any number of clients are
interleaved wherever the code waits, under a clock that never goes back.

## Implementation notes

A request waits between the guard and the handler, and for the upstream; the
handler itself runs without yielding up to the upstream call. The validation of
the body is that of the framework, so a body arrives as its four fields or as
the 400 it is refused with.
-/

namespace EncryptionGateway.Proxy

open JavaScript Foundation Common Encryption

namespace ProxyController

variable {N B K : Type} [JsNumber N]

/-- The call of `assertFresh` in the handler, if the request can be decrypted. -/
def freshCall (controller : ProxyController K) (platform : Platform N B K) (dto : GatewayRequest)
    (now : Int) (seen : ReplayProtection.Seen) : Option (ReplayProtection.Call N) :=
  match controller.encryptionService.decrypt platform.crypto platform.text dto with
  | .error _ => none
  | .ok (payload, _) =>
      some ⟨now, payload,
        (controller.replayProtection.assertFresh platform.timestamps payload now seen).1⟩

/-- `handleGateway` up to the upstream call. -/
def start (controller : ProxyController K) (platform : Platform N B K) (dto : GatewayRequest)
    (now : Int) (seen : ReplayProtection.Seen) :
    Except HttpException (UpstreamRequest N × B) × ReplayProtection.Seen :=
  match controller.accept platform dto now seen with
  | (.error e, seen) => (.error e, seen)
  | (.ok (payload, aesKey), seen) =>
      ((controller.proxyService.prepare platform.text platform.parseUrl payload).map (·, aesKey),
        seen)

/-- The rest of `handleGateway`, once the upstream call has ended. -/
def finish (controller : ProxyController K) (platform : Platform N B K) (iv aesKey : B)
    (outcome : Except String (UpstreamReply N)) : Except HttpException (GatewayReply N) :=
  match outcome with
  | .ok reply => .ok (controller.complete platform iv aesKey
      ⟨reply.status, reply.data, ProxyService.sanitizeResponseHeaders reply.headers⟩)
  | .error code => .error (ProxyService.transportError code)

/-- The handler is its two parts, one after the other. -/
theorem handleGateway_eq (controller : ProxyController K) (platform : Platform N B K)
    (upstream : UpstreamRequest N → Except String (UpstreamReply N)) (iv : B) (dto : GatewayRequest)
    (now : Int) (seen : ReplayProtection.Seen) :
    controller.handleGateway platform upstream iv dto now seen =
      match controller.start platform dto now seen with
      | (.error e, seen) => (.error e, seen)
      | (.ok (request, aesKey), seen) =>
          (controller.finish platform iv aesKey (upstream request), seen) := by
  unfold handleGateway start
  cases haccept : controller.accept platform dto now seen with
  | mk outcome seen' =>
      cases outcome with
      | error e => rfl
      | ok accepted =>
          obtain ⟨payload, aesKey⟩ := accepted
          simp only [ProxyService.forward]
          cases controller.proxyService.prepare platform.text platform.parseUrl payload with
          | error e => rfl
          | ok request =>
              simp only [Except.map, finish]
              cases upstream request <;> rfl

/-- What an upstream call rests on. -/
theorem start_eq_ok {controller : ProxyController K} {platform : Platform N B K}
    {dto : GatewayRequest} {now : Int} {seen seen' : ReplayProtection.Seen}
    {request : UpstreamRequest N} {aesKey : B}
    (h : controller.start platform dto now seen = (.ok (request, aesKey), seen')) :
    ∃ payload, controller.encryptionService.decrypt platform.crypto platform.text dto =
        .ok (payload, aesKey) ∧
      controller.proxyService.prepare platform.text platform.parseUrl payload = .ok request ∧
      controller.freshCall platform dto now seen = some ⟨now, payload, .ok ()⟩ := by
  unfold start at h
  split at h
  · cases congrArg Prod.fst h
  · next payload aesKey' seen'' haccept =>
      rw [Prod.mk.injEq] at h
      obtain ⟨request', hprepare, heq⟩ := map_eq_ok.mp h.1
      cases heq
      have hdecrypt := decrypt_of_accept haccept
      refine ⟨payload, hdecrypt, hprepare, ?_⟩
      rw [accept, hdecrypt, Prod.mk.injEq] at haccept
      obtain ⟨_, hfresh, -⟩ := map_eq_ok.mp haccept.1
      simp only [freshCall, hdecrypt, hfresh]

/-- The nonce cache changes in a call of `assertFresh` only. -/
theorem seen_start (controller : ProxyController K) (platform : Platform N B K)
    (dto : GatewayRequest) (now : Int) (seen : ReplayProtection.Seen) :
    match controller.freshCall platform dto now seen with
    | none => (controller.start platform dto now seen).2 = seen
    | some call => call.now = now ∧
        controller.replayProtection.assertFresh platform.timestamps call.payload now seen =
          (call.verdict, (controller.start platform dto now seen).2) := by
  unfold freshCall start accept
  cases controller.encryptionService.decrypt platform.crypto platform.text dto with
  | error e => rfl
  | ok accepted =>
      obtain ⟨payload, aesKey⟩ := accepted
      cases hfresh : controller.replayProtection.assertFresh platform.timestamps payload
        now seen with
      | mk verdict seen' =>
          refine ⟨rfl, ?_⟩
          simp only [hfresh]
          cases verdict <;> rfl

end ProxyController

end EncryptionGateway.Proxy

namespace EncryptionGateway.Gateway

open JavaScript Foundation Common Encryption Proxy

/-- What the process holds for the endpoint. -/
structure Server (K : Type) where
  rateLimit : RateLimitGuard
  controller : ProxyController K

/-- A request as it reaches the guard: its client, the time, and the body or
the refusal of it. -/
structure Arrival where
  client : ClientKey
  time : Int
  body : Except HttpException GatewayRequest

/-- Where a request is. -/
inductive Stage (N B : Type)
  | admitted
  | forwarding (request : UpstreamRequest N) (aesKey : B)
  | answered

/-- What happens to a request between two waits: the guard, the refusal of the
body, the handler, the end of the upstream call. -/
inductive Action (N : Type)
  | limited (hit : RateLimitGuard.Hit)
  | invalid (e : HttpException)
  | handled (call : Option (ReplayProtection.Call N))
      (outcome : Except HttpException (UpstreamRequest N))
  | finished (upstream : Except String (UpstreamReply N))
      (reply : Except HttpException (GatewayReply N))

structure Event (N : Type) where
  task : ℕ
  arrival : Arrival
  now : Int
  action : Action N

/-- The state of the process: requests by number, other numbers are free. -/
structure State (N B : Type) where
  clock : Int
  counters : RateLimitGuard.Counters
  seen : ReplayProtection.Seen
  tasks : ℕ → Option (Arrival × Stage N B)

def State.initial {N B : Type} (clock : Int) : State N B := ⟨clock, .initial, .empty, fun _ => none⟩

variable {N B K : Type} [JsNumber N]

/-- Where the decision of the guard leaves a request. -/
def afterGuard (decision : RateLimitGuard.Decision) : Stage N B :=
  if decision.admitted then .admitted else .answered

/-- Where the handler leaves a request. -/
def afterHandler (outcome : Except HttpException (UpstreamRequest N × B)) : Stage N B :=
  match outcome with
  | .ok (request, aesKey) => .forwarding request aesKey
  | .error _ => .answered

/-- One step of one request. The upstream answers anything. -/
inductive Step (server : Server K) (platform : Platform N B K) :
    State N B → Event N → State N B → Prop
  | guard {s : State N B} {task : ℕ} {arrival : Arrival} {decision : RateLimitGuard.Decision}
      {counters : RateLimitGuard.Counters} (free : s.tasks task = none)
      (clock : s.clock ≤ arrival.time)
      (h : server.rateLimit.canActivate false arrival.client arrival.time s.counters =
        (decision, counters)) :
      Step server platform s
        ⟨task, arrival, arrival.time, .limited ⟨arrival.client, arrival.time,
          server.rateLimit.bucketOf arrival.client (server.rateLimit.sweep arrival.time s.counters),
          decision⟩⟩
        ⟨arrival.time, counters, s.seen,
          Function.update s.tasks task (some (arrival, afterGuard decision))⟩
  | refuse {s : State N B} {task : ℕ} {arrival : Arrival} {now : Int} {e : HttpException}
      (active : s.tasks task = some (arrival, .admitted)) (clock : s.clock ≤ now)
      (hbody : arrival.body = .error e) (hstatus : e.status = 400) :
      Step server platform s ⟨task, arrival, now, .invalid e⟩
        { s with clock := now, tasks := Function.update s.tasks task (some (arrival, .answered)) }
  | handle {s : State N B} {task : ℕ} {arrival : Arrival} {now : Int} {dto : GatewayRequest}
      {outcome : Except HttpException (UpstreamRequest N × B)} {seen : ReplayProtection.Seen}
      (active : s.tasks task = some (arrival, .admitted)) (clock : s.clock ≤ now)
      (hbody : arrival.body = .ok dto)
      (h : server.controller.start platform dto now s.seen = (outcome, seen)) :
      Step server platform s
        ⟨task, arrival, now,
          .handled (server.controller.freshCall platform dto now s.seen) (outcome.map Prod.fst)⟩
        { s with
          clock := now
          seen := seen
          tasks := Function.update s.tasks task (some (arrival, afterHandler outcome)) }
  | finish {s : State N B} {task : ℕ} {arrival : Arrival} {now : Int} {request : UpstreamRequest N}
      {aesKey : B} (active : s.tasks task = some (arrival, .forwarding request aesKey))
      (clock : s.clock ≤ now) (iv : B) (upstream : Except String (UpstreamReply N)) :
      Step server platform s
        ⟨task, arrival, now, .finished upstream
          (server.controller.finish platform iv aesKey upstream)⟩
        { s with clock := now, tasks := Function.update s.tasks task (some (arrival, .answered)) }

section Views

variable {server : Server K} {platform : Platform N B K} {clock : Int} {tr : List (Event N)}
  {s s' : State N B} {e : Event N}

/-- What the rate limiter sees of an event. -/
def Event.hit (e : Event N) : Option RateLimitGuard.Hit :=
  match e.action with
  | .limited hit => some hit
  | _ => none

/-- What the nonce cache sees of an event. -/
def Event.call (e : Event N) : Option (ReplayProtection.Call N) :=
  match e.action with
  | .handled call _ => call
  | _ => none

theorem Step.clock_le (h : Step server platform s e s') : s.clock ≤ e.now ∧ s'.clock = e.now := by
  cases h with
  | guard _ clock _ => exact ⟨clock, rfl⟩
  | refuse _ clock _ _ => exact ⟨clock, rfl⟩
  | handle _ clock _ _ => exact ⟨clock, rfl⟩
  | finish _ clock _ _ => exact ⟨clock, rfl⟩

/-- The rate limiter takes part in the decisions of the guard only. -/
theorem Step.counters (h : Step server platform s e s') :
    match e.hit with
    | none => s'.counters = s.counters
    | some hit => RateLimitGuard.Step server.rateLimit ⟨s.clock, s.counters⟩ hit
        ⟨s'.clock, s'.counters⟩ := by
  cases h with
  | guard _ clock h => exact ⟨clock, rfl, rfl, h⟩
  | refuse _ _ _ _ => rfl
  | handle _ _ _ _ => rfl
  | finish _ _ _ _ => rfl

/-- The nonce cache takes part in the calls of `assertFresh` only. -/
theorem Step.seen (h : Step server platform s e s') :
    match e.call with
    | none => s'.seen = s.seen
    | some call => ReplayProtection.Step server.controller.replayProtection platform.timestamps
        ⟨s.clock, s.seen⟩ call ⟨s'.clock, s'.seen⟩ := by
  cases h with
  | guard _ _ _ => rfl
  | refuse _ _ _ _ => rfl
  | @handle _ _ now dto _ _ _ clock _ h =>
      have hseen := server.controller.seen_start platform dto now s.seen
      rw [h] at hseen
      simp only [Event.call]
      cases hcall : server.controller.freshCall platform dto now s.seen with
      | none =>
          rw [hcall] at hseen
          exact hseen
      | some call =>
          rw [hcall] at hseen
          exact ⟨hseen.1 ▸ clock, hseen.1.symm, hseen.1 ▸ hseen.2⟩
  | finish _ _ _ _ => rfl

/-- The decisions of the guard, in the order of a run, are a run of the rate
limiter on its own. -/
theorem limits_of_run (run : Run (Step server platform) (State.initial clock) tr s) :
    ∃ t, Run (RateLimitGuard.Step server.rateLimit) (RateLimitGuard.State.initial clock)
      (tr.filterMap Event.hit) t ∧ t.clock ≤ s.clock ∧ t.counters = s.counters := by
  refine run.projection _ _ (R := fun s (t : RateLimitGuard.State) =>
    t.clock ≤ s.clock ∧ t.counters = s.counters) (t := .initial clock) ⟨le_rfl, rfl⟩ ?_ ?_
  · intro s e s' t hR hstep hview
    have hcounters := hstep.counters
    rw [hview] at hcounters
    exact ⟨hR.1.trans (hstep.clock_le.2 ▸ hstep.clock_le.1), hR.2.trans hcounters.symm⟩
  · intro s e s' t hit hR hstep hview
    have hcounters := hstep.counters
    rw [hview] at hcounters
    obtain ⟨hclock, hclock', hbucket, hactivate⟩ := hcounters
    refine ⟨⟨s'.clock, s'.counters⟩, ⟨hR.1.trans hclock, hclock', ?_, ?_⟩, le_rfl, rfl⟩
    · rw [hbucket, RateLimitGuard.State.bucketAt, RateLimitGuard.State.bucketAt, hR.2]
    · rw [hR.2]
      exact hactivate

/-- The calls of `assertFresh`, in the order of a run, are a run of the nonce
cache on its own. -/
theorem calls_of_run (run : Run (Step server platform) (State.initial clock) tr s) :
    ∃ t, Run (ReplayProtection.Step server.controller.replayProtection platform.timestamps)
      (ReplayProtection.State.initial clock) (tr.filterMap Event.call) t ∧
      t.clock ≤ s.clock ∧ t.seen = s.seen := by
  refine run.projection _ _ (R := fun s (t : ReplayProtection.State) =>
    t.clock ≤ s.clock ∧ t.seen = s.seen) (t := .initial clock) ⟨le_rfl, rfl⟩ ?_ ?_
  · intro s e s' t hR hstep hview
    have hseen := hstep.seen
    rw [hview] at hseen
    exact ⟨hR.1.trans (hstep.clock_le.2 ▸ hstep.clock_le.1), hR.2.trans hseen.symm⟩
  · intro s e s' t call hR hstep hview
    have hseen := hstep.seen
    rw [hview] at hseen
    obtain ⟨hclock, hclock', hfresh⟩ := hseen
    refine ⟨⟨s'.clock, s'.seen⟩, ⟨hR.1.trans hclock, hclock', ?_⟩, le_rfl, rfl⟩
    rw [hR.2]
    exact hfresh

end Views

end EncryptionGateway.Gateway
