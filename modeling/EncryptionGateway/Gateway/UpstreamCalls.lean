import EncryptionGateway.Gateway.Lifecycle

/-!
# What reaches the upstream

Every upstream call of a run belongs to one request that passed the guard, was
decrypted, was fresh and was allowed by the configuration. The rate limiter
thereby bounds the load that a client puts on the upstream, and the nonce cache
keeps the calls made under one nonce apart.
-/

namespace EncryptionGateway.Gateway

open JavaScript Foundation Common Encryption Proxy

variable {N B K : Type} [JsNumber N] {server : Server K} {platform : Platform N B K} {clock : Int}
  {tr : List (Event N)} {s : State N B} {e : Event N}

/-- The upstream call made with an event. -/
def Event.upstream (e : Event N) : Option (UpstreamRequest N) :=
  match e.action with
  | .handled _ (.ok request) => some request
  | _ => none

omit [JsNumber N] in
theorem Event.upstream_eq_some {request : UpstreamRequest N} :
    e.upstream = some request ↔ ∃ call, e.action = .handled call (.ok request) := by
  unfold Event.upstream
  split
  · next call request' heq => simp [heq]
  · next hne => exact ⟨nofun, fun ⟨call, h⟩ => absurd h (hne _ _)⟩

/-- A request with a history is in some stage. -/
theorem life_of_mem (run : Run (Step server platform) (State.initial clock) tr s) (hmem : e ∈ tr) :
    ∃ arrival stage, Life server platform e.task arrival (history tr e.task) stage := by
  have haccounted := accounted_of_run run e.task
  have hin : e ∈ history tr e.task := mem_history.mpr ⟨hmem, rfl⟩
  unfold Accounted at haccounted
  cases htask : s.tasks e.task with
  | none =>
      rw [htask] at haccounted
      rw [haccounted] at hin
      cases hin
  | some entry =>
      rw [htask] at haccounted
      exact ⟨entry.1, entry.2, haccounted⟩

/-- The history of a request that was sent: the guard, the call, and what the
upstream came to once it has answered. -/
def SentOnce (server : Server K) (platform : Platform N B K) (tr : List (Event N)) (e : Event N)
    (request : UpstreamRequest N) : Prop :=
  ∃ (hit : RateLimitGuard.Hit) (payload : DecryptedPayload N) (aesKey : B) (rest : List (Event N)),
    history tr e.task = .entry e.task e.arrival hit :: e :: rest ∧
    hit.client = e.arrival.client ∧ hit.now = e.arrival.time ∧ hit.admitted = true ∧
    Sent server platform e.arrival e.now e.call payload request aesKey ∧
    (rest = [] ∨ ∃ later iv upstream, rest = [⟨e.task, e.arrival, later,
      .finished upstream (server.controller.finish platform iv aesKey upstream)⟩])

/-- Only the second event of a history can be an upstream call. -/
theorem Life.sentOnce {arrival : Arrival} {stage : Stage N B} {request : UpstreamRequest N}
    (h : Life server platform e.task arrival (history tr e.task) stage)
    (hmem : e ∈ history tr e.task) (hsent : e.upstream = some request) :
    SentOnce server platform tr e request := by
  obtain ⟨call, haction⟩ := Event.upstream_eq_some.mp hsent
  obtain ⟨task, arrival', now, action⟩ := e
  obtain rfl : action = .handled call (.ok request) := haction
  cases stage with
  | admitted =>
      obtain ⟨hit, -, -, -, heq⟩ := h.of_admitted
      rw [heq] at hmem
      cases List.mem_singleton.mp hmem
  | forwarding request' aesKey =>
      obtain ⟨hit, now', call', payload, hclient, htime, hadmitted, hsent', heq⟩ := h.of_forwarding
      rw [heq] at hmem
      rcases List.mem_cons.mp hmem with hfirst | hsecond
      · cases hfirst
      · cases List.mem_singleton.mp hsecond
        exact ⟨hit, payload, aesKey, [], heq, hclient, htime, hadmitted, hsent', Or.inl rfl⟩
  | answered =>
      obtain ⟨hit, hclient, htime, ⟨e, -, -, -, heq⟩ | ⟨hadmitted, ⟨now', e, -, heq⟩ |
        ⟨now', call', e, -, heq⟩ | ⟨now', call', payload, request', aesKey, later, iv, upstream,
          hsent', heq⟩⟩⟩ := h.of_answered
      · rw [heq] at hmem
        cases List.mem_singleton.mp hmem
      · rw [heq] at hmem
        simp [Event.entry] at hmem
      · rw [heq] at hmem
        simp [Event.entry] at hmem
      · rw [heq] at hmem
        obtain ⟨rfl, rfl, rfl, rfl⟩ : arrival' = arrival ∧ now = now' ∧ call = call' ∧
            request = request' := by
          simpa [Event.entry] using hmem
        exact ⟨hit, payload, aesKey, _, heq, hclient, htime, hadmitted, hsent',
          Or.inr ⟨later, iv, upstream, rfl⟩⟩

theorem sentOnce_of_run (run : Run (Step server platform) (State.initial clock) tr s)
    (hmem : e ∈ tr) {request : UpstreamRequest N} (hsent : e.upstream = some request) :
    SentOnce server platform tr e request := by
  obtain ⟨arrival, stage, hlife⟩ := life_of_mem run hmem
  exact hlife.sentOnce (mem_history.mpr ⟨hmem, rfl⟩) hsent

/-- Every upstream call is allowed by the configuration and made once for its
request, which the guard let through before, with a payload that the server
opened and whose nonce it accepted; the history of the request ends with the
answer to this call. -/
theorem upstream_calls_accounted (json : JsonText N) (config : Config) (server : Server K)
    (platform : Platform N B K) (clock : Int) (tr : List (Event N)) (s : State N B)
    (hservice : ProxyService.create json platform.parseUrl config =
      .ok server.controller.proxyService)
    (run : Run (Step server platform) (State.initial clock) tr s) (e : Event N)
    (request : UpstreamRequest N) (hmem : e ∈ tr) (hsent : e.upstream = some request) :
    Mediated platform.parseUrl config request ∧ SentOnce server platform tr e request := by
  have honce := sentOnce_of_run run hmem hsent
  obtain ⟨hit, payload, aesKey, rest, -, -, -, -, hrests, -⟩ := id honce
  exact ⟨ProxyService.mediated_of_prepare hservice hrests.prepared, honce⟩

theorem upstream_calls_accounted_payment :
    Mediated ProxyService.sampleParser ProxyService.sampleConfig ticketRequest ∧
      SentOnce sampleServer samplePlatform sampleTrace (forwarded 0 firstNonce sampleStart)
        ticketRequest := by
  obtain ⟨s, hrun, -⟩ := sample_run
  exact upstream_calls_accounted (JsonText.standard ℤ) ProxyService.sampleConfig sampleServer
    samplePlatform sampleStart sampleTrace s ProxyService.create_sampleService hrun _ ticketRequest
    (by simp [sampleTrace]) rfl

section Load

/-- The upstream calls for requests of a client that arrived in a period. -/
def sentFor (tr : List (Event N)) (client : ClientKey) (left : Int) (width : ℕ) : List (Event N) :=
  tr.filter fun e => decide (e.arrival.client = client ∧ left ≤ e.arrival.time ∧
    e.arrival.time < left + width) && e.upstream.isSome

/-- The decisions that let such requests through. -/
def Event.admits (client : ClientKey) (left : Int) (width : ℕ) (e : Event N) : Bool :=
  e.hit.any fun hit => decide (hit.client = client ∧ left ≤ hit.now ∧ hit.now < left + width) &&
    hit.admitted

omit [JsNumber N] in
/-- They are counted by the rate limiter. -/
theorem length_admits (g : RateLimitGuard) (tr : List (Event N)) (client : ClientKey) (left : Int) :
    (tr.filter (Event.admits client left g.ttlMs)).length =
      (RateLimitGuard.admittedOf g (tr.filterMap Event.hit) client left).length := by
  induction tr with
  | nil => rfl
  | cons e tr ih =>
      cases hhit : e.hit with
      | none =>
          have hout : ¬ e.admits client left g.ttlMs = true := by simp [Event.admits, hhit]
          rw [List.filterMap_cons_none hhit, List.filter_cons_of_neg hout, ih]
      | some hit =>
          rw [List.filterMap_cons_some hhit, RateLimitGuard.admittedOf, List.filter_cons,
            List.filter_cons]
          have hsame : e.admits client left g.ttlMs =
              (decide (hit.client = client ∧ left ≤ hit.now ∧
              hit.now < left + g.ttlMs) && hit.admitted) := by simp [Event.admits, hhit]
          rw [hsame]
          split
          · exact congrArg Nat.succ ih
          · exact ih

omit [JsNumber N] in
theorem upstream_entry (task : ℕ) (arrival : Arrival) (hit : RateLimitGuard.Hit) :
    (Event.entry task arrival hit : Event N).upstream = none := rfl

/-- A request is sent once. -/
theorem SentOnce.filter_upstream {request : UpstreamRequest N}
    (h : SentOnce server platform tr e request) (hsent : e.upstream = some request) :
    (history tr e.task).filter (fun e => e.upstream.isSome) = [e] := by
  obtain ⟨hit, payload, aesKey, rest, heq, -, -, -, -, hrest⟩ := h
  have hnone : rest.filter (fun e => e.upstream.isSome) = [] := by
    rcases hrest with rfl | ⟨later, iv, upstream, rfl⟩
    · rfl
    · rfl
  rw [heq, List.filter_cons_of_neg (by simp [upstream_entry]),
    List.filter_cons_of_pos (by simp [hsent]), hnone]

/-- Keys that are met at most once each are distinct. -/
theorem nodup_map_of_unique {α β : Type*} [DecidableEq β] {f : α → β} {l : List α}
    (h : ∀ a ∈ l, (l.filter fun b => decide (f b = f a)).length ≤ 1) : (l.map f).Nodup := by
  rw [List.nodup_iff_count_le_one]
  intro key
  rw [List.count_eq_countP, List.countP_map, List.countP_eq_length_filter]
  by_cases hkey : ∃ a ∈ l, f a = key
  · obtain ⟨a, ha, rfl⟩ := hkey
    exact h a ha
  · have hnone : (l.filter ((fun b => b == key) ∘ f)) = [] := by
      refine List.filter_eq_nil_iff.mpr fun a ha heq => hkey ⟨a, ha, ?_⟩
      simpa using heq
    rw [hnone]
    exact Nat.zero_le 1

theorem nodup_sentFor (run : Run (Step server platform) (State.initial clock) tr s)
    (client : ClientKey) (left : Int) (width : ℕ) :
    ((sentFor tr client left width).map Event.task).Nodup := by
  apply nodup_map_of_unique
  intro e he
  obtain ⟨hmem, hin⟩ := List.mem_filter.mp he
  obtain ⟨request, hsent⟩ := Option.isSome_iff_exists.mp (Bool.and_eq_true_iff.mp hin).2
  have honly := (sentOnce_of_run run hmem hsent).filter_upstream hsent
  have hsub : ((sentFor tr client left width).filter fun b => decide (b.task = e.task)).Sublist
      ((history tr e.task).filter fun e => e.upstream.isSome) := by
    rw [sentFor, history, List.filter_filter, List.filter_filter]
    refine List.monotone_filter_right tr fun b hb => ?_
    simp only [Bool.and_eq_true] at hb ⊢
    exact ⟨hb.2.2, hb.1⟩
  rw [honly] at hsub
  exact hsub.length_le

/-- The calls are no more than the requests that the guard has let through. -/
theorem length_sentFor_le (run : Run (Step server platform) (State.initial clock) tr s)
    (client : ClientKey) (left : Int) :
    (sentFor tr client left server.rateLimit.ttlMs).length ≤
      (RateLimitGuard.admittedOf server.rateLimit (tr.filterMap Event.hit) client left).length := by
  rw [← length_admits, ← List.length_map Event.task, ← List.length_map Event.task]
  refine ((nodup_sentFor run client left _).subperm ?_).length_le
  intro task htask
  obtain ⟨e, he, rfl⟩ := List.mem_map.mp htask
  obtain ⟨hmem, hin⟩ := List.mem_filter.mp he
  obtain ⟨hperiod, hsome⟩ := Bool.and_eq_true_iff.mp hin
  obtain ⟨request, hsent⟩ := Option.isSome_iff_exists.mp hsome
  obtain ⟨hit, payload, aesKey, rest, heq, hclient, htime, hadmitted, -⟩ :=
    sentOnce_of_run run hmem hsent
  have hentry : Event.entry e.task e.arrival hit ∈ history tr e.task := heq ▸ List.mem_cons_self
  refine List.mem_map.mpr ⟨_, List.mem_filter.mpr ⟨(mem_history.mp hentry).1, ?_⟩, rfl⟩
  simp only [Event.admits, Event.entry, Event.hit, Option.any_some, hclient, htime, hadmitted,
    Bool.and_true]
  exact hperiod

/-- For the requests of a client that arrive in one period, fewer upstream calls
are made than three times the limit, and fewer than twice the limit when none of
them was charged to the overflow bucket. -/
theorem upstream_load_bounded (server : Server K) (platform : Platform N B K) (clock : Int)
    (tr : List (Event N)) (s : State N B)
    (run : Run (Step server platform) (State.initial clock) tr s) (client : ClientKey)
    (left : Int) :
    (sentFor tr client left server.rateLimit.ttlMs).length < 3 * server.rateLimit.limit ∧
      (¬ RateLimitGuard.Overflowed server.rateLimit (tr.filterMap Event.hit) client left →
        (sentFor tr client left server.rateLimit.ttlMs).length < 2 * server.rateLimit.limit) := by
  have hsent := length_sentFor_le run client left
  obtain ⟨t, hlimits, -⟩ := limits_of_run run
  obtain ⟨hboth, hown⟩ := RateLimitGuard.admittedOf_le hlimits client left
  have hshared := RateLimitGuard.shared_lt hlimits left
  have hlt := RateLimitGuard.own_lt hlimits client left
  have hpos := server.rateLimit.limit_pos
  constructor
  · by_cases hover : RateLimitGuard.Overflowed server.rateLimit (tr.filterMap Event.hit) client left
    · have hle := RateLimitGuard.own_le_of_overflowed hlimits hover
      omega
    · have hle := hown hover
      omega
  · intro hnever
    have hle := hown hnever
    omega

theorem upstream_load_bounded_payment :
    (sentFor sampleTrace (host '1') sampleStart 100).length = 2 ∧
      (sentFor sampleTrace (host '1') sampleStart 100).length < 6 := by
  obtain ⟨s, hrun, -⟩ := sample_run
  refine ⟨by decide, ?_⟩
  exact (upstream_load_bounded sampleServer samplePlatform sampleStart sampleTrace s hrun
    (host '1') sampleStart).1

end Load

section Nonces

theorem call_of_upstream (run : Run (Step server platform) (State.initial clock) tr s)
    (hmem : e ∈ tr) {request : UpstreamRequest N} (hsent : e.upstream = some request) :
    ∃ payload, e.call = some ⟨e.now, payload, .ok ()⟩ := by
  obtain ⟨hit, payload, aesKey, rest, -, -, -, -, hsent', -⟩ := sentOnce_of_run run hmem hsent
  exact ⟨payload, hsent'.fresh⟩

/-- With nonces required, every payload whose request went upstream was on time
with a well-formed nonce; and as long as no acceptance of the run is crowded,
two calls under one nonce are at least the skew apart. -/
theorem upstream_nonces_apart (server : Server K) (platform : Platform N B K) (start : ℕ)
    (tr : List (Event N)) (s : State N B)
    (hrequired : server.controller.replayProtection.required = true)
    (run : Run (Step server platform) (State.initial start) tr s) :
    (∀ e ∈ tr, ∀ request, e.upstream = some request →
      ∃ payload, e.call = some ⟨e.now, payload, .ok ()⟩ ∧
        ReplayProtection.Admissible server.controller.replayProtection platform.timestamps payload
          e.now) ∧
    (server.controller.replayProtection.Uncrowded (tr.filterMap Event.call) →
      ∀ (pre mid post : List (Event N)) (e e' : Event N) (request request' : UpstreamRequest N),
        tr = pre ++ e :: (mid ++ e' :: post) → e.upstream = some request →
        e'.upstream = some request' →
        ∃ payload payload', e.call = some ⟨e.now, payload, .ok ()⟩ ∧
          e'.call = some ⟨e'.now, payload', .ok ()⟩ ∧
          (ReplayProtection.nonceOf payload = ReplayProtection.nonceOf payload' →
            e.now + server.controller.replayProtection.maxSkewMs ≤ e'.now)) := by
  constructor
  · intro e hmem request hsent
    obtain ⟨payload, hcall⟩ := call_of_upstream run hmem hsent
    obtain ⟨pre, post, rfl⟩ := List.append_of_mem hmem
    obtain ⟨t, t', -, hstep, -⟩ := run.at_label
    have hseen := hstep.seen
    rw [hcall] at hseen
    exact ⟨payload, hcall, ReplayProtection.Step.admissible hseen hrequired rfl⟩
  · rintro huncrowded pre mid post e e' request request' rfl hsent hsent'
    obtain ⟨payload, hcall⟩ := call_of_upstream run (by simp) hsent
    obtain ⟨payload', hcall'⟩ := call_of_upstream run (by simp) hsent'
    obtain ⟨t, hcalls, -⟩ := calls_of_run run
    rw [List.filterMap_append, List.filterMap_cons_some hcall, List.filterMap_append,
      List.filterMap_cons_some hcall'] at hcalls huncrowded
    exact ⟨payload, payload', hcall, hcall',
      ReplayProtection.apart_of_run hcalls hrequired huncrowded rfl rfl⟩

section Samples

def sampleReturn : ℤ := sampleStart + 60000

def returnGuard : RateLimitGuard.Decision × RateLimitGuard.Counters :=
  RateLimitGuard.strict.canActivate false (host '1') sampleReturn firstGuard.2

/-- Two payments under one nonce, the second when the skew has passed. -/
def returningTrace : List (Event ℤ) :=
  [guarded 0 firstNonce sampleStart .initial firstGuard.1, forwarded 0 firstNonce sampleStart,
    guarded 1 firstNonce sampleReturn firstGuard.2 returnGuard.1,
    forwarded 1 firstNonce sampleReturn]

theorem returning_run :
    ∃ s, Run (Step sampleServer samplePlatform) (State.initial sampleStart) returningTrace s := by
  have hfirst : (ReplayProtection.documented.claim sampleStart firstNonce .empty).1 = .ok () := rfl
  have hreturn : (ReplayProtection.documented.claim sampleReturn firstNonce firstClaim).1 =
      .ok () := rfl
  exact ⟨_, .cons (.guard rfl le_rfl rfl) (.cons (step_forwarded rfl le_rfl rfl (by decide) hfirst)
    (.cons (.guard rfl (by decide) rfl) (.cons (step_forwarded rfl le_rfl rfl (by decide) hreturn)
      (.nil _))))⟩

theorem upstream_nonces_apart_payments :
    ∃ payload payload', (forwarded 0 firstNonce sampleStart).call =
        some ⟨sampleStart, payload, .ok ()⟩ ∧
      (forwarded 1 firstNonce sampleReturn).call = some ⟨sampleReturn, payload', .ok ()⟩ ∧
      ReplayProtection.Admissible ReplayProtection.documented samplePlatform.timestamps payload
        sampleStart ∧
      ReplayProtection.nonceOf payload = ReplayProtection.nonceOf payload' ∧
      (sampleStart : ℤ) + ReplayProtection.documented.maxSkewMs ≤ sampleReturn := by
  obtain ⟨s, hrun⟩ := returning_run
  have hfits : (ReplayProtection.presented (returningTrace.filterMap Event.call)).card ≤ 10000 :=
    (List.toFinset_card_le _).trans (by decide)
  obtain ⟨hadmissible, hapart⟩ := upstream_nonces_apart sampleServer samplePlatform sampleStart
    returningTrace s rfl hrun
  obtain ⟨payload, hcall, hontime⟩ := hadmissible (forwarded 0 firstNonce sampleStart)
    (by simp [returningTrace]) ticketRequest rfl
  obtain ⟨first, second, hfirst, hsecond, hspaced⟩ :=
    hapart (ReplayProtection.uncrowded_of_fits hfits)
      [guarded 0 firstNonce sampleStart .initial firstGuard.1]
      [guarded 1 firstNonce sampleReturn firstGuard.2 returnGuard.1] []
      (forwarded 0 firstNonce sampleStart) (forwarded 1 firstNonce sampleReturn) ticketRequest
      ticketRequest rfl rfl rfl
  cases hcall
  cases hfirst
  cases hsecond
  exact ⟨_, _, rfl, rfl, hontime, rfl, hspaced rfl⟩

end Samples

end Nonces

end EncryptionGateway.Gateway
