import EncryptionGateway.Channel.Delivery
import EncryptionGateway.Channel.Session
import EncryptionGateway.Common.RateLimitHeaders
import EncryptionGateway.Common.ReplayReference
import EncryptionGateway.Gateway.Requests
import EncryptionGateway.Proxy.Mediation

/-!
# The life of a request

The events of one request, picked out of a run in which any number of others
are handled meanwhile, are the guard, the body, the handler and the upstream,
in this order, until the request is answered. What a run sends upstream, how
often and under which nonces, is read off these histories.
-/

namespace EncryptionGateway.Gateway

open JavaScript Foundation Common Encryption Proxy

variable {N B K : Type} [JsNumber N]

/-- The events of one request. -/
def history (tr : List (Event N)) (task : ℕ) : List (Event N) :=
  tr.filter fun e => decide (e.task = task)

/-- The request was let through by the guard. -/
def Event.entry (task : ℕ) (arrival : Arrival) (hit : RateLimitGuard.Hit) : Event N :=
  ⟨task, arrival, arrival.time, .limited hit⟩

/-- What the handler sends upstream, and everything it rests on. -/
structure Sent (server : Server K) (platform : Platform N B K) (arrival : Arrival) (now : Int)
    (call : Option (ReplayProtection.Call N)) (payload : DecryptedPayload N)
    (request : UpstreamRequest N) (aesKey : B) : Prop where
  decrypted : ∃ dto, arrival.body = .ok dto ∧
    server.controller.encryptionService.decrypt platform.crypto platform.text dto =
      .ok (payload, aesKey)
  fresh : call = some ⟨now, payload, .ok ()⟩
  prepared : server.controller.proxyService.prepare platform.text platform.parseUrl payload =
    .ok request
  headers : ∀ name value, request.headers.get name = some value ↔
    ¬ Dropped (headerPairs payload.Header) name ∧
      lastValue (headerPairs payload.Header) name = some value

/-- The histories of a request, with the stage each leads to. -/
inductive Life (server : Server K) (platform : Platform N B K) (task : ℕ) (arrival : Arrival) :
    List (Event N) → Stage N B → Prop
  | entered {hit : RateLimitGuard.Hit} (client : hit.client = arrival.client)
      (time : hit.now = arrival.time)
      (refused : hit.admitted = false → ∃ e, hit.decision.outcome = .error e ∧ e.status = 429) :
      Life server platform task arrival [.entry task arrival hit] (afterGuard hit.decision)
  | invalid {before : List (Event N)} {now : Int} {e : HttpException}
      (h : Life server platform task arrival before .admitted) (status : e.status = 400) :
      Life server platform task arrival (before ++ [⟨task, arrival, now, .invalid e⟩]) .answered
  | failed {before : List (Event N)} {now : Int} {call : Option (ReplayProtection.Call N)}
      {e : HttpException} (h : Life server platform task arrival before .admitted)
      (status : e.status = 400) :
      Life server platform task arrival (before ++ [⟨task, arrival, now, .handled call (.error e)⟩])
        .answered
  | sent {before : List (Event N)} {now : Int} {call : Option (ReplayProtection.Call N)}
      {payload : DecryptedPayload N} {request : UpstreamRequest N} {aesKey : B}
      (h : Life server platform task arrival before .admitted)
      (hsent : Sent server platform arrival now call payload request aesKey) :
      Life server platform task arrival
        (before ++ [⟨task, arrival, now, .handled call (.ok request)⟩])
        (.forwarding request aesKey)
  | finished {before : List (Event N)} {now : Int} {request : UpstreamRequest N} {aesKey : B}
      (h : Life server platform task arrival before (.forwarding request aesKey)) (iv : B)
      (upstream : Except String (UpstreamReply N)) :
      Life server platform task arrival
        (before ++ [⟨task, arrival, now,
          .finished upstream (server.controller.finish platform iv aesKey upstream)⟩]) .answered

/-- A free number has no history, and every other one the history of its stage. -/
def Accounted (server : Server K) (platform : Platform N B K) (tr : List (Event N)) (s : State N B)
    (task : ℕ) : Prop :=
  match s.tasks task with
  | none => history tr task = []
  | some (arrival, stage) => Life server platform task arrival (history tr task) stage

section Histories

omit [JsNumber N]

theorem history_snoc (tr : List (Event N)) (e : Event N) (task : ℕ) :
    history (tr ++ [e]) task =
      if e.task = task then history tr task ++ [e] else history tr task := by
  unfold history
  by_cases h : e.task = task <;> simp [h]

theorem mem_history {tr : List (Event N)} {e : Event N} {task : ℕ} :
    e ∈ history tr task ↔ e ∈ tr ∧ e.task = task := by
  simp [history]

end Histories

section Steps

variable {server : Server K} {platform : Platform N B K} {tr : List (Event N)} {s s' : State N B}
  {e : Event N}

theorem throwsOnly_start (controller : ProxyController K) (platform : Platform N B K)
    (dto : GatewayRequest) (now : Int) (seen : ReplayProtection.Seen) :
    ThrowsOnly IsBadRequest (controller.start platform dto now seen).1 := by
  have haccept := controller.throwsOnly_accept platform dto now seen
  unfold ProxyController.start
  generalize controller.accept platform dto now seen = accepted at haccept
  obtain ⟨outcome, seen'⟩ := accepted
  cases outcome with
  | error e => exact throwsOnly_error (haccept e rfl)
  | ok _ => exact (ProxyService.throwsOnly_prepare _ _ _).map _

/-- A step concerns its own request only. -/
theorem Step.tasks_of_ne (h : Step server platform s e s') {task : ℕ} (hne : e.task ≠ task) :
    s'.tasks task = s.tasks task := by
  cases h with
  | guard _ _ _ => exact Function.update_of_ne (Ne.symm hne) _ _
  | refuse _ _ _ _ => exact Function.update_of_ne (Ne.symm hne) _ _
  | handle _ _ _ _ => exact Function.update_of_ne (Ne.symm hne) _ _
  | finish _ _ _ _ => exact Function.update_of_ne (Ne.symm hne) _ _

/-- The handler leaves a request failed with a 400 or sent. -/
theorem Life.handled {task : ℕ} {arrival : Arrival} {before : List (Event N)} {now : Int}
    {dto : GatewayRequest} {outcome : Except HttpException (UpstreamRequest N × B)}
    {seen seen' : ReplayProtection.Seen}
    (h : Life server platform task arrival before .admitted) (hbody : arrival.body = .ok dto)
    (hstart : server.controller.start platform dto now seen = (outcome, seen')) :
    Life server platform task arrival
      (before ++ [⟨task, arrival, now,
        .handled (server.controller.freshCall platform dto now seen) (outcome.map Prod.fst)⟩])
      (afterHandler outcome) := by
  cases outcome with
  | error e =>
      have hstatus := throwsOnly_start server.controller platform dto now seen e (by rw [hstart])
      exact .failed h hstatus
  | ok sent =>
      obtain ⟨request, aesKey⟩ := sent
      obtain ⟨payload, hdecrypt, hprepare, hfresh⟩ := ProxyController.start_eq_ok hstart
      exact .sent h ⟨⟨dto, hbody, hdecrypt⟩, hfresh, hprepare,
        fun _ _ => ProxyService.headers_of_prepare hprepare⟩

/-- A step adds one event to the history of its request. -/
theorem Step.accounted (h : Step server platform s e s')
    (haccounted : Accounted server platform tr s e.task) :
    Accounted server platform (tr ++ [e]) s' e.task := by
  unfold Accounted at haccounted ⊢
  rw [history_snoc, if_pos rfl]
  cases h with
  | @guard task arrival decision counters free clock hactivate =>
      let hit : RateLimitGuard.Hit := ⟨arrival.client, arrival.time,
        server.rateLimit.bucketOf arrival.client (server.rateLimit.sweep arrival.time s.counters),
          decision⟩
      have hlimited : RateLimitGuard.Step server.rateLimit ⟨s.clock, s.counters⟩ hit
          ⟨arrival.time, counters⟩ := ⟨clock, rfl, rfl, hactivate⟩
      rw [free] at haccounted
      rw [haccounted]
      simp only [Function.update_self, List.nil_append]
      exact .entered rfl rfl hlimited.refused
  | refuse active _ _ hstatus =>
      rw [active] at haccounted
      simp only [Function.update_self]
      exact .invalid haccounted hstatus
  | handle active _ hbody hstart =>
      rw [active] at haccounted
      simp only [Function.update_self]
      exact haccounted.handled hbody hstart
  | finish active _ iv upstream =>
      rw [active] at haccounted
      simp only [Function.update_self]
      exact .finished haccounted iv upstream

/-- In every run, every request has the history of its stage. -/
theorem accounted_of_run {clock : Int} (run : Run (Step server platform) (State.initial clock) tr s)
    (task : ℕ) : Accounted server platform tr s task := by
  refine run.snoc_induction (motive := fun tr s => Accounted server platform tr s task) rfl ?_
  intro tr e s s' _ ih hstep
  by_cases htask : e.task = task
  · subst htask
    exact hstep.accounted ih
  · unfold Accounted at ih ⊢
    rw [history_snoc, if_neg htask, hstep.tasks_of_ne htask]
    exact ih

end Steps

section Stages

variable {server : Server K} {platform : Platform N B K} {task : ℕ} {arrival : Arrival}
  {events : List (Event N)}

omit [JsNumber N] in
theorem afterGuard_cases (decision : RateLimitGuard.Decision) :
    (decision.admitted = true ∧ (afterGuard decision : Stage N B) = .admitted) ∨
      (decision.admitted = false ∧ (afterGuard decision : Stage N B) = .answered) := by
  cases h : decision.admitted with
  | true => exact Or.inl ⟨rfl, by rw [afterGuard, h, if_pos rfl]⟩
  | false => exact Or.inr ⟨rfl, by rw [afterGuard, h, if_neg (by simp)]⟩

/-- A request that waits for the handler has passed the guard and nothing else. -/
theorem Life.of_admitted (h : Life server platform task arrival events .admitted) :
    ∃ hit : RateLimitGuard.Hit, hit.client = arrival.client ∧ hit.now = arrival.time ∧
      hit.admitted = true ∧ events = [.entry task arrival hit] := by
  generalize hstage : (Stage.admitted : Stage N B) = stage at h
  cases h with
  | @entered hit client time refused =>
      rcases afterGuard_cases (N := N) (B := B) hit.decision with ⟨hadmitted, -⟩ | ⟨-, heq⟩
      · exact ⟨hit, client, time, hadmitted, rfl⟩
      · rw [heq] at hstage
        cases hstage
  | invalid _ _ => cases hstage
  | failed _ _ => cases hstage
  | sent _ _ => cases hstage
  | finished _ _ _ => cases hstage

/-- A request that waits for the upstream has passed the guard and was sent by
the handler. -/
theorem Life.of_forwarding {request : UpstreamRequest N} {aesKey : B}
    (h : Life server platform task arrival events (.forwarding request aesKey)) :
    ∃ (hit : RateLimitGuard.Hit) (now : Int) (call : Option (ReplayProtection.Call N))
      (payload : DecryptedPayload N), hit.client = arrival.client ∧ hit.now = arrival.time ∧
      hit.admitted = true ∧ Sent server platform arrival now call payload request aesKey ∧
      events = [.entry task arrival hit, ⟨task, arrival, now, .handled call (.ok request)⟩] := by
  generalize hstage : (Stage.forwarding request aesKey : Stage N B) = stage at h
  cases h with
  | @entered hit _ _ _ =>
      rcases afterGuard_cases (N := N) (B := B) hit.decision with ⟨-, heq⟩ | ⟨-, heq⟩ <;>
      · rw [heq] at hstage
        cases hstage
  | invalid _ _ => cases hstage
  | failed _ _ => cases hstage
  | sent h hsent =>
      cases hstage
      obtain ⟨hit, hclient, htime, hadmitted, rfl⟩ := h.of_admitted
      exact ⟨hit, _, _, _, hclient, htime, hadmitted, hsent, rfl⟩
  | finished _ _ _ => cases hstage

/-- The history of an answered request: refused by the guard; let through and
refused with its body or by the handler; or sent, and answered with what the
upstream came to. -/
theorem Life.of_answered (h : Life server platform task arrival events .answered) :
    ∃ hit : RateLimitGuard.Hit, hit.client = arrival.client ∧ hit.now = arrival.time ∧
      ((∃ e, hit.decision.outcome = .error e ∧ e.status = 429 ∧ hit.admitted = false ∧
          events = [.entry task arrival hit]) ∨
        hit.admitted = true ∧
          ((∃ now e, e.status = 400 ∧
              events = [.entry task arrival hit, ⟨task, arrival, now, .invalid e⟩]) ∨
            (∃ now call e, e.status = 400 ∧
              events = [.entry task arrival hit, ⟨task, arrival, now, .handled call (.error e)⟩]) ∨
            ∃ now call payload request aesKey later iv upstream,
              Sent server platform arrival now call payload request aesKey ∧
              events = [.entry task arrival hit,
                ⟨task, arrival, now, .handled call (.ok request)⟩,
                ⟨task, arrival, later,
                  .finished upstream
                    (server.controller.finish platform iv aesKey upstream)⟩])) := by
  generalize hstage : (Stage.answered : Stage N B) = stage at h
  cases h with
  | @entered hit client time refused =>
      rcases afterGuard_cases (N := N) (B := B) hit.decision with ⟨-, heq⟩ | ⟨hrefused, -⟩
      · rw [heq] at hstage
        cases hstage
      · obtain ⟨e, houtcome, hstatus⟩ := refused hrefused
        exact ⟨hit, client, time, Or.inl ⟨e, houtcome, hstatus, hrefused, rfl⟩⟩
  | invalid h status =>
      obtain ⟨hit, hclient, htime, hadmitted, rfl⟩ := h.of_admitted
      exact ⟨hit, hclient, htime, Or.inr ⟨hadmitted, Or.inl ⟨_, _, status, rfl⟩⟩⟩
  | failed h status =>
      obtain ⟨hit, hclient, htime, hadmitted, rfl⟩ := h.of_admitted
      exact ⟨hit, hclient, htime, Or.inr ⟨hadmitted, Or.inr (Or.inl ⟨_, _, _, status, rfl⟩)⟩⟩
  | sent _ _ => cases hstage
  | finished h iv upstream =>
      obtain ⟨hit, now, call, payload, hclient, htime, hadmitted, hsent, rfl⟩ := h.of_forwarding
      exact ⟨hit, hclient, htime, Or.inr ⟨hadmitted, Or.inr (Or.inr
        ⟨now, call, payload, _, _, _, iv, upstream, hsent, rfl⟩)⟩⟩

end Stages

section Answers

/-- What a request is answered with. -/
def Event.answer (e : Event N) : Option (Except HttpException (GatewayReply N)) :=
  match e.action with
  | .limited hit =>
      match hit.decision.outcome with
      | .ok _ => none
      | .error e => some (.error e)
  | .invalid e => some (.error e)
  | .handled _ outcome =>
      match outcome with
      | .ok _ => none
      | .error e => some (.error e)
  | .finished _ reply => some reply

/-- The events hold the request that was sent for this body, and what the upstream
came to. -/
def Ended (server : Server K) (platform : Platform N B K) (task : ℕ) (arrival : Arrival)
    (events : List (Event N)) (aesKey : B) (upstream : Except String (UpstreamReply N))
    (answer : Except HttpException (GatewayReply N)) : Prop :=
  ∃ dto payload request now call later, arrival.body = .ok dto ∧
    server.controller.encryptionService.decrypt platform.crypto platform.text dto =
      .ok (payload, aesKey) ∧
    server.controller.proxyService.prepare platform.text platform.parseUrl payload =
      .ok request ∧
    ⟨task, arrival, now, .handled call (.ok request)⟩ ∈ events ∧
    ⟨task, arrival, later, .finished upstream answer⟩ ∈ events

/-- An answer of the gateway itself, or what the upstream came to on the request
of the event, under the AES key that came with it. -/
def Answers (server : Server K) (platform : Platform N B K) (task : ℕ) (arrival : Arrival)
    (events : List (Event N)) (answer : Except HttpException (GatewayReply N)) : Prop :=
  (∃ e, answer = .error e ∧ (e.status = 429 ∨ e.status = 400)) ∨
    ∃ aesKey iv upstream, Ended server platform task arrival events aesKey upstream answer ∧
      answer = server.controller.finish platform iv aesKey upstream

/-- The answer is the response that the upstream gave to the request that was
sent for this body: sealed with the AES key that came with it under
`ENCRYPT_RESPONSE`, in the clear otherwise. -/
def Returns (server : Server K) (platform : Platform N B K) (task : ℕ) (arrival : Arrival)
    (events : List (Event N)) (answer : GatewayReply N) : Prop :=
  ∃ aesKey iv reply, Ended server platform task arrival events aesKey (.ok reply) (.ok answer) ∧
    let fields := resultFields
      ⟨reply.status, reply.data, ProxyService.sanitizeResponseHeaders reply.headers⟩
    answer = if server.controller.encryptResponse
      then .encrypted (EncryptionService.encryptResponse platform.crypto platform.text iv
        (.obj fields) aesKey)
      else .plain fields

variable {server : Server K} {platform : Platform N B K} {task : ℕ} {arrival : Arrival}
  {events : List (Event N)}

omit [JsNumber N] in
theorem answer_entry_of_admitted {hit : RateLimitGuard.Hit} (h : hit.admitted = true) :
    (Event.entry task arrival hit : Event N).answer = none := by
  unfold RateLimitGuard.Hit.admitted RateLimitGuard.Decision.admitted at h
  simp only [Event.entry, Event.answer]
  cases houtcome : hit.decision.outcome with
  | ok _ => rfl
  | error e =>
      rw [houtcome] at h
      cases h

omit [JsNumber N] in
theorem answer_entry_of_error {hit : RateLimitGuard.Hit} {e : HttpException}
    (h : hit.decision.outcome = .error e) :
    (Event.entry task arrival hit : Event N).answer = some (.error e) := by
  simp only [Event.entry, Event.answer, h]

/-- A request has one answer when it is answered and none before. -/
theorem Life.answers {stage : Stage N B} (h : Life server platform task arrival events stage) :
    (stage ≠ .answered ∧ events.filterMap Event.answer = []) ∨
      (stage = .answered ∧ ∃ answer, events.filterMap Event.answer = [answer] ∧
        Answers server platform task arrival events answer) := by
  cases stage with
  | admitted =>
      obtain ⟨hit, -, -, hadmitted, rfl⟩ := h.of_admitted
      refine Or.inl ⟨nofun, ?_⟩
      exact List.filterMap_cons_none (answer_entry_of_admitted hadmitted)
  | forwarding request aesKey =>
      obtain ⟨hit, now, call, payload, -, -, hadmitted, -, rfl⟩ := h.of_forwarding
      refine Or.inl ⟨nofun, ?_⟩
      rw [List.filterMap_cons_none (answer_entry_of_admitted hadmitted)]
      rfl
  | answered =>
      refine Or.inr ⟨rfl, ?_⟩
      obtain ⟨hit, -, -, ⟨e, houtcome, hstatus, -, rfl⟩ | ⟨hadmitted, hcases⟩⟩ := h.of_answered
      · refine ⟨.error e, ?_, Or.inl ⟨e, rfl, Or.inl hstatus⟩⟩
        exact List.filterMap_cons_some (answer_entry_of_error houtcome)
      · rcases hcases with ⟨now, e, hstatus, rfl⟩ | ⟨now, call, e, hstatus, rfl⟩ |
          ⟨now, call, payload, request, aesKey, later, iv, upstream, hsent, rfl⟩
        · refine ⟨.error e, ?_, Or.inl ⟨e, rfl, Or.inr hstatus⟩⟩
          rw [List.filterMap_cons_none (answer_entry_of_admitted hadmitted)]
          rfl
        · refine ⟨.error e, ?_, Or.inl ⟨e, rfl, Or.inr hstatus⟩⟩
          rw [List.filterMap_cons_none (answer_entry_of_admitted hadmitted)]
          rfl
        · obtain ⟨dto, hbody, hdecrypt⟩ := hsent.decrypted
          refine ⟨_, ?_, Or.inr ⟨aesKey, iv, upstream, ⟨dto, payload, request, now, call, later,
            hbody, hdecrypt, hsent.prepared, ?_, ?_⟩, rfl⟩⟩
          · rw [List.filterMap_cons_none (answer_entry_of_admitted hadmitted)]
            rfl
          · exact List.mem_cons_of_mem _ List.mem_cons_self
          · exact List.mem_cons_of_mem _ (List.mem_cons_of_mem _ List.mem_cons_self)

/-- What the gateway answers with: an exception with one of four statuses, or
the response of the upstream. -/
theorem Answers.cases {answer : Except HttpException (GatewayReply N)}
    (h : Answers server platform task arrival events answer) :
    (∃ e, answer = .error e ∧ e.status ∈ [400, 429, 502, 504]) ∨
      ∃ reply, answer = .ok reply ∧ Returns server platform task arrival events reply := by
  rcases h with ⟨e, rfl, hstatus | hstatus⟩ | ⟨aesKey, iv, upstream, hended, hanswer⟩
  · exact Or.inl ⟨e, rfl, by simp [hstatus]⟩
  · exact Or.inl ⟨e, rfl, by simp [hstatus]⟩
  · cases upstream with
    | error code =>
        refine Or.inl ⟨ProxyService.transportError code, hanswer, ?_⟩
        unfold ProxyService.transportError
        split <;> simp
    | ok reply =>
        obtain rfl := hanswer
        exact Or.inr ⟨_, rfl, aesKey, iv, reply, hended, rfl⟩

/-- However requests are interleaved, each is answered at most once, exactly
when nothing is left to do for it, with an exception of the gateway or with the
response that the upstream gave to the request sent for it. -/
theorem answered_once (server : Server K) (platform : Platform N B K) (clock : Int)
    (tr : List (Event N)) (s : State N B)
    (run : Run (Step server platform) (State.initial clock) tr s) (task : ℕ) :
    match s.tasks task with
    | none => history tr task = []
    | some (arrival, stage) =>
        (stage ≠ .answered ∧ (history tr task).filterMap Event.answer = []) ∨
        (stage = .answered ∧ ∃ answer, (history tr task).filterMap Event.answer = [answer] ∧
          ((∃ e, answer = .error e ∧ e.status ∈ [400, 429, 502, 504]) ∨
            ∃ reply, answer = .ok reply ∧
              Returns server platform task arrival (history tr task) reply)) := by
  have haccounted := accounted_of_run run task
  unfold Accounted at haccounted
  cases htask : s.tasks task with
  | none => simpa only [htask] using haccounted
  | some entry =>
      obtain ⟨arrival, stage⟩ := entry
      simp only [htask] at haccounted
      rcases haccounted.answers with hopen | ⟨hdone, answer, hanswer, hanswers⟩
      · exact Or.inl hopen
      · exact Or.inr ⟨hdone, answer, hanswer, hanswers.cases⟩

end Answers

section Samples

def sampleServer : Server Bool where
  rateLimit := RateLimitGuard.strict
  controller := {
    encryptionService := ⟨[⟨"k1", true⟩]⟩
    proxyService := ProxyService.sampleService
    replayProtection := ReplayProtection.documented
    encryptResponse := true }

def samplePlatform : Platform ℤ (Channel.Buffer Bool) Bool where
  crypto := Channel.symbolicCrypto (.numerals Bool)
  text := .standard ℤ
  parseUrl := ProxyService.sampleParser
  timestamps := ReplayProtection.integerTimestamps

/-- A payment with a nonce, stamped with its arrival. -/
def ticket (nonce : String) (now : ℤ) : Json ℤ :=
  .obj [("AccessPoint", .str "https://api.example.com/pay/now"), ("Method", .str "POST"),
    ("Nonce", .str nonce), ("Timestamp", .num now)]

def ticketPayload (nonce : String) (now : ℤ) : DecryptedPayload ℤ :=
  { ReplayProtection.arriving nonce now with AccessPoint := "https://api.example.com/pay/now" }

def sealedTicket (nonce : String) (now : ℤ) : GatewayRequest :=
  let crypto := samplePlatform.crypto
  let iv : Channel.Buffer Bool := .data (List.replicate 12 0)
  { KeyId := some "k1"
    EncryptedKey := crypto.toBase64 (crypto.encryptOaep true (.data []) (.secret 0))
    IV := crypto.toBase64 iv
    Payload := crypto.toBase64
      (crypto.sealGcm (.secret 0) iv (samplePlatform.text.write (ticket nonce now))) }

def ticketRequest : UpstreamRequest ℤ where
  url := ProxyService.sampleUrl "/pay/now"
  method := "POST"
  headers := .empty
  data := none
  params := none
  timeout := 15000
  maxContentLength := 5242880
  maxRedirects := 0

theorem isValue_ticket (nonce : String) (now : ℤ) : (ticket nonce now).IsValue := by
  have hnames : ["AccessPoint", "Method", "Nonce", "Timestamp"].Pairwise
      (fun a b => Json.listedBefore a b = true) := by decide
  refine Json.isValue_obj.mpr ⟨hnames, ?_⟩
  simp only [List.forall_mem_cons, List.not_mem_nil, false_imp_iff, implies_true, and_true]
  exact ⟨Json.isValue_str _, Json.isValue_str _, Json.isValue_str _, Json.isValue_num _⟩

theorem decrypt_sealedTicket (nonce : String) (now : ℤ) :
    sampleServer.controller.encryptionService.decrypt samplePlatform.crypto samplePlatform.text
      (sealedTicket nonce now) = .ok (ticketPayload nonce now, .secret 0) := by
  have lawful := Channel.lawful_symbolicCrypto (.numerals Bool)
  have hkey : (Channel.symbolicCrypto (.numerals Bool)).length (.secret 0) = AES_KEY_BYTES := rfl
  have hiv : (Channel.symbolicCrypto (.numerals Bool)).length (.data (List.replicate 12 0)) =
      GCM_IV_BYTES := rfl
  have hvalue := isValue_ticket nonce now
  refine EncryptionService.decrypt_eq_ok.mpr ⟨?_, ?_, samplePlatform.text.write (ticket nonce now),
    (ticket nonce now).serialised, ?_, samplePlatform.text.parse_write hvalue, rfl⟩
  · exact Channel.unwrapKey_first lawful ⟨"k1", true⟩ [] _ rfl
  · simp only [sealedTicket, samplePlatform, lawful.fromBase64_toBase64, EncryptionService.sized,
      lawful.length_sealGcm _ _ _ hkey hiv]
    rfl
  · simp only [sealedTicket, samplePlatform, lawful.fromBase64_toBase64,
      lawful.openGcm_sealGcm _ _ _ hkey hiv]

theorem start_sealedTicket (nonce : String) (now : ℤ) (seen : ReplayProtection.Seen)
    (hpattern : matchesNoncePattern nonce = true) (hmillis : (10 : ℤ) ^ 12 ≤ now)
    (hclaim : (ReplayProtection.documented.claim now nonce seen).1 = .ok ()) :
    sampleServer.controller.start samplePlatform (sealedTicket nonce now) now seen =
      (.ok (ticketRequest, .secret 0), (ReplayProtection.documented.claim now nonce seen).2) := by
  have hfresh := (ReplayProtection.step_arriving ReplayProtection.documented rfl
    (s := ⟨now, seen⟩) le_rfl hpattern hmillis).2.2
  have haccept : sampleServer.controller.accept samplePlatform (sealedTicket nonce now) now seen =
      (.ok (ticketPayload nonce now, .secret 0),
        (ReplayProtection.documented.claim now nonce seen).2) := by
    have hsame : ReplayProtection.documented.assertFresh samplePlatform.timestamps
        (ticketPayload nonce now) now seen = ReplayProtection.documented.claim now nonce seen :=
      hfresh
    rw [ProxyController.accept, decrypt_sealedTicket]
    simp only
    rw [show sampleServer.controller.replayProtection = ReplayProtection.documented from rfl, hsame,
      hclaim]
    rfl
  rw [ProxyController.start, haccept]
  rfl

/-- A client that pays at `now`. -/
def payer (nonce : String) (now : ℤ) : Arrival := ⟨host '1', now, .ok (sealedTicket nonce now)⟩

def sampleStart : ℕ := 1700000000000

def firstNonce : String := "0123456789abcdef"

def secondNonce : String := "fedcba9876543210"

def firstGuard : RateLimitGuard.Decision × RateLimitGuard.Counters :=
  RateLimitGuard.strict.canActivate false (host '1') sampleStart .initial

def secondGuard : RateLimitGuard.Decision × RateLimitGuard.Counters :=
  RateLimitGuard.strict.canActivate false (host '1') (sampleStart + 5) firstGuard.2

def firstClaim : ReplayProtection.Seen :=
  (ReplayProtection.documented.claim sampleStart firstNonce .empty).2

def guarded (task : ℕ) (nonce : String) (now : ℤ) (counters : RateLimitGuard.Counters)
    (decision : RateLimitGuard.Decision) : Event ℤ :=
  .entry task (payer nonce now) ⟨host '1', now, RateLimitGuard.strict.bucketOf (host '1')
    (RateLimitGuard.strict.sweep now counters), decision⟩

def forwarded (task : ℕ) (nonce : String) (now : ℤ) : Event ℤ :=
  ⟨task, payer nonce now, now, .handled (some ⟨now, ticketPayload nonce now, .ok ()⟩)
    (.ok ticketRequest)⟩

def ticketReply : UpstreamReply ℤ := ⟨201, .obj [("paid", .bool true)], [("X-Receipt", .str "7")]⟩

def returned (task : ℕ) (nonce : String) (now later : ℤ) : Event ℤ :=
  ⟨task, payer nonce now, later, .finished (.ok ticketReply)
    (sampleServer.controller.finish samplePlatform (.data (List.replicate 12 1)) (.secret 0)
      (.ok ticketReply))⟩

/-- Two payments of one client, the second sent before the first is answered. -/
def sampleTrace : List (Event ℤ) :=
  [guarded 0 firstNonce sampleStart .initial firstGuard.1, forwarded 0 firstNonce sampleStart,
    guarded 1 secondNonce (sampleStart + 5) firstGuard.2 secondGuard.1,
    forwarded 1 secondNonce (sampleStart + 5), returned 0 firstNonce sampleStart (sampleStart + 5)]

/-- A payment is sent by the handler as soon as its nonce passes. -/
theorem step_forwarded {s : State ℤ (Channel.Buffer Bool)} {task : ℕ} {nonce : String} {now : ℤ}
    (active : s.tasks task = some (payer nonce now, .admitted)) (hclock : s.clock ≤ now)
    (hpattern : matchesNoncePattern nonce = true) (hmillis : (10 : ℤ) ^ 12 ≤ now)
    (hclaim : (ReplayProtection.documented.claim now nonce s.seen).1 = .ok ()) :
    Step sampleServer samplePlatform s (forwarded task nonce now)
      { s with
        clock := now
        seen := (ReplayProtection.documented.claim now nonce s.seen).2
        tasks := Function.update s.tasks task
          (some (payer nonce now, .forwarding ticketRequest (.secret 0))) } := by
  have hstart := start_sealedTicket nonce now s.seen hpattern hmillis hclaim
  obtain ⟨payload, hdecrypt, -, hcall⟩ := ProxyController.start_eq_ok hstart
  rw [decrypt_sealedTicket] at hdecrypt
  cases hdecrypt
  have hstep : Step sampleServer samplePlatform s _ _ := .handle active hclock rfl hstart
  rw [hcall] at hstep
  exact hstep

theorem step_returned {s : State ℤ (Channel.Buffer Bool)} {task : ℕ} {nonce : String}
    {now later : ℤ}
    (active : s.tasks task = some (payer nonce now, .forwarding ticketRequest (.secret 0)))
    (hclock : s.clock ≤ later) :
    Step sampleServer samplePlatform s (returned task nonce now later)
      { s with
        clock := later
        tasks := Function.update s.tasks task (some (payer nonce now, .answered)) } :=
  .finish active hclock (.data (List.replicate 12 1)) (.ok ticketReply)

/-- That trace is a run, which leaves the first request answered. -/
theorem sample_run : ∃ s, Run (Step sampleServer samplePlatform) (State.initial sampleStart)
    sampleTrace s ∧ s.tasks 0 = some (payer firstNonce sampleStart, .answered) := by
  have hfirst : (ReplayProtection.documented.claim sampleStart firstNonce .empty).1 = .ok () := rfl
  -- the second nonce is claimed while the first is remembered
  have hsecond : (ReplayProtection.documented.claim (sampleStart + 5) secondNonce firstClaim).1 =
      .ok () := rfl
  refine ⟨_, .cons (.guard rfl le_rfl rfl) (.cons (step_forwarded rfl le_rfl rfl (by decide) hfirst)
    (.cons (.guard rfl (by decide) rfl) (.cons (step_forwarded rfl le_rfl rfl (by decide) hsecond)
      (.cons (step_returned rfl le_rfl) (.nil _))))), rfl⟩

/-- The first payment is answered with the receipt of the upstream. -/
theorem answered_once_payment : ∃ reply,
    (history sampleTrace 0).filterMap Event.answer = [.ok reply] ∧
    Returns sampleServer samplePlatform 0 (payer firstNonce sampleStart) (history sampleTrace 0)
      reply := by
  obtain ⟨s, hrun, hanswered⟩ := sample_run
  have honce := answered_once sampleServer samplePlatform sampleStart sampleTrace s hrun 0
  rw [hanswered] at honce
  have hdone : returned 0 firstNonce sampleStart (sampleStart + 5) ∈ history sampleTrace 0 :=
    mem_history.mpr ⟨by simp [sampleTrace], rfl⟩
  have hgiven := List.mem_filterMap.mpr ⟨_, hdone, (rfl : Event.answer _ = some _)⟩
  rcases honce with ⟨hopen, -⟩ | ⟨-, answer, hanswer, ⟨e, rfl, -⟩ | ⟨reply, rfl, hreturns⟩⟩
  · exact absurd rfl hopen
  · rw [hanswer] at hgiven
    cases List.mem_singleton.mp hgiven
  · exact ⟨reply, hanswer, hreturns⟩

end Samples

end EncryptionGateway.Gateway
