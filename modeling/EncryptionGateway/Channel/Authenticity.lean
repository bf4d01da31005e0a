import EncryptionGateway.Channel.Delivery
import EncryptionGateway.Channel.Session
import EncryptionGateway.Proxy.Mediation

/-!
# End-to-end authenticity

Requests and responses are sealed under one key, without a direction tag. What
keeps them apart is their shape: a request has no `StatusCode`, a response no
`AccessPoint`, so neither end accepts its own kind of box. Together with the
secrecy of the keys this makes every accepted box one of the other end, for the
same call.
-/

namespace EncryptionGateway.Channel

open JavaScript Foundation Common Encryption Proxy Client

variable {N K : Type} [JsNumber N] [DecidableEq K]

/-! ## The two kinds of boxes -/

/-- The sealed answer to a request. -/
def answer (net : Network N K) (upstream : UpstreamResponse N) (iv : Bytes) (aesKey : Buffer K) :
    GatewayReply N :=
  .encrypted (EncryptionService.encryptResponse net.platform.crypto net.text (.data iv)
    (.obj (resultFields upstream)) aesKey)

section Shapes

variable {N : Type} [JsNumber N]

theorem result_request_ne_ok (options : SendOptions N) (r : SendResult N) :
    GatewayClient.result options.payload.serialised ≠ .ok r := by
  intro h
  have hstatus := (GatewayClient.result_eq_ok.mp h).1
  rw [Json.get_serialised, payload_get_statusCode] at hstatus
  cases hstatus

theorem parsePayload_response_ne_ok (text : JsonText N) (upstream : UpstreamResponse N)
    (payload : DecryptedPayload N) :
    parsePayload text (Json.obj (resultFields upstream)).serialised ≠ .ok payload := by
  intro h
  obtain ⟨p, hp, haccess, -⟩ := parsePayload_eq_ok h
  have hget : (Json.obj (resultFields upstream)).serialised.get "AccessPoint" = none := by
    rw [Json.get_serialised]
    rfl
  rw [hp] at hget
  rw [Json.get, haccess] at hget
  cases hget

end Shapes

theorem requestBuffers_request (net : Network N K) (call : Call N K) (i : ℕ) :
    requestBuffers net (call.request net i) =
      [.wrapped call.client.serverKey (.data call.seed) (.secret i), .data call.iv,
        .sealed (.secret i) (.data call.iv) (net.text.write call.options.payload)] := by
  simp [requestBuffers, Call.request, GatewayClient.request, Network.platform, symbolicCrypto,
    net.codec.decode_encode]

theorem replyBuffers_answer (net : Network N K) (upstream : UpstreamResponse N) (iv : Bytes)
    (aesKey : Buffer K) :
    replyBuffers net (.ok (answer net upstream iv aesKey)) =
      [.data iv, .sealed aesKey (.data iv) (net.text.write (.obj (resultFields upstream)))] := by
  simp [replyBuffers, answer, EncryptionService.encryptResponse, Network.platform, symbolicCrypto,
    net.codec.decode_encode]

/-- The request of the `i`-th call, sent back as if it were the answer. -/
def Call.reflected (net : Network N K) (call : Call N K) (i : ℕ) : GatewayResponse :=
  ⟨(call.request net i).IV, (call.request net i).Payload⟩

theorem replyBuffers_reflected (net : Network N K) (call : Call N K) (i : ℕ) :
    replyBuffers net (.ok (.encrypted (call.reflected net i))) ⊆
      requestBuffers net (call.request net i) :=
  List.subset_cons_self _ _

/-- A client that gets its own request for an answer opens it and finds no
response in it. -/
theorem response_reflected (net : Network N K) (call : Call N K) (i : ℕ) :
    call.client.response net.platform.crypto net.text (.secret i)
      ⟨200, net.text.write (call.reflected net i).toJson⟩ = .error invalidResponse := by
  have hbody : net.text.parse (net.text.write ((call.reflected net i).toJson : Json N)) =
      some (call.reflected net i).toJson := by
    rw [net.text.parse_write (GatewayResponse.wellFormed_toJson _).isValue,
      Json.serialised_of_wellFormed _ (GatewayResponse.wellFormed_toJson _)]
  have hiv : net.platform.crypto.atob (call.reflected net i).IV = some (.data call.iv) :=
    net.codec.atob_encode _
  have hsealed : net.platform.crypto.atob (call.reflected net i).Payload =
      some (.sealed (.secret i) (.data call.iv) (net.text.write call.options.payload)) :=
    net.codec.atob_encode _
  have hopen : net.platform.crypto.openGcm (.secret i) (.data call.iv)
      (.sealed (.secret i) (.data call.iv) (net.text.write call.options.payload)) =
        some (net.text.write call.options.payload) := openGcm_eq_some.mpr rfl
  have hparse : net.text.parse (net.text.write call.options.payload) =
      some call.options.payload.serialised := net.text.parse_write (isValue_payload call.options)
  have hresult : GatewayClient.result call.options.payload.serialised = .error invalidResponse := by
    rw [GatewayClient.result, Json.get_serialised, payload_get_statusCode]
    rfl
  calc
    call.client.response net.platform.crypto net.text (.secret i)
        ⟨200, net.text.write (call.reflected net i).toJson⟩ =
        GatewayClient.openResponse net.platform.crypto net.text (.secret i)
          (call.reflected net i).toJson := by
      simp only [GatewayClient.response, hbody]
      rfl
    _ = .error invalidResponse := by
      have hfields : ((call.reflected net i).toJson : Json N).get "IV" =
            some (.str (call.reflected net i).IV) ∧
          ((call.reflected net i).toJson : Json N).get "Payload" =
            some (.str (call.reflected net i).Payload) := ⟨rfl, rfl⟩
      simp only [GatewayClient.openResponse, hfields, hiv, hsealed, hopen, hparse,
        hresult, ofOption, bind, Except.bind]

/-- The data of a forwarded response is a value. -/
theorem isValue_of_forward {service : ProxyService} {text : JsonText N} {parseUrl : UrlParser}
    {upstream : Upstream N} {payload : DecryptedPayload N} {response : UpstreamResponse N}
    (h : (service.forward text parseUrl upstream.answer payload).result = .ok response) :
    response.data.IsValue := by
  unfold ProxyService.forward at h
  split at h
  · cases h
  · next request _ =>
      simp only at h
      split at h
      · next reply hreply =>
          cases h
          exact upstream.isValue hreply
      · cases h

/-! ## The invariant -/

/-- The payload is what the gateway reads in the request of the `i`-th call. -/
def SealedBy (net : Network N K) (s : State N K) (i : ℕ) (payload : DecryptedPayload N) : Prop :=
  ∃ call, s.calls[i]? = some call ∧
    parsePayload net.text call.options.payload.serialised = .ok payload

/-- At position `m` the gateway has answered a request that came with the key of
the `i`-th call. -/
def Answered (net : Network N K) (tr : List (Event N K)) (i m : ℕ)
    (handling : Handling N K) (upstream : UpstreamResponse N) : Prop :=
  ∃ exchange iv, tr[m]? = some (.completed handling exchange
      (.ok (answer net upstream iv handling.aesKey))) ∧
    exchange.result = .ok upstream ∧ handling.aesKey = .secret i

/-- The texts sealed under the key of the `i`-th call. -/
def BoxText (net : Network N K) (tr : List (Event N K)) (s : State N K) (i : ℕ)
    (text : String) : Prop :=
  (∃ call, s.calls[i]? = some call ∧ text = net.text.write call.options.payload) ∨
    ∃ m handling upstream, Answered net tr i m handling upstream ∧ upstream.data.IsValue ∧
      text = net.text.write (.obj (resultFields upstream))

/-- What is on the wire, and what has been decrypted, was sealed by the right end. -/
structure Authentic (net : Network N K) (tr : List (Event N K)) (s : State N K) : Prop where
  wire : ∀ i, ∀ b ∈ s.wire, Guarded net.compromised i (fun _ text => BoxText net tr s i text) b
  pending : ∀ handling ∈ s.pending, ∀ i, handling.aesKey = .secret i →
    SealedBy net s i handling.payload
  completed : ∀ (m : ℕ) (handling : Handling N K) (exchange : Exchange N)
    (reply : Except HttpException (GatewayReply N)),
    tr[m]? = some (.completed handling exchange reply) →
      ∀ i, handling.aesKey = .secret i → SealedBy net s i handling.payload

omit [DecidableEq K] in
theorem SealedBy.mono {net : Network N K} {s t : State N K} {i : ℕ} {payload : DecryptedPayload N}
    (h : SealedBy net s i payload) (hcalls : s.calls <+: t.calls) : SealedBy net t i payload := by
  obtain ⟨call, hcall, hparse⟩ := h
  obtain ⟨more, hmore⟩ := hcalls
  exact ⟨call, hmore ▸ at_append hcall more, hparse⟩

theorem BoxText.mono {net : Network N K} {tr : List (Event N K)} {s t : State N K} {i : ℕ}
    {text : String} (h : BoxText net tr s i text) (hcalls : s.calls <+: t.calls)
    (more : List (Event N K)) : BoxText net (tr ++ more) t i text := by
  rcases h with ⟨call, hcall, htext⟩ | ⟨m, handling, upstream, hanswered, hvalue, htext⟩
  · obtain ⟨calls, hmore⟩ := hcalls
    exact Or.inl ⟨call, hmore ▸ at_append hcall calls, htext⟩
  · obtain ⟨exchange, iv, hevent, hresult, hkey⟩ := hanswered
    exact Or.inr ⟨m, handling, upstream, ⟨exchange, iv, at_append hevent more, hresult, hkey⟩,
      hvalue, htext⟩

/-- A step keeps what its new buffers, handlings and events do not break. -/
theorem Authentic.extend {net : Network N K} {tr : List (Event N K)} {s t : State N K}
    {e : Event N K} (h : Authentic net tr s) (hcalls : s.calls <+: t.calls)
    (hwire : ∀ b ∈ t.wire, b ∉ s.wire → ∀ i,
      Guarded net.compromised i (fun _ text => BoxText net (tr ++ [e]) t i text) b)
    (hpending : ∀ handling ∈ t.pending, handling ∉ s.pending → ∀ i,
      handling.aesKey = .secret i → SealedBy net t i handling.payload)
    (hevent : ∀ handling exchange reply, e = .completed handling exchange reply →
      handling ∈ s.pending) : Authentic net (tr ++ [e]) t := by
  constructor
  · intro i b hb
    by_cases hold : b ∈ s.wire
    · exact (h.wire i b hold).mono fun _ text htext => htext.mono hcalls [e]
    · exact hwire b hb hold i
  · intro handling hmem i hkey
    by_cases hold : handling ∈ s.pending
    · exact (h.pending handling hold i hkey).mono hcalls
    · exact hpending handling hmem hold i hkey
  · intro m handling exchange reply hm i hkey
    rcases at_snoc_iff.mp hm with hm | ⟨-, rfl⟩
    · exact (h.completed m handling exchange reply hm i hkey).mono hcalls
    · exact (h.pending handling (hevent handling exchange reply rfl) i hkey).mono hcalls

/-- A payload that is accepted under the key of a call is the one this call
sealed. -/
theorem Authentic.sealedBy_of_accept {net : Network N K} {tr : List (Event N K)} {s : State N K}
    (h : Authentic net tr s) {dto : GatewayRequest} (hdto : Sendable net s dto)
    {payload : DecryptedPayload N} {i : ℕ}
    (hdecrypt : net.controller.encryptionService.decrypt net.platform.crypto net.text dto =
      .ok (payload, .secret i)) : SealedBy net s i payload := by
  obtain ⟨-, -, json, value, hopen, hparse, hpayload⟩ := EncryptionService.decrypt_eq_ok.mp hdecrypt
  have hsealed : net.codec.decode dto.Payload =
      .sealed (.secret i) (net.codec.decode dto.IV) json := openGcm_eq_some.mp hopen
  have hbox : Derivable net.compromised s.wire
      (.sealed (.secret i) (net.codec.decode dto.IV) json) :=
    hsealed ▸ hdto (net.codec.decode dto.Payload) (by simp [requestBuffers])
  rcases hbox.authentic (h.wire i) with ⟨call, hcall, rfl⟩ | ⟨_, _, upstream, -, hvalue, rfl⟩
  · rw [net.text.parse_write (isValue_payload call.options), Option.some.injEq] at hparse
    exact ⟨call, hcall, hparse ▸ hpayload⟩
  · -- one of the gateway's own boxes
    rw [net.text.parse_write (isValue_result hvalue), Option.some.injEq] at hparse
    exact absurd hpayload (hparse ▸ parsePayload_response_ne_ok net.text upstream payload)

/-- A result that a call returns is one the gateway has sealed under its key. -/
theorem Authentic.answered_of_receive {net : Network N K} {tr : List (Event N K)} {s : State N K}
    (h : Authentic net tr s) {client : GatewayClient K}
    (hmode : client.requireEncryptedResponse = true) {i : ℕ} {res : HttpResponse}
    (hres : Answerable net s res.body) {r : SendResult N}
    (hresponse : client.response net.platform.crypto net.text (.secret i) res = .ok r) :
    ∃ m handling upstream, Answered net tr i m handling upstream ∧ r = delivered upstream := by
  obtain ⟨json, hbody, hopened⟩ := GatewayClient.response_eq_ok hmode hresponse
  obtain ⟨_, payloadText, iv, _, plain, value, -, hpayload, -, hatob, hopen, hparse, hresult⟩ :=
    GatewayClient.openResponse_eq_ok.mp hopened
  have hbox : Derivable net.compromised s.wire (.sealed (.secret i) iv plain) := by
    have hderivable := hres json hbody "Payload" (by simp) payloadText hpayload
    rwa [net.codec.decode_of_atob hatob, openGcm_eq_some.mp hopen] at hderivable
  rcases hbox.authentic (h.wire i) with
    ⟨call, -, rfl⟩ | ⟨m, handling, upstream, hanswered, hvalue, rfl⟩
  · -- the box of the request itself
    rw [net.text.parse_write (isValue_payload call.options), Option.some.injEq] at hparse
    exact absurd hresult (hparse ▸ result_request_ne_ok call.options r)
  · rw [net.text.parse_write (isValue_result hvalue), Option.some.injEq] at hparse
    exact ⟨m, handling, upstream, hanswered, (result_response_eq_ok.mp (hparse ▸ hresult)).1⟩

/-- The gateway puts nothing on the wire but its sealed answers. -/
theorem answer_of_mem_replyBuffers {net : Network N K} {exchange : Exchange N} {iv : Bytes}
    {aesKey b : Buffer K}
    (h : b ∈ replyBuffers net (exchange.result.map
      (net.controller.complete net.platform (.data iv) aesKey))) :
    ∃ upstream, exchange.result = .ok upstream ∧
      exchange.result.map (net.controller.complete net.platform (.data iv) aesKey) =
        .ok (answer net upstream iv aesKey) := by
  cases hresult : exchange.result with
  | error e =>
      rw [hresult] at h
      cases h
  | ok upstream =>
      rw [hresult] at h
      refine ⟨upstream, rfl, ?_⟩
      simp only [Except.map, ProxyController.complete] at h ⊢
      split
      · rfl
      · next hplain =>
          rw [if_neg hplain] at h
          cases h

/-- One step of anybody preserves the invariant. -/
theorem Authentic.step {net : Network N K} {tr : List (Event N K)} {s t : State N K}
    {e : Event N K} (h : Authentic net tr s) (hstep : Step net s e t) :
    Authentic net (tr ++ [e]) t := by
  cases hstep with
  | send call hkey =>
      refine h.extend (List.prefix_append _ _) ?_ (fun _ hmem hold => absurd hmem hold)
        fun _ _ _ heq => by cases heq
      intro b hb hold i
      have hnew := (List.mem_append.mp hb).resolve_right hold
      rw [requestBuffers_request] at hnew
      simp only [List.mem_cons, List.not_mem_nil, or_false] at hnew
      rcases hnew with rfl | rfl | rfl
      · exact fun hr => absurd hr hkey
      · trivial
      · intro hi
        cases hi
        exact Or.inl ⟨call, List.getElem?_concat_length, rfl⟩
  | receive hcall res hres _ =>
      exact h.extend List.prefix_rfl (fun _ hmem hold => absurd hmem hold)
        (fun _ hmem hold => absurd hmem hold)
        fun _ _ _ heq => by cases heq
  | @accept dto hdto now handling seen haccept =>
      refine h.extend List.prefix_rfl (fun _ hmem hold => absurd hmem hold) ?_
        fun _ _ _ heq => by cases heq
      intro handling' hmem hold i hkey
      have hnew := (List.mem_append.mp hmem).resolve_left hold
      rw [List.mem_singleton.mp hnew] at hkey ⊢
      have hdecrypt := ProxyController.decrypt_of_accept haccept
      rw [hkey] at hdecrypt
      exact h.sealedBy_of_accept hdto hdecrypt
  | refuse dto hdto now hrefuse =>
      exact h.extend List.prefix_rfl (fun _ hmem hold => absurd hmem hold)
        (fun _ hmem hold => absurd hmem hold)
        fun _ _ _ heq => by cases heq
  | @complete before after handling hpending upstream iv exchange hexchange reply hreply =>
      refine h.extend List.prefix_rfl ?_ ?_ ?_
      · intro b hb hold i
        have hnew := (List.mem_append.mp hb).resolve_right hold
        rw [← hreply] at hnew
        obtain ⟨response, hresult, hanswer⟩ := answer_of_mem_replyBuffers hnew
        rw [hanswer, replyBuffers_answer] at hnew
        simp only [List.mem_cons, List.not_mem_nil, or_false] at hnew
        rcases hnew with rfl | rfl
        · trivial
        · intro hkey
          have hlast : (tr ++ [Event.completed handling exchange reply])[tr.length]? =
              some (.completed handling exchange
                (.ok (answer net response iv handling.aesKey))) := by
            rw [← hanswer, hreply]
            exact at_last
          exact Or.inr ⟨tr.length, handling, response, ⟨exchange, iv, hlast, hresult, hkey⟩,
            isValue_of_forward (hexchange ▸ hresult), rfl⟩
      · intro handling' hmem hold
        refine absurd ?_ hold
        rw [hpending, List.mem_append, List.mem_cons]
        exact (List.mem_append.mp hmem).imp_right Or.inr
      · intro handling' exchange' reply' heq
        cases heq
        rw [hpending]
        exact List.mem_append_right before List.mem_cons_self

theorem authentic_initial (net : Network N K) : Authentic net [] .initial where
  wire _ _ hb := absurd hb List.not_mem_nil
  pending _ hmem := absurd hmem List.not_mem_nil
  completed _ _ _ _ hm := absurd hm (by simp)

theorem authentic_of_run {net : Network N K} {tr : List (Event N K)} {s : State N K}
    (run : Run (Step net) .initial tr s) : Authentic net tr s := by
  apply run.snoc_induction (motive := fun tr s => Authentic net tr s)
  · exact authentic_initial net
  · intro tr e t u _ ih hstep
    exact ih.step hstep

/-- The attacker never learns the key of a call. -/
theorem secret_of_run {net : Network N K} {tr : List (Event N K)} {s : State N K}
    (run : Run (Step net) .initial tr s) (i : ℕ) : ¬ Derivable net.compromised s.wire (.secret i) :=
  not_derivable_secret ((authentic_of_run run).wire i)

/-- What a call returns was sealed by the gateway while it handled the payload
of this call, and what the gateway forwards under the key of a call is the
payload of this call. -/
theorem end_to_end_authenticity (net : Network N K) {tr : List (Event N K)} {s : State N K}
    (run : Run (Step net) .initial tr s) :
    (∀ (n i : ℕ) (r : SendResult N), tr[n]? = some (.returned i (.ok r)) →
      ∃ m < n, ∃ (handling : Handling N K) (exchange : Exchange N)
          (upstream : UpstreamResponse N) (iv : Bytes),
        tr[m]? = some (.completed handling exchange (.ok (answer net upstream iv (.secret i)))) ∧
        handling.aesKey = .secret i ∧ SealedBy net s i handling.payload ∧
        exchange.result = .ok upstream ∧ r = delivered upstream) ∧
    (∀ (n i : ℕ) (handling : Handling N K) (exchange : Exchange N)
        (reply : Except HttpException (GatewayReply N)),
      tr[n]? = some (.completed handling exchange reply) → exchange.calls ≠ [] →
        handling.aesKey = .secret i → SealedBy net s i handling.payload) := by
  have hfinal := authentic_of_run run
  constructor
  · intro n i r hn
    obtain ⟨pre, post, rfl, rfl⟩ := split_at hn
    obtain ⟨t, t', hpre, hstep, -⟩ := run.at_label
    cases hstep with
    | receive hcall res hres hresponse =>
        obtain ⟨m, handling, upstream, ⟨exchange, iv, hm, hresult, hkey⟩, rfl⟩ :=
          (authentic_of_run hpre).answered_of_receive (Call.required _) hres hresponse
        have hlast := at_append hm (.returned i (.ok (delivered upstream)) :: post)
        exact ⟨m, lt_length_of_at hm, handling, exchange, upstream, iv, hkey ▸ hlast, hkey,
          hfinal.completed m handling exchange _ hlast i hkey, hresult, rfl⟩
  · intro n i handling exchange reply hn _ hkey
    exact hfinal.completed n handling exchange reply hn i hkey

section Samples

def sampleNetwork : Network ℤ Bool where
  controller := {
    encryptionService := ⟨[⟨"k1", true⟩]⟩
    proxyService := ProxyService.sampleService
    replayProtection := ⟨false, 1, 1, by decide, by decide⟩
    encryptResponse := true }
  codec := .numerals Bool
  text := .standard ℤ
  parseUrl := ProxyService.sampleParser
  timestamps := ⟨fun n => n * 1000, fun _ => none⟩
  compromised := fun k => k = false

def sampleCall : Call ℤ Bool where
  client := ⟨true, some "k1", true⟩
  required := rfl
  options := {
    method := some ⟨.str "POST", trivial⟩
    accessPoint := some ⟨.str "https://api.example.com/pay/now", trivial⟩
    headers := []
    body := none
    parameter := none }
  iv := List.replicate 12 0
  seed := []

def sampleHandling : Handling ℤ Bool where
  payload := ⟨"https://api.example.com/pay/now", some "POST", some (.arr []), none, none,
    none, none⟩
  aesKey := .secret 0

def sampleResponse : UpstreamResponse ℤ := ⟨201, .null, .empty⟩

def sampleUpstream : Upstream ℤ where
  answer _ := .ok ⟨201, .null, []⟩
  isValue h := by
    cases h
    trivial

def sampleExchange : Exchange ℤ :=
  sampleNetwork.controller.proxyService.forward sampleNetwork.text sampleNetwork.parseUrl
    sampleUpstream.answer sampleHandling.payload

def sampleReply : GatewayReply ℤ :=
  answer sampleNetwork sampleResponse (List.replicate 12 1) (.secret 0)

/-- A call whose request is first sent back to the client and then delivered
twice to the gateway. -/
def sampleTrace : List (Event ℤ Bool) :=
  [.sent sampleCall, .returned 0 (.error invalidResponse), .accepted sampleHandling,
    .accepted sampleHandling, .completed sampleHandling sampleExchange (.ok sampleReply),
    .returned 0 (.ok (delivered sampleResponse))]

theorem accept_sampleCall (seen : ReplayProtection.Seen) :
    sampleNetwork.controller.accept sampleNetwork.platform (sampleCall.request sampleNetwork 0)
        0 seen =
      (.ok (sampleHandling.payload, sampleHandling.aesKey), seen) := by
  have hdecrypt : sampleNetwork.controller.encryptionService.decrypt sampleNetwork.platform.crypto
      sampleNetwork.platform.text (sampleCall.request sampleNetwork 0) =
        .ok (sampleHandling.payload, sampleHandling.aesKey) := by
    apply decrypt_request (lawful_symbolicCrypto _) ?_ rfl rfl rfl
    exact unwrapKey_first (lawful_symbolicCrypto _) ⟨"k1", true⟩ [] _ rfl
  rw [ProxyController.accept, hdecrypt]
  rfl

theorem response_sampleCall :
    sampleCall.client.response sampleNetwork.platform.crypto sampleNetwork.text (.secret 0)
      ⟨200, sampleNetwork.text.write sampleReply.toJson⟩ = .ok (delivered sampleResponse) :=
  response_encrypted (lawful_symbolicCrypto _) sampleNetwork.text sampleCall.client rfl rfl trivial
    ⟨by decide, by decide⟩

theorem sample_run : ∃ s, Run (Step sampleNetwork) .initial sampleTrace s := by
  let dto := sampleCall.request sampleNetwork 0
  let sent : State ℤ Bool := ⟨[sampleCall], [], .empty, requestBuffers sampleNetwork dto ++ []⟩
  let accepted : State ℤ Bool := { sent with pending := [sampleHandling] }
  let replayed : State ℤ Bool := { sent with pending := [sampleHandling, sampleHandling] }
  let completed : State ℤ Bool :=
    { accepted with wire := replyBuffers sampleNetwork (.ok sampleReply) ++ sent.wire }
  have hwire : requestBuffers sampleNetwork dto ⊆ sent.wire := List.subset_append_left _ _
  have hdto : Sendable sampleNetwork accepted dto := sendable_of_subset hwire
  have hsend : Step sampleNetwork .initial (.sent sampleCall) sent :=
    .send sampleCall (by simp [sampleNetwork, sampleCall])
  have hreflect : Step sampleNetwork sent (.returned 0 (.error invalidResponse)) sent := by
    have hcall : sent.calls[0]? = some sampleCall := rfl
    refine .receive hcall _ (answerable_of_subset ?_)
      (response_reflected sampleNetwork sampleCall 0)
    exact List.Subset.trans (replyBuffers_reflected sampleNetwork sampleCall 0) hwire
  have haccept : Step sampleNetwork sent (.accepted sampleHandling) accepted :=
    .accept dto (sendable_of_subset hwire) 0 (accept_sampleCall .empty)
  have hreplay : Step sampleNetwork accepted (.accepted sampleHandling) replayed :=
    .accept dto hdto 0 (accept_sampleCall .empty)
  have hcomplete : Step sampleNetwork replayed
      (.completed sampleHandling sampleExchange (.ok sampleReply)) completed := by
    have hpending : replayed.pending = [] ++ sampleHandling :: [sampleHandling] := rfl
    exact .complete hpending sampleUpstream (List.replicate 12 1) rfl rfl
  have hreceive : Step sampleNetwork completed (.returned 0 (.ok (delivered sampleResponse)))
      completed := by
    have hcall : completed.calls[0]? = some sampleCall := rfl
    refine .receive hcall _ (answerable_of_subset ?_) response_sampleCall
    exact List.subset_append_left _ _
  exact ⟨completed, .cons hsend (.cons hreflect (.cons haccept (.cons hreplay (.cons hcomplete
    (.cons hreceive (.nil completed))))))⟩

theorem end_to_end_authenticity_payment :
    ∃ s, (∃ m < 5, ∃ (handling : Handling ℤ Bool) (exchange : Exchange ℤ)
        (upstream : UpstreamResponse ℤ) (iv : Bytes),
      sampleTrace[m]? = some (.completed handling exchange
        (.ok (answer sampleNetwork upstream iv (.secret 0)))) ∧
      handling.aesKey = .secret 0 ∧ SealedBy sampleNetwork s 0 handling.payload ∧
      exchange.result = .ok upstream ∧ delivered sampleResponse = delivered upstream) ∧
    SealedBy sampleNetwork s 0 sampleHandling.payload := by
  obtain ⟨s, run⟩ := sample_run
  have hforwarded : sampleExchange.calls ≠ [] := by
    intro hnone
    have hlength : sampleExchange.calls.length = 1 := rfl
    rw [hnone] at hlength
    cases hlength
  have hboth := end_to_end_authenticity sampleNetwork run
  exact ⟨s, hboth.1 5 0 _ rfl, hboth.2 4 0 _ _ _ rfl hforwarded rfl⟩

end Samples

end EncryptionGateway.Channel
