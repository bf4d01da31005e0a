import EncryptionGateway.Channel.Authenticity
import EncryptionGateway.Proxy.ResponseHeaders

/-!
# The two response modes

With `ENCRYPT_RESPONSE` the gateway seals its answer under the key of the
request, without it the answer is sent in the clear. A client that accepts both
reads the same result out of either.

## Implementation notes

A call is compared with itself under both configurations, so everything a call
depends on is gathered in one structure and the two switches are arguments.
-/

namespace EncryptionGateway.Channel

open JavaScript Foundation Common Encryption Proxy Client

variable {N B K : Type} [JsNumber N]

section Bodies

/-- The body of a plain answer has the properties of the result. -/
theorem get_plain {k : String} (hk : k ≠ "Encrypted") (fields : List (String × Json N)) :
    (Json.obj (("Encrypted", .bool false) :: fields)).serialised.get k =
      (Json.obj fields).serialised.get k := by
  rw [Json.get_serialised, Json.get_serialised, Json.get, Json.get, Json.lookup_cons,
    if_neg (Ne.symm hk)]

theorem isValue_plain {upstream : UpstreamResponse N} (h : upstream.data.IsValue) :
    (Json.obj (("Encrypted", .bool false) :: resultFields upstream)).IsValue := by
  have hnames : ["Encrypted", "StatusCode", "Headers", "Data"].Pairwise
      (fun a b => Json.listedBefore a b = true) := by decide
  refine Json.isValue_obj.mpr ⟨hnames, ?_⟩
  rw [List.forall_mem_cons]
  exact ⟨trivial, (Json.isValue_obj.mp (isValue_result h)).2⟩

/-- A client reads in a plain answer what the upstream has answered, unless it
requires encryption. -/
theorem response_plain (crypto : Crypto B K) (text : JsonText N) (client : GatewayClient K)
    (aesKey : B) {upstream : UpstreamResponse N} (hvalue : upstream.data.IsValue)
    (hstatus : 100 ≤ upstream.status ∧ upstream.status ≤ 599) :
    client.response crypto text aesKey
        ⟨200, text.write (GatewayReply.plain (resultFields upstream)).toJson⟩ =
      if client.requireEncryptedResponse then
        .error (.error "Encrypted response required; check ENCRYPT_RESPONSE on the server")
      else .ok (delivered upstream) := by
  have hbody : text.parse (text.write (GatewayReply.plain (resultFields upstream)).toJson) =
      some (Json.obj (("Encrypted", .bool false) :: resultFields upstream)).serialised :=
    text.parse_write (isValue_plain hvalue)
  have hmarker : (Json.obj (("Encrypted", .bool false) :: resultFields upstream)).serialised.get
      "Encrypted" = some (.bool false) := by
    rw [Json.get_serialised]
    rfl
  have hiv : (Json.obj (("Encrypted", .bool false) :: resultFields upstream)).serialised.get
      "IV" = none := by
    rw [Json.get_serialised]
    rfl
  have hpayload : (Json.obj (("Encrypted", .bool false) :: resultFields upstream)).serialised.get
      "Payload" = none := by
    rw [Json.get_serialised]
    rfl
  have hresult : GatewayClient.result
      (Json.obj (("Encrypted", .bool false) :: resultFields upstream)).serialised =
        .ok (delivered upstream) := by
    rw [GatewayClient.result, get_plain (by decide), get_plain (by decide), get_plain (by decide)]
    exact result_response_eq_ok.mpr ⟨rfl, hstatus⟩
  simp only [GatewayClient.response, hbody, Option.getD_some, hmarker, hiv, hpayload, hresult]
  simp

/-- The body of an exception can be read. -/
theorem isValue_exception (e : HttpException) : (Json.obj (Json.definedFields
    [("code", e.code.map .str), ("message", some (.str e.message))]) : Json N).IsValue := by
  let body : List (String × Option (Json N)) :=
    [("code", e.code.map .str), ("message", some (.str e.message))]
  have hlisted : ["code", "message"].Pairwise (fun a b => Json.listedBefore a b = true) := by decide
  have hnames : (body.map Prod.fst).Pairwise (fun a b => Json.listedBefore a b = true) := hlisted
  apply Json.isValue_definedFields hnames
  rw [List.forall_mem_cons, List.forall_mem_singleton]
  constructor
  · intro v hv
    obtain ⟨code, -, rfl⟩ := Option.mem_map.mp hv
    exact Json.isValue_str code
  · intro v hv
    cases hv
    exact Json.isValue_str e.message

/-- An exception is thrown by a client of either kind. -/
theorem response_exception (crypto : Crypto B K) (text : JsonText N) (aesKey : B)
    (e : HttpException) : ∃ err, ∀ client : GatewayClient K,
      client.response crypto text aesKey (httpResponse text (.error e)) = .error err := by
  let body : List (String × Option (Json N)) :=
    [("code", e.code.map .str), ("message", some (.str e.message))]
  have hmissing : ∀ k, k ∉ ["code", "message"] →
      (Json.obj (Json.definedFields body)).serialised.get k = none := by
    intro k hk
    rw [Json.get_serialised, Json.get_definedFields_eq_none hk]
    rfl
  have hbody : text.parse (httpResponse text (.error e)).body =
      some (Json.obj (Json.definedFields body)).serialised := text.parse_write (isValue_exception e)
  by_cases hstatus : 200 ≤ (httpResponse text (.error e)).status ∧
      (httpResponse text (.error e)).status ≤ 299
  · refine ⟨invalidResponse, fun client => ?_⟩
    rw [GatewayClient.response, if_neg (not_not.mpr hstatus), hbody, Option.getD_some,
      hmissing "Encrypted" (by decide), GatewayClient.openResponse, hmissing "IV" (by decide)]
  · refine ⟨gatewayError (httpResponse text (.error e)).status
      (Json.obj (Json.definedFields body)).serialised, fun client => ?_⟩
    rw [GatewayClient.response, if_pos hstatus, hbody, Option.getD_some]

end Bodies

/-- A call of `send` that is answered by a gateway. -/
structure SdkCall (N B K : Type) [JsNumber N] where
  platform : Platform N B K
  controller : ProxyController K
  serverKey : K
  keyId : Option String
  options : SendOptions N
  rawKey : B
  iv : B
  seed : B
  /-- The initialisation vector of the answer. -/
  answerIv : B
  length_rawKey : platform.crypto.length rawKey = AES_KEY_BYTES
  length_iv : platform.crypto.length iv = GCM_IV_BYTES
  length_answerIv : platform.crypto.length answerIv = GCM_IV_BYTES
  now : Int
  seen : ReplayProtection.Seen

namespace SdkCall

def request (call : SdkCall N B K) : GatewayRequest :=
  GatewayClient.request ⟨call.serverKey, call.keyId, true⟩ call.platform.crypto call.platform.text
    call.rawKey call.iv call.seed call.options

/-- The answer to the request when the upstream responds with `reply`. -/
def answer (call : SdkCall N B K) (reply : UpstreamReply N) (encryptResponse : Bool) :
    Except HttpException (GatewayReply N) :=
  ({ call.controller with encryptResponse := encryptResponse }.handleGateway call.platform
    (fun _ => .ok reply) call.answerIv call.request call.now call.seen).1

/-- What `send` returns or throws. -/
def outcome (call : SdkCall N B K) (reply : UpstreamReply N)
    (encryptResponse requireEncryptedResponse : Bool) : Except (SendError N) (SendResult N) :=
  GatewayClient.send ⟨call.serverKey, call.keyId, requireEncryptedResponse⟩ call.platform.crypto
    call.platform.text (fun dto => httpResponse call.platform.text
      ({ call.controller with encryptResponse := encryptResponse }.handleGateway call.platform
        (fun _ => .ok reply) call.answerIv dto call.now call.seen).1)
    call.rawKey call.iv call.seed call.options

theorem outcome_eq (call : SdkCall N B K) (reply : UpstreamReply N)
    (encryptResponse requireEncryptedResponse : Bool) :
    call.outcome reply encryptResponse requireEncryptedResponse =
      GatewayClient.response ⟨call.serverKey, call.keyId, requireEncryptedResponse⟩
        call.platform.crypto call.platform.text call.rawKey
        (httpResponse call.platform.text (call.answer reply encryptResponse)) :=
  rfl

/-- The gateway reads the request and issues the upstream request. -/
def Forwarded (call : SdkCall N B K) : Prop :=
  ∃ payload aesKey seen request,
    call.controller.accept call.platform call.request call.now call.seen =
      (.ok (payload, aesKey), seen) ∧
    call.controller.proxyService.prepare call.platform.text call.platform.parseUrl payload =
      .ok request

/-- The mode only matters once there is a response to return. -/
theorem answer_eq (call : SdkCall N B K) (reply : UpstreamReply N) (mode : Bool) :
    call.answer reply mode =
      (call.controller.accept call.platform call.request call.now call.seen).1 >>= fun accepted =>
        (call.controller.proxyService.forward call.platform.text call.platform.parseUrl
          (fun _ => .ok reply) accepted.1).result.map
            ({ call.controller with encryptResponse := mode }.complete call.platform
              call.answerIv accepted.2) := by
  have hsame : ProxyController.accept { call.controller with encryptResponse := mode }
      call.platform call.request call.now call.seen =
        call.controller.accept call.platform call.request call.now call.seen := rfl
  rw [answer, ProxyController.handleGateway, hsame]
  cases call.controller.accept call.platform call.request call.now call.seen with
  | mk accepted seen =>
      cases accepted with
      | error e => rfl
      | ok accepted => rfl

/-- A call is answered with one exception in both modes, or with the upstream
response as each mode presents it. -/
theorem answer_cases (call : SdkCall N B K) (reply : UpstreamReply N) :
    (∃ e, ∀ mode, call.answer reply mode = .error e) ∧ ¬ call.Forwarded ∨
      ∃ payload aesKey,
        call.controller.encryptionService.decrypt call.platform.crypto call.platform.text
          call.request = .ok (payload, aesKey) ∧
        ∀ mode, call.answer reply mode =
          .ok ({ call.controller with encryptResponse := mode }.complete call.platform call.answerIv
            aesKey ⟨reply.status, reply.data,
              ProxyService.sanitizeResponseHeaders reply.headers⟩) := by
  cases haccept : call.controller.accept call.platform call.request call.now call.seen with
  | mk accepted seen =>
      cases accepted with
      | error e =>
          refine Or.inl ⟨⟨e, fun mode => ?_⟩, ?_⟩
          · rw [answer_eq, haccept]
            rfl
          · rintro ⟨_, _, _, _, haccept', -⟩
            rw [haccept] at haccept'
            cases haccept'
      | ok accepted =>
          obtain ⟨payload, aesKey⟩ := accepted
          have hanswer : ∀ mode, call.answer reply mode =
              (call.controller.proxyService.forward call.platform.text call.platform.parseUrl
                (fun _ => .ok reply) payload).result.map
                  ({ call.controller with encryptResponse := mode }.complete call.platform
                    call.answerIv aesKey) := by
            intro mode
            rw [answer_eq, haccept]
            rfl
          cases hprepare : call.controller.proxyService.prepare call.platform.text
              call.platform.parseUrl payload with
          | error e =>
              refine Or.inl ⟨⟨e, fun mode => ?_⟩, ?_⟩
              · rw [hanswer]
                simp only [ProxyService.forward, hprepare, Except.map]
              · rintro ⟨_, _, _, _, haccept', hprepare'⟩
                rw [haccept] at haccept'
                cases haccept'
                rw [hprepare] at hprepare'
                cases hprepare'
          | ok request =>
              refine Or.inr ⟨payload, aesKey, ProxyController.decrypt_of_accept haccept,
                fun mode => ?_⟩
              rw [hanswer]
              simp only [ProxyService.forward, hprepare, Except.map]

/-- The AES key the gateway reads is the one the client has drawn. -/
theorem rawKey_of_decrypt {call : SdkCall N B K} (lawful : call.platform.crypto.Lawful)
    (hbox : call.platform.crypto.Boxed) {payload : DecryptedPayload N} {aesKey : B}
    (h : call.controller.encryptionService.decrypt call.platform.crypto call.platform.text
      call.request = .ok (payload, aesKey)) : aesKey = call.rawKey := by
  obtain ⟨key, -, hopen⟩ :=
    EncryptionService.unwrapKey_eq_some (EncryptionService.decrypt_eq_ok.mp h).1
  have hwrapped : call.platform.crypto.fromBase64 call.request.EncryptedKey =
      call.platform.crypto.encryptOaep call.serverKey call.seed call.rawKey :=
    lawful.fromBase64_toBase64 _
  rw [hwrapped] at hopen
  by_cases hkey : key.privateKey = call.serverKey
  · rw [hkey, lawful.decryptOaep_encryptOaep _ _ _ call.length_rawKey] at hopen
    exact (Option.some.inj hopen).symm
  · rw [hbox call.serverKey key.privateKey call.seed call.rawKey hkey] at hopen
    cases hopen

/-- The upstream response as the proxy shapes it. -/
def shaped (reply : UpstreamReply N) : UpstreamResponse N :=
  ⟨reply.status, reply.data, ProxyService.sanitizeResponseHeaders reply.headers⟩

/-- Either every call throws the same, or all calls return the upstream
response but the one that requires encryption and does not get it. -/
theorem outcome_cases (call : SdkCall N B K) (lawful : call.platform.crypto.Lawful)
    (hbox : call.platform.crypto.Boxed) {reply : UpstreamReply N} (hvalue : reply.data.IsValue)
    (hstatus : 100 ≤ reply.status ∧ reply.status ≤ 599) :
    (∃ err, ∀ mode required, call.outcome reply mode required = .error err) ∧ ¬ call.Forwarded ∨
      (∀ required, call.outcome reply true required = .ok (delivered (shaped reply))) ∧
        call.outcome reply false false = .ok (delivered (shaped reply)) ∧
        ∃ err, call.outcome reply false true = .error err := by
  rcases call.answer_cases reply with ⟨⟨e, he⟩, hnot⟩ | ⟨payload, aesKey, hdecrypt, hanswer⟩
  · obtain ⟨err, herr⟩ := response_exception call.platform.crypto call.platform.text call.rawKey e
    refine Or.inl ⟨⟨err, fun mode required => ?_⟩, hnot⟩
    rw [outcome_eq, he]
    exact herr _
  · obtain rfl := rawKey_of_decrypt lawful hbox hdecrypt
    have hsealed : ∀ required, call.outcome reply true required =
        .ok (delivered (shaped reply)) := by
      intro required
      rw [outcome_eq, hanswer]
      exact response_encrypted lawful call.platform.text _ call.length_answerIv
        call.length_rawKey hvalue hstatus
    have hplain : ∀ required, call.outcome reply false required =
        if required then
          .error (.error "Encrypted response required; check ENCRYPT_RESPONSE on the server")
        else .ok (delivered (shaped reply)) := by
      intro required
      rw [outcome_eq, hanswer]
      exact response_plain call.platform.crypto call.platform.text
        ⟨call.serverKey, call.keyId, required⟩ call.rawKey hvalue hstatus
    exact Or.inr ⟨hsealed, hplain false, _, hplain true⟩

/-- The result is the upstream response: its status, its data, and each header
that is kept under its lower-cased name. -/
structure Carries (reply : UpstreamReply N) (r : SendResult N) : Prop where
  statusCode : r.StatusCode = JsNumber.ofInt reply.status
  data : r.Data = reply.data
  headers : ∀ name,
    Json.lookup r.Headers name = (sanitised reply.headers name).map HeaderText.toJson
  distinct : (r.Headers.map Prod.fst).Nodup

theorem carries_delivered_iff {reply : UpstreamReply N} (hdata : reply.data.WellFormed) :
    Carries reply (delivered (shaped reply)) ↔
      ∀ f ∈ reply.headers, toLowerCase f.1 = "__proto__" → headerText f.2 = none := by
  have hlookup : ∀ name, Json.lookup (delivered (shaped reply)).Headers name =
      (if name = "__proto__" then none else sanitised reply.headers name).map
        HeaderText.toJson := by
    intro name
    rw [← get_sanitizeResponseHeaders]
    exact lookup_headerFields _ name
  rw [← sanitised_eq_none (by decide)]
  constructor
  · intro h
    have hproto := (h.headers "__proto__").symm.trans (hlookup "__proto__")
    rw [if_pos rfl, Option.map_none] at hproto
    exact Option.map_eq_none_iff.mp hproto
  · intro hnone
    refine ⟨rfl, delivered_data hdata, fun name => ?_, nodup_headerFields _⟩
    rw [hlookup]
    split
    · next hname => rw [hname, hnone]
    · rfl

/-- The two modes are one to a client that accepts both, and a client that
requires encryption is served by one of them. -/
structure Indistinguishable (call : SdkCall N B K) (reply : UpstreamReply N) : Prop where
  permissive : call.outcome reply true false = call.outcome reply false false
  strict : call.outcome reply true true = call.outcome reply true false
  refused : ∃ err, call.outcome reply false true = .error err

/-- The HTTP client delivers the headers as properties that were assigned on an
object, and no assignment makes a property of that name. -/
def DeliveredHeaders (headers : List (String × Json N)) : Prop :=
  ∀ f ∈ headers, toLowerCase f.1 ≠ "__proto__"

/-- Every call has the same outcome in both modes. A call that is forwarded
returns the upstream response exactly when no header it should carry is named
`__proto__`. -/
theorem modes_carry_response_iff (call : SdkCall N B K) (lawful : call.platform.crypto.Lawful)
    (hbox : call.platform.crypto.Boxed) {reply : UpstreamReply N}
    (hstatus : 100 ≤ reply.status ∧ reply.status ≤ 599) (hdata : reply.data.WellFormed) :
    call.Indistinguishable reply ∧
    (call.Forwarded →
      ((∃ r, call.outcome reply true false = .ok r ∧ Carries reply r) ↔
        ∀ f ∈ reply.headers, toLowerCase f.1 = "__proto__" → headerText f.2 = none)) := by
  rcases call.outcome_cases lawful hbox hdata.isValue hstatus with
    ⟨⟨err, herr⟩, hnot⟩ | ⟨hsealed, hplain, hrefused⟩
  · refine ⟨⟨?_, ?_, err, herr false true⟩, fun hforwarded => absurd hforwarded hnot⟩
    · rw [herr, herr]
    · rw [herr, herr]
  · refine ⟨⟨?_, ?_, hrefused⟩, fun _ => ?_⟩
    · rw [hsealed, hplain]
    · rw [hsealed, hsealed]
    · rw [← carries_delivered_iff hdata]
      constructor
      · rintro ⟨r, hr, hcarries⟩
        rw [hsealed] at hr
        cases hr
        exact hcarries
      · intro hcarries
        exact ⟨_, hsealed false, hcarries⟩

/-- The two modes are one to a client that accepts both, and a call that is
forwarded returns the upstream response. -/
theorem modes_carry_response (call : SdkCall N B K) (lawful : call.platform.crypto.Lawful)
    (hbox : call.platform.crypto.Boxed) {reply : UpstreamReply N}
    (hstatus : 100 ≤ reply.status ∧ reply.status ≤ 599) (hdata : reply.data.WellFormed)
    (hheaders : DeliveredHeaders reply.headers) :
    call.Indistinguishable reply ∧
    (call.Forwarded → ∃ r, call.outcome reply true false = .ok r ∧ Carries reply r) := by
  obtain ⟨hsame, hiff⟩ := call.modes_carry_response_iff lawful hbox hstatus hdata
  refine ⟨hsame, fun hforwarded => (hiff hforwarded).mpr fun f hf hproto => ?_⟩
  exact absurd hproto (hheaders f hf)

section Samples

/-- A payment that is made through the Web SDK. -/
def payment : SdkCall ℤ (Buffer Bool) Bool where
  platform := sampleNetwork.platform
  controller := sampleNetwork.controller
  serverKey := true
  keyId := some "k1"
  options := sampleCall.options
  rawKey := .secret 0
  iv := .data (List.replicate 12 0)
  seed := .data []
  answerIv := .data (List.replicate 12 1)
  length_rawKey := rfl
  length_iv := rfl
  length_answerIv := rfl
  now := 0
  seen := .empty

theorem forwarded_payment : payment.Forwarded :=
  ⟨sampleHandling.payload, sampleHandling.aesKey, .empty, _, accept_sampleCall .empty, rfl⟩

theorem boxed_symbolicCrypto {K : Type} [DecidableEq K] (codec : Base64Codec (Buffer K)) :
    (symbolicCrypto codec).Boxed :=
  fun _ _ _ _ hne => if_neg fun h => hne h.symm

/-- Repeated, numeric, dropped and missing headers. -/
def cookieReply : UpstreamReply ℤ where
  status := 201
  data := .obj [("Encrypted", .bool true)]
  headers := [("Set-Cookie", .arr [.str "a=1", .str "b=2"]), ("X-Count", .num 3),
    ("Content-Length", .str "4"), ("X-Missing", .null)]

theorem modes_carry_response_cookies : payment.Indistinguishable cookieReply ∧
    ∃ r, payment.outcome cookieReply true false = .ok r ∧ Carries cookieReply r := by
  have hstatus : 100 ≤ cookieReply.status ∧ cookieReply.status ≤ 599 := by decide
  have hdata : cookieReply.data.WellFormed := ⟨List.pairwise_singleton _ _, trivial, trivial⟩
  have hnames : ∀ name ∈ cookieReply.headers.map fun f => toLowerCase f.1, name ≠ "__proto__" := by
    decide
  obtain ⟨hsame, hcarried⟩ := modes_carry_response payment (lawful_symbolicCrypto _)
    (boxed_symbolicCrypto _) hstatus hdata fun f hf => hnames _ (List.mem_map_of_mem hf)
  exact ⟨hsame, hcarried forwarded_payment⟩

end Samples

end SdkCall

end EncryptionGateway.Channel
