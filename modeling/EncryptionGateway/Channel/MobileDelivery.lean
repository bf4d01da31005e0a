import EncryptionGateway.Channel.ResponseModes
import EncryptionGateway.Client.MobileClients

/-!
# One gateway, four SDKs

A call that is made through an SDK of a phone has the outcome of the same call
of the Web SDK, in both response modes and for clients of both kinds: both throw,
or both return the same response. The shapes of the headers differ, their texts
do not.
-/

namespace EncryptionGateway.Channel

open JavaScript Foundation Common Encryption Proxy Client

variable {N B K : Type} [JsNumber N]

/-- Both results show one response. -/
structure Agrees (web mobile : SendResult N) : Prop where
  statusCode : mobile.StatusCode = web.StatusCode
  data : mobile.Data = web.Data
  headers : ∀ name, (Json.lookup mobile.Headers name).map headerTexts =
    (Json.lookup web.Headers name).map headerTexts

/-- Both calls throw, or both return one response. -/
def SameOutcome : Except (SendError N) (SendResult N) → Except MobileError (SendResult N) → Prop
  | .ok web, .ok mobile => Agrees web mobile
  | .error _, .error _ => True
  | _, _ => False

omit [JsNumber N] in
theorem SameOutcome.of_ok {x : Except (SendError N) (SendResult N)}
    {y : Except MobileError (SendResult N)} {web mobile : SendResult N} (hx : x = .ok web)
    (hy : y = .ok mobile) (h : Agrees web mobile) : SameOutcome x y := by
  rw [hx, hy]
  exact h

omit [JsNumber N] in
theorem SameOutcome.of_error {x : Except (SendError N) (SendResult N)}
    {y : Except MobileError (SendResult N)} {e : SendError N} {e' : MobileError} (hx : x = .error e)
    (hy : y = .error e') : SameOutcome x y := by
  rw [hx, hy]
  trivial

section Reading

variable {client : MobileClient N B} {crypto : Crypto B K}

/-- The properties of an object as they are parsed. -/
theorem parse_write_obj (text : JsonText N) {fields : List (String × Json N)}
    (h : (Json.obj fields).IsValue) :
    ∃ parsed, text.parse (text.write (.obj fields)) = some (.obj parsed) ∧
      ∀ k, Json.lookup parsed k = (Json.lookup fields k).map Json.serialised :=
  ⟨Json.serialisedFields fields, text.parse_write h, fun k => Json.get_serialised (.obj fields) k⟩

/-- The headers a client shows for a response. -/
theorem exists_headers_delivered (hclient : client.Lawful crypto) (upstream : UpstreamResponse N) :
    ∃ headers, client.headers (delivered upstream).Headers = .ok headers := by
  apply hclient.headers
  intro f hf
  obtain ⟨header, hheader⟩ := mem_headerFields hf
  rw [hheader]
  cases header with
  | single s => exact Or.inl ⟨s, rfl⟩
  | repeated texts => exact Or.inr ⟨texts, rfl⟩

/-- The properties are those of the result for a response. -/
def Holds (fields : List (String × Json N)) (upstream : UpstreamResponse N) : Prop :=
  ∀ k ∈ ["StatusCode", "Headers", "Data"],
    Json.lookup fields k = (Json.lookup (resultFields upstream) k).map Json.serialised

theorem Holds.lookup {fields : List (String × Json N)} {upstream : UpstreamResponse N}
    (h : Holds fields upstream) :
    Json.lookup fields "StatusCode" = some (.num (delivered upstream).StatusCode) ∧
      Json.lookup fields "Headers" = some (.obj (delivered upstream).Headers) ∧
      Json.lookup fields "Data" = some (delivered upstream).Data := by
  obtain ⟨hstatus, hheaders, hdata⟩ := get_response upstream
  rw [Json.get_serialised] at hstatus hheaders hdata
  exact ⟨(h _ (by simp)).trans hstatus, (h _ (by simp)).trans hheaders, (h _ (by simp)).trans hdata⟩

/-- What a client returns for a response. -/
structure Shown (client : MobileClient N B) (upstream : UpstreamResponse N) (r : SendResult N) :
    Prop where
  statusCode : r.StatusCode = (delivered upstream).StatusCode
  data : r.Data = (delivered upstream).Data
  headers : client.headers (delivered upstream).Headers = .ok r.Headers

theorem Shown.agrees (hclient : client.Lawful crypto) {upstream : UpstreamResponse N}
    {r : SendResult N} (h : Shown client upstream r) : Agrees (delivered upstream) r :=
  ⟨h.statusCode, h.data, hclient.headerTexts h.headers⟩

theorem Shown.unique {upstream : UpstreamResponse N} {r r' : SendResult N}
    (h : Shown client upstream r) (h' : Shown client upstream r') : r = r' := by
  obtain ⟨statusCode, headers, data⟩ := r
  obtain ⟨statusCode', headers', data'⟩ := r'
  obtain ⟨rfl, rfl, hheaders⟩ := h
  obtain ⟨rfl, rfl, hheaders'⟩ := h'
  cases hheaders.symm.trans hheaders'
  rfl

/-- What a client reads in a result is the response. -/
theorem shown_of_result {fields : List (String × Json N)} {upstream : UpstreamResponse N}
    (hfields : Holds fields upstream) {r : SendResult N} (h : client.result fields = .ok r) :
    Shown client upstream r := by
  obtain ⟨hstatus, ⟨headers, hheaders, hshown⟩, hdata, -⟩ := MobileClient.result_eq_ok.mp h
  obtain ⟨hstatus', hheaders', hdata'⟩ := hfields.lookup
  have hobject := Json.obj.inj (Option.some.inj (hheaders.symm.trans hheaders'))
  exact ⟨Json.num.inj (Option.some.inj (hstatus.symm.trans hstatus')),
    Option.some.inj (hdata.symm.trans hdata'), hobject ▸ hshown⟩

/-- A client reads a result. -/
theorem exists_result (hclient : client.Lawful crypto) {fields : List (String × Json N)}
    {upstream : UpstreamResponse N} (hfields : Holds fields upstream)
    (hstatus : 100 ≤ upstream.status ∧ upstream.status ≤ 599) :
    ∃ r, client.result fields = .ok r ∧ Shown client upstream r := by
  obtain ⟨headers, hheaders⟩ := exists_headers_delivered hclient upstream
  obtain ⟨hcode, hobject, hdata⟩ := hfields.lookup
  have hresult : client.result fields =
      .ok ⟨(delivered upstream).StatusCode, headers, (delivered upstream).Data⟩ := by
    have hrange : 100 ≤ (upstream.status : ℤ) ∧ (upstream.status : ℤ) ≤ 599 := by
      exact_mod_cast hstatus
    exact MobileClient.result_eq_ok.mpr ⟨hcode, ⟨_, hobject, hheaders⟩, hdata,
      hclient.isInt _ hrange.1 hrange.2, isStatusCode_ofInt.mpr hrange⟩
  exact ⟨_, hresult, shown_of_result hfields hresult⟩

/-- A sealed answer is read by clients of either kind. -/
theorem mobile_reads_sealed (lawful : crypto.Lawful) (hclient : client.Lawful crypto)
    (text : JsonText N) (required : Bool) {iv aesKey : B}
    (hiv : crypto.length iv = GCM_IV_BYTES) (haes : crypto.length aesKey = AES_KEY_BYTES)
    {upstream : UpstreamResponse N} (hvalue : upstream.data.IsValue)
    (hstatus : 100 ≤ upstream.status ∧ upstream.status ≤ 599) :
    ∃ r, client.response required crypto text aesKey
        ⟨200, text.write (EncryptionService.encryptResponse crypto text iv
          (.obj (resultFields upstream)) aesKey).toJson⟩ = .ok r ∧
      Shown client upstream r := by
  generalize hresponse : EncryptionService.encryptResponse crypto text iv
    (.obj (resultFields upstream)) aesKey = response
  have hbody : text.parse (text.write (response.toJson : Json N)) = some response.toJson := by
    rw [text.parse_write response.wellFormed_toJson.isValue,
      Json.serialised_of_wellFormed _ response.wellFormed_toJson]
  obtain ⟨fields, hfields, hlookup⟩ := parse_write_obj text (isValue_result hvalue)
  obtain ⟨r, hr, hshown⟩ := exists_result hclient (fun k _ => hlookup k) hstatus
  have hivField : client.boxField (some (.str response.IV)) = .ok iv := by
    rw [← hresponse]
    exact hclient.boxField_toBase64 iv
  have hsealed : client.boxField (some (.str response.Payload)) =
      .ok (crypto.sealGcm aesKey iv (text.write (.obj (resultFields upstream)))) := by
    rw [← hresponse]
    exact hclient.boxField_toBase64 _
  refine ⟨r, ?_, hshown⟩
  simp only [MobileClient.response, hbody]
  exact MobileClient.openResponse_eq_ok.mpr ⟨iv, _, _, fields, hivField, hsealed,
    hclient.sized _ _ hiv (lawful.length_sealGcm _ _ _ haes hiv),
    lawful.openGcm_sealGcm _ _ _ haes hiv, hfields, hr⟩

/-- A plain answer is read by a client that accepts it. -/
theorem mobile_reads_plain (hclient : client.Lawful crypto) (text : JsonText N) (required : Bool)
    (aesKey : B)
    {upstream : UpstreamResponse N} (hvalue : upstream.data.IsValue)
    (hstatus : 100 ≤ upstream.status ∧ upstream.status ≤ 599) :
    ∃ r, client.response required crypto text aesKey
        ⟨200, text.write (GatewayReply.plain (resultFields upstream)).toJson⟩ =
          (if required then .error client.encryptionRequired else .ok r) ∧
      Shown client upstream r := by
  obtain ⟨fields, hfields, hlookup⟩ := parse_write_obj text (isValue_plain hvalue)
  have hholds : Holds fields upstream := by
    intro k hk
    have hname : "Encrypted" ≠ k := by
      rintro rfl
      simp at hk
    rw [hlookup, Json.lookup_cons, if_neg hname]
  have hmarker : Json.lookup fields "Encrypted" = some (.bool false) := hlookup _
  have hiv : Json.hasKey fields "IV" = false := Json.lookup_eq_none.mp (hlookup _)
  have hpayload : Json.hasKey fields "Payload" = false := Json.lookup_eq_none.mp (hlookup _)
  obtain ⟨r, hr, hshown⟩ := exists_result hclient hholds hstatus
  refine ⟨r, ?_, hshown⟩
  have hbody : text.parse (text.write (GatewayReply.plain (resultFields upstream)).toJson) =
      some (.obj fields) := hfields
  simp only [MobileClient.response, hbody, Option.bind_some, fields?, hmarker, hiv, hpayload, hr]
  rfl

/-- An exception of the gateway is reported with its status, code and message. -/
theorem mobile_reads_exception (hclient : client.Lawful crypto) (text : JsonText N)
    (required : Bool) (aesKey : B) {e : HttpException} (hstatus : e.status ≠ 200) :
    (∃ err,
        client.response required crypto text aesKey (httpResponse text (.error e)) = .error err) ∧
      (e.code ≠ some "" →
        client.response required crypto text aesKey (httpResponse text (.error e)) =
          .error (.gateway e.status e.code e.message)) := by
  obtain ⟨fields, hfields, hlookup⟩ := parse_write_obj text (isValue_exception (N := N) e)
  have hbody : text.parse (httpResponse text (.error e)).body = some (.obj fields) := hfields
  have hthrown : client.response required crypto text aesKey (httpResponse text (.error e)) =
      .error (client.gatewayError e.status (some fields) (httpResponse text (.error e)).body) := by
    rw [MobileClient.response, hbody]
    exact if_pos hstatus
  refine ⟨⟨_, hthrown⟩, fun hne => ?_⟩
  have hcode : Json.lookup fields "code" = e.code.map .str := by
    rw [hlookup]
    cases e.code <;> rfl
  have hmessage : Json.lookup fields "message" = some (.str e.message) := by
    rw [hlookup]
    cases e.code <;> rfl
  rw [hthrown, hclient.gatewayError _ _ _ _ _ hcode hmessage hne]

end Reading

namespace SdkCall

/-- What `send` of another SDK returns or throws. -/
def mobileOutcome (call : SdkCall N B K) (client : MobileClient N B) (options : MobileOptions N)
    (reply : UpstreamReply N) (encryptResponse requireEncryptedResponse : Bool) :
    Except MobileError (SendResult N) :=
  client.send requireEncryptedResponse call.platform.crypto call.platform.text call.serverKey
    call.keyId (fun dto => httpResponse call.platform.text
      ({ call.controller with encryptResponse := encryptResponse }.handleGateway call.platform
        (fun _ => .ok reply) call.answerIv dto call.now call.seen).1)
    call.rawKey call.iv call.seed options

theorem mobileOutcome_eq (call : SdkCall N B K) (client : MobileClient N B)
    {options : MobileOptions N} (hoptions : call.options = options.toSendOptions)
    (reply : UpstreamReply N) (encryptResponse requireEncryptedResponse : Bool) :
    call.mobileOutcome client options reply encryptResponse requireEncryptedResponse =
      client.response requireEncryptedResponse call.platform.crypto call.platform.text call.rawKey
        (httpResponse call.platform.text (call.answer reply encryptResponse)) := by
  rw [mobileOutcome, MobileClient.send, answer, request, hoptions, request_toSendOptions]

/-- A call that gets as far as the upstream is refused with a 400 or answered. -/
theorem throwsOnly_answer (call : SdkCall N B K) (reply : UpstreamReply N) (mode : Bool) :
    ThrowsOnly IsBadRequest (call.answer reply mode) := by
  rw [answer_eq]
  refine (ProxyController.throwsOnly_accept _ _ _ _ _).bind fun accepted => ThrowsOnly.map ?_ _
  unfold ProxyService.forward
  split
  · next e he => exact throwsOnly_error (ProxyService.throwsOnly_prepare _ _ _ e he)
  · exact throwsOnly_ok

/-- Either the gateway refuses the call and the client reports that, or the
client returns the response, unless it requires encryption and does not get it. -/
theorem mobileOutcome_cases (call : SdkCall N B K) (lawful : call.platform.crypto.Lawful)
    (hbox : call.platform.crypto.Boxed)
    {client : MobileClient N B} (hclient : client.Lawful call.platform.crypto)
    {options : MobileOptions N} (hoptions : call.options = options.toSendOptions)
    {reply : UpstreamReply N} (hvalue : reply.data.IsValue)
    (hstatus : 100 ≤ reply.status ∧ reply.status ≤ 599) :
    (∃ e, IsBadRequest e ∧ (∀ mode, call.answer reply mode = .error e) ∧ ∀ mode required,
        (∃ err, call.mobileOutcome client options reply mode required = .error err) ∧
        (e.code ≠ some "" → call.mobileOutcome client options reply mode required =
          .error (.gateway e.status e.code e.message))) ∨
      ∃ r, Shown client (shaped reply) r ∧
        (∀ mode, call.answer reply mode =
          .ok ({ call.controller with encryptResponse := mode }.complete
            call.platform call.answerIv call.rawKey (shaped reply))) ∧
        ∀ mode required, call.mobileOutcome client options reply mode required =
          if !mode && required then .error client.encryptionRequired else .ok r := by
  rcases call.answer_cases reply with ⟨⟨e, he⟩, -⟩ | ⟨payload, aesKey, hdecrypt, hanswer⟩
  · have hbad := call.throwsOnly_answer reply true e (he true)
    have hne : e.status ≠ 200 := by
      rw [hbad]
      decide
    refine Or.inl ⟨e, hbad, he, fun mode required => ?_⟩
    rw [mobileOutcome_eq call client hoptions, he]
    exact mobile_reads_exception hclient call.platform.text required call.rawKey hne
  · obtain rfl := rawKey_of_decrypt lawful hbox hdecrypt
    have hdata : (shaped reply).data.IsValue := hvalue
    have hrange : 100 ≤ (shaped reply).status ∧ (shaped reply).status ≤ 599 := hstatus
    obtain ⟨r, -, hshown⟩ := mobile_reads_plain hclient call.platform.text false call.rawKey
      hdata hrange
    refine Or.inr ⟨r, hshown, hanswer, fun mode required => ?_⟩
    rw [mobileOutcome_eq call client hoptions, hanswer]
    cases mode with
    | true =>
        obtain ⟨r', hr', hshown'⟩ := mobile_reads_sealed lawful hclient call.platform.text
          required call.length_answerIv call.length_rawKey hdata hrange
        rw [hshown.unique hshown']
        exact hr'
    | false =>
        obtain ⟨r', hr', hshown'⟩ := mobile_reads_plain hclient call.platform.text required
          call.rawKey hdata hrange
        rw [hshown.unique hshown', Bool.not_false, Bool.true_and]
        exact hr'

/-- A call has one outcome through all SDKs, and an exception of the gateway is
reported as it was thrown. -/
theorem mobile_sdks_agree (call : SdkCall N B K) (lawful : call.platform.crypto.Lawful)
    (hbox : call.platform.crypto.Boxed)
    {platform : MobilePlatform N B} (hplatform : platform.Lawful call.platform.crypto)
    {client : MobileClient N B} (hclient : client ∈ mobileClients platform call.platform.crypto)
    {options : MobileOptions N} (hoptions : call.options = options.toSendOptions)
    {reply : UpstreamReply N} (hvalue : reply.data.IsValue)
    (hstatus : 100 ≤ reply.status ∧ reply.status ≤ 599) (mode required : Bool) :
    SameOutcome (call.outcome reply mode required)
        (call.mobileOutcome client options reply mode required) ∧
      ∀ e, call.answer reply mode = .error e → e.code ≠ some "" →
        call.mobileOutcome client options reply mode required =
          .error (.gateway e.status e.code e.message) := by
  have hlaws := lawful_of_mem_mobileClients hplatform hclient
  rcases call.mobileOutcome_cases lawful hbox hlaws hoptions hvalue hstatus with
    ⟨e, -, he, hmobile⟩ | ⟨r, hshown, hanswer, hmobile⟩
  · obtain ⟨_, hweb⟩ := response_exception call.platform.crypto call.platform.text call.rawKey e
    obtain ⟨⟨_, herror⟩, hexact⟩ := hmobile mode required
    refine ⟨?_, fun e' he' => ?_⟩
    · rw [outcome_eq, he]
      exact .of_error (hweb _) herror
    · rw [he] at he'
      cases he'
      exact hexact
  · rw [outcome_eq, hmobile, hanswer]
    refine ⟨?_, fun e he => by cases he⟩
    have hdata : (shaped reply).data.IsValue := hvalue
    have hrange : 100 ≤ (shaped reply).status ∧ (shaped reply).status ≤ 599 := hstatus
    have hagrees := hshown.agrees hlaws
    cases mode with
    | true =>
        exact .of_ok (response_encrypted lawful call.platform.text _ call.length_answerIv
          call.length_rawKey hdata hrange) rfl hagrees
    | false =>
        have hweb := response_plain call.platform.crypto call.platform.text
          ⟨call.serverKey, call.keyId, required⟩ call.rawKey hdata hrange
        cases required with
        | true => exact .of_error hweb rfl
        | false => exact .of_ok hweb rfl hagrees

section Samples

/-- The payment of the Web SDK, made on a phone. -/
def phonePayment : MobileOptions ℤ where
  method := "POST"
  accessPoint := "https://api.example.com/pay/now"
  headers := []
  body := none
  parameter := none

/-- Platforms whose decoders accept the texts of the codec only. -/
def samplePhone : MobilePlatform ℤ (Buffer Bool) where
  javaBase64 := sampleNetwork.codec.atob
  swiftBase64 := sampleNetwork.codec.atob
  dartBase64 := sampleNetwork.codec.atob
  writtenAsInt _ := true
  toJavaString := (JsonText.standard ℤ).write
  toDartString := Json.toText

theorem lawful_samplePhone : samplePhone.Lawful payment.platform.crypto where
  toBase64 b :=
    have hatob := sampleNetwork.codec.atob_encode b
    ⟨hatob, hatob, hatob⟩
  writtenAsInt _ _ _ := rfl

theorem mobile_sdks_agree_cookies :
    (∃ r, payment.outcome cookieReply true true = .ok r) ∧
    SameOutcome (payment.outcome cookieReply true true)
      (payment.mobileOutcome (androidClient samplePhone) phonePayment cookieReply true true) := by
  have hstatus : 100 ≤ cookieReply.status ∧ cookieReply.status ≤ 599 := by decide
  have hdata : cookieReply.data.WellFormed := ⟨List.pairwise_singleton _ _, trivial, trivial⟩
  constructor
  · rcases payment.outcome_cases (lawful_symbolicCrypto _) (boxed_symbolicCrypto _)
      hdata.isValue hstatus with ⟨-, hnot⟩ | ⟨hsealed, -⟩
    · exact absurd forwarded_payment hnot
    · exact ⟨_, hsealed true⟩
  · exact (mobile_sdks_agree payment (lawful_symbolicCrypto _) (boxed_symbolicCrypto _)
      lawful_samplePhone List.mem_cons_self rfl hdata.isValue hstatus true true).1

end Samples

end SdkCall

end EncryptionGateway.Channel
