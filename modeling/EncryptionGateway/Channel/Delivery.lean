import EncryptionGateway.Client.GatewayClient
import EncryptionGateway.Proxy.ProxyController

/-!
# An undisturbed exchange

The gateway reads in the message of a client what the client has sealed, and
the client reads in a sealed answer what the upstream has answered.
-/

namespace EncryptionGateway.Channel

open JavaScript Foundation Common Encryption Proxy Client

variable {N B K : Type} [JsNumber N]

/-- What a client makes of a response. -/
def delivered (upstream : UpstreamResponse N) : SendResult N where
  StatusCode := JsNumber.ofInt upstream.status
  Headers := headerFields upstream.headers
  Data := upstream.data.serialised

/-- Data without infinite numbers arrives unchanged. -/
theorem delivered_data {upstream : UpstreamResponse N} (h : upstream.data.WellFormed) :
    (delivered upstream).Data = upstream.data :=
  Json.serialised_of_wellFormed upstream.data h

theorem isStatusCode_ofInt {n : ℤ} :
    isStatusCode (JsNumber.ofInt n : N) = true ↔ 100 ≤ n ∧ n ≤ 599 := by
  simp only [isStatusCode, JsNumber.finiteValue_ofInt, Rat.den_intCast, decide_true, Bool.true_and,
    Bool.and_eq_true, decide_eq_true_eq]
  norm_cast

/-- The three properties of a result as they are written. -/
theorem get_response (upstream : UpstreamResponse N) :
    (Json.obj (resultFields upstream)).serialised.get "StatusCode" =
        some (.num (delivered upstream).StatusCode) ∧
      (Json.obj (resultFields upstream)).serialised.get "Headers" =
        some (.obj (delivered upstream).Headers) ∧
      (Json.obj (resultFields upstream)).serialised.get "Data" =
        some (delivered upstream).Data := by
  have hnum : (Json.num (JsNumber.ofInt upstream.status) : Json N).serialised =
      .num (JsNumber.ofInt upstream.status) := by
    rw [Json.serialised, JsNumber.finiteValue_ofInt, Option.isSome_some, if_pos rfl]
  refine ⟨?_, ?_, ?_⟩
  · rw [Json.get_serialised]
    exact congrArg some hnum
  · rw [Json.get_serialised]
    exact congrArg some (serialised_headerFields upstream.headers)
  · rw [Json.get_serialised]
    rfl

theorem result_response_eq_ok {upstream : UpstreamResponse N} {r : SendResult N} :
    GatewayClient.result (Json.obj (resultFields upstream)).serialised = .ok r ↔
      r = delivered upstream ∧ 100 ≤ upstream.status ∧ upstream.status ≤ 599 := by
  obtain ⟨hstatus, hheaders, hdata⟩ := get_response upstream
  rw [GatewayClient.result_eq_ok, hstatus, hheaders, hdata]
  have hrange : isStatusCode (delivered upstream).StatusCode = true ↔
      100 ≤ upstream.status ∧ upstream.status ≤ 599 := by
    rw [delivered, isStatusCode_ofInt]
    norm_cast
  constructor
  · rintro ⟨hn, hh, hd, hcode⟩
    cases r with
    | mk statusCode headers data =>
        cases hn
        cases hh
        cases hd
        exact ⟨rfl, hrange.mp hcode⟩
  · rintro ⟨rfl, hcode⟩
    exact ⟨rfl, rfl, rfl, hrange.mpr hcode⟩

/-- A key wrapped for the first candidate is unwrapped by it. -/
theorem unwrapKey_first {crypto : Crypto B K} (lawful : crypto.Lawful) (key : ServerKey K)
    (older : List (ServerKey K)) (seed : B) {rawKey : B}
    (hraw : crypto.length rawKey = AES_KEY_BYTES) :
    EncryptionService.unwrapKey crypto (key :: older)
      (crypto.toBase64 (crypto.encryptOaep key.privateKey seed rawKey)) = some rawKey := by
  rw [EncryptionService.unwrapKey, List.findSome?_cons, lawful.fromBase64_toBase64,
    lawful.decryptOaep_encryptOaep _ _ _ hraw]

/-- The gateway reads what the client has sealed, with the key it sealed it. -/
theorem decrypt_request {crypto : Crypto B K} (lawful : crypto.Lawful) {text : JsonText N}
    {service : EncryptionService K} {client : GatewayClient K} {rawKey iv seed : B}
    {options : SendOptions N} {payload : DecryptedPayload N}
    (hkey : EncryptionService.unwrapKey crypto (service.candidates client.keyId)
      (crypto.toBase64 (crypto.encryptOaep client.serverKey seed rawKey)) = some rawKey)
    (hraw : crypto.length rawKey = AES_KEY_BYTES) (hiv : crypto.length iv = GCM_IV_BYTES)
    (hpayload : parsePayload text options.payload.serialised = .ok payload) :
    service.decrypt crypto text (client.request crypto text rawKey iv seed options) =
      .ok (payload, rawKey) := by
  refine EncryptionService.decrypt_eq_ok.mpr ⟨hkey, ?_, text.write options.payload,
    options.payload.serialised, ?_, text.parse_write (isValue_payload options), hpayload⟩
  · simp only [GatewayClient.request, lawful.fromBase64_toBase64, EncryptionService.sized,
      hraw, hiv, lawful.length_sealGcm _ _ _ hraw hiv, decide_true, Bool.and_self]
  · simp only [GatewayClient.request, lawful.fromBase64_toBase64,
      lawful.openGcm_sealGcm _ _ _ hraw hiv]

/-- A client in either mode reads in a sealed answer what the upstream has
answered. -/
theorem response_encrypted {crypto : Crypto B K} (lawful : crypto.Lawful) (text : JsonText N)
    (client : GatewayClient K) {iv aesKey : B} (hiv : crypto.length iv = GCM_IV_BYTES)
    (haes : crypto.length aesKey = AES_KEY_BYTES) {upstream : UpstreamResponse N}
    (hvalue : upstream.data.IsValue) (hstatus : 100 ≤ upstream.status ∧ upstream.status ≤ 599) :
    client.response crypto text aesKey
      ⟨200, text.write (EncryptionService.encryptResponse crypto text iv
        (.obj (resultFields upstream)) aesKey).toJson⟩ = .ok (delivered upstream) := by
  generalize hresponse : EncryptionService.encryptResponse crypto text iv
    (.obj (resultFields upstream)) aesKey = response
  have hbody : text.parse (text.write (response.toJson : Json N)) = some response.toJson := by
    rw [text.parse_write response.wellFormed_toJson.isValue,
      Json.serialised_of_wellFormed _ response.wellFormed_toJson]
  have hopened : GatewayClient.openResponse crypto text aesKey response.toJson =
      .ok (delivered upstream) := by
    have hivText : crypto.atob response.IV = some iv := by
      rw [← hresponse]
      exact lawful.atob_toBase64 iv
    have hsealed : crypto.atob response.Payload =
        some (crypto.sealGcm aesKey iv (text.write (.obj (resultFields upstream)))) := by
      rw [← hresponse]
      exact lawful.atob_toBase64 _
    exact GatewayClient.openResponse_eq_ok.mpr ⟨response.IV, response.Payload, iv, _, _, _,
      rfl, rfl, hivText, hsealed, lawful.openGcm_sealGcm aesKey iv _ haes hiv,
      text.parse_write (isValue_result hvalue), result_response_eq_ok.mpr ⟨rfl, hstatus⟩⟩
  calc
    client.response crypto text aesKey ⟨200, text.write response.toJson⟩ =
        GatewayClient.openResponse crypto text aesKey response.toJson := by
      simp only [GatewayClient.response, hbody]
      rfl
    _ = .ok (delivered upstream) := hopened

/-- The HTTP response to a request: the reply, or an exception with its message. -/
def httpResponse (text : JsonText N) (reply : Except HttpException (GatewayReply N)) :
    HttpResponse :=
  match reply with
  | .ok reply => ⟨200, text.write reply.toJson⟩
  | .error e => ⟨e.status, text.write (.obj (Json.definedFields
      [("code", e.code.map .str), ("message", some (.str e.message))]))⟩

/-- A request that is read, fresh and forwarded is answered with the upstream's
response. -/
theorem handleGateway_eq_ok {controller : ProxyController K} {platform : Platform N B K}
    {upstream : UpstreamRequest N → Except String (UpstreamReply N)} (iv : B) {aesKey : B}
    {dto : GatewayRequest} {now : Int} {seen : ReplayProtection.Seen} {payload : DecryptedPayload N}
    {response : UpstreamResponse N}
    (hdecrypt : controller.encryptionService.decrypt platform.crypto platform.text dto =
      .ok (payload, aesKey))
    (hfresh : (controller.replayProtection.assertFresh platform.timestamps payload now seen).1 =
      .ok ())
    (hforward : (controller.proxyService.forward platform.text platform.parseUrl upstream
      payload).result = .ok response) :
    (controller.handleGateway platform upstream iv dto now seen).1 =
      .ok (controller.complete platform iv aesKey response) := by
  have haccept : (controller.accept platform dto now seen).1 = .ok (payload, aesKey) := by
    rw [ProxyController.accept, hdecrypt]
    simp only [hfresh]
    rfl
  unfold ProxyController.handleGateway
  split
  · next e _ heq =>
      rw [heq] at haccept
      cases haccept
  · next payload' aesKey' _ heq =>
      rw [heq] at haccept
      cases haccept
      simp only [hforward]
      rfl

/-- A call whose request reaches a gateway that seals its answers, and whose
answer comes back, returns what the upstream has answered. -/
theorem send_handleGateway {controller : ProxyController K} {platform : Platform N B K}
    (lawful : platform.crypto.Lawful) {client : GatewayClient K} {options : SendOptions N}
    {upstream : UpstreamRequest N → Except String (UpstreamReply N)} {rawKey iv seed iv' : B}
    {now : Int} {seen : ReplayProtection.Seen} {payload : DecryptedPayload N}
    {response : UpstreamResponse N} (hmode : controller.encryptResponse = true)
    (hkey : EncryptionService.unwrapKey platform.crypto
      (controller.encryptionService.candidates client.keyId)
      (platform.crypto.toBase64 (platform.crypto.encryptOaep client.serverKey seed rawKey)) =
        some rawKey)
    (hraw : platform.crypto.length rawKey = AES_KEY_BYTES)
    (hiv : platform.crypto.length iv = GCM_IV_BYTES)
    (hiv' : platform.crypto.length iv' = GCM_IV_BYTES)
    (hpayload : parsePayload platform.text options.payload.serialised = .ok payload)
    (hfresh : (controller.replayProtection.assertFresh platform.timestamps payload now seen).1 =
      .ok ())
    (hforward : (controller.proxyService.forward platform.text platform.parseUrl upstream
      payload).result = .ok response)
    (hvalue : response.data.IsValue) (hstatus : 100 ≤ response.status ∧ response.status ≤ 599) :
    client.send platform.crypto platform.text (fun dto => httpResponse platform.text
        (controller.handleGateway platform upstream iv' dto now seen).1) rawKey iv seed options =
      .ok (delivered response) := by
  have hdecrypt := decrypt_request lawful hkey hraw hiv hpayload
  have hreply := handleGateway_eq_ok iv' hdecrypt hfresh hforward
  have hsealed : controller.complete platform iv' rawKey response =
      .encrypted (EncryptionService.encryptResponse platform.crypto platform.text iv'
        (.obj (resultFields response)) rawKey) := by
    rw [ProxyController.complete, if_pos hmode]
  rw [GatewayClient.send, hreply, hsealed]
  exact response_encrypted lawful platform.text client hiv' hraw hvalue hstatus

end EncryptionGateway.Channel
