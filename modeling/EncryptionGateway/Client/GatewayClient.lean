import EncryptionGateway.Encryption.EncryptionService

/-!
# The Web SDK

`GatewayClient.send` seals a payload under a fresh key, posts it and opens the
response under the same key. A response without the `Encrypted` marker is read
as an encrypted one; a response marked as plain is accepted only by a client
that does not require encryption.

## Implementation notes

`send` is cut in two at the call of `fetch`: `request` makes the message,
`response` reads the answer. Values are those that `JSON.stringify` sees.
-/

namespace EncryptionGateway.Client

open JavaScript Foundation Common Encryption

variable {N B K : Type} [JsNumber N]

structure GatewayClient (K : Type) where
  serverKey : K
  keyId : Option String
  requireEncryptedResponse : Bool

/-- The argument of `send`; `none` is `undefined`. -/
structure SendOptions (N : Type) [JsNumber N] where
  method : Option (JsValue N)
  accessPoint : Option (JsValue N)
  headers : List (String × Option (JsValue N))
  body : Option (JsValue N)
  parameter : Option (JsValue N)

structure SendResult (N : Type) where
  StatusCode : N
  Headers : List (String × Json N)
  Data : Json N

structure HttpResponse where
  status : ℕ
  body : String

/-- What `send` rejects with. -/
inductive SendError (N : Type) where
  | gatewayError (status : ℕ) (code : Option (Json N)) (message : String)
  | error (message : String)
  | invalidCharacter
  | operationError
  | syntaxError

/-- `new GatewayError(status, body)`. -/
def gatewayError (status : ℕ) (body : Json N) : SendError N :=
  let message := match Json.present (body.get "message") with
    | none => "Gateway request failed"
    | some (.arr items) => ", ".intercalate (Json.itemTexts items)
    | some v => v.toText
  .gatewayError status (body.get "code") ("Gateway " ++ toString status ++ ": " ++ message)

def invalidResponse : SendError N := .error "Invalid gateway response"

/-- The object that is sealed. -/
def SendOptions.payload (options : SendOptions N) : Json N :=
  .obj (Json.definedFields
    [("Method", some ((options.method.map Subtype.val).getD (.str "GET"))),
      ("AccessPoint", options.accessPoint.map Subtype.val),
      ("Header", some (.arr (options.headers.map fun f =>
        .obj (Json.definedFields [("Key", some (.str f.1)), ("Value", f.2.map Subtype.val)])))),
      ("Body", options.body.map Subtype.val),
      ("Parameter", options.parameter.map Subtype.val)])

/-- `Number.isInteger` and the range of a status code. -/
def isStatusCode (n : N) : Bool :=
  match JsNumber.finiteValue n with
  | none => false
  | some q => q.den = 1 && 100 ≤ q && q ≤ 599

namespace GatewayClient

def request (client : GatewayClient K) (crypto : Crypto B K) (text : JsonText N)
    (rawKey iv seed : B) (options : SendOptions N) : GatewayRequest where
  KeyId := client.keyId
  EncryptedKey := crypto.toBase64 (crypto.encryptOaep client.serverKey seed rawKey)
  IV := crypto.toBase64 iv
  Payload := crypto.toBase64 (crypto.sealGcm rawKey iv (text.write options.payload))

def result (value : Json N) : Except (SendError N) (SendResult N) :=
  match value.get "StatusCode", value.get "Headers", value.get "Data" with
  | some (.num statusCode), some (.obj headers), some data =>
      if isStatusCode statusCode then .ok ⟨statusCode, headers, data⟩ else .error invalidResponse
  | _, _, _ => .error invalidResponse

/-- Decrypts with the request AES key; failed authentication never falls back
to plain JSON. -/
def openResponse (crypto : Crypto B K) (text : JsonText N) (aesKey : B) (json : Json N) :
    Except (SendError N) (SendResult N) :=
  match json.get "IV", json.get "Payload" with
  | some (.str iv), some (.str payload) => do
      let iv ← ofOption .invalidCharacter (crypto.atob iv)
      let sealed ← ofOption .invalidCharacter (crypto.atob payload)
      let plain ← ofOption .operationError (crypto.openGcm aesKey iv sealed)
      let value ← ofOption .syntaxError (text.parse plain)
      result value
  | _, _ => .error invalidResponse

def response (client : GatewayClient K) (crypto : Crypto B K) (text : JsonText N) (aesKey : B)
    (res : HttpResponse) : Except (SendError N) (SendResult N) :=
  let json := (text.parse res.body).getD (.obj [])
  if ¬ (200 ≤ res.status ∧ res.status ≤ 299) then .error (gatewayError res.status json)
  else
    match json.get "Encrypted" with
    | some (.bool false) =>
        if client.requireEncryptedResponse then
          .error (.error "Encrypted response required; check ENCRYPT_RESPONSE on the server")
        else if (json.get "IV").isSome || (json.get "Payload").isSome then .error invalidResponse
        else result json
    | some (.bool true) => openResponse crypto text aesKey json
    | none => openResponse crypto text aesKey json
    | some _ => .error invalidResponse

def send (client : GatewayClient K) (crypto : Crypto B K) (text : JsonText N)
    (fetch : GatewayRequest → HttpResponse) (rawKey iv seed : B) (options : SendOptions N) :
    Except (SendError N) (SendResult N) :=
  client.response crypto text rawKey (fetch (client.request crypto text rawKey iv seed options))

end GatewayClient

/-- What is sealed can be read back. -/
theorem isValue_payload (options : SendOptions N) : options.payload.IsValue := by
  have hnames : ["Method", "AccessPoint", "Header", "Body", "Parameter"].Pairwise
      (fun a b => Json.listedBefore a b = true) := by decide
  have hpair : ["Key", "Value"].Pairwise (fun a b => Json.listedBefore a b = true) := by decide
  have hgiven : ∀ (o : Option (JsValue N)), ∀ v ∈ o.map Subtype.val, v.IsValue := by
    intro o v hv
    obtain ⟨w, -, rfl⟩ := Option.mem_map.mp hv
    exact w.2
  refine Json.isValue_definedFields hnames ?_
  simp only [List.forall_mem_cons, List.not_mem_nil, false_imp_iff, implies_true, and_true,
    Option.mem_some_iff, forall_eq']
  refine ⟨?_, hgiven _, ?_, hgiven _, hgiven _⟩
  · cases options.method with
    | none => exact Json.isValue_str "GET"
    | some v => exact v.2
  · apply Json.isValue_arr.mpr
    rw [List.forall_mem_map]
    intro f _
    refine Json.isValue_definedFields hpair ?_
    simp only [List.forall_mem_cons, List.not_mem_nil, false_imp_iff, implies_true, and_true,
      Option.mem_some_iff, forall_eq']
    exact ⟨Json.isValue_str f.1, hgiven f.2⟩

/-- A request has no status code. -/
theorem payload_get_statusCode (options : SendOptions N) :
    options.payload.get "StatusCode" = none :=
  Json.get_definedFields_eq_none (by simp)

namespace GatewayClient

theorem result_eq_ok {value : Json N} {r : SendResult N} :
    result value = .ok r ↔ value.get "StatusCode" = some (.num r.StatusCode) ∧
      value.get "Headers" = some (.obj r.Headers) ∧ value.get "Data" = some r.Data ∧
      isStatusCode r.StatusCode = true := by
  unfold result
  split
  · next n headers data hn hheaders hdata =>
      rw [hn, hheaders, hdata]
      cases hstatus : isStatusCode n with
      | true =>
          rw [if_pos rfl, Except.ok.injEq]
          constructor
          · rintro rfl
            exact ⟨rfl, rfl, rfl, hstatus⟩
          · rintro ⟨hn', hheaders', hdata', -⟩
            cases hn'
            cases hheaders'
            cases hdata'
            rfl
      | false =>
          rw [if_neg (by simp)]
          simp only [reduceCtorEq, false_iff]
          rintro ⟨hn', -, -, hstatus'⟩
          cases hn'
          rw [hstatus] at hstatus'
          cases hstatus'
  · next hno =>
      simp only [reduceCtorEq, false_iff]
      rintro ⟨hn, hheaders, hdata, -⟩
      exact hno _ _ _ hn hheaders hdata

/-- What an opened response consists of. -/
theorem openResponse_eq_ok {crypto : Crypto B K} {text : JsonText N} {aesKey : B} {json : Json N}
    {r : SendResult N} :
    openResponse crypto text aesKey json = .ok r ↔
      ∃ ivText payloadText iv sealed plain value,
        json.get "IV" = some (.str ivText) ∧ json.get "Payload" = some (.str payloadText) ∧
        crypto.atob ivText = some iv ∧ crypto.atob payloadText = some sealed ∧
        crypto.openGcm aesKey iv sealed = some plain ∧ text.parse plain = some value ∧
        result value = .ok r := by
  unfold openResponse
  split
  · next ivText payloadText hiv hpayload =>
      simp only [bind_eq_ok, ofOption_eq_ok]
      constructor
      · rintro ⟨iv, hivText, sealed, hpayloadText, plain, hplain, value, hvalue, hresult⟩
        exact ⟨ivText, payloadText, iv, sealed, plain, value, hiv, hpayload, hivText, hpayloadText,
          hplain, hvalue, hresult⟩
      · rintro ⟨_, _, iv, sealed, plain, value, hiv', hpayload', hivText, hpayloadText, hplain,
          hvalue, hresult⟩
        rw [hiv] at hiv'
        rw [hpayload] at hpayload'
        cases hiv'
        cases hpayload'
        exact ⟨iv, hivText, sealed, hpayloadText, plain, hplain, value, hvalue, hresult⟩
  · next hno =>
      simp only [reduceCtorEq, false_iff]
      rintro ⟨_, _, _, _, _, _, hiv, hpayload, -⟩
      exact hno _ _ hiv hpayload

/-- A client that requires encryption returns only what it opened under the key
of the request. -/
theorem response_eq_ok {client : GatewayClient K} {crypto : Crypto B K} {text : JsonText N}
    {aesKey : B} {res : HttpResponse} {r : SendResult N}
    (hmode : client.requireEncryptedResponse = true)
    (h : client.response crypto text aesKey res = .ok r) :
    ∃ json, text.parse res.body = some json ∧ openResponse crypto text aesKey json = .ok r := by
  have hopened : openResponse crypto text aesKey ((text.parse res.body).getD (.obj [])) =
      .ok r := by
    unfold response at h
    simp only [hmode, if_true] at h
    split at h
    · cases h
    · split at h
      · cases h
      · exact h
      · exact h
      · cases h
  cases hbody : text.parse res.body with
  | none =>
      rw [hbody] at hopened
      cases hopened
  | some json =>
      rw [hbody] at hopened
      exact ⟨json, rfl, hopened⟩

end GatewayClient

end EncryptionGateway.Client
