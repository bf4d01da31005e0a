import EncryptionGateway.Client.GatewayClient

/-!
# The Android, iOS and Flutter SDKs

The three clients read a response in the same steps: the status, the `Encrypted`
marker, the box under the key of the request, the result in it. They differ in
what they take for a base64 field, an integer or a header, and in the errors
they report.

## Implementation notes

`MobileClient` holds what differs, and each SDK is one value of it. The base64
decoders, the test whether a JSON number was written as an integer and the
conversion of values to text are those of the platforms. JSON is read and written
as the gateway does it. The exceptions that the platforms throw by themselves are
one error.
-/

namespace EncryptionGateway.Client

open JavaScript Foundation Common Encryption

variable {N B K : Type} [JsNumber N]

/-- What `send` throws. -/
inductive MobileError
  | gateway (status : ℕ) (code : Option String) (message : String)
  | encryptedResponseRequired
  | invalidResponse
  | formatException (message : String)
  | exception
deriving DecidableEq

/-- The arguments of `send`. -/
structure MobileOptions (N : Type) [JsNumber N] where
  method : String
  accessPoint : String
  headers : List (String × String)
  body : Option (JsValue N)
  parameter : Option (JsValue N)

/-- The object that is sealed. -/
def MobileOptions.payload (options : MobileOptions N) : Json N :=
  .obj ([("Method", .str options.method), ("AccessPoint", .str options.accessPoint),
      ("Header",
        .arr (options.headers.map fun f => .obj [("Key", .str f.1), ("Value", .str f.2)]))] ++
    (options.body.map fun body => ("Body", body.1)).toList ++
    (options.parameter.map fun parameter => ("Parameter", parameter.1)).toList)

/-- The message of a call, which the SDKs make alike. -/
def MobileOptions.request (options : MobileOptions N) (crypto : Crypto B K) (text : JsonText N)
    (serverKey : K) (keyId : Option String) (rawKey iv seed : B) : GatewayRequest where
  KeyId := keyId
  EncryptedKey := crypto.toBase64 (crypto.encryptOaep serverKey seed rawKey)
  IV := crypto.toBase64 iv
  Payload := crypto.toBase64 (crypto.sealGcm rawKey iv (text.write options.payload))

/-- The same call of the Web SDK. -/
def MobileOptions.toSendOptions (options : MobileOptions N) : SendOptions N where
  method := some ⟨.str options.method, Json.isValue_str _⟩
  accessPoint := some ⟨.str options.accessPoint, Json.isValue_str _⟩
  headers := options.headers.map fun f => (f.1, some ⟨.str f.2, Json.isValue_str _⟩)
  body := options.body
  parameter := options.parameter

/-- What an SDK does in its own way. -/
structure MobileClient (N B : Type) [JsNumber N] where
  /-- Status, the properties of the body if it is an object, the body. -/
  gatewayError : ℕ → Option (List (String × Json N)) → String → MobileError
  encryptionRequired : MobileError
  invalidResponse : MobileError
  /-- The text in the field of a box. -/
  fieldText : Json N → Option String
  decodeBase64 : String → Option B
  fieldError : MobileError
  sized : B → B → Except MobileError Unit
  /-- For sealed JSON that is no object. -/
  notAnObject : MobileError
  isInt : N → Bool
  headers : List (String × Json N) → Except MobileError (List (String × Json N))

/-- The properties of an object. -/
def fields? : Json N → Option (List (String × Json N))
  | .obj fields => some fields
  | _ => none

namespace MobileClient

variable (client : MobileClient N B)

/-- The bytes in the field of a box. -/
def boxField (field : Option (Json N)) : Except MobileError B :=
  ofOption client.fieldError ((field.bind client.fieldText).bind client.decodeBase64)

def result (fields : List (String × Json N)) : Except MobileError (SendResult N) :=
  match Json.lookup fields "StatusCode", Json.lookup fields "Headers",
    Json.lookup fields "Data" with
  | some (.num statusCode), some (.obj headers), some data =>
      if client.isInt statusCode && isStatusCode statusCode then
        (client.headers headers).map fun headers => ⟨statusCode, headers, data⟩
      else .error client.invalidResponse
  | _, _, _ => .error client.invalidResponse

def openResponse (crypto : Crypto B K) (text : JsonText N) (aesKey : B)
    (envelope : List (String × Json N)) : Except MobileError (SendResult N) := do
  let iv ← client.boxField (Json.lookup envelope "IV")
  let sealed ← client.boxField (Json.lookup envelope "Payload")
  client.sized iv sealed
  let plain ← ofOption .exception (crypto.openGcm aesKey iv sealed)
  let value ← ofOption .exception (text.parse plain)
  let fields ← ofOption client.notAnObject (fields? value)
  client.result fields

def response (requireEncryptedResponse : Bool) (crypto : Crypto B K) (text : JsonText N)
    (aesKey : B) (res : HttpResponse) : Except MobileError (SendResult N) :=
  let json := (text.parse res.body).bind fields?
  if res.status ≠ 200 then .error (client.gatewayError res.status json res.body)
  else
    match json with
    | none => .error client.invalidResponse
    | some envelope =>
        match Json.lookup envelope "Encrypted" with
        | some (.bool false) =>
            if requireEncryptedResponse then .error client.encryptionRequired
            else if Json.hasKey envelope "IV" || Json.hasKey envelope "Payload" then
              .error client.invalidResponse
            else client.result envelope
        | some (.bool true) => client.openResponse crypto text aesKey envelope
        | none => client.openResponse crypto text aesKey envelope
        | some _ => .error client.invalidResponse

def send (requireEncryptedResponse : Bool) (crypto : Crypto B K) (text : JsonText N) (serverKey : K)
    (keyId : Option String) (post : GatewayRequest → HttpResponse) (rawKey iv seed : B)
    (options : MobileOptions N) : Except MobileError (SendResult N) :=
  client.response requireEncryptedResponse crypto text rawKey
    (post (options.request crypto text serverKey keyId rawKey iv seed))

end MobileClient

/-! ## The three SDKs -/

/-- What the platforms provide. -/
structure MobilePlatform (N B : Type) where
  /-- `Base64.getDecoder().decode`, `Data(base64Encoded:)` and `base64Decode`. -/
  javaBase64 : String → Option B
  swiftBase64 : String → Option B
  dartBase64 : String → Option B
  /-- org.json and `jsonDecode` make an integer of the number. -/
  writtenAsInt : N → Bool
  /-- `toString()` of a value that is no string. -/
  toJavaString : Json N → String
  toDartString : Json N → String

def encryptionRequiredMessage : String :=
  "Encrypted response required; check ENCRYPT_RESPONSE on the server"

namespace AndroidClient

/-- org.json makes a string of what it has. -/
def coerced (platform : MobilePlatform N B) : Json N → String
  | .str s => s
  | v => platform.toJavaString v

def gatewayError (platform : MobilePlatform N B) (status : ℕ)
    (json : Option (List (String × Json N))) (body : String) : MobileError :=
  let optString (fields : List (String × Json N)) (name : String) : String :=
    ((Json.lookup fields name).map (coerced platform)).getD ""
  let code := (json.map fun fields => optString fields "code").filter (· ≠ "")
  .gateway status code ((json.map fun fields => optString fields "message").getD body)

/-- A header as the list of its values. -/
def headerValues : Json N → Option (Json N)
  | .str s => some (.arr [.str s])
  | .arr items =>
      if items.all (fun v => match v with | .str _ => true | _ => false) then some (.arr items)
      else none
  | _ => none

def headers : List (String × Json N) → Except MobileError (List (String × Json N)) :=
  List.mapM fun f => (ofOption (.gateway 200 (some "INVALID_RESPONSE") "Invalid gateway header")
    (headerValues f.2)).map fun values => (f.1, values)

end AndroidClient

/-- `clients/android/GatewayClient.kt`. -/
def androidClient (platform : MobilePlatform N B) : MobileClient N B where
  gatewayError := AndroidClient.gatewayError platform
  encryptionRequired := .gateway 200 (some "ENCRYPTION_REQUIRED") encryptionRequiredMessage
  invalidResponse := .gateway 200 (some "INVALID_RESPONSE") "Invalid gateway response"
  fieldText v := some (AndroidClient.coerced platform v)
  decodeBase64 := platform.javaBase64
  fieldError := .exception
  sized _ _ := .ok ()
  notAnObject := .exception
  isInt := platform.writtenAsInt
  headers := AndroidClient.headers

namespace IosClient

/-- `as? String`. -/
def string? : Json N → Option String
  | .str s => some s
  | _ => none

def gatewayError (status : ℕ) (json : Option (List (String × Json N))) (_ : String) : MobileError :=
  let member (name : String) : Option (Json N) := json.bind fun fields => Json.lookup fields name
  let message := match member "message" with
    | some (.arr items) => ((items.mapM string?).map fun texts => ", ".intercalate texts).getD ""
    | some (.str s) => s
    | _ => ""
  .gateway status ((member "code").bind string?) message

end IosClient

/-- `clients/ios/GatewayClient.swift`. -/
def iosClient (platform : MobilePlatform N B) (crypto : Crypto B K) : MobileClient N B where
  gatewayError := IosClient.gatewayError
  encryptionRequired := .encryptedResponseRequired
  invalidResponse := .invalidResponse
  fieldText := IosClient.string?
  decodeBase64 := platform.swiftBase64
  fieldError := .invalidResponse
  sized iv sealed :=
    if crypto.length sealed < GCM_TAG_BYTES then .error .invalidResponse
    else if crypto.length iv < GCM_IV_BYTES then .error .exception else .ok ()
  notAnObject := .invalidResponse
  isInt _ := true
  headers := .ok

namespace FlutterClient

def display (platform : MobilePlatform N B) : Json N → String
  | .str s => s
  | v => platform.toDartString v

def gatewayError (platform : MobilePlatform N B) (status : ℕ)
    (json : Option (List (String × Json N))) (body : String) : MobileError :=
  let member (name : String) : Option (Json N) :=
    Json.present (json.bind fun fields => Json.lookup fields name)
  let message := match member "message" with
    | some (.arr items) => ", ".intercalate (items.map (display platform))
    | some v => display platform v
    | none => body
  match member "code" with
  | none => .gateway status none message
  | some (.str code) => .gateway status (some code) message
  | some _ => .exception

end FlutterClient

/-- `clients/flutter/gateway_client.dart`. -/
def flutterClient (platform : MobilePlatform N B) : MobileClient N B where
  gatewayError := FlutterClient.gatewayError platform
  encryptionRequired := .gateway 200 (some "ENCRYPTION_REQUIRED") encryptionRequiredMessage
  invalidResponse := .formatException "Invalid gateway response"
  fieldText := IosClient.string?
  decodeBase64 := platform.dartBase64
  fieldError := .exception
  sized _ _ := .ok ()
  notAnObject := .exception
  isInt := platform.writtenAsInt
  headers := .ok

/-! ## What the three have in common -/

/-- The decoders undo the encoder, and a status code is written as an integer. -/
structure MobilePlatform.Lawful (platform : MobilePlatform N B) (crypto : Crypto B K) : Prop where
  toBase64 : ∀ b, platform.javaBase64 (crypto.toBase64 b) = some b ∧
    platform.swiftBase64 (crypto.toBase64 b) = some b ∧
      platform.dartBase64 (crypto.toBase64 b) = some b
  writtenAsInt : ∀ n : ℤ, 100 ≤ n → n ≤ 599 → platform.writtenAsInt (JsNumber.ofInt n) = true

/-- The texts of a header, however its values are kept. -/
def headerTexts : Json N → List String
  | .str s => [s]
  | .arr items => items.filterMap IosClient.string?
  | _ => []

/-- What the reading of a response rests on. -/
structure MobileClient.Lawful (client : MobileClient N B) (crypto : Crypto B K) : Prop where
  fieldText_str : ∀ s, client.fieldText (.str s) = some s
  decodeBase64_toBase64 : ∀ b, client.decodeBase64 (crypto.toBase64 b) = some b
  sized : ∀ iv sealed, crypto.length iv = GCM_IV_BYTES → GCM_TAG_BYTES ≤ crypto.length sealed →
    client.sized iv sealed = .ok ()
  isInt : ∀ n : ℤ, 100 ≤ n → n ≤ 599 → client.isInt (JsNumber.ofInt n) = true
  headers : ∀ fields, (∀ f ∈ fields,
      (∃ s, f.2 = .str s) ∨ ∃ texts : List String, f.2 = .arr (texts.map .str)) →
    ∃ headers, client.headers fields = .ok headers
  headerTexts : ∀ {fields headers}, client.headers fields = .ok headers → ∀ name,
    (Json.lookup headers name).map headerTexts = (Json.lookup fields name).map headerTexts
  names : ∀ {fields headers}, client.headers fields = .ok headers →
    headers.map Prod.fst = fields.map Prod.fst
  gatewayError : ∀ status code message fields body,
    Json.lookup fields "code" = code.map .str → Json.lookup fields "message" = some (.str message) →
    code ≠ some "" → client.gatewayError status (some fields) body = .gateway status code message

section Laws

variable {platform : MobilePlatform N B} {crypto : Crypto B K}

omit [JsNumber N] in
theorem exists_headerValues {v : Json N}
    (h : (∃ s, v = .str s) ∨ ∃ texts : List String, v = .arr (texts.map .str)) :
    ∃ values, AndroidClient.headerValues v = some values := by
  rcases h with ⟨s, rfl⟩ | ⟨texts, rfl⟩
  · exact ⟨_, rfl⟩
  · exact ⟨_, if_pos (by simp)⟩

omit [JsNumber N] in
theorem exists_headers : ∀ {fields : List (String × Json N)},
    (∀ f ∈ fields, (∃ s, f.2 = .str s) ∨ ∃ texts : List String, f.2 = .arr (texts.map .str)) →
      ∃ headers, AndroidClient.headers fields = .ok headers
  | [], _ => ⟨[], rfl⟩
  | f :: rest, h => by
      rw [List.forall_mem_cons] at h
      obtain ⟨values, hvalues⟩ := exists_headerValues h.1
      obtain ⟨headers, hheaders⟩ := exists_headers h.2
      refine ⟨(f.1, values) :: headers, ?_⟩
      rw [AndroidClient.headers] at hheaders ⊢
      rw [List.mapM_cons, hheaders, hvalues]
      rfl

omit [JsNumber N] in
theorem headerTexts_headerValues {v values : Json N}
    (h : AndroidClient.headerValues v = some values) : headerTexts values = headerTexts v := by
  cases v with
  | str s =>
      cases h
      rfl
  | arr items =>
      obtain ⟨-, heq⟩ := Option.ite_none_right_eq_some.mp h
      rw [Option.some.inj heq]
  | _ => cases h

omit [JsNumber N] in
theorem headerTexts_headers {fields headers : List (String × Json N)}
    (h : AndroidClient.headers fields = .ok headers) (name : String) :
    (Json.lookup headers name).map headerTexts = (Json.lookup fields name).map headerTexts := by
  have hread := mapM_eq_ok.mp h
  clear h
  induction hread with
  | nil => rfl
  | @cons f header fields headers hf _ ih =>
      obtain ⟨values, hvalues, rfl⟩ := map_eq_ok.mp hf
      rw [Json.lookup_cons, Json.lookup_cons, apply_ite (Option.map headerTexts), ih,
        apply_ite (Option.map headerTexts), Option.map_some, Option.map_some,
        headerTexts_headerValues (ofOption_eq_ok.mp hvalues)]

omit [JsNumber N] in
theorem names_headers {fields headers : List (String × Json N)}
    (h : AndroidClient.headers fields = .ok headers) :
    headers.map Prod.fst = fields.map Prod.fst := by
  have hread := mapM_eq_ok.mp h
  clear h
  induction hread with
  | nil => rfl
  | cons hf _ ih =>
      obtain ⟨values, -, rfl⟩ := map_eq_ok.mp hf
      rw [List.map_cons, List.map_cons, ih]

theorem lawful_androidClient (h : platform.Lawful crypto) :
    (androidClient platform).Lawful crypto where
  fieldText_str _ := rfl
  decodeBase64_toBase64 b := (h.toBase64 b).1
  sized _ _ _ _ := rfl
  isInt := h.writtenAsInt
  headers _ := exists_headers
  headerTexts := headerTexts_headers
  names := names_headers
  gatewayError status code message fields body hcode hmessage hne := by
    cases code with
    | none =>
        simp [androidClient, AndroidClient.gatewayError, hcode, hmessage, AndroidClient.coerced]
    | some code =>
        have hcode' : code ≠ "" := fun heq => hne (congrArg some heq)
        simp [androidClient, AndroidClient.gatewayError, hcode, hmessage,
          AndroidClient.coerced, hcode']

theorem lawful_iosClient (h : platform.Lawful crypto) :
    (iosClient platform crypto).Lawful crypto where
  fieldText_str _ := rfl
  decodeBase64_toBase64 b := (h.toBase64 b).2.1
  sized iv sealed hiv hsealed := by
    simp only [iosClient, hiv, Nat.not_lt.mpr hsealed, if_false, Nat.lt_irrefl]
  isInt _ _ _ := rfl
  headers fields _ := ⟨fields, rfl⟩
  headerTexts h _ := by cases h; rfl
  names h := by cases h; rfl
  gatewayError status code message fields body hcode hmessage _ := by
    cases code with
    | none => simp [iosClient, IosClient.gatewayError, hcode, hmessage]
    | some code => simp [iosClient, IosClient.gatewayError, hcode, hmessage, IosClient.string?]

theorem lawful_flutterClient (h : platform.Lawful crypto) :
    (flutterClient platform).Lawful crypto where
  fieldText_str _ := rfl
  decodeBase64_toBase64 b := (h.toBase64 b).2.2
  sized _ _ _ _ := rfl
  isInt := h.writtenAsInt
  headers fields _ := ⟨fields, rfl⟩
  headerTexts h _ := by cases h; rfl
  names h := by cases h; rfl
  gatewayError status code message fields body hcode hmessage _ := by
    cases code with
    | none =>
        simp [flutterClient, FlutterClient.gatewayError, hcode, hmessage, Json.present,
          FlutterClient.display]
    | some code =>
        simp [flutterClient, FlutterClient.gatewayError, hcode, hmessage, Json.present,
          FlutterClient.display]

/-- The three SDKs. -/
def mobileClients (platform : MobilePlatform N B) (crypto : Crypto B K) : List (MobileClient N B) :=
  [androidClient platform, iosClient platform crypto, flutterClient platform]

theorem lawful_of_mem_mobileClients (h : platform.Lawful crypto) {client : MobileClient N B}
    (hclient : client ∈ mobileClients platform crypto) : client.Lawful crypto := by
  simp only [mobileClients, List.mem_cons, List.not_mem_nil, or_false] at hclient
  rcases hclient with rfl | rfl | rfl
  · exact lawful_androidClient h
  · exact lawful_iosClient h
  · exact lawful_flutterClient h

/-- What the gateway writes into a box is read from it. -/
theorem MobileClient.Lawful.boxField_toBase64 {client : MobileClient N B}
    (h : client.Lawful crypto) (b : B) :
    client.boxField (some (.str (crypto.toBase64 b))) = .ok b := by
  rw [MobileClient.boxField, Option.bind_some, h.fieldText_str, Option.bind_some,
    h.decodeBase64_toBase64]
  rfl

end Laws

omit [JsNumber N] in
theorem fields?_eq_some {v : Json N} {fields : List (String × Json N)} :
    fields? v = some fields ↔ v = .obj fields := by
  cases v <;> simp [fields?]

/-- All SDKs seal the same object. -/
theorem payload_toSendOptions (options : MobileOptions N) :
    options.toSendOptions.payload = options.payload := by
  obtain ⟨method, accessPoint, headers, body, parameter⟩ := options
  simp only [SendOptions.payload, MobileOptions.toSendOptions, MobileOptions.payload,
    Json.definedFields, List.map_map]
  cases body <;> cases parameter <;> rfl

/-- All SDKs send the same message. -/
theorem request_toSendOptions (client : GatewayClient K) (crypto : Crypto B K) (text : JsonText N)
    (rawKey iv seed : B) (options : MobileOptions N) :
    client.request crypto text rawKey iv seed options.toSendOptions =
      options.request crypto text client.serverKey client.keyId rawKey iv seed := by
  rw [GatewayClient.request, MobileOptions.request, payload_toSendOptions]

namespace MobileClient

variable {client : MobileClient N B}

theorem result_eq_ok {fields : List (String × Json N)} {r : SendResult N} :
    client.result fields = .ok r ↔
      Json.lookup fields "StatusCode" = some (.num r.StatusCode) ∧
      (∃ headers, Json.lookup fields "Headers" = some (.obj headers) ∧
        client.headers headers = .ok r.Headers) ∧
      Json.lookup fields "Data" = some r.Data ∧ client.isInt r.StatusCode = true ∧
      isStatusCode r.StatusCode = true := by
  unfold result
  split
  · next n headers data hn hheaders hdata =>
      simp only [hn, hheaders, hdata, Option.some.injEq, Json.num.injEq, Json.obj.injEq]
      by_cases hstatus : (client.isInt n && isStatusCode n) = true
      · rw [if_pos hstatus, map_eq_ok]
        rw [Bool.and_eq_true] at hstatus
        constructor
        · rintro ⟨shown, hshown, rfl⟩
          exact ⟨rfl, ⟨headers, rfl, hshown⟩, rfl, hstatus⟩
        · rintro ⟨rfl, ⟨_, rfl, hshown⟩, rfl, -⟩
          exact ⟨r.Headers, hshown, rfl⟩
      · rw [if_neg hstatus]
        simp only [reduceCtorEq, false_iff]
        rintro ⟨rfl, -, -, hboth⟩
        exact hstatus (Bool.and_eq_true _ _ ▸ hboth)
  · next hno =>
      simp only [reduceCtorEq, false_iff]
      rintro ⟨hn, ⟨_, hheaders, -⟩, hdata, -⟩
      exact hno _ _ _ hn hheaders hdata

theorem openResponse_eq_ok {crypto : Crypto B K} {text : JsonText N} {aesKey : B}
    {envelope : List (String × Json N)} {r : SendResult N} :
    client.openResponse crypto text aesKey envelope = .ok r ↔
      ∃ iv sealed plain fields, client.boxField (Json.lookup envelope "IV") = .ok iv ∧
        client.boxField (Json.lookup envelope "Payload") = .ok sealed ∧
        client.sized iv sealed = .ok () ∧ crypto.openGcm aesKey iv sealed = some plain ∧
        text.parse plain = some (.obj fields) ∧ client.result fields = .ok r := by
  simp only [openResponse, bind_eq_ok, ofOption_eq_ok, fields?_eq_some]
  constructor
  · rintro ⟨iv, hiv, sealed, hsealed, _, hsized, plain, hplain, _, hvalue, fields, rfl, hresult⟩
    exact ⟨iv, sealed, plain, fields, hiv, hsealed, hsized, hplain, hvalue, hresult⟩
  · rintro ⟨iv, sealed, plain, fields, hiv, hsealed, hsized, hplain, hvalue, hresult⟩
    exact ⟨iv, hiv, sealed, hsealed, (), hsized, plain, hplain, _, hvalue, fields, rfl, hresult⟩

/-- A client that requires encryption returns only what it opened under the key
of the request. -/
theorem response_eq_ok {crypto : Crypto B K} {text : JsonText N} {aesKey : B} {res : HttpResponse}
    {r : SendResult N} (h : client.response true crypto text aesKey res = .ok r) :
    ∃ envelope, text.parse res.body = some (.obj envelope) ∧
      client.openResponse crypto text aesKey envelope = .ok r := by
  unfold response at h
  simp only [if_true] at h
  split at h
  · cases h
  · split at h
    · cases h
    · next envelope hbody =>
        obtain ⟨v, hv, hfields⟩ := Option.bind_eq_some_iff.mp hbody
        rw [fields?_eq_some.mp hfields] at hv
        refine ⟨envelope, hv, ?_⟩
        split at h
        · cases h
        · exact h
        · exact h
        · cases h

end MobileClient

/-! ## For the adapters of Android and iOS -/

/-- The status code as the integer it is. -/
def SendResult.code (result : SendResult N) : Option ℤ :=
  (JsNumber.finiteValue result.StatusCode).bind fun q => if q.den = 1 then some q.num else none

/-- The statuses whose responses have no body. -/
def isBodyless (code : ℤ) : Bool := [204, 205, 304].contains code

/-- Gateway errors in the form of a response body. -/
def gatewayErrorBody (json : JsonText N) (status : ℕ) (code : Option String) (message : String) :
    String :=
  json.write (.obj (Json.definedFields [("statusCode", some (.num (JsNumber.ofInt status))),
    ("message", some (.str message)), ("code", code.map .str)]))

end EncryptionGateway.Client
