import EncryptionGateway.Client.MobileClients
import EncryptionGateway.Foundation.FieldList
import EncryptionGateway.JavaScript.Base64

/-!
# The URLRequest adapter

`GatewayHTTPClient` sends the `URLRequest`s of an app for one backend through the
iOS SDK, and returns the body and the response of the backend.

## Implementation notes

URLs are taken apart by Foundation. The body of a response is the text that its
bytes encode. The recorder is handed what is returned or thrown.
-/

namespace EncryptionGateway.Client

open JavaScript Foundation

namespace UrlSession

structure URLComponents where
  scheme : Option String
  host : Option String
  port : Option ℕ
  user : Option String
  password : Option String
  path : String
  query : Option String
  fragment : Option String

structure URL where
  absoluteString : String
  /-- `URLComponents(url:resolvingAgainstBaseURL:)`. -/
  components : Option URLComponents

structure URLRequest where
  url : Option URL
  httpMethod : Option String
  hasBodyStream : Bool
  allHTTPHeaderFields : Option (List (String × String))
  httpBody : Option Bytes

/-- The response with its body. -/
structure Response where
  statusCode : ℤ
  headers : List (String × String)
  body : String

/-- A request, and whether its task is cancelled before and after the gateway
call. -/
structure Task where
  request : URLRequest
  cancelled : Bool
  cancelledAfter : Bool

/-- What Foundation provides. -/
structure Platform (N : Type) [JsNumber N] where
  /-- `JSONSerialization.jsonObject`, fragments allowed. -/
  jsonObject : Bytes → Option (JsValue N)
  /-- `String(data:encoding: .utf8)`. -/
  utf8 : Bytes → Option String
  /-- `HTTPURLResponse` can be made. -/
  acceptsResponse : ℤ → List (String × String) → Bool

/-- What `data` throws. -/
inductive HttpError
  | badURL
  | unsupportedURL
  | dataLengthExceedsMaximum
  | cannotDecodeContentData
  | cancelled
  | gateway (error : MobileError)
  | exception
deriving DecidableEq

/-- `text.split(separator: ";", maxSplits: 1).first`. -/
def firstPart (text : String) : Option String :=
  let parts := text.toList.dropWhile fun c => c = ';'
  if parts = [] then none else some (String.ofList (parts.takeWhile fun c => c ≠ ';'))

/-- `CharacterSet.whitespaces`. -/
def isBlank (c : Char) : Bool :=
  c.toNat = 0x09 || c.toNat = 0x20 || c.toNat = 0xa0 || c.toNat = 0x1680 ||
    (0x2000 ≤ c.toNat && c.toNat ≤ 0x200a) || c.toNat = 0x202f ||
    c.toNat = 0x205f || c.toNat = 0x3000

def trimBlanks (text : String) : String :=
  String.ofList ((text.toList.dropWhile isBlank).reverse.dropWhile isBlank).reverse

def hasSuffix (text suffix : String) : Bool := suffix.toList.isSuffixOf text.toList

end UrlSession

open UrlSession

structure GatewayHTTPClient where
  origin : URLComponents
  maxBodyBytes : ℕ
  isHttps : origin.scheme = some "https" ∧ origin.host.isSome = true
  isOrigin : (origin.path = "" ∨ origin.path = "/") ∧ origin.query = none ∧ origin.fragment = none ∧
    origin.user = none ∧ origin.password = none
  maxBodyBytes_pos : 0 < maxBodyBytes

namespace GatewayHTTPClient

/-- The initializer. -/
def create (backendOrigin : URL) (maxBodyBytes : ℕ) : Except HttpError GatewayHTTPClient :=
  match backendOrigin.components with
  | none => .error .badURL
  | some origin =>
      if h : (origin.scheme = some "https" ∧ origin.host.isSome = true) ∧
          ((origin.path = "" ∨ origin.path = "/") ∧ origin.query = none ∧ origin.fragment = none ∧
            origin.user = none ∧ origin.password = none) ∧ 0 < maxBodyBytes then
        .ok ⟨origin, maxBodyBytes, h.1, h.2.1, h.2.2⟩
      else .error .badURL

def methods : List String := ["GET", "POST", "PUT", "PATCH", "DELETE"]

def blocked : List String :=
  ["host", "content-length", "transfer-encoding", "connection", "keep-alive", "proxy-connection",
    "content-encoding", "te", "trailer", "upgrade"]

section Requests

variable {N : Type} [JsNumber N] (client : GatewayHTTPClient) (platform : Platform N)

/-- The target is the origin, whatever its path and its query. -/
def isTarget (target : URLComponents) : Bool :=
  target.scheme = client.origin.scheme &&
    target.host.map toLowerCase = client.origin.host.map toLowerCase &&
    target.port.getD 443 = client.origin.port.getD 443 &&
    target.user.isNone && target.password.isNone && target.fragment.isNone

def requestMedia (headers : List (String × String)) : String :=
  (((FieldList.values toLowerCase headers "Content-Type").head?.bind firstPart).map
    fun part => toLowerCase (trimBlanks part)).getD ""

def isJsonMedia (media : String) : Bool :=
  media = "application/json" || (startsWith media "application/" && hasSuffix media "+json")

def decodeBody (media : String) (bytes : Bytes) : Except HttpError (JsValue N) :=
  if isJsonMedia media then
    ofOption .exception (platform.jsonObject bytes)
  else
    match startsWith media "text/", platform.utf8 bytes with
    | true, some text => .ok ⟨.str text, Json.isValue_str text⟩
    | _, _ => .error .cannotDecodeContentData

/-- The checks before the gateway call, and its arguments. Query parameters
remain in `AccessPoint`. -/
def prepare (request : URLRequest) : Except HttpError (MobileOptions N) := do
  let url ← ofOption .badURL request.url
  let target ← ofOption .badURL url.components
  require (client.isTarget target) .badURL
  let method := toUpperCase (request.httpMethod.getD "GET")
  require (methods.contains method && !request.hasBodyStream) .unsupportedURL
  let headers := request.allHTTPHeaderFields.getD []
  let body ← match request.httpBody with
    | none => .ok none
    | some bytes => do
        require (bytes.length ≤ client.maxBodyBytes && method ≠ "GET") .dataLengthExceedsMaximum
        (decodeBody platform (requestMedia headers) bytes).map some
  .ok ⟨method, url.absoluteString, headers, body, none⟩

end Requests

section Requests

variable {N : Type} [JsNumber N] {client : GatewayHTTPClient} {platform : Platform N}

theorem decodeBody_eq_ok {media : String} {bytes : Bytes} {v : JsValue N}
    (h : decodeBody platform media bytes = .ok v) :
    (isJsonMedia media = true ∧ platform.jsonObject bytes = some v) ∨
      isJsonMedia media = false ∧ startsWith media "text/" = true ∧
        ∃ text, platform.utf8 bytes = some text ∧ v.1 = .str text := by
  unfold decodeBody at h
  split at h
  · next hjson => exact Or.inl ⟨hjson, ofOption_eq_ok.mp h⟩
  · next hjson =>
      split at h
      · next text htype htext =>
          cases h
          exact Or.inr ⟨Bool.not_eq_true _ ▸ hjson, htype, text, htext, rfl⟩
      · cases h

theorem prepare_eq_ok {request : URLRequest} {options : MobileOptions N}
    (h : client.prepare platform request = .ok options) :
    (∃ url target, request.url = some url ∧ url.components = some target ∧
        client.isTarget target = true ∧ options.accessPoint = url.absoluteString) ∧
      options.method = toUpperCase (request.httpMethod.getD "GET") ∧ options.method ∈ methods ∧
      options.headers = request.allHTTPHeaderFields.getD [] ∧ options.parameter = none ∧
      (request.httpBody = none → options.body = none) ∧
      ∀ bytes, request.httpBody = some bytes → options.method ≠ "GET" ∧ ∃ v, options.body = some v ∧
        decodeBody platform (requestMedia options.headers) bytes = .ok v := by
  simp only [prepare, bind_eq_ok, ofOption_eq_ok, require_eq_ok, Bool.and_eq_true,
    List.contains_iff_mem] at h
  obtain ⟨url, hurl, target, htarget, _, horigin, _, ⟨hmethod, -⟩, h⟩ := h
  cases hbody : request.httpBody with
  | none =>
      rw [hbody] at h
      obtain ⟨sent, hsent, hoptions⟩ := bind_eq_ok.mp h
      cases hsent
      cases hoptions
      exact ⟨⟨url, target, hurl, htarget, horigin, rfl⟩, rfl, hmethod, rfl, rfl, fun _ => rfl,
        fun _ hsome => by cases hsome⟩
  | some bytes =>
      rw [hbody] at h
      simp only [bind_eq_ok, require_eq_ok, Bool.and_eq_true, decide_eq_true_eq] at h
      obtain ⟨_, ⟨-, hget⟩, sent, hsent, hoptions⟩ := h
      obtain ⟨v, hv, rfl⟩ := map_eq_ok.mp hsent
      cases hoptions
      refine ⟨⟨url, target, hurl, htarget, horigin, rfl⟩, rfl, hmethod, rfl, rfl,
        fun hnone => (by cases hnone), fun bytes' hsome => ?_⟩
      obtain rfl := Option.some.inj hsome
      exact ⟨hget, v, rfl, hv⟩

end Requests

section Responses

variable {N : Type} [JsNumber N] (platform : Platform N) (json : JsonText N)

/-- Repeated values are joined. -/
def fieldText : Json N → Except HttpError String
  | .str text => .ok text
  | .arr items =>
      (ofOption (.gateway .invalidResponse) (items.mapM IosClient.string?)).map
        (", ".intercalate ·)
  | _ => .error (.gateway .invalidResponse)

def responseHeaders (headers : List (String × Json N)) :
    Except HttpError (List (String × String)) :=
  (headers.filter fun f => !blocked.contains (toLowerCase f.1)).mapM fun f =>
    (fieldText f.2).map fun text => (f.1, text)

def contentType (headers : List (String × String)) : String :=
  (FieldList.values toLowerCase headers "Content-Type").head?.getD "application/json"

/-- The content type is there, and nothing is stored. -/
def withDefaults (headers : List (String × String)) : List (String × String) :=
  FieldList.set toLowerCase
    (if headers.any fun h => toLowerCase h.1 = "content-type" then headers
      else headers ++ [("Content-Type", contentType headers)])
    "Cache-Control" "no-store"

def isJson (contentType : String) : Bool :=
  let media := ((firstPart contentType).map toLowerCase).getD "application/json"
  media = "application/json" || hasSuffix media "+json"

def bodyText (contentType : String) (code : ℤ) (data : Json N) : Except HttpError String :=
  if isBodyless code then .ok ""
  else if isJson contentType then .ok (json.write data)
  else
    match data with
    | .str text => .ok text
    | .null => .ok ""
    | _ => .error (.gateway .invalidResponse)

def response (code : ℤ) (headers : List (String × String)) (body : String) :
    Except HttpError Response := do
  require (platform.acceptsResponse code headers) (.gateway .invalidResponse)
  .ok ⟨code, headers, body⟩

def backendResponse (result : SendResult N) : Except HttpError Response := do
  let code ← ofOption (.gateway .invalidResponse) result.code
  require (200 ≤ code && code ≤ 599) (.gateway .invalidResponse)
  let headers ← responseHeaders result.Headers
  let body ← bodyText json (contentType headers) code result.Data
  response platform code (withDefaults headers) body

def gatewayErrorResponse (status : ℕ) (code : Option String) (message : String) :
    Except HttpError Response :=
  response platform status
    [("Content-Type", "application/json"), ("Cache-Control", "no-store"),
      ("X-Gateway-Error", "true")]
    (gatewayErrorBody json status code message)

def data (client : GatewayHTTPClient)
    (send : MobileOptions N → Except MobileError (SendResult N)) (task : Task) :
    Except HttpError Response := do
  require (!task.cancelled) .cancelled
  let options ← client.prepare platform task.request
  match send options with
  | .ok result =>
      require (!task.cancelledAfter) .cancelled
      backendResponse platform json result
  | .error (.gateway status code message) =>
      if 400 ≤ status ∧ status ≤ 599 then do
        require (!task.cancelledAfter) .cancelled
        gatewayErrorResponse platform json status code message
      else .error (.gateway (.gateway status code message))
  | .error error => .error (.gateway error)

variable {platform json}

theorem response_eq_ok {code : ℤ} {headers : List (String × String)} {body : String}
    {r : Response} :
    response platform code headers body = .ok r ↔
      platform.acceptsResponse code headers = true ∧ r = ⟨code, headers, body⟩ := by
  simp only [response, bind_eq_ok, require_eq_ok, Except.ok.injEq]
  constructor
  · rintro ⟨_, haccepts, hr⟩
    exact ⟨haccepts, hr.symm⟩
  · rintro ⟨haccepts, hr⟩
    exact ⟨(), haccepts, hr.symm⟩

end Responses

end GatewayHTTPClient

end EncryptionGateway.Client
