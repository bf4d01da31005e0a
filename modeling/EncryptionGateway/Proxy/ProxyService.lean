import EncryptionGateway.Common.Config
import EncryptionGateway.Common.Payload
import EncryptionGateway.Proxy.HeaderFiltering
import EncryptionGateway.Proxy.TargetPolicy

/-!
# Forwarding

`ProxyService.forward` checks a payload a second time, issues one upstream
request and shapes the response. The upstream is a parameter that answers a
request or fails with a transport error code.
-/

namespace EncryptionGateway.Proxy

open JavaScript Foundation Common

def METHODS_WITHOUT_BODY : List String := ["GET"]

/-- The service as it was configured at startup. -/
structure ProxyService where
  policy : TargetPolicy
  allowHttp : Bool
  timeoutMs : ℕ
  maxResponseBytes : ℕ

/-- What is handed to the HTTP client. -/
structure UpstreamRequest (N : Type) where
  url : Url
  method : String
  headers : Headers
  data : Option (Json N)
  params : Option (List (String × Json N))
  timeout : ℕ
  maxContentLength : ℕ
  maxRedirects : ℕ

/-- What the HTTP client returns. -/
structure UpstreamReply (N : Type) where
  status : ℕ
  data : Json N
  headers : List (String × Json N)

inductive HeaderText where
  | single (text : String)
  | repeated (texts : List String)

structure UpstreamResponse (N : Type) where
  status : ℕ
  data : Json N
  headers : InsertionMap String HeaderText

/-- The requests that were issued and how the handling ended. -/
structure Exchange (N : Type) where
  calls : List (UpstreamRequest N)
  result : Except HttpException (UpstreamResponse N)

namespace ProxyService

/-- The constructor. -/
def create {N : Type} [JsNumber N] (json : JsonText N) (parseUrl : UrlParser) (config : Config) :
    Except String ProxyService := do
  let policy ← TargetPolicy.create parseUrl ((config "ALLOWED_TARGET_HOSTS").getD "")
    ((config "ALLOWED_ROUTES").getD "")
  let allowHttp ← strictBoolean json config "ALLOW_HTTP_UPSTREAM" false
  let timeoutMs ← positiveInteger json config "UPSTREAM_TIMEOUT_MS" 15000
  let maxResponseBytes ← positiveInteger json config "MAX_UPSTREAM_RESPONSE_BYTES" (5 * 1024 * 1024)
  .ok ⟨policy, allowHttp, timeoutMs, maxResponseBytes⟩

def validateAndBuildUrl (service : ProxyService) (parseUrl : UrlParser) (accessPoint : String) :
    Except HttpException Url :=
  match parseUrl accessPoint with
  | none => .error (badRequest "AccessPoint must be a valid absolute URL")
  | some url =>
      if url.protocol = "https:" || (service.allowHttp && url.protocol = "http:") then .ok url
      else .error (badRequest ("AccessPoint protocol \"" ++ url.protocol ++ "\" is not allowed"))

/-- `(method || 'GET').toUpperCase()`. -/
def httpMethod (method : Option String) : String :=
  match method with
  | none => "GET"
  | some s => if s = "" then "GET" else toUpperCase s

section Preparation

variable {N : Type} [JsNumber N]

/-- The body to send; a method without body, `null` and the empty string send
none. -/
def requestBody (text : JsonText N) (method : String) (body : Option (Json N)) :
    Except HttpException (Option (Json N)) :=
  match Json.present body with
  | none => .ok none
  | some (.str "") => .ok none
  | some v =>
      if METHODS_WITHOUT_BODY.contains method then .ok none
      else (normalizeRequestBody text v).map some

/-- The query to send, from JSON text or from an object. -/
def requestParams (text : JsonText N) (parameter : Option (Json N)) :
    Except HttpException (Option (List (String × Json N))) :=
  match parameter with
  | some (.str "") => .ok none
  | some (.str s) =>
      match text.parse s with
      | none => .error (badRequest "Parameter must be valid JSON object data")
      | some parsed =>
          ((validateParameterObject parsed).mapError fun _ =>
            badRequest "Parameter must be valid JSON object data").map some
  | some (.obj fields) => (validateParameterObject (.obj fields)).map some
  | some (.arr items) => (validateParameterObject (.arr items)).map some
  | _ => .ok none

/-- The checks of `forward` and the request they lead to. -/
def prepare (service : ProxyService) (text : JsonText N) (parseUrl : UrlParser)
    (payload : DecryptedPayload N) : Except HttpException (UpstreamRequest N) := do
  let method := httpMethod payload.Method
  require (ALLOWED_METHODS.contains method)
    (badRequest ("Method \"" ++ method ++ "\" is not allowed"))
  let url ← service.validateAndBuildUrl parseUrl payload.AccessPoint
  service.policy.assertAllowed method url
  let headers ← normalizeHeaders payload.Header
  let data ← requestBody text method payload.Body
  let params ← requestParams text payload.Parameter
  .ok {
    url := url
    method := method
    headers := headers
    data := data
    params := params
    timeout := service.timeoutMs
    maxContentLength := service.maxResponseBytes
    -- a listed host must not lead the gateway to an internal address
    maxRedirects := 0 }

/-- The headers that describe the connection to the upstream. -/
def droppedResponseHeaders : List String :=
  ["transfer-encoding", "content-encoding", "connection", "keep-alive", "content-length"]

/-- `out[name] = value` on an object literal, where assigning `__proto__`
defines no property. -/
def assign (out : InsertionMap String HeaderText) (name : String) (value : HeaderText) :
    InsertionMap String HeaderText :=
  if name = "__proto__" then out else out.set name value

def sanitizeResponseHeaders (headers : List (String × Json N)) : InsertionMap String HeaderText :=
  headers.foldl (fun out f =>
    let lower := toLowerCase f.1
    if droppedResponseHeaders.contains lower then out
    else
      match f.2 with
      | .arr items => assign out lower (.repeated (items.map Json.toText))
      | v => if isHeaderScalar v then assign out lower (.single v.toText) else out) .empty

/-- What a transport failure is reported as. -/
def transportError (code : String) : HttpException :=
  if code = "ECONNABORTED" || code = "ETIMEDOUT" then ⟨504, none, "Upstream API timed out"⟩
  else ⟨502, none, "Failed to reach upstream API"⟩

def forward (service : ProxyService) (text : JsonText N) (parseUrl : UrlParser)
    (upstream : UpstreamRequest N → Except String (UpstreamReply N))
    (payload : DecryptedPayload N) : Exchange N :=
  match service.prepare text parseUrl payload with
  | .error e => ⟨[], .error e⟩
  | .ok request =>
      ⟨[request],
        match upstream request with
        | .ok reply => .ok ⟨reply.status, reply.data, sanitizeResponseHeaders reply.headers⟩
        | .error code => .error (transportError code)⟩

/-- A decrypted JSON value is validated and forwarded. -/
def handle (service : ProxyService) (text : JsonText N) (parseUrl : UrlParser)
    (upstream : UpstreamRequest N → Except String (UpstreamReply N)) (value : Json N) :
    Exchange N :=
  match parsePayload text value with
  | .error e => ⟨[], .error e⟩
  | .ok payload => service.forward text parseUrl upstream payload

end Preparation

end ProxyService

end EncryptionGateway.Proxy
