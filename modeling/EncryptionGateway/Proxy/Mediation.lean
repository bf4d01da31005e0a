import EncryptionGateway.Proxy.ProxyService

/-!
# Mediation of upstream calls

Some shapes of a payload are checked when it is parsed, others when it is
forwarded. Whatever reaches the upstream has passed all checks, and whatever does
not is answered with a 400.
-/

namespace EncryptionGateway.Proxy

open JavaScript Foundation Common TargetPolicy

variable {N : Type} [JsNumber N]

/-- A request the configuration lets the gateway make. -/
structure Mediated (parseUrl : UrlParser) (config : Config) (request : UpstreamRequest N) :
    Prop where
  method : request.method ∈ ALLOWED_METHODS
  scheme : request.url.protocol = "https:" ∨
    config "ALLOW_HTTP_UPSTREAM" = some "true" ∧ request.url.protocol = "http:"
  target : ∃ rule,
    Configured parseUrl ((config "ALLOWED_TARGET_HOSTS").getD "")
      ((config "ALLOWED_ROUTES").getD "") rule ∧
    rule.host = toLowerCase request.url.host ∧
    (rule.method = "*" ∨ rule.method = request.method) ∧
    matchesPath rule request.url.pathname = true
  separators : ∀ before a b after,
    request.url.pathname.toList = before ++ '%' :: a :: b :: after → ¬ EncodesSeparator a b
  headers : ∀ name value, request.headers.get name = some value →
    WellFormedHeader (name, value) ∧ ¬ Withheld name
  bodyless : request.method = "GET" → request.data = none
  nesting : ∀ body, request.data = some body → body.depth ≤ 32
  query : ∀ fields, request.params = some fields → ParametersFit fields

namespace ProxyService

section Checks

variable {text : JsonText N}

theorem requestBody_get {body : Option (Json N)} {data : Option (Json N)}
    (h : requestBody text "GET" body = .ok data) : data = none := by
  unfold requestBody at h
  split at h
  · cases h
    rfl
  · cases h
    rfl
  · rw [if_pos (by decide)] at h
    cases h
    rfl

/-- A body that is sent is nested at most 32 levels, however it came. -/
theorem requestBody_depth {method : String} {body : Option (Json N)} {v : Json N}
    (h : requestBody text method body = .ok (some v)) : v.depth ≤ 32 := by
  unfold requestBody at h
  split at h
  · cases h
  · cases h
  · split at h
    · cases h
    · obtain ⟨w, hw, heq⟩ := map_eq_ok.mp h
      obtain rfl := Option.some.inj heq
      exact (normalizeRequestBody_eq_ok.mp hw).2

/-- A query that is sent is within the limits, however it came. -/
theorem requestParams_fit {parameter : Option (Json N)} {fields : List (String × Json N)}
    (h : requestParams text parameter = .ok (some fields)) : ParametersFit fields := by
  unfold requestParams at h
  split at h
  · cases h
  · split at h
    · cases h
    · obtain ⟨fields', hfields, heq⟩ := map_eq_ok.mp h
      obtain rfl := Option.some.inj heq
      exact (validateParameterObject_eq_ok.mp (mapError_eq_ok.mp hfields)).2
  · obtain ⟨fields', hfields, heq⟩ := map_eq_ok.mp h
    obtain rfl := Option.some.inj heq
    exact (validateParameterObject_eq_ok.mp hfields).2
  · obtain ⟨fields', hfields, heq⟩ := map_eq_ok.mp h
    obtain rfl := Option.some.inj heq
    exact (validateParameterObject_eq_ok.mp hfields).2
  · cases h

theorem validateAndBuildUrl_eq_ok {service : ProxyService} {parseUrl : UrlParser}
    {accessPoint : String} {url : Url}
    (h : service.validateAndBuildUrl parseUrl accessPoint = .ok url) :
    url.protocol = "https:" ∨ service.allowHttp = true ∧ url.protocol = "http:" := by
  unfold validateAndBuildUrl at h
  split at h
  · cases h
  · split at h
    · next hprotocol =>
        cases h
        simpa using hprotocol
    · cases h

end Checks

section Refusals

variable {text : JsonText N}

theorem throwsOnly_normalizeHeaders (header : Option (Json N)) :
    ThrowsOnly IsBadRequest (normalizeHeaders header) := by
  intro e he
  obtain ⟨p, -, -, rfl⟩ := addAll_eq_error he
  rfl

theorem throwsOnly_requestBody (method : String) (body : Option (Json N)) :
    ThrowsOnly IsBadRequest (requestBody text method body) := by
  unfold requestBody
  split
  · exact throwsOnly_ok
  · exact throwsOnly_ok
  · split
    · exact throwsOnly_ok
    · exact (throwsOnly_normalizeRequestBody text _).map some

theorem throwsOnly_requestParams (parameter : Option (Json N)) :
    ThrowsOnly IsBadRequest (requestParams text parameter) := by
  unfold requestParams
  split
  · exact throwsOnly_ok
  · split
    · exact throwsOnly_error rfl
    · have herror : IsBadRequest (badRequest "Parameter must be valid JSON object data") := rfl
      exact (throwsOnly_mapError (fun _ => herror) _).map some
  · exact (throwsOnly_validateParameterObject _).map some
  · exact (throwsOnly_validateParameterObject _).map some
  · exact throwsOnly_ok

theorem throwsOnly_prepare (service : ProxyService) (parseUrl : UrlParser)
    (payload : DecryptedPayload N) :
    ThrowsOnly IsBadRequest (service.prepare text parseUrl payload) := by
  have hurl : ThrowsOnly IsBadRequest
      (service.validateAndBuildUrl parseUrl payload.AccessPoint) := by
    unfold validateAndBuildUrl
    split
    · exact throwsOnly_error rfl
    · split
      · exact throwsOnly_ok
      · exact throwsOnly_error rfl
  have hallowed : ∀ method url, ThrowsOnly IsBadRequest (service.policy.assertAllowed method url) :=
    fun method url => (throwsOnly_check _ _).bind fun _ => throwsOnly_check _ _
  exact (throwsOnly_check _ _).bind fun _ => hurl.bind fun url => (hallowed _ url).bind fun _ =>
    (throwsOnly_normalizeHeaders _).bind fun _ => (throwsOnly_requestBody _ _).bind fun _ =>
    (throwsOnly_requestParams _).bind fun _ => throwsOnly_ok

end Refusals

/-- A prepared request has passed every check. -/
theorem mediated_of_prepare {json : JsonText N} {parseUrl : UrlParser} {config : Config}
    {service : ProxyService} (hservice : create json parseUrl config = .ok service)
    {text : JsonText N} {payload : DecryptedPayload N} {request : UpstreamRequest N}
    (h : service.prepare text parseUrl payload = .ok request) :
    Mediated parseUrl config request := by
  simp only [create, bind_eq_ok, Except.ok.injEq] at hservice
  obtain ⟨policy, hpolicy, allowHttp, hhttp, _, -, _, -, rfl⟩ := hservice
  simp only [prepare, bind_eq_ok, require_eq_ok, Except.ok.injEq] at h
  obtain ⟨_, hmethod, url, hurl, _, hallowed, headers, hheaders, data, hdata, params, hparams,
    rfl⟩ := h
  obtain ⟨hencoded, rule, hrule, hadmits⟩ := assertAllowed_eq_ok.mp hallowed
  constructor
  · simpa using hmethod
  · apply (validateAndBuildUrl_eq_ok hurl).imp_right
    rintro ⟨hallow, hprotocol⟩
    obtain rfl : allowHttp = true := hallow
    exact ⟨strictBoolean_eq_true hhttp, hprotocol⟩
  · exact ⟨rule, (configured_iff hpolicy).mp hrule, admits_iff.mp hadmits⟩
  · intro before a b after hpath
    exact not_encodesSeparator (hpath ▸ hencoded)
  · intro name value
    exact kept_of_addAll hheaders
  · intro hget
    rw [show httpMethod payload.Method = "GET" from hget] at hdata
    exact requestBody_get hdata
  · intro body hbody
    obtain rfl : data = some body := hbody
    exact requestBody_depth hdata
  · intro fields hfields
    obtain rfl : params = some fields := hfields
    exact requestParams_fit hparams

/-- The headers of a prepared request are those of the payload that are neither
withheld nor nominated. -/
theorem headers_of_prepare {service : ProxyService} {parseUrl : UrlParser} {text : JsonText N}
    {payload : DecryptedPayload N} {request : UpstreamRequest N}
    (h : service.prepare text parseUrl payload = .ok request) {name value : String} :
    request.headers.get name = some value ↔ ¬ Dropped (headerPairs payload.Header) name ∧
      lastValue (headerPairs payload.Header) name = some value := by
  simp only [prepare, bind_eq_ok, require_eq_ok, Except.ok.injEq] at h
  obtain ⟨_, -, url, -, _, -, headers, hheaders, data, -, params, -, rfl⟩ := h
  exact get_of_addAll hheaders

/-- Handling a JSON value issues one request, which the configuration allows and
whose parts are within the limits, or none and answers 400. -/
theorem complete_mediation (json : JsonText N) (parseUrl : UrlParser) (config : Config)
    (service : ProxyService) (upstream : UpstreamRequest N → Except String (UpstreamReply N))
    (value : Json N) (hservice : create json parseUrl config = .ok service) :
    (∃ request, (service.handle json parseUrl upstream value).calls = [request] ∧
      Mediated parseUrl config request) ∨
    ((service.handle json parseUrl upstream value).calls = [] ∧
      ∃ e, (service.handle json parseUrl upstream value).result = .error e ∧ e.status = 400) := by
  unfold handle
  cases hparse : parsePayload json value with
  | error e => exact Or.inr ⟨rfl, e, rfl, throwsOnly_parsePayload json value e hparse⟩
  | ok payload =>
      simp only [forward]
      cases hprepare : service.prepare json parseUrl payload with
      | error e =>
          exact Or.inr ⟨rfl, e, rfl, throwsOnly_prepare service parseUrl payload e hprepare⟩
      | ok request => exact Or.inl ⟨request, rfl, mediated_of_prepare hservice hprepare⟩

section Samples

def sampleConfig : Config := fun name =>
  if name = "ALLOWED_ROUTES" then some "POST api.example.com/pay/*" else none

def sampleRule : Rule where
  method := "POST"
  host := "api.example.com"
  path := "/pay/"
  isPrefix := true
  source := "POST api.example.com/pay/*"

def sampleService : ProxyService := ⟨⟨[sampleRule]⟩, false, 15000, 5242880⟩

def sampleUrl (pathname : String) : Url :=
  ⟨"https:", "api.example.com", none, pathname, "https://api.example.com" ++ pathname⟩

/-- A parser that knows two URLs. -/
def sampleParser : UrlParser := fun text =>
  if text = "https://x/pay/" then some ⟨"https:", "x", none, "/pay/", text⟩
  else if text = "https://api.example.com/pay/now" then some (sampleUrl "/pay/now")
  else none

def samplePayment : Json ℤ :=
  .obj [("AccessPoint", .str "https://api.example.com/pay/now"), ("Method", .str "post"),
    ("Body", .obj [("amount", .num 5)]), ("Parameter", .obj [("dry", .bool true)])]

theorem create_sampleService :
    create (JsonText.standard ℤ) sampleParser sampleConfig = .ok sampleService := by
  rfl

theorem complete_mediation_payment :
    ∃ request, (sampleService.handle (JsonText.standard ℤ) sampleParser
        (fun _ => .error "ECONNREFUSED") samplePayment).calls = [request] ∧
      Mediated sampleParser sampleConfig request := by
  have hcalled : (sampleService.handle (JsonText.standard ℤ) sampleParser
      (fun _ => .error "ECONNREFUSED") samplePayment).calls.length = 1 := by
    rfl
  rcases complete_mediation (JsonText.standard ℤ) sampleParser sampleConfig sampleService
    (fun _ => .error "ECONNREFUSED") samplePayment create_sampleService with h | ⟨hnone, -⟩
  · exact h
  · rw [hnone] at hcalled
    cases hcalled

end Samples

end ProxyService

end EncryptionGateway.Proxy
