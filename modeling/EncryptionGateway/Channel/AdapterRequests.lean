import EncryptionGateway.Channel.AdapterResponses
import EncryptionGateway.Proxy.LegacyForms

/-!
# What the backend gets through an adapter

The upstream request that the gateway issues for a request of an app has its
method, its URL, its headers and its body. A JSON body arrives as the value it
spells from OkHttp; from a `URLRequest` that holds unless it is null or a string
that spells JSON itself.
-/

namespace EncryptionGateway.Channel

open JavaScript Foundation Common Encryption Proxy Client

variable {N B K : Type} [JsNumber N]

namespace SdkCall

/-- The gateway issues the upstream request for the call. -/
def Issues (call : SdkCall N B K) (upstream : UpstreamRequest N) : Prop :=
  ∃ payload aesKey seen,
    call.controller.accept call.platform call.request call.now call.seen =
      (.ok (payload, aesKey), seen) ∧
    call.controller.proxyService.prepare call.platform.text call.platform.parseUrl payload =
      .ok upstream

/-- The gateway reads the object that the SDK has sealed. -/
theorem payload_of_issues {call : SdkCall N B K} (lawful : call.platform.crypto.Lawful)
    (hbox : call.platform.crypto.Boxed) {upstream : UpstreamRequest N} (h : call.Issues upstream) :
    ∃ payload, parsePayload call.platform.text call.options.payload.serialised = .ok payload ∧
      call.controller.proxyService.prepare call.platform.text call.platform.parseUrl payload =
        .ok upstream := by
  obtain ⟨payload, aesKey, seen, haccept, hprepare⟩ := h
  have hdecrypt := ProxyController.decrypt_of_accept haccept
  obtain rfl := rawKey_of_decrypt lawful hbox hdecrypt
  obtain ⟨-, -, plain, value, hopen, hparse, hpayload⟩ :=
    EncryptionService.decrypt_eq_ok.mp hdecrypt
  have hsealed : call.platform.crypto.openGcm call.rawKey
      (call.platform.crypto.fromBase64 call.request.IV)
      (call.platform.crypto.fromBase64 call.request.Payload) =
        some (call.platform.text.write call.options.payload) := by
    simp only [request, GatewayClient.request, lawful.fromBase64_toBase64,
      lawful.openGcm_sealGcm _ _ _ call.length_rawKey call.length_iv]
  obtain rfl := Option.some.inj (hsealed.symm.trans hopen)
  rw [call.platform.text.parse_write (isValue_payload call.options)] at hparse
  obtain rfl := Option.some.inj hparse
  exact ⟨payload, hpayload, hprepare⟩

end SdkCall

/-- The pairs in the `Header` field of an SDK. -/
theorem headerPairs_mobile (headers : List (String × String)) :
    headerPairs (some (Json.arr (headers.map fun f =>
      .obj [("Key", .str f.1), ("Value", .str f.2)]) : Json N).serialised) = headers := by
  rw [Json.serialised, Json.serialisedItems_eq_map, List.map_map, headerPairs, headerEntries,
    List.flatMap_map]
  have hpair : ∀ f : String × String,
      entryPairs (Json.obj [("Key", .str f.1), ("Value", .str f.2)] : Json N).serialised = [f] :=
    fun _ => rfl
  calc
    headers.flatMap (fun f =>
        entryPairs (Json.obj [("Key", .str f.1), ("Value", .str f.2)] : Json N).serialised) =
        headers.flatMap fun f => [f] := List.flatMap_congr fun f _ => hpair f
    _ = headers := List.flatMap_singleton' headers

theorem parseUrl_of_validated {service : ProxyService} {parseUrl : UrlParser} {accessPoint : String}
    {url : Url} (h : service.validateAndBuildUrl parseUrl accessPoint = .ok url) :
    parseUrl accessPoint = some url := by
  unfold ProxyService.validateAndBuildUrl at h
  split at h
  · cases h
  · next url' hurl =>
      split at h
      · cases h
        exact hurl
      · cases h

/-- What the gateway makes of the arguments of an SDK. -/
structure Requested (text : JsonText N) (parseUrl : UrlParser) (options : MobileOptions N)
    (upstream : UpstreamRequest N) : Prop where
  url : parseUrl options.accessPoint = some upstream.url
  method : upstream.method = ProxyService.httpMethod (some options.method)
  headers : addAll options.headers = .ok upstream.headers
  data : ProxyService.requestBody text upstream.method
    (options.body.map fun body => body.1.serialised) = .ok upstream.data
  params : options.parameter = none → upstream.params = none

theorem SdkCall.requested_of_issues {call : SdkCall N B K} (lawful : call.platform.crypto.Lawful)
    (hbox : call.platform.crypto.Boxed) {options : MobileOptions N}
    (hoptions : call.options = options.toSendOptions) {upstream : UpstreamRequest N}
    (h : call.Issues upstream) :
    Requested call.platform.text call.platform.parseUrl options upstream := by
  obtain ⟨payload, hpayload, hprepare⟩ := payload_of_issues lawful hbox h
  rw [hoptions, payload_toSendOptions] at hpayload
  obtain ⟨p, hp, haccess, -, hmethod, hheader, -, hparameter, -, hbody, -⟩ :=
    parsePayload_eq_ok hpayload
  have hlookup : ∀ k, Json.lookup p k = (options.payload.get k).map Json.serialised := by
    intro k
    have hget := Json.get_serialised options.payload k
    rwa [hp] at hget
  simp only [ProxyService.prepare, bind_eq_ok, require_eq_ok, Except.ok.injEq] at hprepare
  obtain ⟨_, -, url, hurl, _, -, headers, hheaders, data, hdata, params, hparams, rfl⟩ := hprepare
  have haccess' : payload.AccessPoint = options.accessPoint := by
    rw [hlookup] at haccess
    exact (Json.str.inj (Option.some.inj haccess)).symm
  have hmethod' : payload.Method = some options.method := by
    rw [hlookup] at hmethod
    exact (Except.ok.inj hmethod).symm
  have hbody' : payload.Body = options.body.map fun body => body.1.serialised := by
    rw [hbody, hlookup]
    obtain ⟨method, accessPoint, headers, body, parameter⟩ := options
    cases body <;> cases parameter <;> rfl
  rw [hbody'] at hdata
  constructor
  · rw [← haccess']
    exact parseUrl_of_validated hurl
  · exact congrArg ProxyService.httpMethod hmethod'
  · rw [hheader, hlookup] at hheaders
    exact (congrArg addAll (headerPairs_mobile (N := N) options.headers)).symm.trans hheaders
  · exact hdata
  · intro hnone
    have hparameter' : payload.Parameter = none := by
      rw [hparameter, hlookup]
      obtain ⟨method, accessPoint, headers, body, parameter⟩ := options
      obtain rfl : parameter = none := hnone
      cases body <;> rfl
    rw [hparameter'] at hparams
    exact (Except.ok.inj hparams).symm

/-- The data of the upstream request for a body. -/
def sentData (text : JsonText N) : Json N → Option (Json N)
  | .null => none
  | .str "" => none
  | v => some (decodeBody text v)

section Bodies

variable {text : JsonText N} {method : String}

theorem requestBody_eq_ok (hmethod : method ≠ "GET") {v : Json N} {data : Option (Json N)}
    (h : ProxyService.requestBody text method (some v) = .ok data) : data = sentData text v := by
  have hkept : METHODS_WITHOUT_BODY.contains method = false := by
    simpa [METHODS_WITHOUT_BODY] using hmethod
  by_cases hnull : v = .null
  · rw [hnull] at h ⊢
    exact (Except.ok.inj h).symm
  by_cases hempty : v = .str ""
  · rw [hempty] at h ⊢
    exact (Except.ok.inj h).symm
  rw [requestBody_some method hnull hempty, hkept, if_neg Bool.false_ne_true] at h
  obtain ⟨decoded, hdecoded, rfl⟩ := map_eq_ok.mp h
  rw [(normalizeRequestBody_eq_ok.mp hdecoded).1]
  unfold sentData
  split
  · exact absurd rfl hnull
  · exact absurd rfl hempty
  · rfl

/-- A text arrives as the JSON value it spells, or as itself. -/
theorem sentData_str {t : String} (h : t ≠ "") :
    sentData text (.str t) = some ((text.parse t).getD (.str t)) := by
  unfold sentData
  split
  · next heq => cases heq
  · next heq => exact absurd (Json.str.inj heq) h
  · rfl

/-- The values that arrive as they are. -/
theorem sentData_eq_self_iff {v : Json N} :
    sentData text v = some v ↔
      v ≠ .null ∧ ∀ t, v = .str t → t ≠ "" ∧ (text.parse t).getD (.str t) = .str t := by
  cases v with
  | null => simp [sentData]
  | str t =>
      by_cases hempty : t = ""
      · subst hempty
        simp [sentData]
      · simp [sentData_str hempty, hempty]
  | _ => simp [sentData, decodeBody]

theorem httpMethod_of_mem (h : method ∈ ["GET", "POST", "PUT", "PATCH", "DELETE"]) :
    ProxyService.httpMethod (some method) = method := by
  have hall : ∀ m ∈ ["GET", "POST", "PUT", "PATCH", "DELETE"],
      ProxyService.httpMethod (some m) = m := by
    decide
  exact hall method h

end Bodies

namespace Requested

variable {text : JsonText N} {parseUrl : UrlParser} {options : MobileOptions N}
  {upstream : UpstreamRequest N}

theorem method_eq (h : Requested text parseUrl options upstream)
    (hmem : options.method ∈ ["GET", "POST", "PUT", "PATCH", "DELETE"]) :
    upstream.method = options.method := by
  rw [h.method]
  exact httpMethod_of_mem hmem

theorem data_of_bodyless (h : Requested text parseUrl options upstream)
    (hnone : options.body = none) : upstream.data = none := by
  have hread := h.data
  rw [hnone] at hread
  exact (Except.ok.inj hread).symm

theorem data_of_body (h : Requested text parseUrl options upstream) (hget : upstream.method ≠ "GET")
    {v : JsValue N} (hsome : options.body = some v) :
    upstream.data = sentData text v.1.serialised := by
  have hread := h.data
  rw [hsome] at hread
  exact requestBody_eq_ok hget hread

end Requested

/-- Where the names differ, the last value under a name is the only one. -/
theorem lastValue_eq_some {pairs : List (String × String)} (hnodup : (pairs.map Prod.fst).Nodup)
    {name value : String} : lastValue pairs name = some value ↔ (name, value) ∈ pairs := by
  induction pairs generalizing value with
  | nil => simp [lastValue]
  | cons p pairs ih =>
      obtain ⟨hnew, hrest⟩ := List.nodup_cons.mp hnodup
      rw [lastValue_cons, List.mem_cons, ← ih hrest]
      by_cases hname : p.1 = name
      · have hnone : lastValue pairs name = none := by
          rw [Option.eq_none_iff_forall_ne_some]
          intro v hv
          exact hnew (hname ▸ List.mem_map_of_mem ((ih hrest).mp hv))
        rw [hnone, if_pos hname]
        simp [Prod.ext_iff, hname, eq_comm]
      · rw [if_neg hname, Option.or_none]
        refine (or_iff_right ?_).symm
        rintro rfl
        exact hname rfl

/-! ## OkHttp -/

section OkHttp

open Client.OkHttp GatewayOkHttpInterceptor

variable {okhttp : OkHttp.Platform N} {text : JsonText N}

/-- A header of the request that is sent, or the content type of the body. -/
def SendsHeader (request : OkHttp.Request) (name value : String) : Prop :=
  ((name, value) ∈ request.headers ∧ toLowerCase name ∉ transportHeaders) ∨
    name = "Content-Type" ∧ (∀ h ∈ request.headers, toLowerCase h.1 ≠ "content-type") ∧
      ∃ media, request.body.bind RequestBody.contentType = some media ∧ value = media.text

/-- org.json reads a JSON text as the value it spells. -/
structure Reads (okhttp : OkHttp.Platform N) (t : String) (v : Json N) : Prop where
  object : ∀ fields, v = .obj fields → startsWith (trimText t) "\x7b" = true ∧
    ∃ w, okhttp.jsonObject (trimText t) = some w ∧ w.1.serialised = v
  array : ∀ items, v = .arr items → startsWith (trimText t) "\x7b" = false ∧
    startsWith (trimText t) "[" = true ∧ ∃ w, okhttp.jsonArray (trimText t) = some w ∧
      w.1.serialised = v
  scalar : (∀ fields, v ≠ .obj fields) → (∀ items, v ≠ .arr items) →
    startsWith (trimText t) "\x7b" = false ∧ startsWith (trimText t) "[" = false

/-- The upstream request that a request through the interceptor leads to. -/
structure OkHttpArrives (okhttp : OkHttp.Platform N) (text : JsonText N) (parseUrl : UrlParser)
    (interceptor : GatewayOkHttpInterceptor) (request : OkHttp.Request)
    (upstream : UpstreamRequest N) : Prop where
  origin : request.url.scheme = "https" ∧ request.url.host = interceptor.origin.host ∧
    request.url.port = interceptor.origin.port
  url : parseUrl request.url.text = some upstream.url
  method : upstream.method = request.method
  params : upstream.params = none
  headers : ∀ name value, upstream.headers.get name = some value ↔
    ¬ Withheld name ∧ SendsHeader request name value
  bodyless : request.body = none → upstream.data = none
  jsonBody : request.method ≠ "GET" → ∀ body media v, request.body = some body →
    body.contentType = some media → media.type = "application" →
    text.parse (okhttp.readString media body.bytes) = some v →
    Reads okhttp (okhttp.readString media body.bytes) v → upstream.data = some v
  textBody : request.method ≠ "GET" → ∀ body media, request.body = some body →
    body.contentType = some media → media.type = "text" →
    upstream.data = sentData text (.str (okhttp.readString media body.bytes))

theorem dropped_iff_withheld {pairs : List (String × String)}
    (h : ∀ p ∈ pairs, toLowerCase p.1 ≠ "connection") (name : String) :
    Dropped pairs name ↔ Withheld name := by
  unfold Dropped Withheld
  refine or_congr_right (or_iff_left ?_)
  rintro ⟨p, hp, hconnection, -⟩
  exact h p hp hconnection

/-- A body that spells a JSON value is sent in a form that arrives as the value. -/
theorem sentData_jsonPlaintext {t : String} {v : Json N} {w : JsValue N}
    (hparse : text.parse t = some v) (hreads : Reads okhttp t v)
    (h : jsonPlaintext okhttp t = .ok w) :
    sentData text w.1.serialised = some v := by
  have hscalar : startsWith (trimText t) "\x7b" = false → startsWith (trimText t) "[" = false →
      w.1.serialised = .str t := by
    intro hobject harray
    rw [jsonPlaintext, hobject, harray] at h
    cases h
    rfl
  have hempty : t ≠ "" := by
    rintro rfl
    rw [text.parse_empty] at hparse
    cases hparse
  by_cases hobj : ∃ fields, v = .obj fields
  · obtain ⟨fields, rfl⟩ := hobj
    obtain ⟨hstarts, w', hw', hvalue⟩ := hreads.object fields rfl
    rw [jsonPlaintext, hstarts, if_pos rfl, ofOption_eq_ok, hw'] at h
    obtain rfl := Option.some.inj h
    rw [hvalue]
    rfl
  by_cases harr : ∃ items, v = .arr items
  · obtain ⟨items, rfl⟩ := harr
    obtain ⟨hobject, hstarts, w', hw', hvalue⟩ := hreads.array items rfl
    rw [jsonPlaintext, hobject, if_neg Bool.false_ne_true, hstarts, if_pos rfl,
      ofOption_eq_ok, hw'] at h
    obtain rfl := Option.some.inj h
    rw [hvalue]
    rfl
  · obtain ⟨hobject, harray⟩ := hreads.scalar (fun fields hv => hobj ⟨fields, hv⟩)
      fun items hv => harr ⟨items, hv⟩
    rw [hscalar hobject harray, sentData_str hempty, hparse, Option.getD_some]

theorem nodup_of_lower {pairs : List (String × String)}
    (h : (pairs.map fun p => toLowerCase p.1).Nodup) : (pairs.map Prod.fst).Nodup := by
  refine List.Nodup.of_map toLowerCase ?_
  rwa [List.map_map]

/-- The headers that the interceptor hands over. -/
theorem mem_headers_of_logicalHeaders {request : OkHttp.Request} {logical : List (String × String)}
    (h : logicalHeaders request.headers = .ok logical) {name value : String} :
    (name, value) ∈ withContentType logical request.body ↔ SendsHeader request name value := by
  obtain ⟨hmem, -⟩ := logicalHeaders_eq_ok h
  have hdefault : (∀ g ∈ logical, toLowerCase g.1 ≠ "content-type") ↔
      ∀ g ∈ request.headers, toLowerCase g.1 ≠ "content-type" := by
    constructor
    · intro hnone g hg htype
      have hkept : toLowerCase g.1 ∉ transportHeaders := by
        rw [htype]
        decide
      exact hnone g ((hmem g.1 g.2).mpr ⟨hg, hkept⟩) htype
    · intro hnone g hg
      exact hnone g ((hmem g.1 g.2).mp hg).1
  rw [mem_withContentType, hmem, hdefault, SendsHeader]

theorem not_connection_of_sendsHeader {request : OkHttp.Request} {name value : String}
    (h : SendsHeader request name value) : toLowerCase name ≠ "connection" := by
  intro hconnection
  rcases h with ⟨-, hkept⟩ | ⟨rfl, -⟩
  · exact hkept (hconnection ▸ by decide)
  · exact absurd hconnection (by decide)

/-- What an app sends through the interceptor reaches the backend as the request
it made: from its URL to the JSON value of its body. -/
theorem SdkCall.okhttp_request_arrives (call : SdkCall N B K) (lawful : call.platform.crypto.Lawful)
    (hbox : call.platform.crypto.Boxed) {interceptor : GatewayOkHttpInterceptor}
    {request : OkHttp.Request} {options : MobileOptions N}
    (hprepared : interceptor.prepare okhttp request = .ok options)
    (hoptions : call.options = options.toSendOptions) {upstream : UpstreamRequest N}
    (h : call.Issues upstream) :
    OkHttpArrives okhttp call.platform.text call.platform.parseUrl interceptor request
      upstream := by
  have hrequested := requested_of_issues lawful hbox hoptions h
  obtain ⟨⟨hscheme, hhost, hport⟩, hmethod, logical, hlogical, hheaders, hsame, haccess,
    hparameter, hnone, hbody⟩ := prepare_eq_ok hprepared
  have hupstream : upstream.method = request.method :=
    (hrequested.method_eq (hsame ▸ hmethod)).trans hsame
  have hdata : request.method ≠ "GET" → ∀ body v, request.body = some body →
      interceptor.plaintext okhttp body = .ok v →
      upstream.data = sentData call.platform.text v.1.serialised := by
    intro hget body v hsome hv
    obtain ⟨w, hw, hoption⟩ := hbody body hsome
    obtain rfl := Except.ok.inj (hv.symm.trans hw)
    exact hrequested.data_of_body (hupstream ▸ hget) hoption
  constructor
  · exact ⟨hscheme.trans interceptor.isHttps, hhost, hport⟩
  · rw [← haccess]
    exact hrequested.url
  · exact hupstream
  · exact hrequested.params hparameter
  · intro name value
    have hnodup := nodup_withContentType (logicalHeaders_eq_ok hlogical).2 request.body
    have hconnection : ∀ p ∈ options.headers, toLowerCase p.1 ≠ "connection" := by
      intro p hp
      rw [hheaders] at hp
      exact not_connection_of_sendsHeader ((mem_headers_of_logicalHeaders hlogical).mp hp)
    rw [get_of_addAll hrequested.headers, dropped_iff_withheld hconnection, hheaders,
      lastValue_eq_some (nodup_of_lower hnodup), mem_headers_of_logicalHeaders hlogical]
  · intro hbodyless
    exact hrequested.data_of_bodyless (hnone hbodyless)
  · intro hget body media v hsome hmedia happlication hparse hreads
    obtain ⟨w, hw, -⟩ := hbody body hsome
    obtain ⟨media', hmedia', hsent⟩ := plaintext_eq_ok hw
    obtain rfl := Option.some.inj (hmedia.symm.trans hmedia')
    rw [if_pos happlication] at hsent
    rw [hdata hget body w hsome hw]
    exact sentData_jsonPlaintext hparse hreads hsent
  · intro hget body media hsome hmedia htext
    obtain ⟨w, hw, -⟩ := hbody body hsome
    obtain ⟨media', hmedia', hsent⟩ := plaintext_eq_ok hw
    obtain rfl := Option.some.inj (hmedia.symm.trans hmedia')
    rw [if_neg (by rw [htext]; decide)] at hsent
    rw [hdata hget body w hsome hw, hsent]
    rfl

section Samples

open SdkCall

/-- A note as a request of OkHttp: a text that spells a number. -/
def noteRequest : OkHttp.Request where
  url := paymentUrl "/pay/now"
  method := "POST"
  headers := [("X-Note", "1"), ("TE", "trailers")]
  body := some ⟨some ⟨"text", "plain", "text/plain"⟩, 1, false, false, [55]⟩

def noteOkHttp : OkHttp.Platform ℤ :=
  { sampleOkHttp with
    readString := fun _ bytes => String.ofList (bytes.map fun b => Char.ofNat b.toNat) }

def phoneNote : MobileOptions ℤ where
  method := "POST"
  accessPoint := "https://api.example.com/pay/now"
  headers := [("X-Note", "1"), ("Content-Type", "text/plain")]
  body := some ⟨.str "7", Json.isValue_str _⟩
  parameter := none

def note : SdkCall ℤ (Buffer Bool) Bool := { payment with options := phoneNote.toSendOptions }

theorem issues_note : ∃ upstream, note.Issues upstream := by
  let header : Json ℤ := .arr [.obj [("Key", .str "X-Note"), ("Value", .str "1")],
    .obj [("Key", .str "Content-Type"), ("Value", .str "text/plain")]]
  let noted : DecryptedPayload ℤ :=
    ⟨"https://api.example.com/pay/now", some "POST", some header, some (.str "7"), none, none, none⟩
  have hdecrypt : note.controller.encryptionService.decrypt note.platform.crypto note.platform.text
      note.request = .ok (noted, note.rawKey) := by
    apply decrypt_request (lawful_symbolicCrypto _) ?_ rfl rfl rfl
    exact unwrapKey_first (lawful_symbolicCrypto _) ⟨"k1", true⟩ [] _ rfl
  have haccept : note.controller.accept note.platform note.request note.now note.seen =
      (.ok (noted, note.rawKey), .empty) := by
    rw [ProxyController.accept, hdecrypt]
    rfl
  exact ⟨_, noted, note.rawKey, .empty, haccept, rfl⟩

theorem okhttp_request_arrives_note : ∃ upstream, note.Issues upstream ∧
    upstream.headers.get "Content-Type" = some "text/plain" ∧ upstream.data = some (.num 7) := by
  obtain ⟨upstream, hissues⟩ := issues_note
  have hprepared : sampleInterceptor.prepare noteOkHttp noteRequest = .ok phoneNote := by
    rfl
  have harrives := note.okhttp_request_arrives (lawful_symbolicCrypto _) (boxed_symbolicCrypto _)
    hprepared rfl hissues
  refine ⟨upstream, hissues, (harrives.headers _ _).mpr ⟨?_, Or.inr ⟨rfl, by decide, _, rfl, rfl⟩⟩,
    ?_⟩
  · rintro (hblocked | hforwarded)
    · exact absurd hblocked (by decide)
    · exact absurd hforwarded (by decide)
  · rw [harrives.textBody (by decide) _ _ rfl rfl rfl]
    rfl

end Samples

end OkHttp

/-! ## URLRequest -/

section UrlSession

open Client.UrlSession GatewayHTTPClient

variable {apple : UrlSession.Platform N} {text : JsonText N}

/-- The upstream request that a request through the adapter leads to. -/
structure HttpArrives (apple : UrlSession.Platform N) (text : JsonText N) (parseUrl : UrlParser)
    (adapter : GatewayHTTPClient) (request : URLRequest) (upstream : UpstreamRequest N) : Prop where
  url : ∃ url target, request.url = some url ∧ url.components = some target ∧
    adapter.isTarget target = true ∧ parseUrl url.absoluteString = some upstream.url
  method : upstream.method = toUpperCase (request.httpMethod.getD "GET")
  params : upstream.params = none
  headers : ∀ name value, upstream.headers.get name = some value ↔
    ¬ Dropped (request.allHTTPHeaderFields.getD []) name ∧
      (name, value) ∈ request.allHTTPHeaderFields.getD []
  bodyless : request.httpBody = none → upstream.data = none
  /-- Null and the empty string are not sent, and a string that spells JSON is sent
  as what it spells. -/
  jsonBody : ∀ bytes v, request.httpBody = some bytes → apple.jsonObject bytes = some v →
    isJsonMedia (requestMedia (request.allHTTPHeaderFields.getD [])) = true →
    upstream.data = sentData text v.1.serialised ∧
      (upstream.data = some v.1.serialised ↔ v.1.serialised ≠ .null ∧
        ∀ t, v.1.serialised = .str t → t ≠ "" ∧ (text.parse t).getD (.str t) = .str t)
  textBody : ∀ bytes t, request.httpBody = some bytes → apple.utf8 bytes = some t →
    isJsonMedia (requestMedia (request.allHTTPHeaderFields.getD [])) = false →
    upstream.data = sentData text (.str t)

/-- What an app sends through the `URLRequest` adapter reaches the backend as the
request it made; of the JSON bodies, those the gateway does not take for the text
of another. -/
theorem SdkCall.urlrequest_request_arrives (call : SdkCall N B K)
    (lawful : call.platform.crypto.Lawful) (hbox : call.platform.crypto.Boxed)
    {adapter : GatewayHTTPClient} {request : URLRequest}
    (hnames : ((request.allHTTPHeaderFields.getD []).map Prod.fst).Nodup)
    {options : MobileOptions N} (hprepared : adapter.prepare apple request = .ok options)
    (hoptions : call.options = options.toSendOptions) {upstream : UpstreamRequest N}
    (h : call.Issues upstream) :
    HttpArrives apple call.platform.text call.platform.parseUrl adapter request upstream := by
  have hrequested := requested_of_issues lawful hbox hoptions h
  obtain ⟨⟨url, target, hurl, htarget, horigin, haccess⟩, hsame, hmethod, hheaders, hparameter,
    hnone, hbody⟩ := prepare_eq_ok hprepared
  have hupstream : upstream.method = options.method := hrequested.method_eq hmethod
  have hdata : ∀ bytes v, request.httpBody = some bytes →
      decodeBody apple (requestMedia options.headers) bytes = .ok v →
      upstream.data = sentData call.platform.text v.1.serialised := by
    intro bytes v hsome hv
    obtain ⟨hget, w, hoption, hw⟩ := hbody bytes hsome
    obtain rfl := Except.ok.inj (hv.symm.trans hw)
    exact hrequested.data_of_body (hupstream ▸ hget) hoption
  constructor
  · refine ⟨url, target, hurl, htarget, horigin, ?_⟩
    rw [← haccess]
    exact hrequested.url
  · exact hupstream.trans hsame
  · exact hrequested.params hparameter
  · intro name value
    rw [get_of_addAll hrequested.headers, hheaders, lastValue_eq_some hnames]
  · intro hbodyless
    exact hrequested.data_of_bodyless (hnone hbodyless)
  · intro bytes v hsome hv hjson
    obtain ⟨-, w, -, hw⟩ := hbody bytes hsome
    rw [← hheaders] at hjson
    rcases decodeBody_eq_ok hw with ⟨-, hobject⟩ | ⟨htext, -⟩
    · obtain rfl := Option.some.inj (hv.symm.trans hobject)
      rw [hdata bytes v hsome hw]
      exact ⟨rfl, sentData_eq_self_iff⟩
    · exact absurd (hjson.symm.trans htext) (by decide)
  · intro bytes t hsome ht hplain
    obtain ⟨-, w, -, hw⟩ := hbody bytes hsome
    rw [← hheaders] at hplain
    rcases decodeBody_eq_ok hw with ⟨hjson, -⟩ | ⟨-, -, t', ht', hvalue⟩
    · exact absurd (hjson.symm.trans hplain) (by decide)
    · obtain rfl := Option.some.inj (ht.symm.trans ht')
      rw [hdata bytes w hsome hw, hvalue]
      rfl

section Samples

open SdkCall

/-- The note as a `URLRequest`. -/
def noteURLRequest : URLRequest where
  url := some ⟨"https://api.example.com/pay/now", some (paymentComponents "/pay/now")⟩
  httpMethod := some "post"
  hasBodyStream := false
  allHTTPHeaderFields := some [("X-Note", "1"), ("Content-Type", "text/plain")]
  httpBody := some [55]

def noteApple : UrlSession.Platform ℤ :=
  { sampleApple with
    utf8 := fun bytes => some (String.ofList (bytes.map fun b => Char.ofNat b.toNat)) }

theorem urlrequest_request_arrives_note : ∃ upstream, note.Issues upstream ∧
    upstream.method = "POST" ∧ upstream.headers.get "X-Note" = some "1" ∧
    upstream.data = some (.num 7) := by
  obtain ⟨upstream, hissues⟩ := issues_note
  have hprepared : sampleAdapter.prepare noteApple noteURLRequest = .ok phoneNote := by
    rfl
  have harrives := note.urlrequest_request_arrives (lawful_symbolicCrypto _)
    (boxed_symbolicCrypto _) (by decide) hprepared rfl hissues
  refine ⟨upstream, hissues, harrives.method.trans (by decide),
    (harrives.headers _ _).mpr ⟨?_, by decide⟩, ?_⟩
  · rintro (hblocked | hforwarded | ⟨p, hp, hconnection, -⟩)
    · exact absurd hblocked (by decide)
    · exact absurd hforwarded (by decide)
    · have hnone : ∀ p ∈ noteURLRequest.allHTTPHeaderFields.getD [],
          toLowerCase p.1 ≠ "connection" := by
        decide
      exact hnone p hp hconnection
  · rw [harrives.textBody _ _ rfl rfl (by decide)]
    rfl

end Samples

end UrlSession

end EncryptionGateway.Channel
