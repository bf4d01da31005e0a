import EncryptionGateway.Client.MobileClients
import EncryptionGateway.Foundation.FieldList
import EncryptionGateway.JavaScript.Base64
import Mathlib.Data.String.Basic

/-!
# The OkHttp interceptor

`GatewayOkHttpInterceptor` sends the requests of an app for one backend through
the Android SDK, and makes a response of what the SDK returns. The interceptors
before it see the backend.

## Implementation notes

URLs and media types are those of OkHttp, as it has parsed them. The body of a
response is its text. An exception of the platform is rethrown or wrapped; here
it is one error.
-/

namespace EncryptionGateway.Client

open JavaScript Foundation

namespace OkHttp

structure HttpUrl where
  scheme : String
  host : String
  port : ℕ
  encodedPath : String
  query : Option String
  fragment : Option String
  /-- `toString()`. -/
  text : String

structure MediaType where
  type : String
  subtype : String
  /-- `toString()`. -/
  text : String
deriving DecidableEq, Repr

structure RequestBody where
  contentType : Option MediaType
  /-- `-1` when it is not known. -/
  contentLength : ℤ
  isOneShot : Bool
  isDuplex : Bool
  /-- What `writeTo` writes. -/
  bytes : Bytes

structure Request where
  url : HttpUrl
  method : String
  headers : List (String × String)
  body : Option RequestBody

structure Response where
  code : ℤ
  headers : List (String × String)
  body : String

/-- What OkHttp and org.json provide. -/
structure Platform (N : Type) [JsNumber N] where
  /-- In the charset of the media type, UTF-8 by default. -/
  readString : MediaType → Bytes → String
  toMediaTypeOrNull : String → Option MediaType
  /-- The checks of `addHeader`. -/
  acceptsHeader : String → String → Bool
  jsonObject : String → Option (JsValue N)
  jsonArray : String → Option (JsValue N)
  /-- `toString()` of data that is neither null nor a string. -/
  toText : Json N → String

/-- What `intercept` throws: an `IOException` with the message of its cause, or
an exception of the platform. -/
inductive IoException
  | thrown (message : String) (cause : Option String)
  | platform
deriving DecidableEq

def failed (cause : Option String) : IoException :=
  .thrown "Encryption Gateway request failed" cause

def MediaType.applicationJson : MediaType := ⟨"application", "json", "application/json"⟩

def MediaType.isJson (media : MediaType) : Bool :=
  media.subtype = "json" || "+json".toList.isSuffixOf media.subtype.toList

/-- `Char.isWhitespace()`. -/
def isWhitespace (c : Char) : Bool :=
  (0x09 ≤ c.toNat && c.toNat ≤ 0x0d) || (0x1c ≤ c.toNat && c.toNat ≤ 0x20) || c.toNat = 0xa0 ||
    c.toNat = 0x1680 || (0x2000 ≤ c.toNat && c.toNat ≤ 0x200a) || c.toNat = 0x2028 ||
    c.toNat = 0x2029 || c.toNat = 0x202f || c.toNat = 0x205f || c.toNat = 0x3000

/-- `text.trim()`. -/
def trimText (text : String) : String :=
  String.ofList ((text.toList.dropWhile isWhitespace).reverse.dropWhile isWhitespace).reverse

/-- A name joins the sorted set of names, in which case does not count. -/
def addName (name : String) : List String → List String
  | [] => [name]
  | other :: rest =>
      if toLowerCase other = toLowerCase name then other :: rest
      else if toLowerCase name < toLowerCase other then name :: other :: rest
      else other :: addName name rest

/-- `headers.names()`. -/
def names (headers : List (String × String)) : List String :=
  headers.foldl (fun set h => addName h.1 set) []

section Names

variable {name n : String} {set : List String}

theorem mem_addName (h : n ∈ addName name set) : n = name ∨ n ∈ set := by
  induction set with
  | nil => exact Or.inl (List.mem_singleton.mp h)
  | cons other rest ih =>
      unfold addName at h
      split at h
      · exact Or.inr h
      · split at h
        · exact List.mem_cons.mp h
        · rcases List.mem_cons.mp h with rfl | h
          · exact Or.inr List.mem_cons_self
          · exact (ih h).imp_right (List.mem_cons_of_mem other)

theorem mem_addName_of_mem (h : n ∈ set) : n ∈ addName name set := by
  induction set with
  | nil => cases h
  | cons other rest ih =>
      unfold addName
      split
      · exact h
      · split
        · exact List.mem_cons_of_mem name h
        · rcases List.mem_cons.mp h with rfl | h
          · exact List.mem_cons_self
          · exact List.mem_cons_of_mem other (ih h)

/-- A name is in the set it joins, in some spelling. -/
theorem exists_mem_addName (name : String) (set : List String) :
    ∃ n ∈ addName name set, toLowerCase n = toLowerCase name := by
  induction set with
  | nil => exact ⟨name, List.mem_singleton_self name, rfl⟩
  | cons other rest ih =>
      unfold addName
      split
      · next hsame => exact ⟨other, List.mem_cons_self, hsame⟩
      · split
        · exact ⟨name, List.mem_cons_self, rfl⟩
        · obtain ⟨n, hn, hname⟩ := ih
          exact ⟨n, List.mem_cons_of_mem other hn, hname⟩

/-- The set stays sorted. -/
theorem pairwise_addName (h : set.Pairwise fun a b => toLowerCase a < toLowerCase b) :
    (addName name set).Pairwise fun a b => toLowerCase a < toLowerCase b := by
  induction set with
  | nil => exact List.pairwise_singleton _ _
  | cons other rest ih =>
      obtain ⟨hother, hrest⟩ := List.pairwise_cons.mp h
      unfold addName
      split
      · exact h
      · next hne =>
          split
          · next hlt =>
              refine List.pairwise_cons.mpr ⟨fun b hb => ?_, h⟩
              rcases List.mem_cons.mp hb with rfl | hb
              · exact hlt
              · exact lt_trans hlt (hother b hb)
          · next hle =>
              refine List.pairwise_cons.mpr ⟨fun b hb => ?_, ih hrest⟩
              rcases mem_addName hb with rfl | hb
              · exact lt_of_le_of_ne (not_lt.mp hle) hne
              · exact hother b hb

theorem names_snoc (headers : List (String × String)) (h : String × String) :
    names (headers ++ [h]) = addName h.1 (names headers) := by
  rw [names, List.foldl_append]
  rfl

theorem exists_of_mem_names {headers : List (String × String)} (h : n ∈ names headers) :
    ∃ header ∈ headers, header.1 = n := by
  induction headers using List.reverseRecOn with
  | nil => cases h
  | append_singleton headers header ih =>
      rw [names_snoc] at h
      rcases mem_addName h with rfl | h
      · exact ⟨header, by simp, rfl⟩
      · obtain ⟨other, hother, hname⟩ := ih h
        exact ⟨other, List.mem_append_left _ hother, hname⟩

/-- Every header has its name in the set, in some spelling. -/
theorem exists_mem_names {headers : List (String × String)} {header : String × String}
    (h : header ∈ headers) : ∃ n ∈ names headers, toLowerCase n = toLowerCase header.1 := by
  induction headers using List.reverseRecOn with
  | nil => cases h
  | append_singleton headers last ih =>
      rw [names_snoc]
      rcases List.mem_append.mp h with h | h
      · obtain ⟨n, hn, hname⟩ := ih h
        exact ⟨n, mem_addName_of_mem hn, hname⟩
      · obtain rfl := List.mem_singleton.mp h
        exact exists_mem_addName _ _

theorem nodup_names (headers : List (String × String)) :
    ((names headers).map toLowerCase).Nodup := by
  have hsorted : (names headers).Pairwise fun a b => toLowerCase a < toLowerCase b := by
    induction headers using List.reverseRecOn with
    | nil => exact List.Pairwise.nil
    | append_singleton headers last ih =>
        rw [names_snoc]
        exact pairwise_addName ih
  exact List.pairwise_map.mpr (hsorted.imp ne_of_lt)

end Names

/-- The values of the headers with a name. -/
abbrev headerValues (headers : List (String × String)) (name : String) : List String :=
  FieldList.values toLowerCase headers name

end OkHttp

open OkHttp

structure GatewayOkHttpInterceptor where
  origin : HttpUrl
  maxBodyBytes : ℕ
  isHttps : origin.scheme = "https"
  isOrigin : origin.encodedPath = "/" ∧ origin.query = none ∧ origin.fragment = none
  maxBodyBytes_pos : 0 < maxBodyBytes

namespace GatewayOkHttpInterceptor

def transportHeaders : List String :=
  ["host", "content-length", "transfer-encoding", "connection", "keep-alive", "proxy-connection",
    "proxy-authenticate", "proxy-authorization", "te", "trailer", "upgrade", "accept-encoding"]

def methods : List String := ["GET", "POST", "PUT", "PATCH", "DELETE"]

/-- The constructor. -/
def create (toHttpUrl : String → Except String HttpUrl) (backendOrigin : String)
    (maxBodyBytes : ℕ) : Except String GatewayOkHttpInterceptor :=
  match toHttpUrl backendOrigin with
  | .error message => .error message
  | .ok origin =>
      if horigin : origin.scheme = "https" ∧ origin.encodedPath = "/" ∧ origin.query = none ∧
          origin.fragment = none then
        if hbound : 0 < maxBodyBytes then
          .ok ⟨origin, maxBodyBytes, horigin.1, horigin.2, hbound⟩
        else .error "Failed requirement."
      else .error "backendOrigin must be an HTTPS origin without a path or query"

section Requests

variable {N : Type} [JsNumber N] (interceptor : GatewayOkHttpInterceptor) (okhttp : Platform N)

/-- What a JSON text is sent as: an object, an array, or the text itself. -/
def jsonPlaintext (text : String) : Except IoException (JsValue N) :=
  let trimmed := trimText text
  if startsWith trimmed "\x7b" then ofOption (failed none) (okhttp.jsonObject trimmed)
  else if startsWith trimmed "[" then ofOption (failed none) (okhttp.jsonArray trimmed)
  -- the gateway supports JSON scalars and legacy string bodies
  else .ok ⟨.str text, Json.isValue_str text⟩

def plaintext (body : RequestBody) : Except IoException (JsValue N) := do
  require (0 ≤ body.contentLength && body.contentLength ≤ interceptor.maxBodyBytes)
    (failed (some "Expected a bounded body"))
  let media ← ofOption (.thrown "Missing body content type" none) body.contentType
  require (media.type = "text" || (media.type = "application" && media.isJson))
    (failed (some "Only JSON and text bodies are supported"))
  require (body.bytes.length ≤ interceptor.maxBodyBytes) (failed (some "Body too large"))
  let text := okhttp.readString media body.bytes
  if media.type = "application" then jsonPlaintext okhttp text
  else .ok ⟨.str text, Json.isValue_str text⟩

/-- The only value under a name. -/
def logicalHeader (headers : List (String × String)) (name : String) :
    Except IoException (String × String) :=
  match headerValues headers name with
  | [value] => .ok (name, value)
  | _ => .error (failed (some "Duplicate request headers are unsupported"))

def logicalHeaders (headers : List (String × String)) :
    Except IoException (List (String × String)) :=
  ((names headers).filter fun name => !transportHeaders.contains (toLowerCase name)).mapM
    (logicalHeader headers)

/-- The content type of the body, unless the headers have one. -/
def withContentType (headers : List (String × String)) (body : Option RequestBody) :
    List (String × String) :=
  if headers.any fun h => toLowerCase h.1 = "content-type" then headers
  else headers ++
    ((body.bind RequestBody.contentType).map fun media => ("Content-Type", media.text)).toList

/-- The checks before the gateway call, and its arguments. The query remains in
`AccessPoint`. -/
def prepare (request : Request) : Except IoException (MobileOptions N) := do
  require (request.url.scheme = interceptor.origin.scheme &&
    request.url.host = interceptor.origin.host &&
    request.url.port = interceptor.origin.port) (failed (some "Unexpected backend origin"))
  require (methods.contains request.method) (failed (some "Unsupported method"))
  require (request.body.all fun body => !body.isOneShot && !body.isDuplex)
    (failed (some "Streaming is unsupported"))
  let body ← match request.body with
    | none => .ok none
    | some body => (interceptor.plaintext okhttp body).map some
  let headers ← logicalHeaders request.headers
  .ok ⟨request.method, request.url.text, withContentType headers request.body, body, none⟩

end Requests

section Requests

variable {headers logical : List (String × String)}

/-- A header that is read has a name of its own. -/
theorem mem_of_headerValues {name value : String} (hvalues : headerValues headers name = [value])
    {h : String × String} (hmem : h ∈ headers) (hname : toLowerCase h.1 = toLowerCase name)
    {h' : String × String} (hmem' : h' ∈ headers) (hname' : toLowerCase h'.1 = toLowerCase name) :
    h = h' ∧ h.2 = value := by
  have hone := congrArg List.length hvalues
  rw [headerValues, FieldList.values, List.length_map] at hone
  obtain ⟨only, honly⟩ := List.length_eq_one_iff.mp hone
  have hunique : ∀ g ∈ headers, toLowerCase g.1 = toLowerCase name → g = only := by
    intro g hg hgname
    have hfilter : g ∈ headers.filter fun f => toLowerCase f.1 = toLowerCase name :=
      List.mem_filter.mpr ⟨hg, by simpa using hgname⟩
    rw [honly] at hfilter
    exact List.mem_singleton.mp hfilter
  rw [headerValues, FieldList.values, honly] at hvalues
  rw [hunique h hmem hname, hunique h' hmem' hname']
  exact ⟨rfl, List.singleton_inj.mp hvalues⟩

theorem logicalHeader_eq_ok {name : String} {p : String × String}
    (h : logicalHeader headers name = .ok p) :
    p.1 = name ∧ headerValues headers name = [p.2] := by
  unfold logicalHeader at h
  split at h
  · next value hvalues =>
      cases h
      exact ⟨rfl, hvalues⟩
  · cases h

/-- The headers that are sent: those of the request that are not for the
transport, each name once. -/
theorem logicalHeaders_eq_ok (h : logicalHeaders headers = .ok logical) :
    (∀ name value, (name, value) ∈ logical ↔
      (name, value) ∈ headers ∧ toLowerCase name ∉ transportHeaders) ∧
      (logical.map fun h => toLowerCase h.1).Nodup := by
  have hread := mapM_eq_ok.mp h
  refine ⟨fun name value => ⟨fun hmem => ?_, ?_⟩, ?_⟩
  · obtain ⟨n, hn, hp⟩ := (mem_iff_of_forall₂ hread).mp hmem
    obtain ⟨hnames, hkept⟩ := List.mem_filter.mp hn
    obtain ⟨rfl, hvalues⟩ := logicalHeader_eq_ok hp
    obtain ⟨header, hheader, hname⟩ := exists_of_mem_names hnames
    obtain ⟨-, hvalue⟩ := mem_of_headerValues hvalues hheader (congrArg toLowerCase hname) hheader
      (congrArg toLowerCase hname)
    refine ⟨?_, by simpa using hkept⟩
    obtain ⟨headerName, headerValue⟩ := header
    obtain rfl : headerName = name := hname
    obtain rfl : headerValue = value := hvalue
    exact hheader
  · rintro ⟨hmem, hkept⟩
    obtain ⟨n, hn, hname⟩ := exists_mem_names hmem
    have hfiltered : n ∈ (names headers).filter fun name =>
        !transportHeaders.contains (toLowerCase name) := by
      refine List.mem_filter.mpr ⟨hn, ?_⟩
      rw [hname]
      simpa using hkept
    obtain ⟨p, hp, hpair⟩ := exists_of_forall₂ hread hfiltered
    obtain ⟨hpname, hvalues⟩ := logicalHeader_eq_ok hpair
    obtain ⟨header, hheader, hheaderName⟩ := exists_of_mem_names hn
    obtain ⟨hsame, hvalue⟩ := mem_of_headerValues hvalues hmem hname.symm hheader
      (congrArg toLowerCase hheaderName)
    have heq : p = (name, value) := by
      refine Prod.ext ?_ hvalue.symm
      rw [hpname, ← hheaderName, ← hsame]
    exact heq ▸ hp
  · have hnames : ∀ {kept : List String}, List.Forall₂ (fun n p => logicalHeader headers n = .ok p)
        kept logical → logical.map (fun h => toLowerCase h.1) = kept.map toLowerCase := by
      intro kept hkept
      clear hread h
      induction hkept with
      | nil => rfl
      | cons hp _ ih => rw [List.map_cons, List.map_cons, ih, (logicalHeader_eq_ok hp).1]
    rw [hnames hread]
    exact (nodup_names headers).sublist (List.filter_sublist.map _)

/-- The default content type is a header of its own. -/
theorem mem_withContentType {body : Option RequestBody} {name value : String} :
    (name, value) ∈ withContentType headers body ↔
      (name, value) ∈ headers ∨ name = "Content-Type" ∧
        (∀ h ∈ headers, toLowerCase h.1 ≠ "content-type") ∧
        ∃ media, body.bind RequestBody.contentType = some media ∧ value = media.text := by
  unfold withContentType
  split
  · next hthere =>
      refine ⟨Or.inl, fun h => h.resolve_right ?_⟩
      rintro ⟨-, hnone, -⟩
      obtain ⟨h, hmem, hname⟩ := List.any_eq_true.mp hthere
      exact hnone h hmem (of_decide_eq_true hname)
  · next hnone =>
      have hnone' : ∀ h ∈ headers, toLowerCase h.1 ≠ "content-type" := by simpa using hnone
      rw [List.mem_append, Option.mem_toList, Option.map_eq_some_iff]
      refine or_congr_right ⟨?_, ?_⟩
      · rintro ⟨media, hmedia, heq⟩
        cases heq
        exact ⟨rfl, hnone', media, hmedia, rfl⟩
      · rintro ⟨rfl, -, media, hmedia, rfl⟩
        exact ⟨media, hmedia, rfl⟩

theorem nodup_withContentType (h : (headers.map fun h => toLowerCase h.1).Nodup)
    (body : Option RequestBody) :
    ((withContentType headers body).map fun h => toLowerCase h.1).Nodup := by
  have htype : toLowerCase "Content-Type" = "content-type" := by decide
  unfold withContentType
  split
  · exact h
  · next hnone =>
      have hnone' : "content-type" ∉ headers.map fun h => toLowerCase h.1 := by
        intro hmem
        obtain ⟨g, hg, hname⟩ := List.mem_map.mp hmem
        exact hnone (List.any_eq_true.mpr ⟨g, hg, decide_eq_true hname⟩)
      rw [List.map_append]
      refine h.append ?_ ?_
      · cases body.bind RequestBody.contentType <;> simp
      · cases body.bind RequestBody.contentType with
        | none => simp
        | some media => simpa [htype] using hnone'

variable {N : Type} [JsNumber N] {interceptor : GatewayOkHttpInterceptor} {okhttp : Platform N}

/-- What the body of a request is sent as. -/
theorem plaintext_eq_ok {body : RequestBody} {v : JsValue N}
    (h : interceptor.plaintext okhttp body = .ok v) :
    ∃ media, body.contentType = some media ∧
      if media.type = "application" then
        jsonPlaintext okhttp (okhttp.readString media body.bytes) = .ok v
      else v.1 = .str (okhttp.readString media body.bytes) := by
  simp only [plaintext, bind_eq_ok, require_eq_ok, ofOption_eq_ok] at h
  obtain ⟨_, -, media, hmedia, _, -, _, -, h⟩ := h
  refine ⟨media, hmedia, ?_⟩
  split at h
  · next happlication => rwa [if_pos happlication]
  · next htext =>
      rw [if_neg htext]
      cases h
      rfl

theorem prepare_eq_ok {request : Request} {options : MobileOptions N}
    (h : interceptor.prepare okhttp request = .ok options) :
    (request.url.scheme = interceptor.origin.scheme ∧ request.url.host = interceptor.origin.host ∧
        request.url.port = interceptor.origin.port) ∧
      request.method ∈ methods ∧
      ∃ logical, logicalHeaders request.headers = .ok logical ∧
        options.headers = withContentType logical request.body ∧
        options.method = request.method ∧ options.accessPoint = request.url.text ∧
        options.parameter = none ∧
        (request.body = none → options.body = none) ∧
        ∀ body, request.body = some body → ∃ v, interceptor.plaintext okhttp body = .ok v ∧
          options.body = some v := by
  simp only [prepare, bind_eq_ok, require_eq_ok, Bool.and_eq_true, decide_eq_true_eq,
    List.contains_iff_mem] at h
  obtain ⟨_, ⟨⟨hscheme, hhost⟩, hport⟩, _, hmethod, _, -, h⟩ := h
  refine ⟨⟨hscheme, hhost, hport⟩, hmethod, ?_⟩
  cases hbody : request.body with
  | none =>
      rw [hbody] at h
      obtain ⟨sent, hsent, h⟩ := bind_eq_ok.mp h
      obtain ⟨logical, hlogical, hoptions⟩ := bind_eq_ok.mp h
      cases hsent
      cases hoptions
      exact ⟨logical, hlogical, rfl, rfl, rfl, rfl, fun _ => rfl, fun _ hsome => by cases hsome⟩
  | some body =>
      rw [hbody] at h
      obtain ⟨sent, hsent, h⟩ := bind_eq_ok.mp h
      obtain ⟨logical, hlogical, hoptions⟩ := bind_eq_ok.mp h
      obtain ⟨v, hv, rfl⟩ := map_eq_ok.mp hsent
      cases hoptions
      refine ⟨logical, hlogical, rfl, rfl, rfl, rfl, fun hnone => (by cases hnone),
        fun body' hsome => ?_⟩
      obtain rfl := Option.some.inj hsome
      exact ⟨v, hv, rfl⟩

end Requests

section Responses

variable {N : Type} [JsNumber N] (okhttp : Platform N) (json : JsonText N)

def contentType (headers : List (String × Json N)) : MediaType :=
  (((FieldList.values toLowerCase headers "Content-Type").head?.bind fun v =>
    (headerTexts v).head?).bind okhttp.toMediaTypeOrNull).getD .applicationJson

def bodyText (media : MediaType) (code : ℤ) (data : Json N) : String :=
  if isBodyless code then ""
  else
    match data with
    | .null => if media.isJson then "null" else ""
    | .str text => if media.isJson then json.write (.str text) else text
    | data => okhttp.toText data

/-- A header that the app sees. -/
def isShown (name : String) : Bool :=
  !transportHeaders.contains (toLowerCase name) && toLowerCase name ≠ "content-encoding"

def shownHeaders (headers : List (String × Json N)) : List (String × String) :=
  (headers.filter fun f => isShown f.1).flatMap fun f =>
    (headerTexts f.2).map fun value => (f.1, value)

/-- The response to a result, with the defaults of the adapter. -/
def shownResponse (result : SendResult N) (code : ℤ) : Response :=
  let media := contentType okhttp result.Headers
  let headers := FieldList.set toLowerCase
    (("Cache-Control", "no-store") :: shownHeaders result.Headers) "Content-Type" media.text
  ⟨code, FieldList.set toLowerCase headers "Cache-Control" "no-store",
    bodyText okhttp json media code result.Data⟩

def backendResponse (result : SendResult N) : Except IoException Response := do
  let code ← ofOption (failed (some "Unsupported upstream status")) result.code
  require (200 ≤ code && code ≤ 599) (failed (some "Unsupported upstream status"))
  require ((shownHeaders result.Headers).all fun h => okhttp.acceptsHeader h.1 h.2) (failed none)
  .ok (shownResponse okhttp json result code)

/-- Gateway errors are readable, and distinguished from backend errors. -/
def gatewayErrorResponse (status : ℕ) (code : Option String) (message : String) : Response where
  code := status
  headers := [("Cache-Control", "no-store"), ("X-Gateway-Error", "true")]
  body := gatewayErrorBody json status code message

variable {okhttp json}

end Responses

end GatewayOkHttpInterceptor

end EncryptionGateway.Client
