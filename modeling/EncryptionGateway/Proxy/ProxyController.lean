import EncryptionGateway.Common.ReplayProtection
import EncryptionGateway.Encryption.EncryptionService
import EncryptionGateway.Proxy.ProxyService

/-!
# The gateway endpoint

`ProxyController.handleGateway` decrypts a request, claims its nonce, forwards
it and answers with the response, sealed or in the clear as the configuration
says.

## Implementation notes

The handler is cut in two where it waits for the upstream: `accept` is the part
before, `complete` what it makes of the forwarded response.
-/

namespace EncryptionGateway.Proxy

open JavaScript Foundation Common Encryption

/-- What the platform provides. -/
structure Platform (N B K : Type) [JsNumber N] where
  crypto : Crypto B K
  text : JsonText N
  parseUrl : UrlParser
  timestamps : Timestamps N

structure ProxyController (K : Type) where
  encryptionService : EncryptionService K
  proxyService : ProxyService
  replayProtection : ReplayProtection
  encryptResponse : Bool

/-- The response in either mode. -/
inductive GatewayReply (N : Type) where
  | encrypted (response : GatewayResponse)
  | plain (result : List (String × Json N))

def HeaderText.toJson {N : Type} : HeaderText → Json N
  | .single text => .str text
  | .repeated texts => .arr (texts.map .str)

section Results

variable {N : Type} [JsNumber N]

/-- The headers as the properties of an object. -/
def headerFields (headers : InsertionMap String HeaderText) : List (String × Json N) :=
  Json.assignFields (headers.entries.map fun e => (e.1, e.2.toJson))

/-- `{ StatusCode, Headers, Data }`. -/
def resultFields (upstream : UpstreamResponse N) : List (String × Json N) :=
  [("StatusCode", .num (JsNumber.ofInt upstream.status)),
    ("Headers", .obj (headerFields upstream.headers)), ("Data", upstream.data)]

/-- The body of the HTTP response. -/
def GatewayReply.toJson : GatewayReply N → Json N
  | .encrypted response => response.toJson
  | .plain result => .obj (("Encrypted", .bool false) :: result)

end Results

namespace ProxyController

variable {N B K : Type} [JsNumber N]

def accept (controller : ProxyController K) (platform : Platform N B K) (dto : GatewayRequest)
    (now : Int) (seen : ReplayProtection.Seen) :
    Except HttpException (DecryptedPayload N × B) × ReplayProtection.Seen :=
  match controller.encryptionService.decrypt platform.crypto platform.text dto with
  | .error e => (.error e, seen)
  | .ok (payload, aesKey) =>
      let (fresh, seen) := controller.replayProtection.assertFresh platform.timestamps payload
        now seen
      (fresh.map fun _ => (payload, aesKey), seen)

def complete (controller : ProxyController K) (platform : Platform N B K) (iv aesKey : B)
    (upstream : UpstreamResponse N) : GatewayReply N :=
  if controller.encryptResponse then
    .encrypted (EncryptionService.encryptResponse platform.crypto platform.text iv
      (.obj (resultFields upstream)) aesKey)
  else .plain (resultFields upstream)

def handleGateway (controller : ProxyController K) (platform : Platform N B K)
    (upstream : UpstreamRequest N → Except String (UpstreamReply N)) (iv : B) (dto : GatewayRequest)
    (now : Int) (seen : ReplayProtection.Seen) :
    Except HttpException (GatewayReply N) × ReplayProtection.Seen :=
  match controller.accept platform dto now seen with
  | (.error e, seen) => (.error e, seen)
  | (.ok (payload, aesKey), seen) =>
      let exchange := controller.proxyService.forward platform.text platform.parseUrl upstream
        payload
      (exchange.result.map (controller.complete platform iv aesKey), seen)

/-- An accepted request was decrypted. -/
theorem decrypt_of_accept {controller : ProxyController K} {platform : Platform N B K}
    {dto : GatewayRequest} {now : Int} {seen seen' : ReplayProtection.Seen}
    {payload : DecryptedPayload N} {aesKey : B}
    (h : controller.accept platform dto now seen = (.ok (payload, aesKey), seen')) :
    controller.encryptionService.decrypt platform.crypto platform.text dto =
      .ok (payload, aesKey) := by
  unfold accept at h
  split at h
  · cases congrArg Prod.fst h
  · next payload' aesKey' hdecrypt =>
      rw [Prod.mk.injEq] at h
      obtain ⟨_, -, heq⟩ := map_eq_ok.mp h.1
      rw [hdecrypt, heq]

/-- A request is refused with a 400. -/
theorem throwsOnly_accept (controller : ProxyController K) (platform : Platform N B K)
    (dto : GatewayRequest) (now : Int) (seen : ReplayProtection.Seen) :
    ThrowsOnly IsBadRequest (controller.accept platform dto now seen).1 := by
  unfold accept
  cases hdecrypt : controller.encryptionService.decrypt platform.crypto platform.text dto with
  | error e =>
      exact throwsOnly_error (EncryptionService.throwsOnly_decrypt _ _ _ dto e hdecrypt)
  | ok accepted =>
      obtain ⟨payload, aesKey⟩ := accepted
      exact (controller.replayProtection.throwsOnly_assertFresh platform.timestamps payload now
        seen).map _

end ProxyController

section Results

variable {N : Type} [JsNumber N]

theorem HeaderText.isValue_toJson (header : HeaderText) : (header.toJson : Json N).IsValue := by
  cases header with
  | single text => exact Json.isValue_str text
  | repeated texts =>
      apply Json.isValue_arr.mpr
      rw [List.forall_mem_map]
      exact fun text _ => Json.isValue_str text

theorem HeaderText.serialised_toJson (header : HeaderText) :
    (header.toJson : Json N).serialised = header.toJson := by
  cases header with
  | single text => rfl
  | repeated texts =>
      rw [HeaderText.toJson, Json.serialised, Json.serialisedItems_eq_map, List.map_map]
      rfl

omit [JsNumber N] in
theorem mem_headerFields {headers : InsertionMap String HeaderText} {f : String × Json N}
    (h : f ∈ headerFields headers) : ∃ header : HeaderText, f.2 = header.toJson := by
  obtain ⟨e, -, rfl⟩ := List.mem_map.mp (Json.mem_of_mem_assignFields h)
  exact ⟨e.2, rfl⟩

theorem isValue_headerFields (headers : InsertionMap String HeaderText) :
    (Json.obj (headerFields headers) : Json N).IsValue := by
  apply Json.isValue_assignFields
  rw [List.forall_mem_map]
  exact fun e _ => e.2.isValue_toJson

theorem serialised_headerFields (headers : InsertionMap String HeaderText) :
    (Json.obj (headerFields headers) : Json N).serialised = .obj (headerFields headers) := by
  rw [Json.serialised, Json.serialisedFields_eq_self]
  intro f hf
  obtain ⟨header, heq⟩ := mem_headerFields hf
  rw [heq, header.serialised_toJson]

/-- The result is a value as soon as the upstream data is one. -/
theorem isValue_result {upstream : UpstreamResponse N} (h : upstream.data.IsValue) :
    (Json.obj (resultFields upstream)).IsValue := by
  have hnames : ["StatusCode", "Headers", "Data"].Pairwise
      (fun a b => Json.listedBefore a b = true) := by decide
  refine Json.isValue_obj.mpr ⟨hnames, ?_⟩
  simp only [resultFields, List.forall_mem_cons, List.not_mem_nil, false_imp_iff, implies_true,
    and_true]
  exact ⟨Json.isValue_num _, isValue_headerFields _, h⟩

end Results

end EncryptionGateway.Proxy
