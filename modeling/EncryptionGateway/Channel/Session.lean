import EncryptionGateway.Client.GatewayClient
import EncryptionGateway.Foundation.Run
import EncryptionGateway.Foundation.Symbolic
import EncryptionGateway.JavaScript.Base64
import EncryptionGateway.Proxy.ProxyController

/-!
# Clients and gateway on an open network

Any number of clients and one gateway exchange messages that the attacker
carries. Every step of the system is one of the two halves of `send` or of
`handleGateway`, in any order; what a step receives is anything the attacker
can derive from the messages sent so far.

## Implementation notes

The buffers are symbolic terms: the AES key of the `i`-th call is the secret
`i`, server keys are the recipients of public-key boxes, and random bytes are
public data. Base64 is a parameter, since terms have no bytes.
-/

namespace EncryptionGateway.Channel

open JavaScript Foundation Common Encryption Proxy Client

/-- The buffers of the system. -/
abbrev Buffer (K : Type) := Term K Bytes String

/-- Base64 with its lenient decoder and the strict `atob`. -/
structure Base64Codec (B : Type) where
  encode : B → String
  decode : String → B
  atob : String → Option B
  decode_encode : ∀ b, decode (encode b) = b
  atob_encode : ∀ b, atob (encode b) = some b
  decode_of_atob : ∀ {s b}, atob s = some b → decode s = b

section Numerals

instance encodableChar : Encodable Char :=
  Encodable.ofLeftInjection Char.toNat (fun n => some (Char.ofNat n)) fun c => by simp

instance encodableString : Encodable String :=
  Encodable.ofLeftInjection String.toList (fun l => some (String.ofList l)) fun s => by simp

instance encodableByte : Encodable UInt8 :=
  Encodable.ofLeftInjection UInt8.toNat (fun n => some (UInt8.ofNat n)) fun b => by simp

deriving instance Encodable for Term

/-- The number a text spells, as a buffer. -/
def ofNumeral {K : Type} [Encodable K] (s : String) : Option (Buffer K) :=
  Encodable.decode (Nat.ofDigitChars 10 s.toList 0)

theorem ofNumeral_toDigits {K : Type} [Encodable K] (b : Buffer K) :
    ofNumeral (String.ofList (Nat.toDigits 10 (Encodable.encode b))) = some b := by
  rw [ofNumeral, String.toList_ofList, Nat.ofDigitChars_ten_toDigits, Encodable.encodek]

/-- A text form of the buffers: decimal numerals. -/
def Base64Codec.numerals (K : Type) [Encodable K] : Base64Codec (Buffer K) where
  encode b := String.ofList (Nat.toDigits 10 (Encodable.encode b))
  decode s := (ofNumeral s).getD (.data [])
  atob := ofNumeral
  decode_encode b := by rw [ofNumeral_toDigits, Option.getD_some]
  atob_encode b := ofNumeral_toDigits b
  decode_of_atob h := by rw [h, Option.getD_some]

end Numerals

section Primitives

variable {K : Type} [DecidableEq K]

/-- The sizes in bytes; public-key boxes are those of 2048-bit keys. -/
def byteLength : Buffer K → ℕ
  | .data bytes => bytes.length
  | .secret _ => AES_KEY_BYTES
  | .wrapped _ _ _ => 256
  | .sealed _ _ text => text.utf8ByteSize + GCM_TAG_BYTES

def decryptOaep (privateKey : K) : Buffer K → Option (Buffer K)
  | .wrapped recipient _ message => if recipient = privateKey then some message else none
  | _ => none

def openGcm (key iv : Buffer K) : Buffer K → Option String
  | .sealed key' iv' text => if key' = key ∧ iv' = iv then some text else none
  | _ => none

/-- Boxes open with the right key only. -/
def symbolicCrypto (codec : Base64Codec (Buffer K)) : Crypto (Buffer K) K where
  length := byteLength
  toBase64 := codec.encode
  fromBase64 := codec.decode
  atob := codec.atob
  encryptOaep := .wrapped
  decryptOaep := decryptOaep
  sealGcm := .sealed
  openGcm := openGcm

theorem decryptOaep_eq_some {privateKey : K} {box message : Buffer K} :
    decryptOaep privateKey box = some message ↔ ∃ seed, box = .wrapped privateKey seed message := by
  cases box with
  | wrapped recipient seed m =>
      simp only [decryptOaep, Option.ite_none_right_eq_some, Option.some.injEq, Term.wrapped.injEq]
      exact ⟨fun ⟨hr, hm⟩ => ⟨seed, hr, rfl, hm⟩, fun ⟨_, hr, _, hm⟩ => ⟨hr, hm⟩⟩
  | _ => simp [decryptOaep]

theorem openGcm_eq_some {key iv box : Buffer K} {text : String} :
    openGcm key iv box = some text ↔ box = .sealed key iv text := by
  cases box with
  | sealed key' iv' text' =>
      simp only [openGcm, Option.ite_none_right_eq_some, Option.some.injEq, Term.sealed.injEq]
      exact ⟨fun ⟨⟨hk, hiv⟩, ht⟩ => ⟨hk, hiv, ht⟩, fun ⟨hk, hiv, ht⟩ => ⟨⟨hk, hiv⟩, ht⟩⟩
  | _ => simp [openGcm]

theorem lawful_symbolicCrypto (codec : Base64Codec (Buffer K)) : (symbolicCrypto codec).Lawful where
  fromBase64_toBase64 := codec.decode_encode
  atob_toBase64 := codec.atob_encode
  decryptOaep_encryptOaep _ seed _ _ := decryptOaep_eq_some.mpr ⟨seed, rfl⟩
  openGcm_sealGcm _ _ _ _ _ := openGcm_eq_some.mpr rfl
  length_sealGcm _ _ _ _ _ := Nat.le_add_left _ _

end Primitives

variable {N K : Type} [JsNumber N] [DecidableEq K]

/-- The gateway and the platform. The attacker holds the private keys that are
`compromised`. -/
structure Network (N K : Type) [JsNumber N] where
  controller : ProxyController K
  codec : Base64Codec (Buffer K)
  text : JsonText N
  parseUrl : UrlParser
  timestamps : Timestamps N
  compromised : K → Prop

def Network.platform (net : Network N K) : Platform N (Buffer K) K where
  crypto := symbolicCrypto net.codec
  text := net.text
  parseUrl := net.parseUrl
  timestamps := net.timestamps

/-- A call of `send` that requires an encrypted response, with the random values
it draws. -/
structure Call (N K : Type) [JsNumber N] where
  client : GatewayClient K
  required : client.requireEncryptedResponse = true
  options : SendOptions N
  iv : Bytes
  seed : Bytes

/-- The message of the `i`-th call. -/
def Call.request (net : Network N K) (call : Call N K) (i : ℕ) : GatewayRequest :=
  call.client.request net.platform.crypto net.text (.secret i) (.data call.iv) (.data call.seed)
    call.options

/-- A request the gateway has accepted and not yet answered. -/
structure Handling (N K : Type) where
  payload : DecryptedPayload N
  aesKey : Buffer K

/-- The other side of the gateway. -/
structure Upstream (N : Type) [JsNumber N] where
  answer : UpstreamRequest N → Except String (UpstreamReply N)
  isValue : ∀ {request reply}, answer request = .ok reply → reply.data.IsValue

structure State (N K : Type) [JsNumber N] where
  calls : List (Call N K)
  pending : List (Handling N K)
  seen : ReplayProtection.Seen
  wire : List (Buffer K)

def State.initial : State N K := ⟨[], [], .empty, []⟩

inductive Event (N K : Type) [JsNumber N]
  | sent (call : Call N K)
  | accepted (handling : Handling N K)
  | refused (e : HttpException)
  | completed (handling : Handling N K) (exchange : Exchange N)
      (reply : Except HttpException (GatewayReply N))
  | returned (i : ℕ) (outcome : Except (SendError N) (SendResult N))

/-- The buffers of a request. -/
def requestBuffers (net : Network N K) (dto : GatewayRequest) : List (Buffer K) :=
  [net.codec.decode dto.EncryptedKey, net.codec.decode dto.IV, net.codec.decode dto.Payload]

/-- The buffers of what the gateway answers. -/
def replyBuffers (net : Network N K) (reply : Except HttpException (GatewayReply N)) :
    List (Buffer K) :=
  match reply with
  | .ok (.encrypted response) => [net.codec.decode response.IV, net.codec.decode response.Payload]
  | _ => []

/-- The attacker can send the request. -/
def Sendable (net : Network N K) (s : State N K) (dto : GatewayRequest) : Prop :=
  ∀ b ∈ requestBuffers net dto, Derivable net.compromised s.wire b

/-- The attacker can answer with the body. -/
def Answerable (net : Network N K) (s : State N K) (body : String) : Prop :=
  ∀ json, net.text.parse body = some json → ∀ k ∈ ["IV", "Payload"], ∀ field,
    json.get k = some (.str field) → Derivable net.compromised s.wire (net.codec.decode field)

inductive Step (net : Network N K) : State N K → Event N K → State N K → Prop
  /-- The first half of `send`, to a gateway whose private key is safe. -/
  | send {s : State N K} (call : Call N K) (hkey : ¬ net.compromised call.client.serverKey) :
      Step net s (.sent call)
        { s with
          calls := s.calls ++ [call]
          wire := requestBuffers net (call.request net s.calls.length) ++ s.wire }
  /-- The second half of `send`. -/
  | receive {s : State N K} {i : ℕ} {call : Call N K} (hcall : s.calls[i]? = some call)
      (res : HttpResponse) (hres : Answerable net s res.body)
      {outcome : Except (SendError N) (SendResult N)}
      (h : call.client.response net.platform.crypto net.text (.secret i) res = outcome) :
      Step net s (.returned i outcome) s
  /-- The part of `handleGateway` before it waits. -/
  | accept {s : State N K} (dto : GatewayRequest) (hdto : Sendable net s dto) (now : Int)
      {handling : Handling N K} {seen : ReplayProtection.Seen}
      (h : net.controller.accept net.platform dto now s.seen =
        (.ok (handling.payload, handling.aesKey), seen)) :
      Step net s (.accepted handling) { s with pending := s.pending ++ [handling], seen := seen }
  | refuse {s : State N K} (dto : GatewayRequest) (hdto : Sendable net s dto) (now : Int)
      {e : HttpException} {seen : ReplayProtection.Seen}
      (h : net.controller.accept net.platform dto now s.seen = (.error e, seen)) :
      Step net s (.refused e) { s with seen := seen }
  /-- The part of `handleGateway` after the upstream has answered. -/
  | complete {s : State N K} {before after : List (Handling N K)} {handling : Handling N K}
      (hpending : s.pending = before ++ handling :: after) (upstream : Upstream N) (iv : Bytes)
      {exchange : Exchange N}
      (hexchange : net.controller.proxyService.forward net.text net.parseUrl upstream.answer
        handling.payload = exchange)
      {reply : Except HttpException (GatewayReply N)}
      (hreply : exchange.result.map
        (net.controller.complete net.platform (.data iv) handling.aesKey) = reply) :
      Step net s (.completed handling exchange reply)
        { s with pending := before ++ after, wire := replyBuffers net reply ++ s.wire }

omit [DecidableEq K] in
/-- What has been on the wire can be sent again. -/
theorem sendable_of_subset {net : Network N K} {s : State N K} {dto : GatewayRequest}
    (h : requestBuffers net dto ⊆ s.wire) : Sendable net s dto :=
  fun _ hb => .replay (h hb)

omit [DecidableEq K] in
theorem answerable_of_subset {net : Network N K} {s : State N K} {response : GatewayResponse}
    (h : replyBuffers net (.ok (.encrypted response)) ⊆ s.wire) :
    Answerable net s (net.text.write response.toJson) := by
  intro json hjson k hk field hfield
  rw [net.text.parse_write response.wellFormed_toJson.isValue,
    Json.serialised_of_wellFormed _ response.wellFormed_toJson, Option.some.injEq] at hjson
  rw [← hjson] at hfield
  simp only [List.mem_cons, List.not_mem_nil, or_false] at hk
  apply Derivable.replay
  apply h
  rcases hk with rfl | rfl
  · cases hfield
    exact List.mem_cons_self
  · cases hfield
    exact List.mem_cons_of_mem _ List.mem_cons_self

end EncryptionGateway.Channel
