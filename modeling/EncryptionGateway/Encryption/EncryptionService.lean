import EncryptionGateway.Common.Payload
import EncryptionGateway.JavaScript.Values

/-!
# Envelope encryption

`EncryptionService.decrypt` unwraps an AES key with one of the server keys,
opens the payload under it and parses the JSON; `encryptResponse` seals a
response under the same key.

## Implementation notes

Base64, RSA-OAEP and AES-GCM are those of the platform and enter as
operations on a type of buffers; what is assumed of them is stated where it is
used. The text in a sealed box stands for its UTF-8 encoding.
-/

namespace EncryptionGateway.Encryption

open JavaScript Foundation Common

/-- The platform on buffers `B` and RSA key pairs `K`. Opening fails with
`none`, as does the strict decoder `atob`. -/
structure Crypto (B K : Type) where
  length : B → ℕ
  toBase64 : B → String
  fromBase64 : String → B
  atob : String → Option B
  /-- Key pair, random seed, message. -/
  encryptOaep : K → B → B → B
  decryptOaep : K → B → Option B
  /-- Key, initialisation vector, text; the tag is appended. -/
  sealGcm : B → B → String → B
  openGcm : B → B → B → Option String

def AES_KEY_BYTES : ℕ := 32
def GCM_IV_BYTES : ℕ := 12
def GCM_TAG_BYTES : ℕ := 16

/-- The decoders undo the encoder, and a box opens with the key it was made with,
for keys and initialisation vectors of the lengths in use. -/
structure Crypto.Lawful {B K : Type} (crypto : Crypto B K) : Prop where
  fromBase64_toBase64 : ∀ b, crypto.fromBase64 (crypto.toBase64 b) = b
  atob_toBase64 : ∀ b, crypto.atob (crypto.toBase64 b) = some b
  decryptOaep_encryptOaep : ∀ k seed m, crypto.length m = AES_KEY_BYTES →
    crypto.decryptOaep k (crypto.encryptOaep k seed m) = some m
  openGcm_sealGcm : ∀ key iv text, crypto.length key = AES_KEY_BYTES →
    crypto.length iv = GCM_IV_BYTES →
    crypto.openGcm key iv (crypto.sealGcm key iv text) = some text
  length_sealGcm : ∀ key iv text, crypto.length key = AES_KEY_BYTES →
    crypto.length iv = GCM_IV_BYTES → GCM_TAG_BYTES ≤ crypto.length (crypto.sealGcm key iv text)

/-- A box made for one key pair stays closed to every other. -/
def Crypto.Boxed {B K : Type} (crypto : Crypto B K) : Prop :=
  ∀ k k' seed m, k' ≠ k → crypto.decryptOaep k' (crypto.encryptOaep k seed m) = none

structure GatewayRequest where
  KeyId : Option String
  EncryptedKey : String
  IV : String
  Payload : String
deriving DecidableEq, Repr

/-- A response encrypted with the client's own AES key. -/
structure GatewayResponse where
  IV : String
  Payload : String
deriving DecidableEq, Repr

/-- The body of the HTTP response. -/
def GatewayResponse.toJson {N : Type} (response : GatewayResponse) : Json N :=
  .obj [("Encrypted", .bool true), ("IV", .str response.IV), ("Payload", .str response.Payload)]

theorem GatewayResponse.wellFormed_toJson {N : Type} [JsNumber N] (response : GatewayResponse) :
    (response.toJson : Json N).WellFormed := by
  have hnames : ["Encrypted", "IV", "Payload"].Pairwise
      (fun a b => Json.listedBefore a b = true) := by decide
  exact ⟨hnames, trivial, trivial, trivial, trivial⟩

structure ServerKey (K : Type) where
  keyId : String
  privateKey : K

/-- Primary key first. -/
structure EncryptionService (K : Type) where
  keys : List (ServerKey K)

namespace EncryptionService

variable {N B K : Type} [JsNumber N]

/-- The keys to try: all of them unless the request names one. -/
def candidates (service : EncryptionService K) (keyId : Option String) : List (ServerKey K) :=
  match keyId with
  | none => service.keys
  | some "" => service.keys
  | some keyId => service.keys.filter fun k => decide (k.keyId = keyId)

/-- The AES key in the box, under the first key that opens it. -/
def unwrapKey (crypto : Crypto B K) (candidates : List (ServerKey K)) (encryptedKey : String) :
    Option B :=
  candidates.findSome? fun key => crypto.decryptOaep key.privateKey (crypto.fromBase64 encryptedKey)

def unknownKeyId (keyId : Option String) : HttpException :=
  ⟨400, some "UNKNOWN_KEY_ID",
    "KeyId \"" ++ keyId.getD "undefined" ++ "\" is not accepted by this gateway"⟩

/-- The lengths of key, initialisation vector and sealed payload. -/
def sized (crypto : Crypto B K) (aesKey iv sealed : B) : Bool :=
  crypto.length aesKey = AES_KEY_BYTES && crypto.length iv = GCM_IV_BYTES &&
    GCM_TAG_BYTES ≤ crypto.length sealed

/-- The payload of a request and the AES key it came with. -/
def decrypt (service : EncryptionService K) (crypto : Crypto B K) (text : JsonText N)
    (dto : GatewayRequest) : Except HttpException (DecryptedPayload N × B) := do
  let candidates := service.candidates dto.KeyId
  require (!candidates.isEmpty) (unknownKeyId dto.KeyId)
  let aesKey ← ofOption
    (badRequest "Unable to decrypt EncryptedKey (wrong public key or not RSA-OAEP-SHA256)")
    (unwrapKey crypto candidates dto.EncryptedKey)
  let iv := crypto.fromBase64 dto.IV
  let sealed := crypto.fromBase64 dto.Payload
  require (sized crypto aesKey iv sealed)
    (badRequest "Expected a 32-byte AES key, 12-byte IV and a GCM-sealed Payload")
  let json ← ofOption (badRequest "Unable to decrypt Payload (AES-GCM authentication failed)")
    (crypto.openGcm aesKey iv sealed)
  let value ← ofOption (badRequest "Decrypted payload is not valid JSON") (text.parse json)
  let payload ← parsePayload text value
  .ok (payload, aesKey)

/-- The response sealed under `aesKey` with a random `iv`. -/
def encryptResponse (crypto : Crypto B K) (text : JsonText N) (iv : B) (payload : Json N)
    (aesKey : B) : GatewayResponse where
  IV := crypto.toBase64 iv
  Payload := crypto.toBase64 (crypto.sealGcm aesKey iv (text.write payload))

theorem unwrapKey_eq_some {crypto : Crypto B K} {candidates : List (ServerKey K)}
    {encryptedKey : String} {aesKey : B}
    (h : unwrapKey crypto candidates encryptedKey = some aesKey) :
    ∃ key ∈ candidates,
      crypto.decryptOaep key.privateKey (crypto.fromBase64 encryptedKey) = some aesKey :=
  List.exists_of_findSome?_eq_some h

/-- What an accepted request consists of. -/
theorem decrypt_eq_ok {service : EncryptionService K} {crypto : Crypto B K} {text : JsonText N}
    {dto : GatewayRequest} {payload : DecryptedPayload N} {aesKey : B} :
    service.decrypt crypto text dto = .ok (payload, aesKey) ↔
      unwrapKey crypto (service.candidates dto.KeyId) dto.EncryptedKey = some aesKey ∧
      sized crypto aesKey (crypto.fromBase64 dto.IV) (crypto.fromBase64 dto.Payload) = true ∧
      ∃ json value,
        crypto.openGcm aesKey (crypto.fromBase64 dto.IV) (crypto.fromBase64 dto.Payload) =
          some json ∧
        text.parse json = some value ∧ parsePayload text value = .ok payload := by
  simp only [decrypt, bind_eq_ok, require_eq_ok, ofOption_eq_ok, Except.ok.injEq, Prod.mk.injEq]
  constructor
  · rintro ⟨_, -, _, hkey, _, hsized, json, hopen, value, hparse, _, hpayload, rfl, rfl⟩
    exact ⟨hkey, hsized, json, value, hopen, hparse, hpayload⟩
  · rintro ⟨hkey, hsized, json, value, hopen, hparse, hpayload⟩
    obtain ⟨key, hmem, -⟩ := unwrapKey_eq_some hkey
    have hne : (!(service.candidates dto.KeyId).isEmpty) = true := by
      simpa using List.ne_nil_of_mem hmem
    exact ⟨(), hne, aesKey, hkey, (), hsized, json, hopen, value, hparse, payload,
      hpayload, rfl, rfl⟩

/-- Whatever the four fields of a request say, a refusal is a 400. -/
theorem throwsOnly_decrypt (service : EncryptionService K) (crypto : Crypto B K)
    (text : JsonText N) (dto : GatewayRequest) :
    ThrowsOnly IsBadRequest (service.decrypt crypto text dto) := by
  have hunknown : IsBadRequest (unknownKeyId dto.KeyId) := rfl
  unfold decrypt
  apply (throwsOnly_require hunknown).bind
  intro _
  apply (throwsOnly_ofOption (isBadRequest _)).bind
  intro aesKey
  apply (throwsOnly_check _ _).bind
  intro _
  apply (throwsOnly_ofOption (isBadRequest _)).bind
  intro json
  apply (throwsOnly_ofOption (isBadRequest _)).bind
  intro value
  apply (throwsOnly_parsePayload text value).bind
  intro payload
  exact throwsOnly_ok

end EncryptionService

end EncryptionGateway.Encryption
