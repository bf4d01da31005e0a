import EncryptionGateway.Encryption.EncryptionService
import EncryptionGateway.JavaScript.Base64
import EncryptionGateway.JavaScript.JsonPrinter

/-!
# Decrypting during a key rotation

The server holds several key pairs while clients move from one to the next. A
request sealed for any of them is opened as if it were the only one.

## Implementation notes

`AesUtil.seal` appends the GCM tag to the ciphertext and `AesUtil.open` cuts it
off again, so both are written here on bytes, over the primitives of the
platform. A key id is computed from the key pair it names.
-/

namespace EncryptionGateway.Encryption

open JavaScript Foundation Common

/-- `Buffer` and the `crypto` module of the platform, on RSA key pairs `K`. -/
structure NodeCrypto (K : Type) where
  utf8Encode : String → Bytes
  /-- `buffer.toString('utf-8')`, total on any bytes. -/
  utf8Decode : Bytes → String
  atob : String → Option Bytes
  /-- DER of the public half of a key pair. -/
  spki : K → Bytes
  /-- Digest in hexadecimal. -/
  sha256 : Bytes → String
  /-- Key pair, random seed, message. -/
  encryptOaep : K → Bytes → Bytes → Bytes
  decryptOaep : K → Bytes → Option Bytes
  /-- Key, initialisation vector, plain bytes; gives ciphertext and tag. -/
  encryptGcm : Bytes → Bytes → Bytes → Bytes × Bytes
  /-- Key, initialisation vector, ciphertext, tag. -/
  decryptGcm : Bytes → Bytes → Bytes → Bytes → Option Bytes

namespace NodeCrypto

variable {K : Type}

/-- Decoding undoes encoding, and a box made for one key pair stays closed to
every other. -/
structure Lawful (node : NodeCrypto K) : Prop where
  utf8Decode_utf8Encode : ∀ s, node.utf8Decode (node.utf8Encode s) = s
  decryptOaep_encryptOaep : ∀ k seed m, m.length = AES_KEY_BYTES →
    node.decryptOaep k (node.encryptOaep k seed m) = some m
  decryptOaep_ne : ∀ k k' seed m, k' ≠ k →
    node.decryptOaep k' (node.encryptOaep k seed m) = none
  decryptGcm_encryptGcm : ∀ key iv plain, key.length = AES_KEY_BYTES → iv.length = GCM_IV_BYTES →
    node.decryptGcm key iv (node.encryptGcm key iv plain).1 (node.encryptGcm key iv plain).2 =
      some plain
  length_tag : ∀ key iv plain, key.length = AES_KEY_BYTES → iv.length = GCM_IV_BYTES →
    (node.encryptGcm key iv plain).2.length = GCM_TAG_BYTES

end NodeCrypto

/-- The position `subarray` takes an index for: a negative one counts from the end. -/
def subarrayIndex (length : ℕ) (i : ℤ) : ℕ := if i < 0 then (length + i).toNat else i.toNat

/-- `bytes.subarray(start, end)`. -/
def subarray (bytes : Bytes) (start stop : ℤ) : Bytes :=
  (bytes.take (subarrayIndex bytes.length stop)).drop (subarrayIndex bytes.length start)

/-- Cutting the last bytes off again. -/
theorem subarray_append (a b : Bytes) :
    subarray (a ++ b) 0 ((a ++ b).length - b.length) = a ∧
      subarray (a ++ b) ((a ++ b).length - b.length) (a ++ b).length = b := by
  have hcut : subarrayIndex (a ++ b).length ((a ++ b).length - b.length) = a.length := by
    rw [subarrayIndex, List.length_append]
    split <;> omega
  have hend : subarrayIndex (a ++ b).length (a ++ b).length = (a ++ b).length := by
    rw [subarrayIndex]
    split <;> omega
  have hstart : subarrayIndex (a ++ b).length 0 = 0 := rfl
  constructor
  · rw [subarray, hcut, hstart, List.take_left, List.drop_zero]
  · rw [subarray, hcut, hend, List.take_length, List.drop_left]

section AesUtil

variable {K : Type}

/-- The ciphertext with the tag appended. -/
def AesUtil.seal (node : NodeCrypto K) (plainText : String) (key iv : Bytes) : Bytes :=
  let cipher := node.encryptGcm key iv (node.utf8Encode plainText)
  cipher.1 ++ cipher.2

/-- Inverse of `seal`; `none` when the data or the tag was tampered with. -/
def AesUtil.open (node : NodeCrypto K) (sealed key iv : Bytes) : Option String :=
  let tag := subarray sealed (sealed.length - 16) sealed.length
  let cipherText := subarray sealed 0 (sealed.length - 16)
  (node.decryptGcm key iv cipherText tag).map node.utf8Decode

variable {node : NodeCrypto K} {key iv : Bytes}

theorem AesUtil.open_seal (hnode : node.Lawful) (hkey : key.length = AES_KEY_BYTES)
    (hiv : iv.length = GCM_IV_BYTES) (t : String) :
    AesUtil.open node (AesUtil.seal node t key iv) key iv = some t := by
  have htag := hnode.length_tag key iv (node.utf8Encode t) hkey hiv
  obtain ⟨hcipher, hend⟩ := subarray_append (node.encryptGcm key iv (node.utf8Encode t)).1
    (node.encryptGcm key iv (node.utf8Encode t)).2
  rw [htag] at hcipher hend
  have hopen := hnode.decryptGcm_encryptGcm key iv (node.utf8Encode t) hkey hiv
  calc AesUtil.open node (AesUtil.seal node t key iv) key iv
      = (node.decryptGcm key iv (node.encryptGcm key iv (node.utf8Encode t)).1
          (node.encryptGcm key iv (node.utf8Encode t)).2).map node.utf8Decode :=
        congrArg₂ (fun c d => (node.decryptGcm key iv c d).map node.utf8Decode) hcipher hend
    _ = some t := by rw [hopen, Option.map_some, hnode.utf8Decode_utf8Encode]

theorem AesUtil.length_seal (hnode : node.Lawful) (hkey : key.length = AES_KEY_BYTES)
    (hiv : iv.length = GCM_IV_BYTES) (t : String) :
    GCM_TAG_BYTES ≤ (AesUtil.seal node t key iv).length := by
  have htag := hnode.length_tag key iv (node.utf8Encode t) hkey hiv
  rw [AesUtil.seal, List.length_append, htag]
  exact Nat.le_add_left _ _

end AesUtil

namespace NodeCrypto

variable {K : Type}

/-- The operations of the service on bytes. -/
def crypto (node : NodeCrypto K) : Crypto Bytes K where
  length := List.length
  toBase64 := Base64.encode
  fromBase64 := Base64.decode
  atob := node.atob
  encryptOaep := node.encryptOaep
  decryptOaep := node.decryptOaep
  sealGcm key iv text := AesUtil.seal node text key iv
  openGcm key iv sealed := AesUtil.open node sealed key iv

theorem fromBase64_encode (node : NodeCrypto K) (bytes : Bytes) :
    node.crypto.fromBase64 (Base64.encode bytes) = bytes :=
  Base64.decode_encode bytes

/-- Key id = first 16 hex chars of SHA-256(SPKI DER). -/
def keyIdOf (node : NodeCrypto K) (spkiDer : Bytes) : String :=
  String.ofList ((node.sha256 spkiDer).toList.take 16)

def describeKey (node : NodeCrypto K) (key : K) : ServerKey K where
  keyId := node.keyIdOf (node.spki key)
  privateKey := key

/-- The service as `onModuleInit` leaves it, once the keys are loaded. -/
def onModuleInit (node : NodeCrypto K) (keys : List K) : EncryptionService K where
  keys := keys.map node.describeKey

/-- What a client sends: its AES key for the server key `k`, and the text
sealed under it. -/
def envelope (node : NodeCrypto K) (keyId : Option String) (k : K) (seed aesKey iv : Bytes)
    (t : String) : GatewayRequest where
  KeyId := keyId
  EncryptedKey := Base64.encode (node.encryptOaep k seed aesKey)
  IV := Base64.encode iv
  Payload := Base64.encode (AesUtil.seal node t aesKey iv)

end NodeCrypto

namespace NodeCrypto

section Rotation

variable {N K : Type} [JsNumber N] {node : NodeCrypto K} {keys : List K} {k : K}
  {seed aesKey iv : Bytes}

/-- The key pairs a request is tried on. -/
def selected (node : NodeCrypto K) (keys : List K) (keyId : Option String) : List K :=
  match keyId with
  | none => keys
  | some "" => keys
  | some id => keys.filter fun k => decide (node.keyIdOf (node.spki k) = id)

theorem selected_id {id : String} (hid : id ≠ "") :
    node.selected keys (some id) =
      keys.filter fun k => decide (node.keyIdOf (node.spki k) = id) := by
  unfold selected
  split
  · next h => cases h
  · next h => exact absurd (Option.some.inj h) hid
  · next h =>
      cases h
      rfl

theorem mem_selected_id {id : String} (hid : id ≠ "") :
    k ∈ node.selected keys (some id) ↔ k ∈ keys ∧ node.keyIdOf (node.spki k) = id := by
  rw [selected_id hid, List.mem_filter, decide_eq_true_eq]

theorem candidates_onModuleInit (node : NodeCrypto K) (keys : List K) (keyId : Option String) :
    (node.onModuleInit keys).candidates keyId = (node.selected keys keyId).map
    node.describeKey := by
  unfold EncryptionService.candidates
  split
  · rfl
  · rfl
  · next id hid =>
      rw [selected_id hid, onModuleInit, List.filter_map]
      rfl

/-- Naming `k`, or naming no key, keeps `k` among the keys that are tried. -/
theorem mem_selected_own (hk : k ∈ keys) {keyId : Option String}
    (hown : keyId ∈ [none, some "", some (node.keyIdOf (node.spki k))]) :
    k ∈ node.selected keys keyId := by
  have hempty : k ∈ node.selected keys (some "") := hk
  rw [List.mem_cons, List.mem_cons, List.mem_singleton] at hown
  rcases hown with rfl | rfl | rfl
  · exact hk
  · exact hempty
  · by_cases hid : node.keyIdOf (node.spki k) = ""
    · rw [hid]
      exact hempty
    · exact (mem_selected_id hid).mpr ⟨hk, rfl⟩

/-- The loop over the keys passes over every key but `k`. -/
theorem unwrapKey_eq_some (hnode : node.Lawful) (hkey : aesKey.length = AES_KEY_BYTES)
    (hk : k ∈ keys) :
    EncryptionService.unwrapKey node.crypto (keys.map node.describeKey)
      (Base64.encode (node.encryptOaep k seed aesKey)) = some aesKey := by
  rw [EncryptionService.unwrapKey, fromBase64_encode]
  induction keys with
  | nil => cases hk
  | cons first rest ih =>
      rw [List.map_cons, List.findSome?_cons]
      by_cases hfirst : first = k
      · have hopen : node.crypto.decryptOaep (node.describeKey first).privateKey
            (node.encryptOaep k seed aesKey) = some aesKey := by
          rw [hfirst]
          exact hnode.decryptOaep_encryptOaep k seed aesKey hkey
        rw [hopen]
      · have hclosed : node.crypto.decryptOaep (node.describeKey first).privateKey
            (node.encryptOaep k seed aesKey) = none :=
          hnode.decryptOaep_ne k first seed aesKey hfirst
        rw [hclosed]
        exact ih ((List.mem_cons.mp hk).resolve_left fun h => hfirst h.symm)

theorem unwrapKey_eq_none (hnode : node.Lawful) (hk : k ∉ keys) :
    EncryptionService.unwrapKey node.crypto (keys.map node.describeKey)
      (Base64.encode (node.encryptOaep k seed aesKey)) = none := by
  rw [EncryptionService.unwrapKey, fromBase64_encode, List.findSome?_eq_none_iff]
  intro key hmem
  obtain ⟨k', hk', rfl⟩ := List.mem_map.mp hmem
  have hne : k' ≠ k := fun h => hk (h ▸ hk')
  exact hnode.decryptOaep_ne k k' seed aesKey hne

/-- What the text of a payload gives by itself: its JSON value, narrowed. -/
def opened (text : JsonText N) (t : String) (aesKey : Bytes) :
    Except HttpException (DecryptedPayload N × Bytes) := do
  let value ← ofOption (badRequest "Decrypted payload is not valid JSON") (text.parse t)
  let payload ← parsePayload text value
  .ok (payload, aesKey)

/-- An envelope is opened whenever its key is tried. -/
theorem decrypt_envelope (hnode : node.Lawful) (text : JsonText N) (t : String)
    (hkey : aesKey.length = AES_KEY_BYTES) (hiv : iv.length = GCM_IV_BYTES)
    {keyId : Option String} (hk : k ∈ node.selected keys keyId) :
    (node.onModuleInit keys).decrypt node.crypto text (node.envelope keyId k seed aesKey iv t) =
      opened text t aesKey := by
  have htried : (!((node.selected keys keyId).map node.describeKey).isEmpty) = true := by
    simpa using List.ne_nil_of_mem hk
  have hsized : EncryptionService.sized node.crypto aesKey iv (AesUtil.seal node t aesKey iv) =
      true := by
    have hlen := AesUtil.length_seal hnode hkey hiv t
    rw [EncryptionService.sized, Bool.and_eq_true, Bool.and_eq_true, decide_eq_true_eq,
      decide_eq_true_eq, decide_eq_true_eq]
    exact ⟨⟨hkey, hiv⟩, hlen⟩
  have hopen : node.crypto.openGcm aesKey iv (AesUtil.seal node t aesKey iv) = some t :=
    AesUtil.open_seal hnode hkey hiv t
  simp only [EncryptionService.decrypt, envelope, candidates_onModuleInit, htried,
    unwrapKey_eq_some hnode hkey hk, fromBase64_encode, require, if_true, ofOption,
    bind, Except.bind, hsized, hopen, opened]

/-- An envelope is refused when the keys that are tried are others, or none. -/
theorem decrypt_envelope_of_not_mem (hnode : node.Lawful) (text : JsonText N) (t : String)
    {keyId : Option String} (hk : k ∉ node.selected keys keyId) :
    (node.onModuleInit keys).decrypt node.crypto text (node.envelope keyId k seed aesKey iv t) =
      .error (if (node.selected keys keyId).isEmpty then EncryptionService.unknownKeyId keyId
        else badRequest
          "Unable to decrypt EncryptedKey (wrong public key or not RSA-OAEP-SHA256)") := by
  simp only [EncryptionService.decrypt, envelope, candidates_onModuleInit, List.isEmpty_map,
    unwrapKey_eq_none hnode hk]
  cases (node.selected keys keyId).isEmpty with
  | true => rfl
  | false => rfl

/-- A request sealed for one of the server keys is opened whatever the other
keys are, before or after it, when it names that key or none; it is refused
when it names another. -/
theorem rotation_keeps_requests (hnode : node.Lawful) (text : JsonText N) (hk : k ∈ keys)
    (hkey : aesKey.length = AES_KEY_BYTES) (hiv : iv.length = GCM_IV_BYTES) (seed : Bytes)
    (t : String) :
    (∀ keyId ∈ [none, some "", some (node.keyIdOf (node.spki k))],
      (node.onModuleInit keys).decrypt node.crypto text (node.envelope keyId k seed aesKey iv t) =
        opened text t aesKey ∧
      ∀ front behind, (node.onModuleInit (front ++ keys ++ behind)).decrypt node.crypto text
        (node.envelope keyId k seed aesKey iv t) = opened text t aesKey) ∧
    (∀ id, id ≠ "" → id ≠ node.keyIdOf (node.spki k) →
      (node.onModuleInit keys).decrypt node.crypto text
        (node.envelope (some id) k seed aesKey iv t) =
      .error (if id ∈ keys.map (fun key => node.keyIdOf (node.spki key)) then badRequest
          "Unable to decrypt EncryptedKey (wrong public key or not RSA-OAEP-SHA256)"
        else EncryptionService.unknownKeyId (some id))) ∧
    ∀ dto, ThrowsOnly IsBadRequest ((node.onModuleInit keys).decrypt node.crypto text dto) := by
  refine ⟨?_, ?_, EncryptionService.throwsOnly_decrypt _ _ _⟩
  · intro keyId hown
    constructor
    · exact decrypt_envelope hnode text t hkey hiv (mem_selected_own hk hown)
    · intro front behind
      have hmem : k ∈ front ++ keys ++ behind :=
        List.mem_append_left behind (List.mem_append_right front hk)
      exact decrypt_envelope hnode text t hkey hiv (mem_selected_own hmem hown)
  · intro id hid hother
    have hnot : k ∉ node.selected keys (some id) := fun h =>
      hother ((mem_selected_id hid).mp h).2.symm
    rw [decrypt_envelope_of_not_mem hnode text t hnot]
    have hempty : (node.selected keys (some id)).isEmpty = true ↔
        id ∉ keys.map (fun key => node.keyIdOf (node.spki key)) := by
      simp [selected_id hid]
    by_cases hknown : id ∈ keys.map (fun key => node.keyIdOf (node.spki key))
    · rw [if_pos hknown, if_neg (fun h => hempty.mp h hknown)]
    · rw [if_neg hknown, if_pos (hempty.mpr hknown)]

end Rotation

section Sample

/-- A platform whose boxes name the key they are for. -/
def labelled : NodeCrypto UInt8 where
  utf8Encode s := s.toUTF8.data.toList
  utf8Decode bytes := (String.fromUTF8? ⟨bytes.toArray⟩).getD ""
  atob s := some (Base64.decode s)
  spki k := [k]
  sha256 bytes := String.ofList (List.replicate 64 (if bytes = [0] then '0' else '1'))
  encryptOaep k _ m := k :: m
  decryptOaep k box :=
    match box with
    | label :: m => if label = k then some m else none
    | [] => none
  encryptGcm key _ plain := (plain, key.take 16)
  decryptGcm key _ cipherText tag := if tag = key.take 16 then some cipherText else none

theorem labelled_lawful : labelled.Lawful where
  utf8Decode_utf8Encode s := by
    have hdecode : String.fromUTF8? s.toUTF8 = some s := dif_pos s.isValidUTF8
    change (String.fromUTF8? s.toUTF8).getD "" = s
    rw [hdecode, Option.getD_some]
  decryptOaep_encryptOaep _ _ _ _ := if_pos rfl
  decryptOaep_ne _ _ _ _ h := if_neg fun he => h he.symm
  decryptGcm_encryptGcm _ _ _ _ _ := if_pos rfl
  length_tag key _ _ hkey _ := by
    change (key.take 16).length = GCM_TAG_BYTES
    rw [List.length_take, hkey]
    rfl

def sampleAesKey : Bytes := List.replicate 32 7
def sampleIv : Bytes := List.replicate 12 9
def samplePayload : Json ℤ := .obj [("AccessPoint", .str "https://x")]

theorem wellFormed_samplePayload : samplePayload.WellFormed :=
  ⟨List.pairwise_singleton _ _, trivial, trivial⟩

theorem opened_samplePayload :
    opened (JsonText.standard ℤ) ((JsonText.standard ℤ).stringify samplePayload) sampleAesKey =
      .ok (⟨"https://x", none, none, none, none, none, none⟩, sampleAesKey) := by
  have hparse := (JsonText.standard ℤ).parse_stringify samplePayload wellFormed_samplePayload
  rw [opened, hparse]
  rfl

/-- A client of the older of two keys, with and without its id. -/
theorem rotation_keeps_requests_older :
    (labelled.onModuleInit [0, 1]).decrypt labelled.crypto (JsonText.standard ℤ)
        (labelled.envelope none 1 [] sampleAesKey sampleIv
          ((JsonText.standard ℤ).stringify samplePayload)) =
      .ok (⟨"https://x", none, none, none, none, none, none⟩, sampleAesKey) ∧
    (labelled.onModuleInit [0, 1]).decrypt labelled.crypto (JsonText.standard ℤ)
        (labelled.envelope (some "1111111111111111") 1 [] sampleAesKey sampleIv
          ((JsonText.standard ℤ).stringify samplePayload)) =
      .ok (⟨"https://x", none, none, none, none, none, none⟩, sampleAesKey) ∧
    (labelled.onModuleInit [0, 1]).decrypt labelled.crypto (JsonText.standard ℤ)
        (labelled.envelope (some "2222222222222222") 1 [] sampleAesKey sampleIv
          ((JsonText.standard ℤ).stringify samplePayload)) =
      .error (EncryptionService.unknownKeyId (some "2222222222222222")) := by
  have hmem : (1 : UInt8) ∈ [0, 1] := by decide
  have hkey : sampleAesKey.length = AES_KEY_BYTES := rfl
  have hiv : sampleIv.length = GCM_IV_BYTES := rfl
  obtain ⟨hown, hother, -⟩ := rotation_keeps_requests labelled_lawful (JsonText.standard ℤ) hmem
    hkey hiv [] ((JsonText.standard ℤ).stringify samplePayload)
  rw [← opened_samplePayload]
  have hid : labelled.keyIdOf (labelled.spki 1) = "1111111111111111" := by decide
  refine ⟨(hown none (by simp)).1, (hown (some "1111111111111111") (by simp [hid])).1, ?_⟩
  exact (hother "2222222222222222" (by decide) (by rw [hid]; decide)).trans
    (congrArg Except.error (if_neg (by decide)))

end Sample

end NodeCrypto

end EncryptionGateway.Encryption
