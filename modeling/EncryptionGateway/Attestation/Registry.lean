import EncryptionGateway.Attestation.KvStore
import EncryptionGateway.JavaScript.Json
import EncryptionGateway.JavaScript.Text
import EncryptionGateway.JavaScript.Base64

/-!
# Challenges and enrolments over the key/value port

`ChallengeStore` and `DeviceRegistry` keep their records as JSON text in one
shared store, under two key prefixes. No challenge key is a device key, and
reading a record back gives what was written.

## Implementation notes

A record is read as the interface it was cast to. A stored text of another
shape, which neither component writes, reads as a record that is not there.
-/

namespace EncryptionGateway.Attestation

open JavaScript

/-- The parts of the platform the records go through: JSON text, DER encoding
of public keys, and the ISO form of a date (`none` is an invalid date). -/
structure Platform (N Key : Type) [JsNumber N] where
  json : JsonText N
  exportSpki : Key → Bytes
  createPublicKey : Bytes → Option Key
  createPublicKey_exportSpki : ∀ key, createPublicKey (exportSpki key) = some key
  toISOString : Int → String
  parseDate : String → Option Int

variable {N Key σ : Type} [JsNumber N]

/-- Challenges are short-lived. -/
def CHALLENGE_TTL_MS : Int := 60000

structure StoredChallenge where
  nonce : String
  purpose : String

namespace StoredChallenge

def toJson (stored : StoredChallenge) : Json N :=
  .obj [("nonce", .str stored.nonce), ("purpose", .str stored.purpose)]

def ofJson (v : Json N) : Option StoredChallenge :=
  match v.get "nonce", v.get "purpose" with
  | some (.str nonce), some (.str purpose) => some ⟨nonce, purpose⟩
  | _, _ => none

omit [JsNumber N] in
theorem ofJson_toJson (stored : StoredChallenge) :
    ofJson (stored.toJson : Json N) = some stored := rfl

theorem wellFormed_toJson (stored : StoredChallenge) : (stored.toJson : Json N).WellFormed := by
  simp only [toJson, Json.WellFormed, Json.FieldsWellFormed]
  exact ⟨by simp only [List.map]; decide, trivial, trivial, trivial⟩

end StoredChallenge

/-- Byte comparison of two strings of equal encoded length. -/
def equals (a b : String) : Bool :=
  if a.toUTF8.size ≠ b.toUTF8.size then false else decide (a.toUTF8.data = b.toUTF8.data)

theorem equals_iff {a b : String} : equals a b = true ↔ a = b := by
  unfold equals
  constructor
  · intro h
    split at h
    · cases h
    · exact String.toByteArray_inj.mp (ByteArray.ext (of_decide_eq_true h))
  · rintro rfl
    simp

namespace ChallengeStore

def key (challengeId : String) : String := "attestation:challenge:" ++ challengeId

/-- The record `issue` writes. -/
def record (p : Platform N Key) (nonce : Bytes) (purpose : String) : String :=
  p.json.stringify (StoredChallenge.toJson ⟨Base64.encode nonce, purpose⟩)

/-- Issues a fresh challenge; the identifier and the nonce are the random
values drawn for it. -/
def issue (p : Platform N Key) (kv : KvStore σ) (now : Int) (challengeId : String) (nonce : Bytes)
    (purpose : String) (s : σ) : σ :=
  kv.set now (key challengeId) (record p nonce purpose) (some CHALLENGE_TTL_MS) s

/-- What `consume` makes of the text it removed from the store. -/
def redeem (p : Platform N Key) (raw : Option String) (expectedPurpose : String) : Option Bytes :=
  match raw with
  | none => none
  | some raw =>
      if raw = "" then none
      else
        match (p.json.parse raw).bind StoredChallenge.ofJson with
        | none => none
        | some stored =>
            if equals stored.purpose expectedPurpose then some (Base64.decode stored.nonce)
            else none

/-- Consumes and invalidates a single-use challenge. The nonce comes back only
for the purpose the challenge was issued for; a missing purpose is `enroll`. -/
def consume (p : Platform N Key) (kv : KvStore σ) (now : Int) (challengeId : String)
    (expectedPurpose : Option String) (s : σ) : Option Bytes × σ :=
  let (raw, s) := kv.getDelete now (key challengeId) s
  (redeem p raw (expectedPurpose.getD "enroll"), s)

theorem key_injective {a b : String} (h : key a = key b) : a = b := append_cancel_left h

/-- A record gives its nonce back for its own purpose only. -/
theorem redeem_record (p : Platform N Key) (nonce : Bytes) (purpose expectedPurpose : String) :
    redeem p (some (record p nonce purpose)) expectedPurpose =
      if purpose = expectedPurpose then some nonce else none := by
  have hw := StoredChallenge.wellFormed_toJson (N := N) ⟨Base64.encode nonce, purpose⟩
  simp only [redeem, record, p.json.stringify_ne_empty hw, if_false, p.json.parse_stringify _ hw,
    Option.bind_some, StoredChallenge.ofJson_toJson, equals_iff, Base64.decode_encode]

theorem redeem_eq_some {p : Platform N Key} {raw : Option String} {expectedPurpose : String}
    {result : Bytes} (h : redeem p raw expectedPurpose = some result) :
    ∃ text, raw = some text := by
  cases raw with
  | none => cases h
  | some text => exact ⟨text, rfl⟩

end ChallengeStore

structure EnrolledDevice (N Key : Type) where
  publicKey : Key
  securityLevel : N
  enrolledAt : Option Int

structure StoredDevice (N : Type) where
  spki : String
  securityLevel : N
  enrolledAt : String

namespace StoredDevice

def toJson (stored : StoredDevice N) : Json N :=
  .obj [("spki", .str stored.spki), ("securityLevel", .num stored.securityLevel),
    ("enrolledAt", .str stored.enrolledAt)]

def ofJson (v : Json N) : Option (StoredDevice N) :=
  match v.get "spki", v.get "securityLevel", v.get "enrolledAt" with
  | some (.str spki), some (.num securityLevel), some (.str enrolledAt) =>
      some ⟨spki, securityLevel, enrolledAt⟩
  | _, _, _ => none

omit [JsNumber N] in
theorem ofJson_toJson (stored : StoredDevice N) : ofJson stored.toJson = some stored := rfl

theorem wellFormed_toJson (stored : StoredDevice N)
    (h : (JsNumber.finiteValue stored.securityLevel).isSome) : stored.toJson.WellFormed := by
  simp only [toJson, Json.WellFormed, Json.FieldsWellFormed]
  exact ⟨by simp only [List.map]; decide, trivial, h, trivial, trivial⟩

end StoredDevice

namespace DeviceRegistry

def key (deviceId : String) : String := "attestation:device:" ++ deviceId

/-- A key object cannot be serialised, so its SPKI DER is stored. -/
def encode (p : Platform N Key) (device : EnrolledDevice N Key) : StoredDevice N where
  spki := Base64.encode (p.exportSpki device.publicKey)
  securityLevel := device.securityLevel
  enrolledAt := (device.enrolledAt.map p.toISOString).getD ""

def record (p : Platform N Key) (device : EnrolledDevice N Key) : String :=
  p.json.stringify (encode p device).toJson

/-- What `get` makes of the text it read. -/
def restore (p : Platform N Key) (raw : Option String) : Option (EnrolledDevice N Key) :=
  match raw with
  | none => none
  | some raw =>
      if raw = "" then none
      else
        match (p.json.parse raw).bind StoredDevice.ofJson with
        | none => none
        | some stored =>
            (p.createPublicKey (Base64.decode stored.spki)).map fun publicKey =>
              ⟨publicKey, stored.securityLevel, p.parseDate stored.enrolledAt⟩

def get (p : Platform N Key) (kv : KvStore σ) (now : Int) (deviceId : String) (s : σ) :
    Option (EnrolledDevice N Key) × σ :=
  let (raw, s) := kv.get now (key deviceId) s
  (restore p raw, s)

/-- Enrols a device only when the id is free. -/
def enrol (p : Platform N Key) (kv : KvStore σ) (now : Int) (deviceId : String)
    (device : EnrolledDevice N Key) (s : σ) : Bool × σ :=
  kv.setIfAbsent now (key deviceId) (record p device) none s

def has (kv : KvStore σ) (now : Int) (deviceId : String) (s : σ) : Bool × σ :=
  let (raw, s) := kv.get now (key deviceId) s
  (raw.isSome, s)

def delete (kv : KvStore σ) (now : Int) (deviceId : String) (s : σ) : Bool × σ :=
  kv.delete now (key deviceId) s

theorem key_injective {a b : String} (h : key a = key b) : a = b := append_cancel_left h

/-- Reading a record back gives the enrolled key and level. -/
theorem restore_record (p : Platform N Key) (device : EnrolledDevice N Key)
    (h : (JsNumber.finiteValue device.securityLevel).isSome) :
    restore p (some (record p device)) =
      some ⟨device.publicKey, device.securityLevel, p.parseDate (encode p device).enrolledAt⟩ := by
  have hw := StoredDevice.wellFormed_toJson (encode p device) h
  simp only [restore, record, p.json.stringify_ne_empty hw, if_false, p.json.parse_stringify _ hw,
    Option.bind_some, StoredDevice.ofJson_toJson]
  simp only [encode, Base64.decode_encode, p.createPublicKey_exportSpki, Option.map_some]

theorem restore_eq_some {p : Platform N Key} {raw : Option String}
    {found : EnrolledDevice N Key} (h : restore p raw = some found) : ∃ text, raw = some text := by
  cases raw with
  | none => cases h
  | some text => exact ⟨text, rfl⟩

end DeviceRegistry

/-- The two components never share a key, whatever identifiers they are given. -/
theorem challengeKey_ne_deviceKey (challengeId deviceId : String) :
    ChallengeStore.key challengeId ≠ DeviceRegistry.key deviceId :=
  append_ne_append (i := 12) (by decide) (by decide) (by simp)

end EncryptionGateway.Attestation
