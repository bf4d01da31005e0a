import EncryptionGateway.Foundation.Run
import EncryptionGateway.Attestation.AttestationService
import EncryptionGateway.Attestation.Registry
import EncryptionGateway.JavaScript.JsonPrinter

/-!
# The attestation endpoints

`AttestationController` and `DeviceSignatureGuard` as tasks over one shared
store. A task runs from one await to the next without interruption: it does its
local work, then one access to the store or its answer. Tasks of any number of
clients are interleaved in any order under a clock that never goes back.

## Implementation notes

Bodies arrive already validated against their DTO. The verification of chains
and signatures is a parameter; `AttestationService.verify` at a policy is one
value of it. Deleting an enrolment is no endpoint, but the administrator may do
it at any time.
-/

namespace EncryptionGateway.Attestation

open JavaScript Foundation

/-- `required` rejects requests without a valid device signature, `report` lets
every request pass. -/
inductive DevicePolicy
  | report
  | required
deriving DecidableEq

structure EnrollDeviceDto where
  challengeId : String
  deviceId : String
  certificateChain : List String

structure VerifyDeviceDto where
  challengeId : String
  deviceId : String
  signature : String

/-- What the guard reads: the purpose in the metadata of the handler, and the
headers `x-device-id`, `x-device-challenge-id` and `x-device-signature`. -/
structure GuardedRequest where
  purpose : Option String
  deviceId : Option String
  challengeId : Option String
  signature : Option String

/-- A header that is missing or empty counts as missing. -/
def nonEmpty (header : Option String) : Option String := header.filter (· ≠ "")

/-- Device, challenge and signature when all three headers are there. -/
def GuardedRequest.credentials (r : GuardedRequest) : Option VerifyDeviceDto :=
  match nonEmpty r.deviceId, nonEmpty r.challengeId, nonEmpty r.signature with
  | some deviceId, some challengeId, some signature => some ⟨challengeId, deviceId, signature⟩
  | _, _, _ => none

inductive Request
  | challenge (purpose : Option String)
  | enroll (body : EnrollDeviceDto)
  | verify (body : VerifyDeviceDto)
  | guarded (request : GuardedRequest)
  | delete (deviceId : String)

/-- Attached to the request by the guard. -/
structure DeviceContext where
  verified : Bool
  deviceId : Option String
  reason : Option String
deriving DecidableEq

/-- An error response: its HTTP status and the members of its body. -/
structure ErrorResponse where
  statusCode : ℕ
  status : String
  code : Option String
  reason : Option String
deriving DecidableEq

inductive Reply
  | challenge (challengeId nonce : String)
  | enrolled (securityLevel : ℤ)
  | verified
  | passed (device : DeviceContext)
  | deleted (existed : Bool)
  | failed (e : ErrorResponse)
deriving DecidableEq

namespace ErrorResponse

def ATTESTATION_NOT_CONFIGURED : ErrorResponse :=
  ⟨503, "unavailable", some "ATTESTATION_NOT_CONFIGURED",
    some ("set ATTESTATION_PACKAGE_NAME and ATTESTATION_SIGNING_CERT_SHA256 " ++
      "to enable attestation")⟩

def unauthorized (reason : String) : ErrorResponse := ⟨401, "rejected", none, some reason⟩

def forbidden (e : AttestationRejectedError) : ErrorResponse :=
  ⟨403, "rejected", some e.code, some e.message⟩

def DEVICE_ALREADY_ENROLLED : ErrorResponse :=
  ⟨409, "rejected", some "DEVICE_ALREADY_ENROLLED",
    some "device already enrolled; delete the enrolment before re-enrolling"⟩

end ErrorResponse

/-- The injected collaborators apart from the store. -/
structure Services (N Key : Type) [JsNumber N] where
  platform : Platform N Key
  configured : Bool
  verify : Int → List Bytes → Bytes → Except AttestationRejectedError (Key × ℤ)
  verifySignature : Key → Bytes → Bytes → Bool
  policy : DevicePolicy

structure Env (N Key σ : Type) [JsNumber N] extends Services N Key where
  kv : AtomicKvStore σ

/-- The services over the in-process store. -/
def Services.inMemory {N Key : Type} [JsNumber N] (services : Services N Key) (maxEntries : ℕ) :
    Env N Key (MemoryKvStore maxEntries) :=
  { services with kv := MemoryKvStore.atomic maxEntries }

/-- Integers for numbers, public keys as their encodings, and the date of a
clock that stands still. The first certificate of a chain is taken for the
attested key, and a signature repeats the key and the signed bytes. -/
def Services.sample : Services ℤ Bytes where
  platform := {
    json := JsonText.standard ℤ
    exportSpki := fun key => key
    createPublicKey := some
    createPublicKey_exportSpki := fun _ => rfl
    toISOString := fun _ => "1970-01-01T00:00:00.000Z"
    parseDate := fun s => if s = "1970-01-01T00:00:00.000Z" then some 0 else none }
  configured := true
  verify _ chain _ :=
    match chain with
    | leaf :: _ => .ok (leaf, 1)
    | [] => .error ⟨"NOT_A_CHAIN", "0 certificate(s)"⟩
  verifySignature key data signature := decide (signature = key ++ data)
  policy := .required

/-- What a task remembers across an await. -/
inductive Stage (N Key : Type)
  | arrived
  | issued (challengeId : String) (nonce : Bytes)
  | consumed (nonce : Option Bytes)
  | loaded (nonce : Option Bytes) (device : Option (EnrolledDevice N Key))
  | stored (securityLevel : ℤ) (enrolled : Bool)
  | deleted (existed : Bool)
  | answered

/-- What a task does between two awaits, with the result it gets. -/
inductive Action (N Key : Type)
  | issue (challengeId : String) (nonce : Bytes) (purpose : String)
  | consume (challengeId purpose : String) (nonce : Option Bytes)
  | load (deviceId : String) (device : Option (EnrolledDevice N Key))
  | enrol (deviceId : String) (device : EnrolledDevice N Key) (stored : Bool)
  | delete (deviceId : String)
  | answer (reply : Reply)

namespace Endpoints

variable {N Key σ : Type} [JsNumber N]

/-- The action, what the task remembers next, and the store after it. -/
abbrev Turn (N Key σ : Type) := Action N Key × Stage N Key × σ

def answer (reply : Reply) (s : σ) : Turn N Key σ := (.answer reply, .answered, s)

def fail (e : ErrorResponse) (s : σ) : Turn N Key σ := answer (.failed e) s

def consume (env : Env N Key σ) (now : Int) (challengeId : String) (purpose : Option String)
    (s : σ) : Turn N Key σ :=
  let (nonce, s) := ChallengeStore.consume env.platform env.kv.toKvStore now challengeId purpose s
  (.consume challengeId (purpose.getD "enroll") nonce, .consumed nonce, s)

def load (env : Env N Key σ) (now : Int) (deviceId : String) (nonce : Option Bytes) (s : σ) :
    Turn N Key σ :=
  let (device, s) := DeviceRegistry.get env.platform env.kv.toKvStore now deviceId s
  (.load deviceId device, .loaded nonce device, s)

/-- `POST /v1/challenges`; `fresh` is the identifier and the nonce drawn for it. -/
def challenge (env : Env N Key σ) (now : Int) (fresh : String × Bytes) (purpose : Option String)
    (stage : Stage N Key) (s : σ) : Option (Turn N Key σ) :=
  match stage with
  | .arrived =>
      let purpose := purpose.getD "enroll"
      some (.issue fresh.1 fresh.2 purpose, .issued fresh.1 fresh.2,
        ChallengeStore.issue env.platform env.kv.toKvStore now fresh.1 fresh.2 purpose s)
  | .issued challengeId nonce => some (answer (.challenge challengeId (Base64.encode nonce)) s)
  | _ => none

/-- Stores the device of a verified chain, when its id is free. -/
def enrolVerified (env : Env N Key σ) (now : Int) (body : EnrollDeviceDto) (nonce : Bytes) (s : σ) :
    Turn N Key σ :=
  match env.verify now (body.certificateChain.map Base64.decode) nonce with
  | .error e => fail (.forbidden e) s
  | .ok (publicKey, securityLevel) =>
      let device := ⟨publicKey, JsNumber.ofInt securityLevel, some now⟩
      let (enrolled, s) := DeviceRegistry.enrol env.platform env.kv.toKvStore now
        body.deviceId device s
      (.enrol body.deviceId device enrolled, .stored securityLevel enrolled, s)

/-- `POST /v1/devices/enroll`. -/
def enroll (env : Env N Key σ) (now : Int) (body : EnrollDeviceDto) (stage : Stage N Key) (s : σ) :
    Option (Turn N Key σ) :=
  match stage with
  | .arrived =>
      if env.configured then some (consume env now body.challengeId (some "enroll") s)
      else some (fail .ATTESTATION_NOT_CONFIGURED s)
  | .consumed none => some (fail (.unauthorized "unknown or expired challenge") s)
  | .consumed (some nonce) => some (enrolVerified env now body nonce s)
  | .stored _ false => some (fail .DEVICE_ALREADY_ENROLLED s)
  | .stored securityLevel true => some (answer (.enrolled securityLevel) s)
  | _ => none

/-- The end of `verify`: both lookups must have succeeded and the signature fit. -/
def judge (env : Env N Key σ) (body : VerifyDeviceDto) (nonce : Option Bytes)
    (device : Option (EnrolledDevice N Key)) : Reply :=
  match nonce, device with
  | some nonce, some device =>
      if env.verifySignature device.publicKey nonce (Base64.decode body.signature) then .verified
      else .failed (.unauthorized "invalid signature")
  | _, _ => .failed (.unauthorized "unknown challenge or device")

/-- `POST /v1/devices/verify`. -/
def verify (env : Env N Key σ) (now : Int) (body : VerifyDeviceDto) (stage : Stage N Key) (s : σ) :
    Option (Turn N Key σ) :=
  match stage with
  | .arrived =>
      if env.configured then some (consume env now body.challengeId (some "verify") s)
      else some (fail .ATTESTATION_NOT_CONFIGURED s)
  | .consumed nonce => some (load env now body.deviceId nonce s)
  | .loaded nonce device => some (answer (judge env body nonce device) s)
  | _ => none

/-- `canActivate` after `check`. -/
def letPass (policy : DevicePolicy) (device : DeviceContext) : Reply :=
  if device.verified = false ∧ policy = .required then
    .failed ⟨401, "rejected", device.reason, none⟩
  else .passed device

/-- The end of `check`, for a challenge that was consumed. -/
def checkSignature (env : Env N Key σ) (r : VerifyDeviceDto) (nonce : Bytes)
    (device : Option (EnrolledDevice N Key)) : DeviceContext :=
  match device with
  | none => ⟨false, some r.deviceId, some "DEVICE_NOT_ENROLLED"⟩
  | some enrolled =>
      if env.verifySignature enrolled.publicKey nonce (Base64.decode r.signature) then
        ⟨true, some r.deviceId, none⟩
      else ⟨false, some r.deviceId, some "DEVICE_SIGNATURE_INVALID"⟩

/-- `DeviceSignatureGuard.canActivate`. -/
def guarded (env : Env N Key σ) (now : Int) (r : GuardedRequest) (stage : Stage N Key) (s : σ) :
    Option (Turn N Key σ) :=
  match r.credentials, stage with
  | none, .arrived =>
      some (answer (letPass env.policy ⟨false, none, some "DEVICE_SIGNATURE_MISSING"⟩) s)
  | some body, .arrived => some (consume env now body.challengeId r.purpose s)
  | some body, .consumed none =>
      some (answer (letPass env.policy
        ⟨false, some body.deviceId, some "DEVICE_CHALLENGE_INVALID"⟩) s)
  | some body, .consumed (some nonce) => some (load env now body.deviceId (some nonce) s)
  | some body, .loaded (some nonce) device =>
      some (answer (letPass env.policy (checkSignature env body nonce device)) s)
  | _, _ => none

/-- Deletion of an enrolment out of band. -/
def delete (env : Env N Key σ) (now : Int) (deviceId : String) (stage : Stage N Key) (s : σ) :
    Option (Turn N Key σ) :=
  match stage with
  | .arrived =>
      let (existed, s) := DeviceRegistry.delete env.kv.toKvStore now deviceId s
      some (.delete deviceId, .deleted existed, s)
  | .deleted existed => some (answer (.deleted existed) s)
  | _ => none

/-- The turn of a task; `none` once it has answered. -/
def resume (env : Env N Key σ) (now : Int) (fresh : String × Bytes) (request : Request)
    (stage : Stage N Key) (s : σ) : Option (Turn N Key σ) :=
  match request with
  | .challenge purpose => challenge env now fresh purpose stage s
  | .enroll body => enroll env now body stage s
  | .verify body => verify env now body stage s
  | .guarded r => guarded env now r stage s
  | .delete deviceId => delete env now deviceId stage s

/-- Tasks in flight and answered, by number; other numbers are free. -/
structure State (N Key σ : Type) where
  clock : Int
  store : σ
  tasks : ℕ → Option (Request × Stage N Key)

structure Event (N Key : Type) where
  task : ℕ
  request : Request
  now : Int
  action : Action N Key

def State.initial (clock : Int) (store : σ) : State N Key σ := ⟨clock, store, fun _ => none⟩

/-- One turn: of a task in flight, or of a request that arrives. -/
inductive Step (env : Env N Key σ) : State N Key σ → Event N Key → State N Key σ → Prop
  | turn {s : State N Key σ} {task : ℕ} {request : Request} {stage stage' : Stage N Key} {now : Int}
      {action : Action N Key} {store : σ} (fresh : String × Bytes)
      (active : s.tasks task = some (request, stage) ∨ s.tasks task = none ∧ stage = .arrived)
      (clock : s.clock ≤ now)
      (resumes : resume env now fresh request stage s.store = some (action, stage', store)) :
      Step env s ⟨task, request, now, action⟩
        ⟨now, store, Function.update s.tasks task (some (request, stage'))⟩

/-- The challenge a request presents and the purpose it presents it for. -/
def presents : Request → Option (String × String)
  | .enroll body => some (body.challengeId, "enroll")
  | .verify body => some (body.challengeId, "verify")
  | .guarded r => r.credentials.map fun body => (body.challengeId, r.purpose.getD "enroll")
  | _ => none

/-- The device a request authenticates, and its signature. -/
def authenticates : Request → Option VerifyDeviceDto
  | .verify body => some body
  | .guarded r => r.credentials
  | _ => none

/-- The outcomes that stand for a success. -/
def successful : Reply → Bool
  | .enrolled _ => true
  | .verified => true
  | .passed device => device.verified
  | _ => false

/-- Everything a turn can be. An answer says which stage justifies a success. -/
inductive TurnOf (env : Env N Key σ) (now : Int) (request : Request) (s : σ) :
    Stage N Key → Action N Key → Stage N Key → σ → Prop
  | issue {purpose : Option String} (challengeId : String) (nonce : Bytes)
      (h : request = .challenge purpose) :
      TurnOf env now request s .arrived (.issue challengeId nonce (purpose.getD "enroll"))
        (.issued challengeId nonce)
        (ChallengeStore.issue env.platform env.kv.toKvStore now challengeId nonce
          (purpose.getD "enroll") s)
  | consume {challengeId purpose : String} (h : presents request = some (challengeId, purpose)) :
      TurnOf env now request s .arrived
        (.consume challengeId purpose
          (ChallengeStore.consume env.platform env.kv.toKvStore now challengeId (some purpose) s).1)
        (.consumed (ChallengeStore.consume env.platform env.kv.toKvStore now challengeId
          (some purpose) s).1)
        (ChallengeStore.consume env.platform env.kv.toKvStore now challengeId (some purpose) s).2
  | load {body : VerifyDeviceDto} {nonce : Option Bytes} (h : authenticates request = some body) :
      TurnOf env now request s (.consumed nonce)
        (.load body.deviceId (DeviceRegistry.get env.platform env.kv.toKvStore now
          body.deviceId s).1)
        (.loaded nonce (DeviceRegistry.get env.platform env.kv.toKvStore now body.deviceId s).1)
        (DeviceRegistry.get env.platform env.kv.toKvStore now body.deviceId s).2
  | enrol {body : EnrollDeviceDto} {nonce : Bytes} {publicKey : Key} {securityLevel : ℤ}
      {device : EnrolledDevice N Key} (h : request = .enroll body)
      (hverify : env.verify now (body.certificateChain.map Base64.decode) nonce =
        .ok (publicKey, securityLevel))
      (hdevice : device = ⟨publicKey, JsNumber.ofInt securityLevel, some now⟩) :
      TurnOf env now request s (.consumed (some nonce))
        (.enrol body.deviceId device
          (DeviceRegistry.enrol env.platform env.kv.toKvStore now body.deviceId device s).1)
        (.stored securityLevel
          (DeviceRegistry.enrol env.platform env.kv.toKvStore now body.deviceId device s).1)
        (DeviceRegistry.enrol env.platform env.kv.toKvStore now body.deviceId device s).2
  | delete {deviceId : String} (h : request = .delete deviceId) :
      TurnOf env now request s .arrived (.delete deviceId)
        (.deleted (DeviceRegistry.delete env.kv.toKvStore now deviceId s).1)
        (DeviceRegistry.delete env.kv.toKvStore now deviceId s).2
  | answer {stage : Stage N Key} {reply : Reply} (hstage : stage ≠ .answered)
      (h : successful reply = true →
        (∃ body securityLevel, request = .enroll body ∧ reply = .enrolled securityLevel ∧
          stage = .stored securityLevel true) ∨
        ∃ body nonce device, authenticates request = some body ∧
          stage = .loaded (some nonce) (some device) ∧
          env.verifySignature device.publicKey nonce (Base64.decode body.signature) = true)
      (hrefused : ∀ body securityLevel, request = .enroll body →
        stage = .stored securityLevel false → reply = .failed .DEVICE_ALREADY_ENROLLED) :
      TurnOf env now request s stage (.answer reply) .answered s

section Turns

variable {env : Env N Key σ} {now : Int} {s s' : σ} {stage stage' : Stage N Key}
  {action : Action N Key}

private theorem turnOf_consume {request : Request} {challengeId : String} (purpose : Option String)
    (h : presents request = some (challengeId, purpose.getD "enroll"))
    (hturn : consume env now challengeId purpose s = (action, stage', s')) :
    TurnOf env now request s .arrived action stage' s' := by
  simp only [consume, Prod.mk.injEq] at hturn
  obtain ⟨rfl, rfl, rfl⟩ := hturn
  exact TurnOf.consume h

private theorem turnOf_load {request : Request} {body : VerifyDeviceDto} {nonce : Option Bytes}
    (h : authenticates request = some body)
    (hturn : load env now body.deviceId nonce s = (action, stage', s')) :
    TurnOf env now request s (.consumed nonce) action stage' s' := by
  simp only [load, Prod.mk.injEq] at hturn
  obtain ⟨rfl, rfl, rfl⟩ := hturn
  exact TurnOf.load h

private theorem turnOf_unsuccessful {request : Request} {reply : Reply} (hstage : stage ≠ .answered)
    (h : successful reply = false)
    (hrefused : ∀ body securityLevel, request = .enroll body →
      stage = .stored securityLevel false → reply = .failed .DEVICE_ALREADY_ENROLLED)
    (hturn : answer reply s = (action, stage', s')) :
    TurnOf env now request s stage action stage' s' := by
  simp only [answer, Prod.mk.injEq] at hturn
  obtain ⟨rfl, rfl, rfl⟩ := hturn
  refine TurnOf.answer hstage (fun hs => ?_) hrefused
  rw [h] at hs
  cases hs

theorem challenge_turn {fresh : String × Bytes} {purpose : Option String}
    (h : challenge env now fresh purpose stage s = some (action, stage', s')) :
    TurnOf env now (.challenge purpose) s stage action stage' s' := by
  unfold challenge at h
  split at h
  · cases h
    exact TurnOf.issue fresh.1 fresh.2 rfl
  · exact turnOf_unsuccessful (by simp) rfl (by simp) (Option.some.inj h)
  · cases h

theorem enrolVerified_turn {body : EnrollDeviceDto} {nonce : Bytes}
    (h : enrolVerified env now body nonce s = (action, stage', s')) :
    TurnOf env now (.enroll body) s (.consumed (some nonce)) action stage' s' := by
  unfold enrolVerified at h
  split at h
  · exact turnOf_unsuccessful (by simp) rfl (by simp) h
  · next publicKey securityLevel hverify =>
      simp only [Prod.mk.injEq] at h
      obtain ⟨rfl, rfl, rfl⟩ := h
      exact TurnOf.enrol rfl hverify rfl

theorem enroll_turn {body : EnrollDeviceDto}
    (h : enroll env now body stage s = some (action, stage', s')) :
    TurnOf env now (.enroll body) s stage action stage' s' := by
  unfold enroll at h
  split at h
  · split at h
    · exact turnOf_consume (some "enroll") rfl (Option.some.inj h)
    · exact turnOf_unsuccessful (by simp) rfl (by simp) (Option.some.inj h)
  · exact turnOf_unsuccessful (by simp) rfl (by simp) (Option.some.inj h)
  · exact enrolVerified_turn (Option.some.inj h)
  · exact turnOf_unsuccessful (by simp) rfl (fun _ _ _ _ => rfl) (Option.some.inj h)
  · next securityLevel =>
      cases h
      exact TurnOf.answer (by simp) (fun _ => Or.inl ⟨body, securityLevel, rfl, rfl, rfl⟩) (by simp)
  · cases h

theorem verify_turn {body : VerifyDeviceDto}
    (h : verify env now body stage s = some (action, stage', s')) :
    TurnOf env now (.verify body) s stage action stage' s' := by
  unfold verify at h
  split at h
  · split at h
    · exact turnOf_consume (some "verify") rfl (Option.some.inj h)
    · exact turnOf_unsuccessful (by simp) rfl (by simp) (Option.some.inj h)
  · exact turnOf_load rfl (Option.some.inj h)
  · next nonce device =>
      cases h
      refine TurnOf.answer (by simp) (fun hs => Or.inr ?_) (by simp)
      unfold judge at hs
      split at hs
      · split at hs
        · next hsig => exact ⟨body, _, _, rfl, rfl, hsig⟩
        · cases hs
      · cases hs
  · cases h

/-- Only a verified device passes as a success. -/
theorem letPass_successful {policy : DevicePolicy} {device : DeviceContext}
    (h : successful (letPass policy device) = true) : device.verified = true := by
  unfold letPass at h
  split at h
  · cases h
  · exact h

theorem guarded_turn {r : GuardedRequest}
    (h : guarded env now r stage s = some (action, stage', s')) :
    TurnOf env now (.guarded r) s stage action stage' s' := by
  unfold guarded at h
  split at h
  · cases h
    exact TurnOf.answer (by simp) (fun hs => absurd (letPass_successful hs) (by simp)) (by simp)
  · next body hbody =>
      exact turnOf_consume r.purpose (by simp [presents, hbody]) (Option.some.inj h)
  · cases h
    exact TurnOf.answer (by simp) (fun hs => absurd (letPass_successful hs) (by simp)) (by simp)
  · next body nonce hbody => exact turnOf_load hbody (Option.some.inj h)
  · next body nonce device hbody =>
      cases h
      refine TurnOf.answer (by simp) (fun hs => Or.inr ?_) (by simp)
      have hverified := letPass_successful hs
      unfold checkSignature at hverified
      split at hverified
      · cases hverified
      · next enrolled =>
          split at hverified
          · next hsig => exact ⟨body, nonce, enrolled, hbody, rfl, hsig⟩
          · cases hverified
  · cases h

theorem delete_turn {deviceId : String}
    (h : delete env now deviceId stage s = some (action, stage', s')) :
    TurnOf env now (.delete deviceId) s stage action stage' s' := by
  unfold delete at h
  split at h
  · cases h
    exact TurnOf.delete rfl
  · exact turnOf_unsuccessful (by simp) rfl (by simp) (Option.some.inj h)
  · cases h

/-- Every turn of a task is one of the listed kinds. -/
theorem resume_turn {fresh : String × Bytes} {request : Request}
    (h : resume env now fresh request stage s = some (action, stage', s')) :
    TurnOf env now request s stage action stage' s' := by
  cases request with
  | challenge purpose => exact challenge_turn h
  | enroll body => exact enroll_turn h
  | verify body => exact verify_turn h
  | guarded r => exact guarded_turn h
  | delete deviceId => exact delete_turn h

end Turns

end Endpoints

end EncryptionGateway.Attestation
