import EncryptionGateway.Attestation.Endpoints
import EncryptionGateway.Foundation.Remote

/-!
# The shared store of several instances

`UpstashKvStore` sends each operation as one command to a Redis behind HTTP. The
endpoints over it are programs that wait for one command after another; a
command that fails ends the request with the exception it throws.

## Implementation notes

Redis enters as an object that understands the commands as documented. A reply
that reports an error says nothing about whether the command was carried out.
-/

namespace EncryptionGateway.Attestation

open JavaScript Foundation

variable {N Key : Type} [JsNumber N]

/-- The commands that the store sends. The two options of `SET` are the
milliseconds to live and the condition that the key is absent. -/
inductive Command
  | GET (key : String)
  | SET (key value : String) (PX : Option Int) (NX : Bool)
  | GETDEL (key : String)
  | DEL (key : String)
deriving DecidableEq

/-- The words of the command, which are posted as a JSON array. -/
def Command.words : Command → List String
  | .GET key => ["GET", key]
  | .SET key value PX NX =>
      ["SET", key, value] ++ PX.elim [] (fun ttlMs => ["PX", toString ttlMs]) ++
        if NX then ["NX"] else []
  | .GETDEL key => ["GETDEL", key]
  | .DEL key => ["DEL", key]

/-- What `fetch` resolves to: the status, and the body if it is JSON. -/
structure HttpReply (N : Type) where
  status : ℕ
  body : Option (Json N)

namespace UpstashKvStore

/-- The result in a reply; `none` is `undefined`. -/
def command (reply : HttpReply N) : Except String (Option (Json N)) :=
  if ¬ (200 ≤ reply.status ∧ reply.status ≤ 299) then
    .error ("KV command failed with HTTP " ++ toString reply.status)
  else
    match reply.body with
    | none => .error "SyntaxError"
    | some .null => .error "TypeError"
    | some body =>
        match body.get "error" with
        | some error =>
            if error.truthy then .error ("KV command failed: " ++ error.toText)
            else .ok (body.get "result")
        | none => .ok (body.get "result")

def set (key value : String) (ttlMs : Option Int) : Command :=
  .SET key value (ttlMs.map (max 1)) false

def setIfAbsent (key value : String) (ttlMs : Option Int) : Command :=
  .SET key value (ttlMs.map (max 1)) true

/-- The result of `GET` and `GETDEL`. -/
def found (result : Option (Json N)) : Option String :=
  match result with
  | some (.str value) => some value
  | _ => none

/-- The result of `SET` with the condition. -/
def stored (result : Option (Json N)) : Bool :=
  match result with
  | some (.str text) => decide (text = "OK")
  | _ => false

/-- The result of `DEL`. -/
def existed (result : Option (Json N)) : Bool :=
  match result with
  | some (.num n) => (JsNumber.finiteValue n).any fun q => decide (0 < q)
  | _ => false

end UpstashKvStore

/-- Keys with their values and expiry, as Redis documents its commands. -/
abbrev RedisMap := String → Option Entry

namespace RedisMap

/-- The unexpired value under a key. -/
def read (now : Int) (key : String) (m : RedisMap) : Option String :=
  (m key).bind fun entry => if expired entry.expiresAt now then none else some entry.value

def replyValue : Option String → Option (Json N)
  | some value => some (.str value)
  | none => some .null

def perform (now : Int) (command : Command) (m : RedisMap) : Option (Json N) × RedisMap :=
  match command with
  | .GET key => (replyValue (m.read now key), m)
  | .SET key value PX NX =>
      if NX ∧ (m.read now key).isSome then (some .null, m)
      else (some (.str "OK"), Function.update m key (some ⟨value, expiry now PX⟩))
  | .GETDEL key => (replyValue (m.read now key), Function.update m key none)
  | .DEL key =>
      (some (.num (JsNumber.ofInt (if (m.read now key).isSome then 1 else 0))),
        Function.update m key none)

end RedisMap

/-- A Redis behind HTTP. Its state stands for a map; a command is carried out on
it, or it is not and the reply reports an error; a result is that of the
command. -/
structure Upstash (N σ : Type) [JsNumber N] where
  exec : Int → List String → σ → HttpReply N × σ
  map : σ → RedisMap
  executes : ∀ (now : Int) (c : Command) (s : σ),
    map (exec now c.words s).2 = (RedisMap.perform (N := N) now c (map s)).2 ∨
      (map (exec now c.words s).2 = map s ∧
        ∀ result, UpstashKvStore.command (exec now c.words s).1 ≠ .ok result)
  answers : ∀ {now : Int} {c : Command} {s : σ} {result : Option (Json N)},
    UpstashKvStore.command (exec now c.words s).1 = .ok result →
      result = (RedisMap.perform now c (map s)).1

/-! ## The endpoints of an instance -/

namespace Deployed

open UpstashKvStore

/-- What a request does, with the exception it may end with. -/
abbrev Program (N : Type) [JsNumber N] := Proc Command (HttpReply N) (Except String Reply)

/-- `await` of one operation: a failure of the request or an error in the reply
is thrown. -/
def await {V : Type} (c : Command) (decode : Option (Json N) → V) (next : Int → V → Program N) :
    Program N :=
  .call c fun now outcome =>
    match outcome >>= command with
    | .error e => .done (.error e)
    | .ok result => next now (decode result)

def answer (reply : Reply) : Program N := .done (.ok reply)

def fail (e : ErrorResponse) : Program N := answer (.failed e)

section Programs

variable (services : Services N Key)

/-- `ChallengeStore.consume`. -/
def consume (challengeId purpose : String) (next : Int → Option Bytes → Program N) : Program N :=
  await (.GETDEL (ChallengeStore.key challengeId)) found fun now raw =>
    next now (ChallengeStore.redeem services.platform raw purpose)

/-- `DeviceRegistry.get`. -/
def device (deviceId : String) (next : Option (EnrolledDevice N Key) → Program N) : Program N :=
  await (.GET (DeviceRegistry.key deviceId)) found fun _ raw =>
    next (DeviceRegistry.restore services.platform raw)

def challenge (fresh : String × Bytes) (purpose : Option String) : Program N :=
  await (set (ChallengeStore.key fresh.1)
      (ChallengeStore.record services.platform fresh.2 (purpose.getD "enroll"))
      (some CHALLENGE_TTL_MS)) (fun _ => ()) fun _ _ =>
    answer (.challenge fresh.1 (Base64.encode fresh.2))

/-- The end of `enroll`. -/
def enrolStored (securityLevel : ℤ) (enrolled : Bool) : Program N :=
  if enrolled then answer (.enrolled securityLevel) else fail .DEVICE_ALREADY_ENROLLED

/-- The part of `enroll` after the challenge is consumed. -/
def enrolConsumed (body : EnrollDeviceDto) (now : Int) (nonce : Option Bytes) : Program N :=
  match nonce with
  | none => fail (.unauthorized "unknown or expired challenge")
  | some nonce =>
      match services.verify now (body.certificateChain.map Base64.decode) nonce with
      | .error e => fail (.forbidden e)
      | .ok (publicKey, securityLevel) =>
          await (setIfAbsent (DeviceRegistry.key body.deviceId)
            (DeviceRegistry.record services.platform
              ⟨publicKey, JsNumber.ofInt securityLevel, some now⟩) none) stored fun _ enrolled =>
            enrolStored securityLevel enrolled

def enroll (body : EnrollDeviceDto) : Program N :=
  if services.configured then
    consume services body.challengeId "enroll" (enrolConsumed services body)
  else fail .ATTESTATION_NOT_CONFIGURED

/-- The end of `verify`. -/
def verifyLoaded (body : VerifyDeviceDto) (nonce : Option Bytes)
    (device : Option (EnrolledDevice N Key)) : Program N :=
  match nonce, device with
  | some nonce, some device =>
      if services.verifySignature device.publicKey nonce (Base64.decode body.signature) then
        answer .verified
      else fail (.unauthorized "invalid signature")
  | _, _ => fail (.unauthorized "unknown challenge or device")

def verify (body : VerifyDeviceDto) : Program N :=
  if services.configured then
    consume services body.challengeId "verify" fun _ nonce =>
      device services body.deviceId (verifyLoaded services body nonce)
  else fail .ATTESTATION_NOT_CONFIGURED

/-- `canActivate` after `check`. -/
def letPass (context : DeviceContext) : Program N :=
  answer (Endpoints.letPass services.policy context)

/-- The end of `check`. -/
def checkLoaded (body : VerifyDeviceDto) (nonce : Bytes) (device : Option (EnrolledDevice N Key)) :
    Program N :=
  match device with
  | none => letPass services ⟨false, some body.deviceId, some "DEVICE_NOT_ENROLLED"⟩
  | some device =>
      if services.verifySignature device.publicKey nonce (Base64.decode body.signature) then
        letPass services ⟨true, some body.deviceId, none⟩
      else letPass services ⟨false, some body.deviceId, some "DEVICE_SIGNATURE_INVALID"⟩

/-- The part of `check` after the challenge is consumed. -/
def checkConsumed (body : VerifyDeviceDto) (nonce : Option Bytes) : Program N :=
  match nonce with
  | none => letPass services ⟨false, some body.deviceId, some "DEVICE_CHALLENGE_INVALID"⟩
  | some nonce => device services body.deviceId (checkLoaded services body nonce)

/-- `DeviceSignatureGuard.canActivate`. -/
def guarded (r : GuardedRequest) : Program N :=
  match r.credentials with
  | none => letPass services ⟨false, none, some "DEVICE_SIGNATURE_MISSING"⟩
  | some body => consume services body.challengeId (r.purpose.getD "enroll") fun _ =>
      checkConsumed services body

/-- `DeviceRegistry.delete`. -/
def delete (deviceId : String) : Program N :=
  await (.DEL (DeviceRegistry.key deviceId)) existed fun _ found => answer (.deleted found)

/-- The program of a request; `fresh` is what it draws for a challenge. -/
def program (fresh : String × Bytes) : Request → Program N
  | .challenge purpose => challenge services fresh purpose
  | .enroll body => enroll services body
  | .verify body => verify services body
  | .guarded r => guarded services r
  | .delete deviceId => delete deviceId

end Programs

end Deployed

end EncryptionGateway.Attestation
