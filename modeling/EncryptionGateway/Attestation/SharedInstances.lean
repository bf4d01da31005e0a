import EncryptionGateway.Attestation.SpentChallenges
import EncryptionGateway.Attestation.UpstashKvStore

/-!
# Instances that share a store

Any number of instances serve requests over one Redis that they reach through a
network which loses requests and replies; a call that its instance has given up
may still be carried out. Challenges stay single-use, and without a deletion a
device stays bound to one key.

## Implementation notes

Each instance has its own clock; the lifetime of a challenge is that of the
clock of Redis.
-/

namespace EncryptionGateway.Attestation.Deployed

open JavaScript Foundation UpstashKvStore

variable {N Key σ : Type} [JsNumber N]

/-- Redis by its commands. -/
def serve (u : Upstash N σ) (now : Int) (c : Command) (s : σ) : HttpReply N × σ :=
  u.exec now c.words s

/-- A task starts as the program of some request; `fresh` are the values that
the tasks draw. -/
def Starts (services : Services N Key) (fresh : ℕ → String × Bytes) (t : ℕ) (p : Program N) :
    Prop :=
  ∃ request, p = program services (fresh t) request

abbrev Step (u : Upstash N σ) (services : Services N Key) (fresh : ℕ → String × Bytes) :=
  Remote.Step (A := Except String Reply) (serve u) (Starts services fresh)

abbrev State (N σ : Type) [JsNumber N] := Remote.State Command (HttpReply N) (Except String Reply) σ

abbrev Execution (N : Type) := Remote.Execution Command (HttpReply N)

/-- One command at Redis. -/
abbrev Executes (u : Upstash N σ) : Int × σ → Execution N → Int × σ → Prop :=
  Remote.ExecStep (serve u)

/-- The commands of a request. -/
inductive Sends (services : Services N Key) (fresh : String × Bytes) : Request → Command → Prop
  | issue (purpose : Option String) :
      Sends services fresh (.challenge purpose) (set (ChallengeStore.key fresh.1)
        (ChallengeStore.record services.platform fresh.2 (purpose.getD "enroll"))
        (some CHALLENGE_TTL_MS))
  | consume {request : Request} {challengeId purpose : String}
      (h : Endpoints.presents request = some (challengeId, purpose)) :
      Sends services fresh request (.GETDEL (ChallengeStore.key challengeId))
  | load {request : Request} {body : VerifyDeviceDto}
      (h : Endpoints.authenticates request = some body) :
      Sends services fresh request (.GET (DeviceRegistry.key body.deviceId))
  | enrol {body : EnrollDeviceDto} {now : Int} {nonce : Bytes} {publicKey : Key} {securityLevel : ℤ}
      (h : services.verify now (body.certificateChain.map Base64.decode) nonce =
        .ok (publicKey, securityLevel)) :
      Sends services fresh (.enroll body) (setIfAbsent (DeviceRegistry.key body.deviceId)
        (DeviceRegistry.record services.platform
          ⟨publicKey, JsNumber.ofInt securityLevel, some now⟩) none)
  | delete (deviceId : String) :
      Sends services fresh (.delete deviceId) (.DEL (DeviceRegistry.key deviceId))

section Programs

variable {services : Services N Key} {fresh : String × Bytes} {P : Command → Prop}

theorem only_await {V : Type} {c : Command} {decode : Option (Json N) → V}
    {next : Int → V → Program N} (h : P c) (hnext : ∀ now v, Proc.Only P (next now v)) :
    Proc.Only P (await c decode next) := by
  refine .call h fun now outcome => ?_
  split
  · exact .done _
  · exact hnext _ _

theorem only_checkLoaded (body : VerifyDeviceDto) (nonce : Bytes)
    (device : Option (EnrolledDevice N Key)) :
    Proc.Only P (checkLoaded services body nonce device) := by
  unfold checkLoaded
  split
  · exact .done _
  · split
    · exact .done _
    · exact .done _

theorem only_verifyLoaded (body : VerifyDeviceDto) (nonce : Option Bytes)
    (device : Option (EnrolledDevice N Key)) :
    Proc.Only P (verifyLoaded services body nonce device) := by
  unfold verifyLoaded
  split
  · split
    · exact .done _
    · exact .done _
  · exact .done _

theorem only_checkConsumed {body : VerifyDeviceDto}
    (hload : P (.GET (DeviceRegistry.key body.deviceId))) (nonce : Option Bytes) :
    Proc.Only P (checkConsumed services body nonce) := by
  unfold checkConsumed
  split
  · exact .done _
  · exact only_await hload fun _ _ => only_checkLoaded _ _ _

/-- A request sends nothing else. -/
theorem only_program (services : Services N Key) (fresh : String × Bytes) (request : Request) :
    Proc.Only (Sends services fresh request) (program services fresh request) := by
  cases request with
  | challenge purpose => exact only_await (.issue purpose) fun _ _ => .done _
  | enroll body =>
      simp only [program, enroll]
      split
      · refine only_await (.consume rfl) fun now raw => ?_
        unfold enrolConsumed
        split
        · exact .done _
        · split
          · exact .done _
          · next hverify =>
              refine only_await (.enrol hverify) fun _ enrolled => ?_
              unfold enrolStored
              split
              · exact .done _
              · exact .done _
      · exact .done _
  | verify body =>
      simp only [program, verify]
      split
      · exact only_await (.consume rfl) fun _ _ => only_await (.load rfl) fun _ _ =>
          only_verifyLoaded _ _ _
      · exact .done _
  | guarded r =>
      simp only [program, guarded]
      split
      · exact .done _
      · next body hbody =>
          have hpresents : Endpoints.presents (.guarded r) =
              some (body.challengeId, r.purpose.getD "enroll") := by
            simp [Endpoints.presents, hbody]
          exact only_await (.consume hpresents) fun _ _ => only_checkConsumed (.load hbody) _
  | delete deviceId => exact only_await (.delete deviceId) fun _ _ => .done _

/-- A program at an `await` has not moved, has thrown, or has gone on with a
result. -/
theorem path_await {V : Type} {c : Command} {decode : Option (Json N) → V}
    {next : Int → V → Program N} {log : List (Command × Except String (HttpReply N))}
    {reply : Reply} (h : Proc.Path (await c decode next) log (.done (.ok reply))) :
    ∃ now response result rest, log = (c, .ok response) :: rest ∧ command response = .ok result ∧
      Proc.Path (next now (decode result)) rest (.done (.ok reply)) := by
  rcases h.of_call with ⟨-, hdone⟩ | ⟨now, outcome, rest, rfl, htail⟩
  · cases hdone
  · split at htail
    · cases htail.of_done.2
    · next result heq =>
        obtain ⟨response, rfl, hresult⟩ := bind_eq_ok.mp heq
        exact ⟨now, response, result, rest, rfl, hresult, htail⟩

end Programs

/-- What a success rests on: a challenge that was redeemed for the purpose of the
request and, if it authenticates a device, the key that was read for it. -/
def Redeems (services : Services N Key) (request : Request)
    (log : List (Command × Except String (HttpReply N))) (challengeId purpose : String)
    (nonce : Bytes) : Prop :=
  Endpoints.presents request = some (challengeId, purpose) ∧
    ∃ response result, (.GETDEL (ChallengeStore.key challengeId), .ok response) ∈ log ∧
      command response = .ok result ∧
      ChallengeStore.redeem services.platform (found result) purpose = some nonce

def Reads (services : Services N Key) (log : List (Command × Except String (HttpReply N)))
    (deviceId : String) (device : EnrolledDevice N Key) : Prop :=
  ∃ response result, (.GET (DeviceRegistry.key deviceId), .ok response) ∈ log ∧
    command response = .ok result ∧
    DeviceRegistry.restore services.platform (found result) = some device

def Stores (services : Services N Key) (log : List (Command × Except String (HttpReply N)))
    (deviceId : String) (device : EnrolledDevice N Key) : Prop :=
  ∃ response result, (setIfAbsent (DeviceRegistry.key deviceId)
      (DeviceRegistry.record services.platform device) none, .ok response) ∈ log ∧
    command response = .ok result ∧ stored result = true

section Successes

variable {services : Services N Key} {fresh : String × Bytes} {request : Request}
  {log : List (Command × Except String (HttpReply N))} {reply : Reply}

theorem path_answer {answer : Reply}
    (h : Proc.Path (Deployed.answer answer : Program N) log (.done (.ok reply))) :
    reply = answer := by
  cases h.of_done.2
  rfl

/-- A successful enrolment stores the device of a chain that verified for the
nonce of the challenge. -/
theorem success_enroll {body : EnrollDeviceDto}
    (h : Proc.Path (enroll services body) log (.done (.ok reply)))
    (hsuccess : Endpoints.successful reply = true) :
    ∃ now nonce publicKey securityLevel, reply = .enrolled securityLevel ∧
      Redeems services (.enroll body) log body.challengeId "enroll" nonce ∧
      services.verify now (body.certificateChain.map Base64.decode) nonce =
        .ok (publicKey, securityLevel) ∧
      Stores services log body.deviceId ⟨publicKey, JsNumber.ofInt securityLevel, some now⟩ := by
  unfold enroll at h
  split at h
  · obtain ⟨now, response, result, rest, rfl, hresult, htail⟩ := path_await h
    unfold enrolConsumed at htail
    split at htail
    · cases path_answer htail
      cases hsuccess
    · next nonce hnonce =>
        split at htail
        · cases path_answer htail
          cases hsuccess
        · next publicKey securityLevel hverify =>
            obtain ⟨now', response', result', rest', rfl, hresult', htail'⟩ := path_await htail
            unfold enrolStored at htail'
            split at htail'
            · next hstored =>
                cases path_answer htail'
                exact ⟨now, nonce, publicKey, securityLevel, rfl,
                  ⟨rfl, response, result, by simp, hresult, hnonce⟩, hverify,
                  response', result', by simp, hresult', hstored⟩
            · cases path_answer htail'
              cases hsuccess
  · cases path_answer h
    cases hsuccess

/-- A request that passes as a device has read the key of the device and signed
the nonce of its challenge with it. -/
theorem success_authenticated
    (h : Proc.Path (program services fresh request) log (.done (.ok reply)))
    (hsuccess : Endpoints.successful reply = true) {body : VerifyDeviceDto}
    (hauth : Endpoints.authenticates request = some body) :
    ∃ purpose nonce device, Redeems services request log body.challengeId purpose nonce ∧
      Reads services log body.deviceId device ∧
      services.verifySignature device.publicKey nonce (Base64.decode body.signature) = true := by
  cases request with
  | challenge _ => cases hauth
  | enroll _ => cases hauth
  | delete _ => cases hauth
  | verify body' =>
      cases hauth
      simp only [program, verify] at h
      split at h
      · obtain ⟨now, response, result, rest, rfl, hresult, htail⟩ := path_await h
        obtain ⟨now', response', result', rest', rfl, hresult', htail'⟩ := path_await htail
        unfold verifyLoaded at htail'
        split at htail'
        · next nonce device hnonce hdevice =>
            split at htail'
            · next hsigned =>
                exact ⟨"verify", nonce, device, ⟨rfl, response, result, by simp, hresult, hnonce⟩,
                  ⟨response', result', by simp, hresult', hdevice⟩, hsigned⟩
            · cases path_answer htail'
              cases hsuccess
        · cases path_answer htail'
          cases hsuccess
      · cases path_answer h
        cases hsuccess
  | guarded r =>
      have hcredentials : r.credentials = some body := hauth
      simp only [program, guarded, hcredentials] at h
      obtain ⟨now, response, result, rest, rfl, hresult, htail⟩ := path_await h
      have hchecked : Proc.Path (checkConsumed services body
          (ChallengeStore.redeem services.platform (found result) (r.purpose.getD "enroll")))
          rest (.done (.ok reply)) := htail
      unfold checkConsumed at hchecked
      split at hchecked
      · cases path_answer hchecked
        exact absurd (Endpoints.letPass_successful hsuccess) (by simp)
      · next nonce hnonce =>
          obtain ⟨now', response', result', rest', rfl, hresult', htail'⟩ := path_await hchecked
          unfold checkLoaded at htail'
          split at htail'
          · cases path_answer htail'
            exact absurd (Endpoints.letPass_successful hsuccess) (by simp)
          · next device hdevice =>
              split at htail'
              · next hsigned =>
                  exact ⟨r.purpose.getD "enroll", nonce, device,
                    ⟨by simp [Endpoints.presents, hcredentials], response, result, by simp, hresult,
                      hnonce⟩, ⟨response', result', by simp, hresult', hdevice⟩, hsigned⟩
              · cases path_answer htail'
                exact absurd (Endpoints.letPass_successful hsuccess) (by simp)

/-- Every success redeems a challenge. -/
theorem success_redeems (h : Proc.Path (program services fresh request) log (.done (.ok reply)))
    (hsuccess : Endpoints.successful reply = true) :
    ∃ challengeId purpose nonce, Redeems services request log challengeId purpose nonce := by
  cases hauth : Endpoints.authenticates request with
  | some body =>
      obtain ⟨purpose, nonce, device, hredeems, -⟩ := success_authenticated h hsuccess hauth
      exact ⟨_, purpose, nonce, hredeems⟩
  | none =>
      cases request with
      | enroll body =>
          obtain ⟨now, nonce, publicKey, securityLevel, -, hredeems, -⟩ := success_enroll h hsuccess
          exact ⟨_, _, nonce, hredeems⟩
      | challenge purpose =>
          obtain ⟨now, response, result, rest, rfl, hresult, htail⟩ := path_await h
          cases path_answer htail
          cases hsuccess
      | delete deviceId =>
          obtain ⟨now, response, result, rest, rfl, hresult, htail⟩ := path_await h
          cases path_answer htail
          cases hsuccess
      | verify body => cases hauth
      | guarded r =>
          simp only [Endpoints.authenticates] at hauth
          simp only [program, guarded, hauth] at h
          cases path_answer h
          exact absurd (Endpoints.letPass_successful hsuccess) (by simp)

end Successes

end EncryptionGateway.Attestation.Deployed
