import EncryptionGateway.Attestation.History

/-!
# Enrolments and logins that go through

Over the in-process store, whoever holds an unexpired challenge for enrolment
and a chain that verifies enrols a device id that is free, and from then on is
verified with every challenge that it signs. An id that is taken is refused.
-/

namespace EncryptionGateway.Attestation.Endpoints

open JavaScript Foundation

variable {N Key : Type} [JsNumber N] {maxEntries : ℕ} {services : Services N Key}

/-- The store after a challenge was issued. -/
def afterIssue (services : Services N Key) (now : Int) (challengeId : String) (nonce : Bytes)
    (s : MemoryKvStore maxEntries) : MemoryKvStore maxEntries :=
  s.write now (ChallengeStore.key challengeId)
    (ChallengeStore.record services.platform nonce "enroll") (some CHALLENGE_TTL_MS)

/-- The store after a challenge was spent on an enrolment. -/
def afterEnrol (services : Services N Key) (now : Int) (challengeId deviceId : String)
    (device : EnrolledDevice N Key) (s : MemoryKvStore maxEntries) : MemoryKvStore maxEntries :=
  (s.remove (ChallengeStore.key challengeId)).write now (DeviceRegistry.key deviceId)
    (DeviceRegistry.record services.platform device) none

theorem entries_afterIssue_of_room {now : Int} {challengeId : String} {nonce : Bytes}
    {s : MemoryKvStore maxEntries} (hkey : ChallengeStore.key challengeId ∉ s.entries.keys)
    (hroom : s.entries.size < maxEntries) :
    (afterIssue services now challengeId nonce s).entries.entries =
      s.entries.entries ++ [(ChallengeStore.key challengeId,
        ⟨ChallengeStore.record services.platform nonce "enroll", some (now + CHALLENGE_TTL_MS)⟩)] :=
  MemoryKvStore.entries_write_of_room hkey hroom

theorem issue_step (services : Services N Key) {s : State N Key (MemoryKvStore maxEntries)}
    {task : ℕ} (hfree : s.tasks task = none) (challengeId : String) (nonce : Bytes) :
    Step (services.inMemory maxEntries) s
      ⟨task, .challenge none, s.clock, .issue challengeId nonce "enroll"⟩
      ⟨s.clock, afterIssue services s.clock challengeId nonce s.store,
        Function.update s.tasks task (some (.challenge none, .issued challengeId nonce))⟩ :=
  Step.turn (challengeId, nonce) (Or.inr ⟨hfree, rfl⟩) le_rfl rfl

/-- The events of an enrolment that goes through. -/
def enrolment (task : ℕ) (body : EnrollDeviceDto) (now : Int) (nonce : Bytes)
    (device : EnrolledDevice N Key) (securityLevel : ℤ) : List (Event N Key) :=
  [⟨task, .enroll body, now, .consume body.challengeId "enroll" (some nonce)⟩,
    ⟨task, .enroll body, now, .enrol body.deviceId device true⟩,
    ⟨task, .enroll body, now, .answer (.enrolled securityLevel)⟩]

/-- An unexpired challenge is there to be consumed. -/
theorem consume_of_fresh {now : Int} {challengeId purpose : String} {nonce : Bytes} {x : Option Int}
    {s : MemoryKvStore maxEntries}
    (hchallenge : s.entries.get (ChallengeStore.key challengeId) =
      some ⟨ChallengeStore.record services.platform nonce purpose, x⟩)
    (hx : expired x now = false) :
    ChallengeStore.consume services.platform (MemoryKvStore.port maxEntries) now challengeId
      (some purpose) s = (some nonce, s.remove (ChallengeStore.key challengeId)) := by
  have hlookup : MemoryKvStore.lookup now (ChallengeStore.key challengeId) s =
      (some (ChallengeStore.record services.platform nonce purpose), s) :=
    MemoryKvStore.lookup_of_fresh hchallenge hx
  simp only [ChallengeStore.consume, MemoryKvStore.port, MemoryKvStore.getDelete, hlookup,
    Option.getD_some, ChallengeStore.redeem_record, if_true]

/-- Another challenge than the one consumed is no enrolment. -/
theorem get_remove_challenge (s : MemoryKvStore maxEntries) (challengeId deviceId : String) :
    (s.remove (ChallengeStore.key challengeId)).entries.get (DeviceRegistry.key deviceId) =
      s.entries.get (DeviceRegistry.key deviceId) := by
  rw [MemoryKvStore.entries_remove,
    InsertionMap.get_erase_ne _ (challengeKey_ne_deviceKey _ _).symm]

/-- The first turn of a request to enrol. -/
theorem enroll_consumes {now : Int} {body : EnrollDeviceDto} {nonce : Bytes} {x : Option Int}
    {s : MemoryKvStore maxEntries} (hconfigured : services.configured = true)
    (hchallenge : s.entries.get (ChallengeStore.key body.challengeId) =
      some ⟨ChallengeStore.record services.platform nonce "enroll", x⟩)
    (hx : expired x now = false) :
    resume (services.inMemory maxEntries) now ("", []) (.enroll body) .arrived s =
      some (.consume body.challengeId "enroll" (some nonce), .consumed (some nonce),
        s.remove (ChallengeStore.key body.challengeId)) := by
  simp only [resume, enroll, Services.inMemory, hconfigured, if_true, consume]
  simp only [MemoryKvStore.atomic, consume_of_fresh hchallenge hx, Option.getD_some]

/-- Whoever holds an unexpired challenge and a chain that verifies enrols a
device id that is free. -/
theorem enrolment_run (services : Services N Key) {s : State N Key (MemoryKvStore maxEntries)}
    (task : ℕ) (body : EnrollDeviceDto) {nonce : Bytes} {x : Option Int} {publicKey : Key}
    {securityLevel : ℤ} (hconfigured : services.configured = true) (hfree : s.tasks task = none)
    (hchallenge : s.store.entries.get (ChallengeStore.key body.challengeId) =
      some ⟨ChallengeStore.record services.platform nonce "enroll", x⟩)
    (hx : expired x s.clock = false)
    (hid : s.store.entries.get (DeviceRegistry.key body.deviceId) = none)
    (hverify : services.verify s.clock (body.certificateChain.map Base64.decode) nonce =
      .ok (publicKey, securityLevel)) :
    Run (Step (services.inMemory maxEntries)) s
      (enrolment task body s.clock nonce
        ⟨publicKey, JsNumber.ofInt securityLevel, some s.clock⟩ securityLevel)
      ⟨s.clock, afterEnrol services s.clock body.challengeId body.deviceId
          ⟨publicKey, JsNumber.ofInt securityLevel, some s.clock⟩ s.store,
        Function.update s.tasks task (some (.enroll body, .answered))⟩ := by
  let device : EnrolledDevice N Key := ⟨publicKey, JsNumber.ofInt securityLevel, some s.clock⟩
  have hmiss : MemoryKvStore.lookup s.clock (DeviceRegistry.key body.deviceId)
      (s.store.remove (ChallengeStore.key body.challengeId)) =
      (none, s.store.remove (ChallengeStore.key body.challengeId)) :=
    MemoryKvStore.lookup_of_absent ((get_remove_challenge _ _ _).trans hid)
  have henrol : DeviceRegistry.enrol services.platform (MemoryKvStore.port maxEntries) s.clock
      body.deviceId device (s.store.remove (ChallengeStore.key body.challengeId)) =
      (true, afterEnrol services s.clock body.challengeId body.deviceId device s.store) := by
    simp only [DeviceRegistry.enrol, MemoryKvStore.port]
    rw [MemoryKvStore.setIfAbsent_of_absent (congrArg Prod.fst hmiss), hmiss]
    rfl
  have hstored : resume (services.inMemory maxEntries) s.clock ("", []) (.enroll body)
      (.consumed (some nonce)) (s.store.remove (ChallengeStore.key body.challengeId)) =
      some (.enrol body.deviceId device true, .stored securityLevel true,
        afterEnrol services s.clock body.challengeId body.deviceId device s.store) := by
    simp only [resume, enroll, enrolVerified, Services.inMemory, hverify]
    simp only [MemoryKvStore.atomic, henrol, device]
  exact Run.cons (Step.turn ("", []) (Or.inr ⟨hfree, rfl⟩) le_rfl
      (enroll_consumes hconfigured hchallenge hx))
    (Run.cons (next_step hstored) (Run.cons (next_step rfl) (Run.nil _)))

/-- The events of an enrolment that finds the id taken. -/
def refusal (task : ℕ) (body : EnrollDeviceDto) (now : Int) (nonce : Bytes)
    (device : EnrolledDevice N Key) : List (Event N Key) :=
  [⟨task, .enroll body, now, .consume body.challengeId "enroll" (some nonce)⟩,
    ⟨task, .enroll body, now, .enrol body.deviceId device false⟩,
    ⟨task, .enroll body, now, .answer (.failed .DEVICE_ALREADY_ENROLLED)⟩]

/-- The same request is refused when the id is taken. -/
theorem refusal_run (services : Services N Key) {s : State N Key (MemoryKvStore maxEntries)}
    (task : ℕ) (body : EnrollDeviceDto) {nonce : Bytes} {x : Option Int} {publicKey : Key}
    {securityLevel : ℤ} {text : String} (hconfigured : services.configured = true)
    (hfree : s.tasks task = none)
    (hchallenge : s.store.entries.get (ChallengeStore.key body.challengeId) =
      some ⟨ChallengeStore.record services.platform nonce "enroll", x⟩)
    (hx : expired x s.clock = false)
    (hid : s.store.entries.get (DeviceRegistry.key body.deviceId) = some ⟨text, none⟩)
    (hverify : services.verify s.clock (body.certificateChain.map Base64.decode) nonce =
      .ok (publicKey, securityLevel)) :
    Run (Step (services.inMemory maxEntries)) s
      (refusal task body s.clock nonce ⟨publicKey, JsNumber.ofInt securityLevel, some s.clock⟩)
      ⟨s.clock, s.store.remove (ChallengeStore.key body.challengeId),
        Function.update s.tasks task (some (.enroll body, .answered))⟩ := by
  let device : EnrolledDevice N Key := ⟨publicKey, JsNumber.ofInt securityLevel, some s.clock⟩
  have hfound : MemoryKvStore.lookup s.clock (DeviceRegistry.key body.deviceId)
      (s.store.remove (ChallengeStore.key body.challengeId)) =
      (some text, s.store.remove (ChallengeStore.key body.challengeId)) :=
    MemoryKvStore.lookup_of_fresh ((get_remove_challenge _ _ _).trans hid) rfl
  have henrol : DeviceRegistry.enrol services.platform (MemoryKvStore.port maxEntries) s.clock
      body.deviceId device (s.store.remove (ChallengeStore.key body.challengeId)) =
      (false, s.store.remove (ChallengeStore.key body.challengeId)) := by
    simp only [DeviceRegistry.enrol, MemoryKvStore.port]
    rw [MemoryKvStore.setIfAbsent_of_found (congrArg Prod.fst hfound), hfound]
  have hrefused : resume (services.inMemory maxEntries) s.clock ("", []) (.enroll body)
      (.consumed (some nonce)) (s.store.remove (ChallengeStore.key body.challengeId)) =
      some (.enrol body.deviceId device false, .stored securityLevel false,
        s.store.remove (ChallengeStore.key body.challengeId)) := by
    simp only [resume, enroll, enrolVerified, Services.inMemory, hverify]
    simp only [MemoryKvStore.atomic, henrol, device]
  exact Run.cons (Step.turn ("", []) (Or.inr ⟨hfree, rfl⟩) le_rfl
      (enroll_consumes hconfigured hchallenge hx))
    (Run.cons (next_step hrefused) (Run.cons (next_step rfl) (Run.nil _)))

/-- The store holds one enrolment and nothing else. -/
def HoldsOnly (services : Services N Key) (deviceId : String) (device : EnrolledDevice N Key)
    (s : MemoryKvStore maxEntries) : Prop :=
  s.entries.entries = [(DeviceRegistry.key deviceId,
    ⟨DeviceRegistry.record services.platform device, none⟩)]

/-- A challenge is written behind the enrolment. -/
theorem HoldsOnly.entries_write {deviceId : String} {device : EnrolledDevice N Key}
    {s : MemoryKvStore maxEntries} (h : HoldsOnly services deviceId device s)
    (hroom : 2 ≤ maxEntries) (now : Int) (challengeId text : String) (ttlMs : Option Int) :
    (s.write now (ChallengeStore.key challengeId) text ttlMs).entries.entries =
      [(DeviceRegistry.key deviceId, ⟨DeviceRegistry.record services.platform device, none⟩),
        (ChallengeStore.key challengeId, ⟨text, expiry now ttlMs⟩)] := by
  have hkey : ChallengeStore.key challengeId ∉ s.entries.keys := by
    rw [InsertionMap.keys, h]
    simpa using challengeKey_ne_deviceKey _ _
  have hsize : s.entries.size < maxEntries := by
    rw [InsertionMap.size, h]
    exact hroom
  rw [MemoryKvStore.entries_write_of_room hkey hsize, h]
  rfl

/-- A challenge that is drawn some time later, and its signature in Base64. -/
structure Login where
  wait : ℕ
  challengeId : String
  nonce : Bytes
  signature : String

def Login.body (login : Login) (deviceId : String) : VerifyDeviceDto :=
  ⟨login.challengeId, deviceId, login.signature⟩

/-- The events of a login that goes through. -/
def Login.events (login : Login) (task : ℕ) (deviceId : String) (device : EnrolledDevice N Key)
    (now : Int) : List (Event N Key) :=
  [⟨task, .challenge (some "verify"), now, .issue login.challengeId login.nonce "verify"⟩,
    ⟨task, .challenge (some "verify"), now,
      .answer (.challenge login.challengeId (Base64.encode login.nonce))⟩,
    ⟨task + 1, .verify (login.body deviceId), now,
      .consume login.challengeId "verify" (some login.nonce)⟩,
    ⟨task + 1, .verify (login.body deviceId), now, .load deviceId (some device)⟩,
    ⟨task + 1, .verify (login.body deviceId), now, .answer .verified⟩]

/-- What the registry reads back of a device. -/
def restored (services : Services N Key) (device : EnrolledDevice N Key) : EnrolledDevice N Key :=
  ⟨device.publicKey, device.securityLevel,
    services.platform.parseDate (DeviceRegistry.encode services.platform device).enrolledAt⟩

/-- The store while a challenge is open next to the enrolment. -/
def whileOpen (services : Services N Key) (now : Int) (login : Login)
    (s : MemoryKvStore maxEntries) : MemoryKvStore maxEntries :=
  s.write now (ChallengeStore.key login.challengeId)
    (ChallengeStore.record services.platform login.nonce "verify") (some CHALLENGE_TTL_MS)

theorem consume_whileOpen {deviceId : String} {device : EnrolledDevice N Key} (now : Int)
    (login : Login) {s : MemoryKvStore maxEntries} (h : HoldsOnly services deviceId device s)
    (hroom : 2 ≤ maxEntries) :
    ∃ s', ChallengeStore.consume services.platform (MemoryKvStore.port maxEntries) now
        login.challengeId (some "verify") (whileOpen services now login s) =
          (some login.nonce, s') ∧
      HoldsOnly services deviceId device s' := by
  have hentries : (whileOpen services now login s).entries.entries = _ :=
    h.entries_write hroom now login.challengeId _ _
  have hget : (whileOpen services now login s).entries.get (ChallengeStore.key login.challengeId) =
      some ⟨ChallengeStore.record services.platform login.nonce "verify",
        some (now + CHALLENGE_TTL_MS)⟩ := by
    rw [InsertionMap.get_eq_some, hentries]
    exact List.mem_cons_of_mem _ (.head _)
  have hx : expired (some (now + CHALLENGE_TTL_MS)) now = false := by
    simp [expired, CHALLENGE_TTL_MS]
  refine ⟨_, consume_of_fresh hget hx, ?_⟩
  rw [HoldsOnly, MemoryKvStore.entries_remove, InsertionMap.entries_erase, hentries]
  simp [(challengeKey_ne_deviceKey login.challengeId deviceId).symm]

theorem HoldsOnly.get {deviceId : String} {device : EnrolledDevice N Key} {now : Int}
    {s : MemoryKvStore maxEntries} (h : HoldsOnly services deviceId device s)
    (hfinite : (JsNumber.finiteValue device.securityLevel).isSome) :
    DeviceRegistry.get services.platform (MemoryKvStore.port maxEntries) now deviceId s =
      (some (restored services device), s) := by
  have hget : s.entries.get (DeviceRegistry.key deviceId) =
      some ⟨DeviceRegistry.record services.platform device, none⟩ := by
    rw [InsertionMap.get_eq_some, h]
    exact List.mem_singleton.mpr rfl
  rw [DeviceRegistry.get, MemoryKvStore.port]
  simp only [MemoryKvStore.get, MemoryKvStore.lookup_of_fresh hget rfl,
    DeviceRegistry.restore_record services.platform device hfinite, restored]

/-- A login over any store in which the challenge is still there to be consumed
and the device to be loaded. -/
theorem login_steps {σ : Type} (env : Env N Key σ) {s : State N Key σ} {task : ℕ}
    {deviceId : String} {device : EnrolledDevice N Key} (login : Login) {taken left : σ}
    (hconfigured : env.configured = true) (hfree : ∀ i, task ≤ i → s.tasks i = none)
    (hconsume : ChallengeStore.consume env.platform env.kv.toKvStore (s.clock + login.wait)
      login.challengeId (some "verify") (ChallengeStore.issue env.platform env.kv.toKvStore
        (s.clock + login.wait) login.challengeId login.nonce "verify" s.store) =
      (some login.nonce, taken))
    (hload : DeviceRegistry.get env.platform env.kv.toKvStore (s.clock + login.wait) deviceId
      taken = (some device, left))
    (hsigned : env.verifySignature device.publicKey login.nonce (Base64.decode login.signature) =
      true) :
    Run (Step env) s (login.events task deviceId device (s.clock + login.wait))
      ⟨s.clock + login.wait, left,
        Function.update (Function.update s.tasks task
          (some (.challenge (some "verify"), .answered)))
          (task + 1) (some (.verify (login.body deviceId), .answered))⟩ := by
  let now := s.clock + login.wait
  let opened := ChallengeStore.issue env.platform env.kv.toKvStore now login.challengeId login.nonce
    "verify" s.store
  have hconsumed : resume env now ("", []) (.verify (login.body deviceId)) .arrived opened =
      some (.consume login.challengeId "verify" (some login.nonce), .consumed (some login.nonce),
        taken) := by
    simp only [resume, verify, hconfigured, if_true, consume, Login.body, now, opened, hconsume,
      Option.getD_some]
  have hloaded : resume env now ("", []) (.verify (login.body deviceId))
      (.consumed (some login.nonce)) taken =
        some (.load deviceId (some device), .loaded (some login.nonce) (some device), left) := by
    simp only [resume, verify, load, Login.body, now, hload]
  have hverified : resume env now ("", []) (.verify (login.body deviceId))
      (.loaded (some login.nonce) (some device)) left =
        some (.answer .verified, .answered, left) := by
    simp only [resume, verify, judge, Login.body, hsigned, if_true, answer]
  have hissue : Step env s
      ⟨task, .challenge (some "verify"), now, .issue login.challengeId login.nonce "verify"⟩
      ⟨now, opened, Function.update s.tasks task
        (some (.challenge (some "verify"), .issued login.challengeId login.nonce))⟩ :=
    Step.turn (login.challengeId, login.nonce) (Or.inr ⟨hfree task le_rfl, rfl⟩)
      (by simp [now]) rfl
  have harrived : Step env
      ⟨now, opened, Function.update s.tasks task (some (.challenge (some "verify"), .answered))⟩
      ⟨task + 1, .verify (login.body deviceId), now,
        .consume login.challengeId "verify" (some login.nonce)⟩ ⟨now, taken, _⟩ :=
    Step.turn ("", []) (Or.inr ⟨by simp [hfree], rfl⟩) le_rfl hconsumed
  exact .cons hissue (.cons (next_step rfl) (.cons harrived (.cons (next_step hloaded)
    (.cons (next_step hverified) (.nil _)))))

/-- A device that signs the challenge it is given is verified, and its enrolment
is left as it was. -/
theorem login_run (services : Services N Key) {s : State N Key (MemoryKvStore maxEntries)}
    {task : ℕ}
    {deviceId : String} {device : EnrolledDevice N Key} (login : Login)
    (hconfigured : services.configured = true) (hfree : ∀ i, task ≤ i → s.tasks i = none)
    (hholds : HoldsOnly services deviceId device s.store) (hroom : 2 ≤ maxEntries)
    (hfinite : (JsNumber.finiteValue device.securityLevel).isSome)
    (hsigned : services.verifySignature device.publicKey login.nonce
      (Base64.decode login.signature) = true) :
    ∃ s', Run (Step (services.inMemory maxEntries)) s
        (login.events task deviceId (restored services device) (s.clock + login.wait)) s' ∧
      s'.clock = s.clock + login.wait ∧ (∀ i, task + 2 ≤ i → s'.tasks i = none) ∧
      HoldsOnly services deviceId device s'.store := by
  obtain ⟨store, hconsume, hkept⟩ :=
    consume_whileOpen (s.clock + login.wait) login hholds hroom
  refine ⟨_, login_steps _ login hconfigured hfree hconsume (hkept.get hfinite) hsigned,
    rfl, ?_, hkept⟩
  intro i hi
  have h₀ : i ≠ task := by omega
  have h₁ : i ≠ task + 1 := by omega
  simp only [Function.update_of_ne h₁, Function.update_of_ne h₀]
  exact hfree i (by omega)

/-- A challenge that is not in the store yields nothing. -/
theorem spent_step (services : Services N Key) (s : State N Key (MemoryKvStore maxEntries))
    (task : ℕ) (login : Login) (deviceId : String) (hconfigured : services.configured = true)
    (hfree : s.tasks task = none)
    (hgone : s.store.entries.get (ChallengeStore.key login.challengeId) = none) :
    ∃ s', Step (services.inMemory maxEntries) s
      ⟨task, .verify (login.body deviceId), s.clock, .consume login.challengeId "verify" none⟩
      s' := by
  have hresumes : resume (services.inMemory maxEntries) s.clock ("", [])
      (.verify (login.body deviceId)) .arrived s.store =
      some (.consume login.challengeId "verify" none, .consumed none,
        s.store.remove (ChallengeStore.key login.challengeId)) := by
    simp only [resume, verify, Services.inMemory, hconfigured, if_true, consume, Login.body]
    simp only [MemoryKvStore.atomic, ChallengeStore.consume, MemoryKvStore.port,
      MemoryKvStore.getDelete, MemoryKvStore.lookup_of_absent hgone]
    rfl
  exact ⟨_, Step.turn ("", []) (Or.inr ⟨hfree, rfl⟩) le_rfl hresumes⟩

/-- The events of several logins, one after the other. -/
def logins (deviceId : String) (device : EnrolledDevice N Key) (task : ℕ) (clock : Int) :
    List Login → List (Event N Key)
  | [] => []
  | login :: later => login.events task deviceId device (clock + login.wait) ++
      logins deviceId device (task + 2) (clock + login.wait) later

theorem logins_run (services : Services N Key) {deviceId : String} {device : EnrolledDevice N Key}
    (hconfigured : services.configured = true) (hroom : 2 ≤ maxEntries)
    (hfinite : (JsNumber.finiteValue device.securityLevel).isSome) (rounds : List Login)
    (hsigned : ∀ login ∈ rounds, services.verifySignature device.publicKey login.nonce
      (Base64.decode login.signature) = true)
    {s : State N Key (MemoryKvStore maxEntries)} {task : ℕ}
    (hfree : ∀ i, task ≤ i → s.tasks i = none)
    (hholds : HoldsOnly services deviceId device s.store) :
    ∃ s', Run (Step (services.inMemory maxEntries)) s
      (logins deviceId (restored services device) task s.clock rounds) s' := by
  induction rounds generalizing s task with
  | nil => exact ⟨s, .nil s⟩
  | cons login later ih =>
      rw [List.forall_mem_cons] at hsigned
      obtain ⟨t, hrun, hclock, hfree', hkept⟩ :=
        login_run services login hconfigured hfree hholds hroom hfinite hsigned.1
      obtain ⟨s', hlater⟩ := ih hsigned.2 hfree' hkept
      rw [hclock] at hlater
      exact ⟨s', hrun.append hlater⟩

/-- The events of a first enrolment, from the challenge on. -/
def admission (body : EnrollDeviceDto) (now : Int) (nonce : Bytes) (publicKey : Key)
    (securityLevel : ℤ) : List (Event N Key) :=
  ⟨0, .challenge none, now, .issue body.challengeId nonce "enroll"⟩ ::
    enrolment 1 body now nonce ⟨publicKey, JsNumber.ofInt securityLevel, some now⟩ securityLevel

theorem admission_run (services : Services N Key) (maxEntries : ℕ) (clock : Int)
    (body : EnrollDeviceDto) {nonce : Bytes} {publicKey : Key} {securityLevel : ℤ}
    (hconfigured : services.configured = true) (hroom : 0 < maxEntries)
    (hverify : services.verify clock (body.certificateChain.map Base64.decode) nonce =
      .ok (publicKey, securityLevel)) :
    ∃ s, Run (Step (services.inMemory maxEntries)) (State.initial clock .empty)
        (admission body clock nonce publicKey securityLevel) s ∧
      s.clock = clock ∧ (∀ i, 2 ≤ i → s.tasks i = none) ∧
      HoldsOnly services body.deviceId ⟨publicKey, JsNumber.ofInt securityLevel, some clock⟩
        s.store := by
  let s₁ : State N Key (MemoryKvStore maxEntries) :=
    ⟨clock, afterIssue services clock body.challengeId nonce .empty,
      Function.update (fun _ => none) 0 (some (.challenge none, .issued body.challengeId nonce))⟩
  have hissue : Step (services.inMemory maxEntries) (State.initial clock .empty)
      ⟨0, .challenge none, clock, .issue body.challengeId nonce "enroll"⟩ s₁ :=
    issue_step services rfl body.challengeId nonce
  have hentries : s₁.store.entries.entries = [(ChallengeStore.key body.challengeId,
      ⟨ChallengeStore.record services.platform nonce "enroll", some (clock + CHALLENGE_TTL_MS)⟩)] :=
    entries_afterIssue_of_room (by simp [MemoryKvStore.empty, InsertionMap.keys])
      (by simpa [MemoryKvStore.empty] using hroom)
  have hchallenge : s₁.store.entries.get (ChallengeStore.key body.challengeId) =
      some ⟨ChallengeStore.record services.platform nonce "enroll",
        some (clock + CHALLENGE_TTL_MS)⟩ := by
    rw [InsertionMap.get_eq_some, hentries]
    exact List.mem_singleton.mpr rfl
  have hx : expired (some (clock + CHALLENGE_TTL_MS)) clock = false := by
    simp [expired, CHALLENGE_TTL_MS]
  have hid : s₁.store.entries.get (DeviceRegistry.key body.deviceId) = none := by
    rw [InsertionMap.get_eq_none, InsertionMap.keys, hentries]
    simpa using (challengeKey_ne_deviceKey _ _).symm
  have hrun := enrolment_run services (s := s₁) 1 body hconfigured rfl hchallenge hx hid hverify
  refine ⟨_, .cons hissue hrun, rfl, ?_, ?_⟩
  · intro i hi
    have h₀ : i ≠ 0 := by omega
    have h₁ : i ≠ 1 := by omega
    simp only [Function.update_of_ne h₁, s₁, Function.update_of_ne h₀]
  · have hremoved :
        (s₁.store.remove (ChallengeStore.key body.challengeId)).entries.entries = [] := by
      rw [MemoryKvStore.entries_remove, InsertionMap.entries_erase, hentries]
      simp
    have hwrite : (afterEnrol services clock body.challengeId body.deviceId
        ⟨publicKey, JsNumber.ofInt securityLevel, some clock⟩ s₁.store).entries.entries =
          (s₁.store.remove (ChallengeStore.key body.challengeId)).entries.entries ++
          [(DeviceRegistry.key body.deviceId, ⟨DeviceRegistry.record services.platform
            ⟨publicKey, JsNumber.ofInt securityLevel, some clock⟩, none⟩)] :=
      MemoryKvStore.entries_write_of_room (by rw [InsertionMap.keys, hremoved]; simp)
        (by rw [InsertionMap.size, hremoved]; exact hroom)
    rw [hremoved] at hwrite
    exact hwrite

/-- Identifiers in the form of random UUIDs. -/
def uuid (i : ℕ) : String := "00000000-0000-4000-8000-" ++ Nat.repr (100000000000 + i)

theorem uuid_injective : Function.Injective uuid := by
  intro i j h
  have hdigits : Nat.toDigits 10 (100000000000 + i) = Nat.toDigits 10 (100000000000 + j) := by
    rw [← Nat.toList_repr, ← Nat.toList_repr, append_cancel_left h]
  have hvalue : 100000000000 + i = 100000000000 + j := by
    rw [← Nat.ofDigitChars_toDigits (b := 10) (n := 100000000000 + i) (by decide) le_rfl, hdigits,
      Nat.ofDigitChars_toDigits (by decide) le_rfl]
  exact Nat.add_left_cancel hvalue

/-- A device of the sample services. -/
def sampleDevice (publicKey : Bytes) : EnrolledDevice ℤ Bytes := ⟨publicKey, 1, some 0⟩

/-- A request to enrol the device `phone` with the given key. -/
def sampleBody (challenge : ℕ) (publicKey : Bytes) : EnrollDeviceDto :=
  ⟨uuid challenge, "phone", [Base64.encode publicKey]⟩

theorem verify_sampleBody (challenge : ℕ) (now : Int) (publicKey : Bytes) :
    Services.sample.verify now ((sampleBody challenge publicKey).certificateChain.map Base64.decode)
      [42] = .ok (publicKey, 1) := by
  simp only [sampleBody, List.map_cons, List.map_nil, Base64.decode_encode]
  rfl

/-- A challenge is issued and spent on enrolling `phone` with the key 1. -/
def firstBinding : List (Event ℤ Bytes) :=
  ⟨0, .challenge none, 0, .issue (uuid 0) [42] "enroll"⟩ ::
    enrolment 1 (sampleBody 0 [1]) 0 [42] (sampleDevice [1]) 1

theorem firstBinding_run (maxEntries : ℕ) (h : 0 < maxEntries) :
    ∃ s : State ℤ Bytes (MemoryKvStore maxEntries),
      Run (Step (Services.sample.inMemory maxEntries)) (State.initial 0 .empty) firstBinding s ∧
      s.clock = 0 ∧ (∀ task, 2 ≤ task → s.tasks task = none) ∧
      HoldsOnly Services.sample "phone" (sampleDevice [1]) s.store :=
  admission_run Services.sample maxEntries 0 (sampleBody 0 [1]) rfl h (verify_sampleBody 0 0 [1])

/-- A second later `phone` signs a challenge under the key 1. -/
def returning : Login := ⟨1000, uuid 1, [43], Base64.encode [1, 43]⟩

/-- After the first binding: `phone` logs in, somebody else wants to enrol
`phone` with the key 2 and is refused, and the login is sent once more. -/
def returningPhone : List (Event ℤ Bytes) :=
  firstBinding ++ returning.events 2 "phone" (sampleDevice [1]) 1000 ++
    [⟨4, .challenge none, 1000, .issue (uuid 2) [42] "enroll"⟩] ++
    refusal 5 (sampleBody 2 [2]) 1000 [42] ⟨[2], 1, some 1000⟩ ++
    [⟨6, .verify (returning.body "phone"), 1000, .consume (uuid 1) "verify" none⟩]

theorem returningPhone_run (maxEntries : ℕ) (h : 2 ≤ maxEntries) :
    ∃ s : State ℤ Bytes (MemoryKvStore maxEntries),
      Run (Step (Services.sample.inMemory maxEntries)) (State.initial 0 .empty)
        returningPhone s := by
  obtain ⟨bound, hbound, hclock, hfree, hholds⟩ := firstBinding_run maxEntries (by omega)
  have hsigned : Services.sample.verifySignature (sampleDevice [1]).publicKey returning.nonce
      (Base64.decode returning.signature) = true := by
    simp only [returning, Base64.decode_encode]
    rfl
  obtain ⟨t, hlogin, htime, htasks, honly⟩ :=
    login_run Services.sample returning rfl hfree hholds h rfl hsigned
  have hnow : t.clock = 1000 := by rw [htime, hclock]; rfl
  rw [hclock] at hlogin
  -- the second request to enrol, next to the enrolment that stands
  let opened : State ℤ Bytes (MemoryKvStore maxEntries) :=
    ⟨t.clock, afterIssue Services.sample t.clock (uuid 2) [42] t.store,
      Function.update t.tasks 4 (some (.challenge none, .issued (uuid 2) [42]))⟩
  have hissue : Step (Services.sample.inMemory maxEntries) t
      ⟨4, .challenge none, t.clock, .issue (uuid 2) [42] "enroll"⟩ opened :=
    issue_step Services.sample (htasks 4 le_rfl) (uuid 2) [42]
  have hentries : opened.store.entries.entries = _ := honly.entries_write h t.clock (uuid 2) _ _
  have hx : expired (some (t.clock + CHALLENGE_TTL_MS)) opened.clock = false := by
    simp [expired, CHALLENGE_TTL_MS, opened]
  have hopen : ∀ task, 4 < task → opened.tasks task = none := fun task htask =>
    (Function.update_of_ne (by omega) _ _).trans (htasks task (by omega))
  let left : MemoryKvStore maxEntries := opened.store.remove (ChallengeStore.key (uuid 2))
  let refused : State ℤ Bytes (MemoryKvStore maxEntries) := ⟨opened.clock, left,
    Function.update opened.tasks 5 (some (.enroll (sampleBody 2 [2]), .answered))⟩
  have hrefusal : Run (Step (Services.sample.inMemory maxEntries)) opened _ refused :=
    refusal_run Services.sample 5 (sampleBody 2 [2]) rfl (hopen 5 (by decide))
      (InsertionMap.get_eq_some.mpr (by
        rw [hentries]
        exact List.mem_cons_of_mem _ (.head _))) hx
      (InsertionMap.get_eq_some.mpr (by
        rw [hentries]
        exact .head _))
      (verify_sampleBody 2 t.clock [2])
  -- the challenge of the login is gone
  have hgone : left.entries.get (ChallengeStore.key (uuid 1)) = none := by
    rw [InsertionMap.get_eq_none, InsertionMap.keys, MemoryKvStore.entries_remove,
      InsertionMap.entries_erase, hentries]
    simp [challengeKey_ne_deviceKey]
  have hnext : refused.tasks 6 = none := by simp [refused, hopen]
  obtain ⟨s, hreplay⟩ :=
    spent_step Services.sample refused 6 returning "phone" rfl hnext hgone
  rw [hnow] at hissue
  rw [show opened.clock = 1000 from hnow] at hrefusal
  rw [show refused.clock = 1000 from hnow] at hreplay
  exact ⟨s, (((hbound.append hlogin).snoc hissue).append hrefusal).snoc hreplay⟩

end EncryptionGateway.Attestation.Endpoints
