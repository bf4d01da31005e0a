import EncryptionGateway.Attestation.Acceptance
import EncryptionGateway.Attestation.FailClosed
import EncryptionGateway.Attestation.SpentChallenges

/-!
# From a verified request back to a trusted root

Over any store with atomic operations, in every interleaving: whoever passes as
a device has signed a challenge of its own under the key of an enrolment that
stands, and that key is the leaf key of a certificate chain which met the policy
for a challenge issued to enrol with. An administrator who deletes the
enrolment ends this.
-/

namespace EncryptionGateway.Attestation.Endpoints

open JavaScript Foundation

variable {N Key σ : Type} [JsNumber N] {env : Env N Key σ}

/-- The enrolment at position `p` was not deleted since. -/
def StandsAt (tr : List (Event N Key)) (deviceId : String) (device : EnrolledDevice N Key)
    (p : ℕ) : Prop :=
  EnrolledAt tr deviceId device p ∧
    ∀ (i : ℕ) (e : Event N Key), p < i → tr[i]? = some e → e.action ≠ .delete deviceId

/-- Every text held under a device key is the record of an enrolment that stands. -/
def Standing (env : Env N Key σ) (tr : List (Event N Key)) (s : σ) : Prop :=
  ∀ deviceId text x, env.kv.holds s (DeviceRegistry.key deviceId) text x →
    ∃ p device, StandsAt tr deviceId device p ∧
      (JsNumber.finiteValue device.securityLevel).isSome ∧
      text = DeviceRegistry.record env.platform device

/-- The enrolment at position `p` is that of a verified chain: its task consumed
at position `c` a challenge that was issued for an enrolment at position `j`, and
the verification of the chain for this challenge returned the key. -/
def VerifiedAt (env : Env N Key σ) (tr : List (Event N Key)) (deviceId : String) (publicKey : Key)
    (p : ℕ) (chainDer : List Bytes) (nonce : Bytes) (securityLevel : ℤ) (now : Int) : Prop :=
  env.verify now chainDer nonce = .ok (publicKey, securityLevel) ∧
  ∃ j c task body challengeId issued consumed, j < c ∧ c < p ∧
    IssuedAt tr challengeId nonce "enroll" issued j ∧
    tr[c]? = some ⟨task, .enroll body, consumed, .consume challengeId "enroll" (some nonce)⟩ ∧
    issued ≤ consumed ∧ consumed ≤ issued + CHALLENGE_TTL_MS ∧
    tr[p]? = some ⟨task, .enroll body, now,
      .enrol deviceId ⟨publicKey, JsNumber.ofInt securityLevel, some now⟩ true⟩ ∧
    body.deviceId = deviceId ∧ chainDer = body.certificateChain.map Base64.decode

section Runs

variable {clock : Int} {store : σ} {tr : List (Event N Key)} {s s' : State N Key σ}
  {e : Event N Key}

omit [JsNumber N] in
theorem EnrolledAt.append {deviceId : String} {device : EnrolledDevice N Key} {p : ℕ}
    (h : EnrolledAt tr deviceId device p) (more : List (Event N Key)) :
    EnrolledAt (tr ++ more) deviceId device p := by
  obtain ⟨task, request, now, hat⟩ := h
  exact ⟨task, request, now, at_append hat more⟩

omit [JsNumber N] in
theorem IssuedAt.append {challengeId purpose : String} {nonce : Bytes} {now : Int} {j : ℕ}
    (h : IssuedAt tr challengeId nonce purpose now j) (more : List (Event N Key)) :
    IssuedAt (tr ++ more) challengeId nonce purpose now j := by
  obtain ⟨task, request, hat⟩ := h
  exact ⟨task, request, at_append hat more⟩

/-- A turn keeps the enrolments standing that it leaves in the store. -/
theorem Standing.step (h : Standing env tr s.store) (hstep : Step env s e s') :
    Standing env (tr ++ [e]) s'.store := by
  obtain ⟨stage, stage', -, hturn, -⟩ := hstep.turnOf
  intro deviceId text x hx
  rcases hturn.holds hx with ⟨_, _, _, -, hk, -⟩ | ⟨_, device, ha, hfinite, hk, rfl, rfl⟩ |
    ⟨hold, -, hdelete⟩
  · exact absurd hk.symm (challengeKey_ne_deviceKey _ _)
  · obtain rfl := DeviceRegistry.key_injective hk
    refine ⟨tr.length, device, ⟨⟨e.task, e.request, e.now, by rw [at_last, ← ha]⟩, ?_⟩,
      hfinite, rfl⟩
    intro i l hi hat
    have hlt := lt_length_of_at hat
    rw [List.length_append, List.length_singleton] at hlt
    omega
  · obtain ⟨p, device, ⟨hat, hkept⟩, hfinite, ht⟩ := h deviceId text x hold
    refine ⟨p, device, ⟨hat.append _, ?_⟩, hfinite, ht⟩
    intro i l hi hl ha
    rcases at_snoc_iff.mp hl with hl | ⟨-, rfl⟩
    · exact hkept i l hi hl ha
    · exact hdelete deviceId ha rfl

theorem standing_of_run (hblank : Blank env store)
    (run : Run (Step env) (State.initial clock store) tr s) : Standing env tr s.store := by
  refine run.snoc_induction (motive := fun tr s => Standing env tr s.store) ?_ ?_
  · exact fun _ _ _ h => absurd h (hblank _ _ _)
  · intro tr e t u _ h hstep
    exact h.step hstep

/-- A lookup that finds a device found the key of an enrolment that stands. -/
theorem stands_of_loaded (hblank : Blank env store)
    (run : Run (Step env) (State.initial clock store) tr s) {l : ℕ} {deviceId : String}
    {device : EnrolledDevice N Key} (hat : tr[l]? = some e)
    (ha : e.action = .load deviceId (some device)) :
    ∃ p enrolled, p < l ∧ EnrolledAt tr deviceId enrolled p ∧
      enrolled.publicKey = device.publicKey ∧
      ∀ (i : ℕ) (e' : Event N Key), p < i → i < l → tr[i]? = some e' →
        e'.action ≠ .delete deviceId := by
  obtain ⟨pre, post, rfl, rfl⟩ := split_at hat
  obtain ⟨t, t', hpre, hstep, -⟩ := Run.at_label run
  obtain ⟨stage, stage', -, hturn, -⟩ := hstep.turnOf
  obtain ⟨hdevice, -⟩ := hturn.load_inv ha
  have hr : DeviceRegistry.restore env.platform
      (env.kv.get e.now (DeviceRegistry.key deviceId) t.store).1 = some device := hdevice
  obtain ⟨text, htext⟩ := DeviceRegistry.restore_eq_some hr
  obtain ⟨x, hx, -⟩ := env.kv.get_returns htext
  obtain ⟨p, enrolled, ⟨henrolled, hkept⟩, hfinite, rfl⟩ :=
    standing_of_run hblank hpre deviceId text x hx
  rw [htext, DeviceRegistry.restore_record _ _ hfinite] at hr
  obtain rfl := Option.some.inj hr
  refine ⟨p, enrolled, ?_, henrolled.append _, rfl, ?_⟩
  · obtain ⟨_, _, _, hp⟩ := henrolled
    exact lt_length_of_at hp
  · intro i e' hi hl hat'
    rw [List.getElem?_append_left hl] at hat'
    exact hkept i e' hi hat'

theorem TurnOf.enrol_inv {now : Int} {request : Request} {s s' : σ} {stage stage' : Stage N Key}
    {action : Action N Key} {deviceId : String} {device : EnrolledDevice N Key} {stored : Bool}
    (h : TurnOf env now request s stage action stage' s')
    (ha : action = .enrol deviceId device stored) :
    ∃ body nonce publicKey securityLevel, request = .enroll body ∧ stage = .consumed (some nonce) ∧
      body.deviceId = deviceId ∧ device = ⟨publicKey, JsNumber.ofInt securityLevel, some now⟩ ∧
      env.verify now (body.certificateChain.map Base64.decode) nonce =
        .ok (publicKey, securityLevel) := by
  cases h with
  | enrol hrequest hverify hdevice =>
      cases ha
      exact ⟨_, _, _, _, hrequest, rfl, rfl, hdevice, hverify⟩
  | _ => cases ha

/-- Every enrolment is that of a verified chain. -/
theorem verified_of_enrolled (hblank : Blank env store)
    (run : Run (Step env) (State.initial clock store) tr s) {deviceId : String}
    {device : EnrolledDevice N Key} {p : ℕ} (h : EnrolledAt tr deviceId device p) :
    ∃ chainDer nonce securityLevel now,
      VerifiedAt env tr deviceId device.publicKey p chainDer nonce securityLevel now := by
  obtain ⟨task, request, now, hat⟩ := h
  obtain ⟨pre, post, rfl, rfl⟩ := split_at hat
  obtain ⟨t, t', hpre, hstep, -⟩ := Run.at_label run
  obtain ⟨stage, stage', hactive, hturn, -⟩ := hstep.turnOf
  obtain ⟨body, nonce, publicKey, securityLevel, hrequest, rfl, hid, hdevice, hverify⟩ :=
    hturn.enrol_inv rfl
  obtain rfl : request = .enroll body := hrequest
  obtain rfl : device = ⟨publicKey, JsNumber.ofInt securityLevel, some now⟩ := hdevice
  rcases hactive with hactive | ⟨-, hstage⟩
  · obtain ⟨c, consumed, challengeId, purpose, hpresents, hc⟩ := explained_of_run hpre hactive
    obtain ⟨rfl, rfl⟩ : body.challengeId = challengeId ∧ "enroll" = purpose := by
      simpa [presents] using hpresents
    obtain ⟨j, issued, hj, hissued, hle, hlate, -⟩ := issued_of_consumed hblank hpre hc rfl
    exact ⟨_, nonce, securityLevel, now, hverify, j, c, task, body, _, issued, consumed, hj,
      lt_length_of_at hc, hissued.append _, at_append hc _, hle, hlate, hat, hid, rfl⟩
  · cases hstage

end Runs

/-- A request that passes as a device carries a signature over the challenge it
spends, under the leaf key of a chain that met the policy, inside the dates that
could be read, when the device was enrolled with it; the enrolment was not
deleted before the key was looked up. -/
theorem authenticated_under_attested_key {Cert : Type} (platform : Platform N Key)
    (x : X509 Cert Key) (policy : AttestationPolicy) (verifySignature : Key → Bytes → Bytes → Bool)
    (devicePolicy : DevicePolicy) (kv : AtomicKvStore σ) (env : Env N Key σ)
    (henv : env =
      { Services.ofPolicy platform x policy verifySignature devicePolicy with kv := kv })
    (clock : Int) (store : σ) (tr : List (Event N Key)) (s : State N Key σ)
    (hblank : Blank env store)
    (run : Run (Step env) (State.initial clock store) tr s) (k : ℕ) (e : Event N Key)
    (body : VerifyDeviceDto) (hsucceeds : SucceedsAt tr k e)
    (hauth : authenticates e.request = some body) :
    ∃ p c l publicKey challengeId purpose signed consumed, p < l ∧ c < l ∧ l < k ∧
      presents e.request = some (challengeId, purpose) ∧
      tr[c]? = some ⟨e.task, e.request, consumed, .consume challengeId purpose (some signed)⟩ ∧
      verifySignature publicKey signed (Base64.decode body.signature) = true ∧
      (∀ (i : ℕ) (e' : Event N Key), p < i → i < l → tr[i]? = some e' →
        e'.action ≠ .delete body.deviceId) ∧
      ∃ chainDer nonce securityLevel now chain,
        VerifiedAt env tr body.deviceId publicKey p chainDer nonce securityLevel now ∧
        AttestationService.Meets x policy chainDer nonce chain publicKey securityLevel ∧
        ∀ cert ∈ chain, AttestationService.outsideValidity x now cert = false := by
  obtain ⟨challengeId, j, c, signed, purpose, issued, consumed, -, -, hpresents, -, hc, -, -,
    hdevice⟩ :=
    spends_of_succeeds hblank run hsucceeds
  obtain ⟨l, -, loaded, device, -, hcl, hlk, hl, hsig, -⟩ := hdevice body hauth
  obtain ⟨p, enrolled, hpl, henrolled, hkey, hkept⟩ := stands_of_loaded hblank run hl rfl
  obtain ⟨chainDer, nonce, securityLevel, now, hverified⟩ :=
    verified_of_enrolled hblank run henrolled
  have hverify := hverified.1
  subst henv
  obtain ⟨chain, hmeets, hvalidity⟩ := AttestationService.verify_eq_ok_iff_meets.mp hverify
  exact ⟨p, c, l, enrolled.publicKey, challengeId, purpose, signed, consumed, hpl, hcl, hlk,
    hpresents, hc, hkey ▸ hsig, hkept, chainDer, nonce, securityLevel, now, chain, hverified,
    hmeets, hvalidity⟩

section Logins

variable {maxEntries : ℕ} {services : Services N Key}

/-- A device whose chain the verification accepts enrols, and is verified with
every challenge that it signs under the attested key, at any times later. -/
theorem attested_device_logs_in (services : Services N Key) (maxEntries : ℕ) (clock : Int)
    (body : EnrollDeviceDto) (nonce : Bytes) (publicKey : Key) (securityLevel : ℤ)
    (rounds : List Login) (hconfigured : services.configured = true) (hroom : 2 ≤ maxEntries)
    (hverify : services.verify clock (body.certificateChain.map Base64.decode) nonce =
      .ok (publicKey, securityLevel))
    (hsigned : ∀ login ∈ rounds, services.verifySignature publicKey login.nonce
      (Base64.decode login.signature) = true) :
    ∃ s, Run (Step (services.inMemory maxEntries)) (State.initial clock .empty)
      (admission body clock nonce publicKey securityLevel ++
        logins body.deviceId
          (restored services ⟨publicKey, JsNumber.ofInt securityLevel, some clock⟩) 2 clock
          rounds) s := by
  obtain ⟨t, hadmission, hclock, hfree, hholds⟩ :=
    admission_run services maxEntries clock body hconfigured (by omega) hverify
  have hfinite : (JsNumber.finiteValue (JsNumber.ofInt securityLevel : N)).isSome := by
    rw [JsNumber.finiteValue_ofInt]
    rfl
  obtain ⟨s, hlogins⟩ := logins_run services hconfigured hroom hfinite rounds hsigned hfree hholds
  rw [hclock] at hlogins
  exact ⟨s, hadmission.append hlogins⟩

end Logins

section Samples

/-- The platform of keys of one byte, with a policy and certificates to match. -/
def attestedServices : Services ℤ UInt8 :=
  Services.ofPolicy {
    json := JsonText.standard ℤ
    exportSpki := fun key => [key]
    createPublicKey := List.head?
    createPublicKey_exportSpki := fun _ => rfl
    toISOString := fun _ => "1970-01-01T00:00:00.050Z"
    parseDate := fun s => if s = "1970-01-01T00:00:00.050Z" then some 50 else none }
    AttestationService.sampleX509 AttestationService.samplePolicy
    (fun key data signature => decide (signature = key :: data)) .required

/-- The device `phone` with the key 2, attested under the root key 1. -/
def phone : EnrollDeviceDto :=
  ⟨uuid 0, "phone", [[2, 1, 7], [1, 1]].map Base64.encode⟩

def phoneLogin (challenge : ℕ) : Login := ⟨1000, uuid challenge, [9], Base64.encode [2, 9]⟩

theorem verify_phone : attestedServices.verify 50 (phone.certificateChain.map Base64.decode) [7] =
    .ok (2, 1) := by
  simp only [phone, List.map_cons, List.map_nil, Base64.decode_encode]
  rfl

theorem signed_phone {login : Login} (h : login ∈ [phoneLogin 1, phoneLogin 2]) :
    attestedServices.verifySignature 2 login.nonce (Base64.decode login.signature) = true := by
  rcases List.mem_pair.mp h with rfl | rfl <;>
  · simp only [phoneLogin, Base64.decode_encode]
    rfl

/-- Two logins, a second apart. -/
theorem attested_device_logs_in_phone :
    ∃ s, Run (Step (attestedServices.inMemory 2)) (State.initial 50 .empty)
      (admission phone 50 [7] 2 1 ++
        logins "phone" (restored attestedServices ⟨2, 1, some 50⟩) 2 50
          [phoneLogin 1, phoneLogin 2]) s :=
  attested_device_logs_in attestedServices 2 50 phone [7] 2 1 _ rfl le_rfl verify_phone
    fun _ => signed_phone

/-- The second of these logins is traced back to a chain that met the policy. -/
theorem authenticated_under_attested_key_phone :
    ∃ publicKey signed chainDer nonce chain securityLevel, [2, 9] = publicKey :: signed ∧
      AttestationService.Meets AttestationService.sampleX509 AttestationService.samplePolicy
        chainDer nonce chain publicKey securityLevel := by
  obtain ⟨t, hadmission, hclock, hfree, hholds⟩ :=
    admission_run attestedServices 2 50 phone rfl (by decide) verify_phone
  obtain ⟨s, hlogins⟩ := logins_run attestedServices rfl le_rfl rfl [phoneLogin 1, phoneLogin 2]
    (fun _ => signed_phone) hfree hholds
  rw [hclock] at hlogins
  have hblank : Blank (attestedServices.inMemory 2) .empty := by
    intro k text x h
    cases h
  obtain ⟨p, c, l, publicKey, challengeId, purpose, signed, consumed, -, -, -,
    hpresents, hc, hsig, -, chainDer, nonce, securityLevel, now, chain, -, hmeets, -⟩ :=
    authenticated_under_attested_key attestedServices.platform AttestationService.sampleX509
      AttestationService.samplePolicy attestedServices.verifySignature .required
      (MemoryKvStore.atomic 2) (attestedServices.inMemory 2) rfl 50 .empty _ s hblank
      (hadmission.append hlogins) 13
        ⟨5, .verify ((phoneLogin 2).body "phone"), 2050, .answer .verified⟩
      ((phoneLogin 2).body "phone") ⟨rfl, .verified, rfl, rfl⟩ rfl
  have hsigned : Base64.decode (Base64.encode [2, 9]) = publicKey :: signed :=
    of_decide_eq_true hsig
  rw [Base64.decode_encode] at hsigned
  exact ⟨publicKey, signed, chainDer, nonce, chain, securityLevel, hsigned, hmeets⟩

end Samples

end EncryptionGateway.Attestation.Endpoints
