import EncryptionGateway.Attestation.Endpoints
import EncryptionGateway.Attestation.PolicyConfig

/-!
# Configurations that fail closed

Whatever the variables say, the policy of `safePolicyFromConfig` is either one
that was checked as a whole or one that is not configured. Under the latter the
endpoints for enrolment and verification answer 503 and do nothing else.
-/

namespace EncryptionGateway.Attestation

open JavaScript Foundation Common PolicyConfig

/-! ## The policy -/

section Policy

variable {N : Type} [JsNumber N] {json : JsonText N} {googleRootKeys : Except String (List Bytes)}
  {processEnv : Option String} {config : Config}

/-- The digests an operator has listed, in the variable that is used. -/
def ListsDigest (config : Config) (digest : String) : Prop :=
  digest ≠ "" ∧ ∃ entry ∈ split (signingCertDigestsRaw config) ',', digest = plainHex entry

def SoftwareFlag (config : Config) : Prop :=
  config "ATTESTATION_ALLOW_SOFTWARE" = some "true" ∨ config "AEGIS_EMULATOR_MODE" = some "true"

/-- The mistakes that disable the module. -/
inductive Misconfigured (processEnv : Option String) (config : Config) : Prop
  | halfSet (h : ¬ (packageName config ≠ "" ↔ ∃ digest, ListsDigest config digest))
  | illFormed (digest : String) (hlisted : ListsDigest config digest) (h : isDigest digest = false)
  | notBoolean (raw : String) (hraw : config "ATTESTATION_ALLOW_SOFTWARE" = some raw)
      (h : trim raw ≠ "" ∧ raw ≠ "true" ∧ raw ≠ "false")
  | softwareInProduction (hflag : SoftwareFlag config) (h : isProduction processEnv config = true)

/-- The three relaxations of software mode come together. -/
structure RelaxedTogether (policy : AttestationPolicy) : Prop where
  level : policy.trustedRootPublicKeys = none ↔ policy.minSecurityLevel = SOFTWARE
  boot : policy.trustedRootPublicKeys = none ↔ policy.requireVerifiedBoot = false

theorem mem_hexSet_iff {digest : String} :
    digest ∈ hexSet (signingCertDigestsRaw config) ↔ ListsDigest config digest := by
  rw [hexSet, mem_listed, ListsDigest, and_comm]
  simp only [eq_comm]

theorem hexSet_eq_nil_iff :
    hexSet (signingCertDigestsRaw config) = [] ↔ ¬ ∃ digest, ListsDigest config digest := by
  rw [List.eq_nil_iff_forall_not_mem, not_exists]
  simp only [mem_hexSet_iff]

/-- A flag that is spelled out, in either variable, is read or refused. -/
theorem allowSoftware_of_flag {software : Bool} (hflag : SoftwareFlag config)
    (h : allowSoftware json config = .ok software) : software = true := by
  have hgiven : ∀ name, config name = some "true" →
      strictBoolean json config name false = .ok true := by
    intro name hname
    rw [strictBoolean, given, hname]
    rfl
  obtain ⟨allowed, hallowed, h⟩ := bind_eq_ok.mp h
  cases allowed with
  | true => exact (Except.ok.inj h).symm
  | false =>
      rcases hflag with hfirst | hsecond
      · rw [hgiven _ hfirst] at hallowed
        cases hallowed
      · have hread : strictBoolean json config "AEGIS_EMULATOR_MODE" false = .ok software := h
        rw [hgiven _ hsecond] at hread
        exact (Except.ok.inj hread).symm

theorem not_misconfigured {software : Bool} {policy : AttestationPolicy}
    (h : Accepted json processEnv config software policy) : ¬ Misconfigured processEnv config := by
  rintro (hhalf | ⟨digest, hlisted, hill⟩ | ⟨raw, hraw, hblank, htrue, hfalse⟩ |
    ⟨hflag, hproduction⟩)
  · apply hhalf
    rw [ne_eq, h.identity, hexSet_eq_nil_iff, not_not]
  · rw [h.digests digest (mem_hexSet_iff.mpr hlisted)] at hill
    cases hill
  · obtain ⟨allowed, hallowed, -⟩ := bind_eq_ok.mp h.flags
    simp only [strictBoolean, given, hraw, if_neg hblank, if_neg htrue, if_neg hfalse] at hallowed
    cases hallowed
  · have hrefused := h.environment
    rw [allowSoftware_of_flag hflag h.flags, hproduction] at hrefused
    cases hrefused

theorem relaxedTogether_of_accepted {software : Bool} {policy : AttestationPolicy}
    (h : Accepted json processEnv config software policy) : RelaxedTogether policy := by
  refine ⟨?_, ?_⟩
  · rw [h.roots, h.level]
    cases software <;> decide
  · rw [h.roots, h.boot]
    cases software <;> decide

/-- The policy is that of an accepted configuration or the disabled one. -/
theorem safePolicyFromConfig_cases (json : JsonText N) (googleRootKeys : Except String (List Bytes))
    (processEnv : Option String) (config : Config) :
    (∃ software, Accepted json processEnv config software
      (safePolicyFromConfig json googleRootKeys processEnv config)) ∨
      safePolicyFromConfig json googleRootKeys processEnv config = disabledPolicy := by
  unfold safePolicyFromConfig
  split
  · next policy hpolicy => exact Or.inl (accepted_of_policyFromConfig hpolicy)
  · exact Or.inr rfl

section Safe

variable (json : JsonText N) (googleRootKeys : Except String (List Bytes))
  (processEnv : Option String) (config : Config)

/-- A configured policy has the name and the digests that were written. -/
theorem identity_of_configured
    (h : (safePolicyFromConfig json googleRootKeys processEnv config).configured = true) :
    (safePolicyFromConfig json googleRootKeys processEnv config).packageName ≠ "" ∧
      (safePolicyFromConfig json googleRootKeys processEnv config).signingCertDigests ≠ [] ∧
      ∀ digest,
        (digest ∈ (safePolicyFromConfig json googleRootKeys processEnv config).signingCertDigests ↔
          ListsDigest config digest) ∧
        (digest ∈ (safePolicyFromConfig json googleRootKeys processEnv config).signingCertDigests →
          isDigest digest = true) := by
  rcases safePolicyFromConfig_cases json googleRootKeys processEnv config with
    ⟨software, haccepted⟩ | hdisabled
  · have hname := haccepted.configured.mp h
    refine ⟨haccepted.package ▸ hname, ?_, fun digest => ⟨?_, ?_⟩⟩
    · rw [haccepted.signers]
      exact fun hnil => hname (haccepted.identity.mpr hnil)
    · rw [haccepted.signers, mem_hexSet_iff]
    · rw [haccepted.signers]
      exact haccepted.digests digest
  · rw [hdisabled] at h
    cases h

theorem relaxedTogether_safePolicyFromConfig :
    RelaxedTogether (safePolicyFromConfig json googleRootKeys processEnv config) := by
  rcases safePolicyFromConfig_cases json googleRootKeys processEnv config with
    ⟨software, haccepted⟩ | hdisabled
  · exact relaxedTogether_of_accepted haccepted
  · rw [hdisabled]
    constructor
    · decide
    · decide

/-- Only a flag outside of production removes the trusted roots. -/
theorem softwareFlag_of_roots_none
    (h : (safePolicyFromConfig json googleRootKeys processEnv config).trustedRootPublicKeys =
      none) :
    SoftwareFlag config ∧ isProduction processEnv config = false := by
  rcases safePolicyFromConfig_cases json googleRootKeys processEnv config with
    ⟨software, haccepted⟩ | hdisabled
  · have hsoftware := haccepted.roots.mp h
    have hflags := haccepted.flags
    have henvironment := haccepted.environment
    rw [hsoftware] at hflags henvironment
    exact ⟨allowSoftware_eq_true hflags, henvironment⟩
  · rw [hdisabled] at h
    cases h

theorem unconfigured_of_misconfigured (h : Misconfigured processEnv config) :
    (safePolicyFromConfig json googleRootKeys processEnv config).configured = false := by
  rcases safePolicyFromConfig_cases json googleRootKeys processEnv config with
    ⟨software, haccepted⟩ | hdisabled
  · exact absurd h (not_misconfigured haccepted)
  · rw [hdisabled]
    rfl

end Safe

end Policy

/-! ## The endpoints -/

/-- The services of the module under a policy. -/
def Services.ofPolicy {N Cert Key : Type} [JsNumber N] (platform : Platform N Key)
    (x : X509 Cert Key) (policy : AttestationPolicy) (verifySignature : Key → Bytes → Bytes → Bool)
    (devicePolicy : DevicePolicy) : Services N Key where
  platform := platform
  configured := policy.configured
  verify := AttestationService.verify x policy
  verifySignature := verifySignature
  policy := devicePolicy

namespace Endpoints

variable {N Key σ : Type} [JsNumber N] {env : Env N Key σ}

/-- A request that needs the module to be configured. -/
inductive NeedsPolicy : Request → Prop
  | enroll (body : EnrollDeviceDto) : NeedsPolicy (.enroll body)
  | verify (body : VerifyDeviceDto) : NeedsPolicy (.verify body)

/-- The one turn of such a request. -/
theorem resume_unconfigured (hconfigured : env.configured = false) {request : Request}
    (hrequest : NeedsPolicy request) (now : Int) (fresh : String × Bytes) (s : σ) :
    resume env now fresh request .arrived s =
      some (.answer (.failed .ATTESTATION_NOT_CONFIGURED), .answered, s) := by
  cases hrequest with
  | enroll body => simp [resume, enroll, hconfigured, fail, answer]
  | verify body => simp [resume, verify, hconfigured, fail, answer]

/-- Every such request in flight has been answered. -/
def Dismissed (s : State N Key σ) : Prop :=
  ∀ task request stage, s.tasks task = some (request, stage) → NeedsPolicy request →
    stage = .answered

theorem resume_answered {now : Int} {fresh : String × Bytes} {request : Request} {s : σ}
    (hrequest : NeedsPolicy request) : resume env now fresh request .answered s = none := by
  cases hrequest <;> rfl

theorem Step.unconfigured {s s' : State N Key σ} {e : Event N Key} (hstep : Step env s e s')
    (hconfigured : env.configured = false) (hdismissed : Dismissed s) :
    Dismissed s' ∧ (NeedsPolicy e.request →
      e.action = .answer (.failed .ATTESTATION_NOT_CONFIGURED) ∧ s'.store = s.store) := by
  cases hstep with
  | @turn task request stage stage' now action store fresh active clock resumes =>
      have hturn : NeedsPolicy request → action = .answer (.failed .ATTESTATION_NOT_CONFIGURED) ∧
          stage' = .answered ∧ store = s.store := by
        intro hrequest
        have hstage : stage = .arrived := by
          rcases active with hactive | ⟨-, hstage⟩
          · have hanswered := hdismissed task request stage hactive hrequest
            rw [hanswered, resume_answered hrequest] at resumes
            cases resumes
          · exact hstage
        rw [hstage, resume_unconfigured hconfigured hrequest] at resumes
        cases resumes
        exact ⟨rfl, rfl, rfl⟩
      refine ⟨?_, fun hrequest => ⟨(hturn hrequest).1, (hturn hrequest).2.2⟩⟩
      intro task' request' stage'' htask hrequest'
      by_cases heq : task' = task
      · subst heq
        simp only [Function.update_self, Option.some.injEq, Prod.mk.injEq] at htask
        obtain ⟨rfl, rfl⟩ := htask
        exact (hturn hrequest').2.1
      · simp only [Function.update_of_ne heq] at htask
        exact hdismissed task' request' stage'' htask hrequest'

theorem dismissed_of_run (hconfigured : env.configured = false) {clock : Int} {store : σ}
    {tr : List (Event N Key)} {s : State N Key σ}
    (run : Run (Step env) (State.initial clock store) tr s) : Dismissed s := by
  refine run.invariant ?_ fun h hstep => (hstep.unconfigured hconfigured h).1
  intro task request stage htask
  cases htask

/-- In every run an enrolment or a verification is answered 503 at once. -/
theorem unavailable_of_run (hconfigured : env.configured = false) {clock : Int} {store : σ}
    {tr : List (Event N Key)} {s : State N Key σ}
    (run : Run (Step env) (State.initial clock store) tr s) :
    ∀ e ∈ tr, NeedsPolicy e.request → ∃ response, e.action = .answer (.failed response) ∧
      response.statusCode = 503 := by
  intro e he hrequest
  obtain ⟨pre, post, rfl⟩ := List.append_of_mem he
  obtain ⟨t, t', hpre, hstep, -⟩ := run.at_label
  obtain ⟨haction, -⟩ :=
    (hstep.unconfigured hconfigured (dismissed_of_run hconfigured hpre)).2 hrequest
  exact ⟨_, haction, rfl⟩

end Endpoints

/-- For every assignment of the variables: a configured policy has the identity
that was written; the relaxations of software mode come together, out of
production and by a flag; and a mistake leaves the policy unconfigured, under
which enrolment and verification are answered 503 before anything else. -/
theorem attestation_fails_closed {N Cert Key σ : Type} [JsNumber N] (json : JsonText N)
    (googleRootKeys : Except String (List Bytes)) (processEnv : Option String) (config : Config)
    (platform : Platform N Key) (x : X509 Cert Key) (verifySignature : Key → Bytes → Bytes → Bool)
    (devicePolicy : DevicePolicy) (kv : AtomicKvStore σ) :
    let policy := safePolicyFromConfig json googleRootKeys processEnv config
    let env : Env N Key σ :=
      { Services.ofPolicy platform x policy verifySignature devicePolicy with kv := kv }
    (policy.configured = true → policy.packageName ≠ "" ∧ policy.signingCertDigests ≠ [] ∧
      ∀ digest, (digest ∈ policy.signingCertDigests ↔ ListsDigest config digest) ∧
        (digest ∈ policy.signingCertDigests → isDigest digest = true)) ∧
    RelaxedTogether policy ∧
    (policy.trustedRootPublicKeys = none →
      SoftwareFlag config ∧ isProduction processEnv config = false) ∧
    (Misconfigured processEnv config → policy.configured = false) ∧
    (policy.configured = false →
      (∀ request, Endpoints.NeedsPolicy request → ∀ now fresh s,
        Endpoints.resume env now fresh request .arrived s =
          some (.answer (.failed .ATTESTATION_NOT_CONFIGURED), .answered, s)) ∧
      ∀ clock store tr s, Run (Endpoints.Step env) (Endpoints.State.initial clock store) tr s →
        ∀ e ∈ tr, Endpoints.NeedsPolicy e.request → ∃ response,
          e.action = .answer (.failed response) ∧ response.statusCode = 503) := by
  intro policy env
  refine ⟨identity_of_configured json googleRootKeys processEnv config,
    relaxedTogether_safePolicyFromConfig json googleRootKeys processEnv config,
    softwareFlag_of_roots_none json googleRootKeys processEnv config,
    unconfigured_of_misconfigured json googleRootKeys processEnv config,
    fun hconfigured => ⟨?_, ?_⟩⟩
  · intro request hrequest now fresh s
    exact Endpoints.resume_unconfigured hconfigured hrequest now fresh s
  · intro clock store tr s run
    exact Endpoints.unavailable_of_run hconfigured run

section Samples

/-- A package without a signing certificate. -/
def halfSetConfig : Config := fun name =>
  if name = "ATTESTATION_PACKAGE_NAME" then some "com.example.app" else none

example : (safePolicyFromConfig (JsonText.standard ℤ) (.ok []) none halfSetConfig).configured =
    false := rfl

/-- Both halves, in software mode and with the digest in capital letters. -/
def emulatorConfig : Config := fun name =>
  if name = "ATTESTATION_PACKAGE_NAME" then some " com.example.app "
  else if name = "AEGIS_SIGNING_CERT_SHA256" then some (String.ofList (List.replicate 64 'A'))
  else if name = "AEGIS_EMULATOR_MODE" then some "true" else none

example : (safePolicyFromConfig (JsonText.standard ℤ) (.ok []) none emulatorConfig).configured =
      true ∧
    (safePolicyFromConfig (JsonText.standard ℤ) (.ok []) none
      emulatorConfig).trustedRootPublicKeys = none := by
  decide +kernel

end Samples

end EncryptionGateway.Attestation
