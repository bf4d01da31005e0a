import EncryptionGateway.Attestation.AttestationService
import EncryptionGateway.Common.Config

/-!
# The attestation policy of a configuration

`policyFromConfig` reads the variables of the attestation module, under their
present names or their former ones, and `safePolicyFromConfig` replaces what it
refuses by a policy that is not configured.

## Implementation notes

Sets are lists without repetition, in the order of insertion. The roots are
parsed by the platform; `googleRootKeys` is what that gives.
-/

namespace EncryptionGateway.Attestation

open JavaScript Foundation Common

/-- `SecurityLevel.software`. -/
def SOFTWARE : ℤ := 0

/-- `SecurityLevel.trustedEnvironment`. -/
def TRUSTED_ENVIRONMENT : ℤ := 1

namespace PolicyConfig

/-- `value.replace(/:/g, '').trim().toLowerCase()`. -/
def plainHex (value : String) : String :=
  toLowerCase (trim (String.ofList (value.toList.filter fun c => c ≠ ':')))

/-- The entries of a comma-separated list that are not empty once normalised. -/
def listed (normalise : String → String) (raw : String) : List String :=
  (((split raw ',').map normalise).filter fun value => value ≠ "").eraseDups

/-- Normalises a list of hex digests: colons optional, case-insensitive. -/
def hexSet (raw : String) : List String := listed plainHex raw

def plainSerial (value : String) : String :=
  String.ofList (AttestationService.dropLeadingZeros (plainHex value).toList)

/-- Certificate serials drop insignificant leading zeros; digests do not. -/
def serialSet (raw : String) : List String := listed plainSerial raw

/-- `config.get(name) || config.get(former) || ''`. -/
def either (config : Config) (name former : String) : String :=
  match config name with
  | none => (config former).getD ""
  | some value => if value = "" then (config former).getD "" else value

def packageName (config : Config) : String :=
  trim (either config "ATTESTATION_PACKAGE_NAME" "AEGIS_PACKAGE_NAME")

def signingCertDigestsRaw (config : Config) : String :=
  either config "ATTESTATION_SIGNING_CERT_SHA256" "AEGIS_SIGNING_CERT_SHA256"

/-- `(config.get('NODE_ENV') || process.env.NODE_ENV) === 'production'`. -/
def isProduction (processEnv : Option String) (config : Config) : Bool :=
  match config "NODE_ENV" with
  | none => processEnv = some "production"
  | some value => if value = "" then processEnv = some "production" else value = "production"

def isLowerHex (c : Char) : Bool := c.isDigit || ('a' ≤ c && c ≤ 'f')

/-- `/^[0-9a-f]{64}$/.test(digest)`. -/
def isDigest (digest : String) : Bool :=
  digest.toList.length = 64 && digest.toList.all isLowerHex

section Policy

variable {N : Type} [JsNumber N] (json : JsonText N) (googleRootKeys : Except String (List Bytes))
  (processEnv : Option String) (config : Config)

/-- The second flag is read when the first is off. -/
def allowSoftware : Except String Bool := do
  let allowed ← strictBoolean json config "ATTESTATION_ALLOW_SOFTWARE" false
  if allowed then .ok true else strictBoolean json config "AEGIS_EMULATOR_MODE" false

/-- Software mode trusts every root and needs none. -/
def trustedRoots (software : Bool) : Except String (Option (List Bytes)) :=
  if software then .ok none else googleRootKeys.map some

def policyFromConfig : Except String AttestationPolicy := do
  let packageName := packageName config
  let software ← allowSoftware json config
  -- software mode defeats the module and must never be reachable in production
  require (!(software && isProduction processEnv config))
    "ATTESTATION_ALLOW_SOFTWARE must not be true when NODE_ENV=production"
  let signingCertDigests := hexSet (signingCertDigestsRaw config)
  signingCertDigests.forM fun digest => require (isDigest digest)
    ("ATTESTATION_SIGNING_CERT_SHA256 must be SHA-256 hex digests (got " ++
      json.stringify (.str digest) ++ ")")
  let configured := packageName ≠ "" && 0 < signingCertDigests.length
  require (!(!configured && (packageName ≠ "" || 0 < signingCertDigests.length)))
    ("ATTESTATION_PACKAGE_NAME and ATTESTATION_SIGNING_CERT_SHA256 must both be set, " ++
      "or both be empty")
  let trustedRootPublicKeys ← trustedRoots googleRootKeys software
  .ok {
    configured := configured
    trustedRootPublicKeys := trustedRootPublicKeys
    packageName := packageName
    signingCertDigests := signingCertDigests
    minSecurityLevel := if software then SOFTWARE else TRUSTED_ENVIRONMENT
    requireVerifiedBoot := !software
    revokedSerials :=
      serialSet (either config "ATTESTATION_REVOKED_SERIALS" "AEGIS_REVOKED_SERIALS") }

/-- The policy of a configuration that is refused. -/
def disabledPolicy : AttestationPolicy where
  configured := false
  trustedRootPublicKeys := some []
  packageName := ""
  signingCertDigests := []
  minSecurityLevel := TRUSTED_ENVIRONMENT
  requireVerifiedBoot := true
  revokedSerials := []

/-- A half-finished configuration leaves the module disabled. -/
def safePolicyFromConfig : AttestationPolicy :=
  match policyFromConfig json googleRootKeys processEnv config with
  | .ok policy => policy
  | .error _ => disabledPolicy

end Policy

theorem mem_listed {normalise : String → String} {raw value : String} :
    value ∈ listed normalise raw ↔
      (∃ entry ∈ split raw ',', normalise entry = value) ∧ value ≠ "" := by
  rw [listed, List.mem_eraseDups, List.mem_filter, List.mem_map, decide_eq_true_eq]

section Policy

variable {N : Type} [JsNumber N] {json : JsonText N} {googleRootKeys : Except String (List Bytes)}
  {processEnv : Option String} {config : Config}

/-- Software mode is on only where one of its flags is spelled out. -/
theorem allowSoftware_eq_true (h : allowSoftware json config = .ok true) :
    config "ATTESTATION_ALLOW_SOFTWARE" = some "true" ∨
      config "AEGIS_EMULATOR_MODE" = some "true" := by
  obtain ⟨allowed, hallowed, h⟩ := bind_eq_ok.mp h
  cases allowed with
  | true => exact Or.inl (strictBoolean_eq_true hallowed)
  | false => exact Or.inr (strictBoolean_eq_true h)

theorem trustedRoots_eq_none {software : Bool} {roots : Option (List Bytes)}
    (h : trustedRoots googleRootKeys software = .ok roots) : roots = none ↔ software = true := by
  cases software with
  | true =>
      cases h
      simp
  | false =>
      obtain ⟨keys, -, rfl⟩ := map_eq_ok.mp h
      simp

/-- What an accepted configuration satisfies, and the policy it gives. -/
structure Accepted (json : JsonText N) (processEnv : Option String) (config : Config)
    (software : Bool) (policy : AttestationPolicy) : Prop where
  flags : allowSoftware json config = .ok software
  environment : (software && isProduction processEnv config) = false
  digests : ∀ digest ∈ hexSet (signingCertDigestsRaw config), isDigest digest = true
  identity : packageName config = "" ↔ hexSet (signingCertDigestsRaw config) = []
  configured : policy.configured = true ↔ packageName config ≠ ""
  roots : policy.trustedRootPublicKeys = none ↔ software = true
  package : policy.packageName = packageName config
  signers : policy.signingCertDigests = hexSet (signingCertDigestsRaw config)
  level : policy.minSecurityLevel = if software then SOFTWARE else TRUSTED_ENVIRONMENT
  boot : policy.requireVerifiedBoot = !software
  revoked : policy.revokedSerials =
    serialSet (either config "ATTESTATION_REVOKED_SERIALS" "AEGIS_REVOKED_SERIALS")

theorem accepted_of_policyFromConfig {policy : AttestationPolicy}
    (h : policyFromConfig json googleRootKeys processEnv config = .ok policy) :
    ∃ software, Accepted json processEnv config software policy := by
  simp only [policyFromConfig, bind_eq_ok, require_eq_ok, forM_eq_ok] at h
  obtain ⟨software, hflags, _, henvironment, _, hdigests, _, hidentity, roots, hroots, h⟩ := h
  cases h
  have hempty : 0 < (hexSet (signingCertDigestsRaw config)).length ↔
      hexSet (signingCertDigestsRaw config) ≠ [] := List.length_pos_iff
  have hidentity : packageName config = "" ↔ hexSet (signingCertDigestsRaw config) = [] := by
    simp only [Bool.not_eq_true', Bool.and_eq_false_iff, Bool.or_eq_false_iff,
      decide_eq_false_iff_not, Bool.not_eq_false', Bool.and_eq_true, decide_eq_true_eq, hempty]
      at hidentity
    rcases hidentity with ⟨hname, hset⟩ | ⟨hname, hset⟩
    · exact iff_of_false hname hset
    · exact iff_of_true (not_not.mp hname) (not_not.mp hset)
  refine ⟨software, ?_⟩
  exact {
    flags := hflags
    environment := (Bool.not_eq_true' _).mp henvironment
    digests := hdigests
    identity := hidentity
    configured := by
      rw [Bool.and_eq_true, decide_eq_true_eq, decide_eq_true_eq, hempty, ne_eq, ne_eq, ← hidentity,
        and_self_iff]
    roots := trustedRoots_eq_none hroots
    package := rfl
    signers := rfl
    level := rfl
    boot := rfl
    revoked := rfl }

end Policy

end PolicyConfig

end EncryptionGateway.Attestation
