import EncryptionGateway.Attestation.Endpoints
import EncryptionGateway.Attestation.PolicyConfig
import EncryptionGateway.Encryption.WrittenKeys
import EncryptionGateway.Gateway.Requests
import EncryptionGateway.Proxy.RouteEntries

/-!
# The startup

The constructors of the providers read their variables, `bootstrap` hands the
trusted proxies to Express and the size limit to body-parser, reads the port and
starts to listen, and the keys are loaded. A gateway that starts has every
control as it is spelled or as it is by default; a spelling that no reader of
the gateway admits stops the startup and is named by the error. What Express and
body-parser refuse stops it with an error of theirs. The attestation module
never stops it, except for its device policy.

## Implementation notes

The providers are created one after the other. The order only decides which of
several errors is reported, and nothing here rests on it. What Express takes as
trusted proxies and body-parser as a limit are parameters.
-/

namespace EncryptionGateway.Common

open JavaScript

theorem ReplayProtection.default_maxSkewMs_pos : 0 < 60000 := by decide

theorem ReplayProtection.default_maxEntries_pos : 0 < 10000 := by decide

theorem ReplayProtection.positive_pos (n : { n : ℕ // 0 < n }) : 0 < n.1 := n.2

/-- The constructor. -/
def ReplayProtection.configured {N : Type} [JsNumber N] (json : JsonText N) (config : Config) :
    Except String ReplayProtection := do
  let required ← strictBoolean json config "REQUIRE_REQUEST_NONCE" false
  let maxSkewMs ← RateLimitGuard.positive json config "REQUEST_MAX_SKEW_MS" 60000
    default_maxSkewMs_pos
  let maxEntries ← RateLimitGuard.positive json config "REPLAY_CACHE_MAX_ENTRIES" 10000
    default_maxEntries_pos
  return ⟨required, maxSkewMs, maxEntries, positive_pos maxSkewMs, positive_pos maxEntries⟩

end EncryptionGateway.Common

namespace EncryptionGateway.Attestation

open JavaScript Common PolicyConfig

/-- Which store is built. -/
inductive KvBackend
  | upstash (url token : String)
  | memory
deriving DecidableEq, Repr

def kvStoreFromConfig (config : Config) : Except String KvBackend :=
  let url := trim (either config "ATTESTATION_KV_REST_URL" "AEGIS_KV_REST_URL")
  let token := trim (either config "ATTESTATION_KV_REST_TOKEN" "AEGIS_KV_REST_TOKEN")
  if url ≠ "" ∧ token ≠ "" then .ok (.upstash url token)
  else if url ≠ "" ∨ token ≠ "" then
    .error ("ATTESTATION_KV_REST_URL (or AEGIS_KV_REST_URL) and ATTESTATION_KV_REST_TOKEN " ++
      "(or AEGIS_KV_REST_TOKEN) must both be set, or both be empty")
  else .ok .memory

def safeKvStoreFromConfig (config : Config) : KvBackend :=
  match kvStoreFromConfig config with
  | .ok backend => backend
  | .error _ => .memory

/-- The variable that decides on the device policy. -/
def devicePolicyName (config : Config) : String :=
  if (config "ATTESTATION_DEVICE_POLICY").isSome then "ATTESTATION_DEVICE_POLICY"
  else "AEGIS_DEVICE_POLICY"

def devicePolicyFromConfig {N : Type} [JsNumber N] (json : JsonText N) (config : Config) :
    Except String DevicePolicy :=
  match (config "ATTESTATION_DEVICE_POLICY").or (config "AEGIS_DEVICE_POLICY") with
  | none => .ok .required
  | some _ =>
      (enumValue json config (devicePolicyName config) ["required", "report"] "required").map
        fun value => if value = "report" then .report else .required

end EncryptionGateway.Attestation

namespace EncryptionGateway.Gateway

open JavaScript Foundation Common Encryption Proxy Attestation PolicyConfig

/-- `true`, `false`, a hop count, or a preset or list for Express. -/
inductive TrustProxy
  | all (trusted : Bool)
  | hops (count : ℕ)
  | addresses (value : String)
deriving DecidableEq, Repr

def parseTrustProxy (value : String) : TrustProxy :=
  if value = "true" then .all true
  else if value = "false" then .all false
  else if isDigits value then .hops (Nat.ofDigitChars 10 value.toList 0)
  else .addresses value

/-- The ports that are spelled in digits. -/
def isPort (raw : String) : Bool :=
  isDigits raw && 1 ≤ Nat.ofDigitChars 10 raw.toList 0 && Nat.ofDigitChars 10 raw.toList 0 ≤ 65535

variable {N K : Type} [JsNumber N]

def parsePort (json : JsonText N) (processEnv : Config) : Except String ℕ :=
  match given processEnv "PORT" with
  | none => .ok 3000
  | some raw =>
      if isPort raw then .ok (Nat.ofDigitChars 10 raw.toList 0)
      else .error ("PORT must be an integer between 1 and 65535 (got " ++
        json.stringify (.str raw) ++ ")")

/-- What `AUTO_GENERATE_KEYS` is by default. -/
def autoGenerateByDefault (processEnv config : Config) : Bool :=
  let environment := (config "NODE_ENV").or (processEnv "NODE_ENV")
  environment ≠ some "production" && environment ≠ some "test"

/-- The process that listens. -/
structure Deployment (K : Type) where
  server : Server K
  autoGenerateKeys : Bool
  attestation : AttestationPolicy
  kvStore : KvBackend
  devicePolicy : DevicePolicy
  /-- `app.set('trust proxy', …)`, if it is called. -/
  trustProxy : Option TrustProxy
  /-- The limit of `app.useBodyParser('json', …)`. -/
  bodyLimit : String
  /-- The origins of `app.enableCors(…)`, which is called if there are any. -/
  corsOrigins : List String
  port : ℕ

/-- What the startup calls, apart from the configuration. -/
structure Machine (N K : Type) [JsNumber N] where
  json : JsonText N
  parseUrl : UrlParser
  node : NodeCrypto K
  sources : KeySources K
  googleRootKeys : Except String (List Bytes)
  /-- Express compiles the addresses it is to trust, and throws where it cannot. -/
  setTrustProxy : TrustProxy → Except String Unit
  /-- body-parser parses the limit, and throws where it cannot. -/
  useBodyParser : String → Except String Unit
  processEnv : Config

/-- The trust in proxies is set where the variable is not empty. -/
def trustProxyFromEnv (processEnv : Config) : Option TrustProxy :=
  ((processEnv "TRUST_PROXY").filter fun value => value ≠ "").map parseTrustProxy

def bodyLimitFromEnv (processEnv : Config) : String :=
  ((processEnv "MAX_BODY_SIZE").filter fun value => value ≠ "").getD "1mb"

def corsOriginsFromEnv (processEnv : Config) : List String :=
  TargetPolicy.splitList ((processEnv "CORS_ORIGINS").getD "")

def bootstrap (machine : Machine N K) (config : Config) : Except String (Deployment K) := do
  let autoGenerateKeys ← strictBoolean machine.json config "AUTO_GENERATE_KEYS"
    (autoGenerateByDefault machine.processEnv config)
  let proxyService ← ProxyService.create machine.json machine.parseUrl config
  let replayProtection ← ReplayProtection.configured machine.json config
  let encryptResponse ← strictBoolean machine.json config "ENCRYPT_RESPONSE" true
  let attestation := safePolicyFromConfig machine.json machine.googleRootKeys
    (machine.processEnv "NODE_ENV") config
  let devicePolicy ← devicePolicyFromConfig machine.json config
  let rateLimit ← RateLimitGuard.configured machine.json config
  (trustProxyFromEnv machine.processEnv).forM machine.setTrustProxy
  machine.useBodyParser (bodyLimitFromEnv machine.processEnv)
  let port ← parsePort machine.json machine.processEnv
  -- the module is initialised when the application starts to listen
  let encryptionService ← machine.sources.onModuleInit machine.node autoGenerateKeys config
  .ok {
    server := ⟨rateLimit, ⟨encryptionService, proxyService, replayProtection, encryptResponse⟩⟩
    autoGenerateKeys := autoGenerateKeys
    attestation := attestation
    kvStore := safeKvStoreFromConfig config
    devicePolicy := devicePolicy
    trustProxy := trustProxyFromEnv machine.processEnv
    bodyLimit := bodyLimitFromEnv machine.processEnv
    corsOrigins := corsOriginsFromEnv machine.processEnv
    port := port }

section Controls

variable (machine : Machine N K) (config : Config)

def numberControls : List (Control ℕ) :=
  [⟨"REQUEST_MAX_SKEW_MS", 60000⟩, ⟨"REPLAY_CACHE_MAX_ENTRIES", 10000⟩, ⟨"THROTTLE_TTL_MS", 60000⟩,
    ⟨"THROTTLE_LIMIT", 60⟩, ⟨"THROTTLE_MAX_ENTRIES", 10000⟩, ⟨"UPSTREAM_TIMEOUT_MS", 15000⟩,
    ⟨"MAX_UPSTREAM_RESPONSE_BYTES", 5 * 1024 * 1024⟩]

def autoGenerateControl : Control Bool :=
  ⟨"AUTO_GENERATE_KEYS", autoGenerateByDefault machine.processEnv config⟩

def flagControls : List (Control Bool) :=
  [⟨"REQUIRE_REQUEST_NONCE", false⟩, ⟨"ENCRYPT_RESPONSE", true⟩, ⟨"ALLOW_HTTP_UPSTREAM", false⟩,
    autoGenerateControl machine config]

/-- The settings of `numberControls`, in their order. -/
def Deployment.numbers (d : Deployment K) : List ℕ :=
  let controller := d.server.controller
  [controller.replayProtection.maxSkewMs, controller.replayProtection.maxEntries,
    d.server.rateLimit.ttlMs, d.server.rateLimit.limit, d.server.rateLimit.maxEntries,
    controller.proxyService.timeoutMs, controller.proxyService.maxResponseBytes]

/-- The settings of `flagControls`, in their order. -/
def Deployment.flags (d : Deployment K) : List Bool :=
  let controller := d.server.controller
  [controller.replayProtection.required, controller.encryptResponse,
    controller.proxyService.allowHttp, d.autoGenerateKeys]

def hostEntries : List String := TargetPolicy.splitList ((config "ALLOWED_TARGET_HOSTS").getD "")

def routeEntries : List String := TargetPolicy.splitList ((config "ALLOWED_ROUTES").getD "")

def targets : Except String TargetPolicy :=
  TargetPolicy.create machine.parseUrl ((config "ALLOWED_TARGET_HOSTS").getD "")
    ((config "ALLOWED_ROUTES").getD "")

/-- The keys, once the flag is read. -/
def keys : Except String (EncryptionService K) :=
  machine.sources.onModuleInit machine.node ((autoGenerateControl machine config).flag config)
    config

/-- Every variable is spelled as its reader admits, every entry of the target
lists is well formed, Express takes the trusted proxies and body-parser the
limit, and the keys are loaded. -/
structure Legal : Prop where
  numbers : ∀ c ∈ numberControls, Control.Admits config c.name Control.isPositive
  flags : ∀ c ∈ flagControls machine config, Control.Admits config c.name Control.isFlag
  devicePolicy : Control.Admits config (devicePolicyName config) ["required", "report"].contains
  trustProxy : ∀ trust ∈ trustProxyFromEnv machine.processEnv, machine.setTrustProxy trust = .ok ()
  bodyLimit : machine.useBodyParser (bodyLimitFromEnv machine.processEnv) = .ok ()
  port : Control.Admits machine.processEnv "PORT" isPort
  hosts : ∀ entry ∈ hostEntries config, ∃ rule, TargetPolicy.parseHostEntry entry = .ok rule
  routes : ∀ entry ∈ routeEntries config,
    ∃ rule, TargetPolicy.parseRouteEntry machine.parseUrl entry = .ok rule
  keys : ∃ service, keys machine config = .ok service

/-- The process has every setting as it is spelled or as it is by default. -/
structure AsConfigured (d : Deployment K) : Prop where
  numbers : d.numbers = numberControls.map fun c => c.number config
  flags : d.flags = (flagControls machine config).map fun c => c.flag config
  devicePolicy : d.devicePolicy = .report ↔ given config (devicePolicyName config) = some "report"
  trustProxy : d.trustProxy = trustProxyFromEnv machine.processEnv
  bodyLimit : d.bodyLimit = bodyLimitFromEnv machine.processEnv
  corsOrigins : d.corsOrigins = corsOriginsFromEnv machine.processEnv
  port : d.port = (Control.mk "PORT" 3000).number machine.processEnv
  targets : targets machine config = .ok d.server.controller.proxyService.policy
  keys : keys machine config = .ok d.server.controller.encryptionService
  attestation : d.attestation =
    safePolicyFromConfig machine.json machine.googleRootKeys (machine.processEnv "NODE_ENV") config
  kvStore : d.kvStore = safeKvStoreFromConfig config

/-- The error names a variable whose spelling is not admitted, or is that of an
entry of the target lists, of Express for the trusted proxies, of body-parser
for the limit, or of the keys. -/
inductive Blames : String → Prop
  | number {e : String} (c : Control ℕ) (hc : c ∈ numberControls)
      (hnot : ¬ Control.Admits config c.name Control.isPositive) (h : Control.Names c.name e) :
      Blames e
  | flag {e : String} (c : Control Bool) (hc : c ∈ flagControls machine config)
      (hnot : ¬ Control.Admits config c.name Control.isFlag) (h : Control.Names c.name e) : Blames e
  | devicePolicy {e : String}
      (hnot : ¬ Control.Admits config (devicePolicyName config) ["required", "report"].contains)
      (h : Control.Names (devicePolicyName config) e) : Blames e
  | trustProxy {e : String} (trust : TrustProxy)
      (htrust : trust ∈ trustProxyFromEnv machine.processEnv)
      (h : machine.setTrustProxy trust = .error e) : Blames e
  | bodyLimit {e : String}
      (h : machine.useBodyParser (bodyLimitFromEnv machine.processEnv) = .error e) : Blames e
  | port {e : String} (hnot : ¬ Control.Admits machine.processEnv "PORT" isPort)
      (h : Control.Names "PORT" e) : Blames e
  | host {e : String} (entry : String) (hentry : entry ∈ hostEntries config)
      (h : TargetPolicy.parseHostEntry entry = .error e) : Blames e
  | route {e : String} (entry : String) (hentry : entry ∈ routeEntries config)
      (h : TargetPolicy.parseRouteEntry machine.parseUrl entry = .error e) : Blames e
  | keys {e : String} (h : keys machine config = .error e) : Blames e

end Controls

section Readers

variable {machine : Machine N K} {config : Config}

theorem settles_number (c : Control ℕ) (hc : c ∈ numberControls) :
    Settles (Control.Admits config c.name Control.isPositive) (· = c.number config)
      (Blames machine config) (positiveInteger machine.json config c.name c.fallback) :=
  c.settles_positiveInteger.congr Iff.rfl fun _ hnot h => .number c hc hnot h

theorem settles_positive (c : Control ℕ) (hfallback : 0 < c.fallback) (hc : c ∈ numberControls) :
    Settles (Control.Admits config c.name Control.isPositive) (fun n => n.1 = c.number config)
      (Blames machine config)
      (RateLimitGuard.positive machine.json config c.name c.fallback hfallback) := by
  have hread : Settles _ (· = c.number config) (Blames machine config)
      (positiveInteger machine.json config c.name c.fallback) := settles_number c hc
  unfold RateLimitGuard.positive
  split
  · next e he =>
      rcases hread with ⟨-, n, hn, -⟩ | ⟨hnot, e', he', hblames⟩
      · rw [he] at hn
        cases hn
      · rw [he] at he'
        cases he'
        exact Or.inr ⟨hnot, e, rfl, hblames⟩
  · next n hn =>
      rcases hread with ⟨hadmits, n', hn', heq⟩ | ⟨-, e', he', -⟩
      · rw [hn] at hn'
        cases hn'
        exact Or.inl ⟨hadmits, _, rfl, heq⟩
      · rw [hn] at he'
        cases he'

theorem settles_flag (c : Control Bool) (hc : c ∈ flagControls machine config) :
    Settles (Control.Admits config c.name Control.isFlag) (· = c.flag config)
      (Blames machine config) (strictBoolean machine.json config c.name c.fallback) :=
  c.settles_strictBoolean.congr Iff.rfl fun _ hnot h => .flag c hc hnot h

theorem settles_trustProxy :
    Settles (∀ trust ∈ trustProxyFromEnv machine.processEnv, machine.setTrustProxy trust = .ok ())
      (fun _ => True) (Blames machine config)
      ((trustProxyFromEnv machine.processEnv).forM machine.setTrustProxy) :=
  (settles_forM _ _).congr Iff.rfl fun _ _ ⟨trust, htrust, h⟩ => .trustProxy trust htrust h

theorem settles_bodyLimit :
    Settles (machine.useBodyParser (bodyLimitFromEnv machine.processEnv) = .ok ()) (fun _ => True)
      (Blames machine config) (machine.useBodyParser (bodyLimitFromEnv machine.processEnv)) := by
  have hlimit := settles_forM (some (bodyLimitFromEnv machine.processEnv)) machine.useBodyParser
  refine hlimit.congr (by simp) fun e _ h => ?_
  obtain ⟨limit, hsome, h⟩ := h
  cases hsome
  exact .bodyLimit h

theorem settles_port :
    Settles (Control.Admits machine.processEnv "PORT" isPort)
      (· = (Control.mk "PORT" 3000).number machine.processEnv)
      (Blames machine config) (parsePort machine.json machine.processEnv) := by
  unfold parsePort Control.number
  have hadmits : Control.Admits machine.processEnv "PORT" isPort ↔
      ∀ raw, given machine.processEnv "PORT" = some raw → isPort raw = true := Iff.rfl
  cases hgiven : given machine.processEnv "PORT" with
  | none => exact Or.inl ⟨hadmits.mpr (by simp [hgiven]), _, rfl, rfl⟩
  | some raw =>
      cases hlegal : isPort raw with
      | true =>
          refine Or.inl ⟨hadmits.mpr fun raw' h => ?_, _, if_pos hlegal, rfl⟩
          rw [hgiven] at h
          exact Option.some.inj h ▸ hlegal
      | false =>
          have hnot : ¬ Control.Admits machine.processEnv "PORT" isPort := by
            intro h
            rw [hadmits.mp h raw hgiven] at hlegal
            cases hlegal
          refine Or.inr ⟨hnot, _, if_neg (Bool.eq_false_iff.mp hlegal), .port hnot ?_⟩
          have hname : "PORT".toList <+:
              "PORT must be an integer between 1 and 65535 (got ".toList := by
            decide
          rw [String.append_assoc, Control.Names, String.toList_append]
          exact hname.trans (List.prefix_append _ _)

theorem settles_devicePolicy :
    Settles (Control.Admits config (devicePolicyName config) ["required", "report"].contains)
      (fun policy => policy = .report ↔ given config (devicePolicyName config) = some "report")
      (Blames machine config) (devicePolicyFromConfig machine.json config) := by
  have hread : Settles
      (Control.Admits config (devicePolicyName config) ["required", "report"].contains)
      (· = (given config (devicePolicyName config)).getD "required") (Blames machine config)
      (enumValue machine.json config (devicePolicyName config) ["required", "report"] "required") :=
    Control.settles_enumValue.congr Iff.rfl fun _ => .devicePolicy
  unfold devicePolicyFromConfig
  split
  · next hunset =>
      obtain ⟨hpresent, hformer⟩ := Option.or_eq_none_iff.mp hunset
      have hgiven : given config (devicePolicyName config) = none := by
        simp [devicePolicyName, given, hpresent, hformer]
      refine Or.inl ⟨fun raw h => ?_, _, rfl, by simp [hgiven]⟩
      rw [hgiven] at h
      cases h
  · refine hread.map fun value hvalue => ?_
    rw [hvalue]
    cases given config (devicePolicyName config) with
    | none => simp
    | some raw => by_cases hreport : raw = "report" <;> simp [hreport]

theorem settles_replayProtection :
    Settles (Control.Admits config "REQUIRE_REQUEST_NONCE" Control.isFlag ∧
        Control.Admits config "REQUEST_MAX_SKEW_MS" Control.isPositive ∧
        Control.Admits config "REPLAY_CACHE_MAX_ENTRIES" Control.isPositive)
      (fun replay => replay.required = (Control.mk "REQUIRE_REQUEST_NONCE" false).flag config ∧
        replay.maxSkewMs = (Control.mk "REQUEST_MAX_SKEW_MS" 60000).number config ∧
        replay.maxEntries = (Control.mk "REPLAY_CACHE_MAX_ENTRIES" 10000).number config)
      (Blames machine config) (ReplayProtection.configured machine.json config) := by
  unfold ReplayProtection.configured
  refine (settles_flag ⟨_, _⟩ (by simp [flagControls])).bind fun required hrequired => ?_
  refine (settles_positive ⟨_, _⟩ _ (by simp [numberControls])).bind fun maxSkewMs hskew => ?_
  refine ((settles_positive ⟨_, _⟩ _ (by simp [numberControls])).map fun maxEntries hentries => ?_)
  exact ⟨hrequired, hskew, hentries⟩

theorem settles_rateLimit :
    Settles (Control.Admits config "THROTTLE_TTL_MS" Control.isPositive ∧
        Control.Admits config "THROTTLE_LIMIT" Control.isPositive ∧
        Control.Admits config "THROTTLE_MAX_ENTRIES" Control.isPositive)
      (fun guard => guard.ttlMs = (Control.mk "THROTTLE_TTL_MS" 60000).number config ∧
        guard.limit = (Control.mk "THROTTLE_LIMIT" 60).number config ∧
        guard.maxEntries = (Control.mk "THROTTLE_MAX_ENTRIES" 10000).number config)
      (Blames machine config) (RateLimitGuard.configured machine.json config) := by
  unfold RateLimitGuard.configured
  refine (settles_positive ⟨_, _⟩ _ (by simp [numberControls])).bind fun ttlMs httl => ?_
  refine (settles_positive ⟨_, _⟩ _ (by simp [numberControls])).bind fun limit hlimit => ?_
  refine (settles_positive ⟨_, _⟩ _ (by simp [numberControls])).map fun maxEntries hentries => ?_
  exact ⟨httl, hlimit, hentries⟩

theorem settles_targets :
    Settles ((∀ entry ∈ hostEntries config, ∃ rule, TargetPolicy.parseHostEntry entry = .ok rule) ∧
        ∀ entry ∈ routeEntries config,
          ∃ rule, TargetPolicy.parseRouteEntry machine.parseUrl entry = .ok rule)
      (fun policy => targets machine config = .ok policy) (Blames machine config)
      (targets machine config) := by
  have hhosts := (settles_mapM (hostEntries config) TargetPolicy.parseHostEntry).congr Iff.rfl
    fun e _ ⟨entry, hentry, h⟩ => (Blames.host entry hentry h : Blames machine config e)
  have hroutes := (settles_mapM (routeEntries config)
    (TargetPolicy.parseRouteEntry machine.parseUrl)).congr Iff.rfl
      fun e _ ⟨entry, hentry, h⟩ => (Blames.route entry hentry h : Blames machine config e)
  have hboth := hhosts.bind fun hosts _ =>
    hroutes.map (f := fun routes => TargetPolicy.mk (hosts ++ routes))
    (W := fun _ => True) fun _ _ => trivial
  exact hboth.value

theorem settles_proxyService :
    Settles (((∀ entry ∈ hostEntries config, ∃ rule, TargetPolicy.parseHostEntry entry = .ok rule) ∧
          ∀ entry ∈ routeEntries config,
            ∃ rule, TargetPolicy.parseRouteEntry machine.parseUrl entry = .ok rule) ∧
        Control.Admits config "ALLOW_HTTP_UPSTREAM" Control.isFlag ∧
        Control.Admits config "UPSTREAM_TIMEOUT_MS" Control.isPositive ∧
        Control.Admits config "MAX_UPSTREAM_RESPONSE_BYTES" Control.isPositive)
      (fun service => targets machine config = .ok service.policy ∧
        service.allowHttp = (Control.mk "ALLOW_HTTP_UPSTREAM" false).flag config ∧
        service.timeoutMs = (Control.mk "UPSTREAM_TIMEOUT_MS" 15000).number config ∧
        service.maxResponseBytes =
          (Control.mk "MAX_UPSTREAM_RESPONSE_BYTES" (5 * 1024 * 1024)).number config)
      (Blames machine config) (ProxyService.create machine.json machine.parseUrl config) := by
  unfold ProxyService.create
  refine settles_targets.bind fun policy hpolicy => ?_
  refine (settles_flag ⟨_, _⟩ (by simp [flagControls])).bind fun allowHttp hallowHttp => ?_
  refine (settles_number ⟨_, _⟩ (by simp [numberControls])).bind fun timeoutMs htimeout => ?_
  refine (settles_number ⟨_, _⟩ (by simp [numberControls])).map fun maxResponseBytes hmax => ?_
  exact ⟨hpolicy, hallowHttp, htimeout, hmax⟩

theorem legal_iff :
    (Control.Admits config "AUTO_GENERATE_KEYS" Control.isFlag ∧
      (((∀ entry ∈ hostEntries config, ∃ rule, TargetPolicy.parseHostEntry entry = .ok rule) ∧
          ∀ entry ∈ routeEntries config,
            ∃ rule, TargetPolicy.parseRouteEntry machine.parseUrl entry = .ok rule) ∧
        Control.Admits config "ALLOW_HTTP_UPSTREAM" Control.isFlag ∧
        Control.Admits config "UPSTREAM_TIMEOUT_MS" Control.isPositive ∧
        Control.Admits config "MAX_UPSTREAM_RESPONSE_BYTES" Control.isPositive) ∧
      (Control.Admits config "REQUIRE_REQUEST_NONCE" Control.isFlag ∧
        Control.Admits config "REQUEST_MAX_SKEW_MS" Control.isPositive ∧
        Control.Admits config "REPLAY_CACHE_MAX_ENTRIES" Control.isPositive) ∧
      Control.Admits config "ENCRYPT_RESPONSE" Control.isFlag ∧
      Control.Admits config (devicePolicyName config) ["required", "report"].contains ∧
      (Control.Admits config "THROTTLE_TTL_MS" Control.isPositive ∧
        Control.Admits config "THROTTLE_LIMIT" Control.isPositive ∧
        Control.Admits config "THROTTLE_MAX_ENTRIES" Control.isPositive) ∧
      (∀ trust ∈ trustProxyFromEnv machine.processEnv, machine.setTrustProxy trust = .ok ()) ∧
      machine.useBodyParser (bodyLimitFromEnv machine.processEnv) = .ok () ∧
      Control.Admits machine.processEnv "PORT" isPort ∧
      ∃ service, keys machine config = .ok service) ↔ Legal machine config := by
  constructor
  · rintro ⟨hauto, ⟨⟨hhosts, hroutes⟩, hhttp, htimeout, hbytes⟩, ⟨hnonce, hskew, hentries⟩,
      hencrypt, hdevice, ⟨httl, hlimit, hmax⟩, htrust, hbody, hport, hkeys⟩
    exact {
      numbers := by simp [numberControls, *]
      flags := by simp [flagControls, autoGenerateControl, *]
      devicePolicy := hdevice
      trustProxy := htrust
      bodyLimit := hbody
      port := hport
      hosts := hhosts
      routes := hroutes
      keys := hkeys }
  · intro h
    have hnumbers := h.numbers
    have hflags := h.flags
    simp only [numberControls, List.forall_mem_cons] at hnumbers
    simp only [flagControls, autoGenerateControl, List.forall_mem_cons] at hflags
    obtain ⟨hskew, hentries, httl, hlimit, hmax, htimeout, hbytes, -⟩ := hnumbers
    obtain ⟨hnonce, hencrypt, hhttp, hauto, -⟩ := hflags
    exact ⟨hauto, ⟨⟨h.hosts, h.routes⟩, hhttp, htimeout, hbytes⟩, ⟨hnonce, hskew, hentries⟩,
      hencrypt, h.devicePolicy, ⟨httl, hlimit, hmax⟩, h.trustProxy, h.bodyLimit, h.port, h.keys⟩

theorem settles_bootstrap :
    Settles (Legal machine config) (AsConfigured machine config) (Blames machine config)
      (bootstrap machine config) := by
  refine Settles.congr ?_ legal_iff fun _ _ h => h
  unfold bootstrap
  refine (settles_flag (autoGenerateControl machine config) (by simp [flagControls])).bind
    fun _ hauto => ?_
  subst hauto
  refine settles_proxyService.bind fun proxyService hproxy => ?_
  refine settles_replayProtection.bind fun replayProtection hreplay => ?_
  refine (settles_flag ⟨"ENCRYPT_RESPONSE", true⟩ (by simp [flagControls])).bind
    fun encryptResponse hencrypt => ?_
  refine settles_devicePolicy.bind fun devicePolicy hdevice => ?_
  refine settles_rateLimit.bind fun rateLimit hrate => ?_
  refine settles_trustProxy.bind fun _ _ => ?_
  refine settles_bodyLimit.bind fun _ _ => ?_
  refine settles_port.bind fun port hport => ?_
  refine (settles_self fun _ => .keys).map fun service hservice => ?_
  obtain ⟨htargets, hhttp, htimeout, hbytes⟩ := hproxy
  obtain ⟨hnonce, hskew, hentries⟩ := hreplay
  obtain ⟨httl, hlimit, hmax⟩ := hrate
  exact {
    numbers := by simp [Deployment.numbers, numberControls, *]
    flags := by simp [Deployment.flags, flagControls, *]
    devicePolicy := hdevice
    trustProxy := rfl
    bodyLimit := rfl
    corsOrigins := rfl
    port := hport
    targets := htargets
    keys := hservice
    attestation := rfl
    kvStore := rfl }

end Readers

/-- The gateway starts where every variable is admitted and everything handed to
Express and body-parser is taken, and only there; then it has every setting as
it is spelled or as it is by default, and otherwise the error says what is not
admitted. -/
theorem startup_fails_closed (machine : Machine N K) (config : Config) :
    ((∃ deployment, bootstrap machine config = .ok deployment) ↔ Legal machine config) ∧
      (∀ deployment, bootstrap machine config = .ok deployment →
        AsConfigured machine config deployment) ∧
      ∀ message, bootstrap machine config = .error message → Blames machine config message :=
  ⟨settles_bootstrap.exists_iff, fun _ => settles_bootstrap.of_ok,
    fun _ => settles_bootstrap.of_error⟩

/-- What the policy and the store of the attestation module are read from. -/
def attestationVariables : List String :=
  ["ATTESTATION_PACKAGE_NAME", "AEGIS_PACKAGE_NAME", "ATTESTATION_SIGNING_CERT_SHA256",
    "AEGIS_SIGNING_CERT_SHA256", "ATTESTATION_ALLOW_SOFTWARE", "AEGIS_EMULATOR_MODE",
    "ATTESTATION_REVOKED_SERIALS", "AEGIS_REVOKED_SERIALS", "ATTESTATION_KV_REST_URL",
    "AEGIS_KV_REST_URL", "ATTESTATION_KV_REST_TOKEN", "AEGIS_KV_REST_TOKEN"]

/-- The configurations differ in the attestation variables at most. -/
def SameOutside (config config' : Config) : Prop :=
  ∀ name, name ∉ attestationVariables → config' name = config name

section SameOutside

variable {machine : Machine N K} {config config' : Config}

theorem SameOutside.given (h : SameOutside config config') {name : String}
    (hname : name ∉ attestationVariables) : given config' name = given config name := by
  rw [Common.given, Common.given, h name hname]

theorem SameOutside.flag (h : SameOutside config config') {json : JsonText N} {name : String}
    {fallback : Bool} (hname : name ∉ attestationVariables) :
    strictBoolean json config' name fallback = strictBoolean json config name fallback := by
  rw [strictBoolean, strictBoolean, h.given hname]

theorem SameOutside.number (h : SameOutside config config') {json : JsonText N} {name : String}
    {fallback : ℕ} (hname : name ∉ attestationVariables) :
    positiveInteger json config' name fallback = positiveInteger json config name fallback := by
  rw [positiveInteger, positiveInteger, h.given hname]

theorem SameOutside.positive (h : SameOutside config config') {json : JsonText N} {name : String}
    {fallback : ℕ} {hfallback : 0 < fallback} (hname : name ∉ attestationVariables) :
    RateLimitGuard.positive json config' name fallback hfallback =
      RateLimitGuard.positive json config name fallback hfallback := by
  have hread : positiveInteger json config' name fallback =
      positiveInteger json config name fallback :=
    h.number hname
  unfold RateLimitGuard.positive
  split <;> split <;> simp_all

theorem SameOutside.proxyService (h : SameOutside config config') :
    ProxyService.create machine.json machine.parseUrl config' =
      ProxyService.create machine.json machine.parseUrl config := by
  rw [ProxyService.create, ProxyService.create, h _ (by decide), h _ (by decide),
    h.flag (by decide), h.number (by decide), h.number (by decide)]

theorem SameOutside.replayProtection (h : SameOutside config config') :
    ReplayProtection.configured machine.json config' =
      ReplayProtection.configured machine.json config := by
  rw [ReplayProtection.configured, ReplayProtection.configured, h.flag (by decide),
    h.positive (by decide), h.positive (by decide)]

theorem SameOutside.rateLimit (h : SameOutside config config') :
    RateLimitGuard.configured machine.json config' =
      RateLimitGuard.configured machine.json config := by
  rw [RateLimitGuard.configured, RateLimitGuard.configured, h.positive (by decide),
    h.positive (by decide), h.positive (by decide)]

theorem SameOutside.devicePolicy (h : SameOutside config config') :
    devicePolicyFromConfig machine.json config' = devicePolicyFromConfig machine.json config := by
  have hname : devicePolicyName config' = devicePolicyName config := by
    rw [devicePolicyName, devicePolicyName, h "ATTESTATION_DEVICE_POLICY" (by decide)]
  have hgiven : Common.given config' (devicePolicyName config) =
      Common.given config (devicePolicyName config) := by
    unfold devicePolicyName
    split
    · exact h.given (by decide)
    · exact h.given (by decide)
  rw [devicePolicyFromConfig, devicePolicyFromConfig, h "ATTESTATION_DEVICE_POLICY" (by decide),
    h "AEGIS_DEVICE_POLICY" (by decide), hname, enumValue, enumValue, hgiven]

theorem SameOutside.keys (h : SameOutside config config') (autoGenerateKeys : Bool) :
    machine.sources.onModuleInit machine.node autoGenerateKeys config' =
      machine.sources.onModuleInit machine.node autoGenerateKeys config := by
  have htrimmed : ∀ name ∉ attestationVariables,
      trimmedValue config' name = trimmedValue config name := by
    intro name hname
    rw [trimmedValue, trimmedValue, h name hname]
  have hinline := htrimmed "RSA_PRIVATE_KEY" (by decide)
  have hpaths := htrimmed "RSA_PRIVATE_KEY_PATH" (by decide)
  rw [KeySources.onModuleInit, KeySources.onModuleInit, KeySources.loadPrivateKeys,
    KeySources.loadPrivateKeys, KeySources.configuredPems, KeySources.configuredPems, hinline,
    hpaths]

end SameOutside

/-- The policy and the store of the attestation module never stop the startup:
whatever their variables hold, the process is the same but for these two. -/
theorem attestation_never_stops_startup (machine : Machine N K) {config config' : Config}
    (h : SameOutside config config') :
    bootstrap machine config' = (bootstrap machine config).map fun deployment =>
      { deployment with
        attestation := safePolicyFromConfig machine.json machine.googleRootKeys
          (machine.processEnv "NODE_ENV") config'
        kvStore := safeKvStoreFromConfig config' } := by
  have hauto : autoGenerateByDefault machine.processEnv config' =
      autoGenerateByDefault machine.processEnv config := by
    rw [autoGenerateByDefault, autoGenerateByDefault, h "NODE_ENV" (by decide)]
  have hautoGenerate : strictBoolean machine.json config' "AUTO_GENERATE_KEYS"
      (autoGenerateByDefault machine.processEnv config') =
      strictBoolean machine.json config "AUTO_GENERATE_KEYS"
        (autoGenerateByDefault machine.processEnv config) := by
    rw [hauto, h.flag (by decide)]
  have hencrypt : strictBoolean machine.json config' "ENCRYPT_RESPONSE" true =
      strictBoolean machine.json config "ENCRYPT_RESPONSE" true := h.flag (by decide)
  simp only [bootstrap, Foundation.map_bind, hautoGenerate, hencrypt, h.proxyService,
    h.replayProtection, h.rateLimit, h.devicePolicy, h.keys]
  rfl

section Samples

def letteredMachine : Machine ℤ UInt8 where
  json := JsonText.standard ℤ
  parseUrl := TargetPolicy.pathParser
  node := NodeCrypto.labelled
  sources := KeySources.lettered
  googleRootKeys := .ok []
  setTrustProxy trust :=
    match trust with
    | .addresses value =>
        if value = "loopback" then .ok () else .error ("invalid IP address: " ++ value)
    | _ => .ok ()
  useBodyParser limit :=
    if limit = "1mb" then .ok () else .error ("option limit \"" ++ limit ++ "\" is invalid")
  processEnv := fun _ => none

/-- The server key is configured, and the attestation module is half configured
where `half` holds. -/
def halfConfig (half : Bool) : Config := fun name =>
  if name = "RSA_PRIVATE_KEY" then some (String.ofList KeySources.blockA.text)
  else if name = "ATTESTATION_PACKAGE_NAME" && half then some "com.example.app"
  else none

theorem attestation_never_stops_startup_half :
    policyFromConfig (JsonText.standard ℤ) (.ok []) none (halfConfig true) =
        .error ("ATTESTATION_PACKAGE_NAME and ATTESTATION_SIGNING_CERT_SHA256 must both be set, " ++
          "or both be empty") ∧
      bootstrap letteredMachine (halfConfig true) =
        (bootstrap letteredMachine (halfConfig false)).map
        fun deployment => { deployment with
          attestation := safePolicyFromConfig (JsonText.standard ℤ) (.ok []) none (halfConfig true)
          kvStore := .memory } := by
  refine ⟨rfl, attestation_never_stops_startup letteredMachine fun name hname => ?_⟩
  have hother : name ≠ "ATTESTATION_PACKAGE_NAME" := by
    rintro rfl
    exact hname (by decide)
  simp [halfConfig, hother]

end Samples

end EncryptionGateway.Gateway
