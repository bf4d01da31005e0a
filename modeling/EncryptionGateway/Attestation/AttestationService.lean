import EncryptionGateway.Foundation.Outcome
import EncryptionGateway.JavaScript.Base64
import EncryptionGateway.JavaScript.Text

/-!
# Key attestation chains

`AttestationService.verify` on a chain of DER certificates. Each numbered step
of the source is a definition of its own, followed by the condition under which
it passes.

## Implementation notes

Certificates and ASN.1 values are decoded outside the repository. `X509` holds
these decoders; what they throw is known by its text, and the service reports
it as `MALFORMED`.
-/

namespace EncryptionGateway.Attestation

open JavaScript Foundation

/-- Thrown when an attestation fails policy requirements. -/
structure AttestationRejectedError where
  code : String
  detail : String
deriving DecidableEq

def AttestationRejectedError.message (e : AttestationRejectedError) : String :=
  e.code ++ ": " ++ e.detail

/-- Requirements that an incoming Android Key Attestation must satisfy. -/
structure AttestationPolicy where
  configured : Bool
  trustedRootPublicKeys : Option (List Bytes)
  packageName : String
  signingCertDigests : List String
  minSecurityLevel : ℤ
  requireVerifiedBoot : Bool
  revokedSerials : List String

structure RootOfTrust where
  deviceLocked : Bool
  verifiedBootState : ℕ

structure AuthorizationList where
  rootOfTrust : Option RootOfTrust
  attestationApplicationId : Option Bytes

structure KeyDescription where
  attestationSecurityLevel : ℤ
  keymasterSecurityLevel : ℤ
  attestationChallenge : Bytes
  softwareEnforced : AuthorizationList
  teeEnforced : AuthorizationList

structure AttestationApplicationId where
  packageNames : List Bytes
  signatureDigests : List Bytes

/-- `VerifiedBootState.verified`. -/
def VERIFIED : ℕ := 0

def ID_CE_KEY_DESCRIPTION : String := "1.3.6.1.4.1.11129.2.1.17"

/-- `X509Certificate` and `AsnConvert`; a member that can throw gives the text
of what it throws. A validity bound of `none` is an invalid date. -/
structure X509 (Cert Key : Type) where
  certificate : Bytes → Except String Cert
  publicKey : Cert → Except String Key
  verify : Cert → Key → Except String Bool
  exportSpki : Key → Except String Bytes
  validFrom : Cert → Option Int
  validTo : Cert → Option Int
  serialNumber : Cert → String
  issuer : Cert → String
  subject : Cert → String
  extensions : Bytes → Except String (List (String × Bytes))
  keyDescription : Bytes → Except String KeyDescription
  applicationId : Bytes → Except String AttestationApplicationId
  utf8 : Bytes → String

namespace AttestationService

variable {Cert Key : Type}

/-- What a step of the service throws. -/
inductive Thrown
  | rejected (e : AttestationRejectedError)
  | error (text : String)

def reject {α : Type} (code detail : String) : Except Thrown α := .error (.rejected ⟨code, detail⟩)

def attempt {α : Type} (r : Except String α) : Except Thrown α := r.mapError .error

@[simp] theorem attempt_eq_ok {α : Type} {r : Except String α} {a : α} :
    attempt r = .ok a ↔ r = .ok a := mapError_eq_ok

/-- A check that rejects. -/
def ensure (c : Bool) (code detail : String) : Except Thrown Unit :=
  if c then .ok () else reject code detail

@[simp] theorem ensure_eq_ok {c : Bool} {code detail : String} {u : Unit} :
    ensure c code detail = .ok u ↔ c = true := by
  cases c <;> simp [ensure, reject]

/-- `d` carries the key that signed `c`. -/
def SignedBy (x : X509 Cert Key) (c d : Cert) : Prop :=
  ∃ key, x.publicKey d = .ok key ∧ x.verify c key = .ok true

def checkSignature (x : X509 Cert Key) (chain : List Cert) (e : Cert × ℕ) : Except Thrown Unit := do
  let issuer := chain.getD (min (e.2 + 1) (chain.length - 1)) e.1
  let key ← attempt (x.publicKey issuer)
  let signed ← attempt (x.verify e.1 key)
  ensure signed "CHAIN_SIGNATURE" ("certificate " ++ toString e.2 ++ " is not signed by its issuer")

/-- Each certificate is signed by the next; the root is self-signed. -/
def checkSignatures (x : X509 Cert Key) (chain : List Cert) : Except Thrown Unit :=
  chain.zipIdx.forM (checkSignature x chain)

def Linked (x : X509 Cert Key) : List Cert → Prop
  | [] => True
  | [c] => SignedBy x c c
  | c :: d :: rest => SignedBy x c d ∧ Linked x (d :: rest)

theorem checkSignature_eq_ok {x : X509 Cert Key} {chain : List Cert} {e : Cert × ℕ} {u : Unit} :
    checkSignature x chain e = .ok u ↔
      SignedBy x e.1 (chain.getD (min (e.2 + 1) (chain.length - 1)) e.1) := by
  simp only [checkSignature, bind_eq_ok, attempt_eq_ok, ensure_eq_ok, SignedBy]
  constructor
  · rintro ⟨key, hkey, signed, hsigned, rfl⟩
    exact ⟨key, hkey, hsigned⟩
  · rintro ⟨key, hkey, hsigned⟩
    exact ⟨key, hkey, true, hsigned, rfl⟩

theorem linked_iff {x : X509 Cert Key} {chain : List Cert} :
    Linked x chain ↔ ∀ i c, chain[i]? = some c →
      SignedBy x c (chain.getD (min (i + 1) (chain.length - 1)) c) := by
  induction chain with
  | nil => simp [Linked]
  | cons c rest ih =>
      cases rest with
      | nil =>
          simp only [Linked]
          constructor
          · intro h i d hd
            cases i with
            | zero => simpa using (Option.some.inj hd) ▸ h
            | succ i => simp at hd
          · intro h
            simpa using h 0 c rfl
      | cons d rest =>
          rw [Linked, ih]
          constructor
          · rintro ⟨hc, hrest⟩ i e he
            cases i with
            | zero => simpa using (Option.some.inj he) ▸ hc
            | succ i =>
                have h := hrest i e (by simpa using he)
                have hm : min (i + 1 + 1) ((c :: d :: rest).length - 1) =
                    min (i + 1) ((d :: rest).length - 1) + 1 := by
                  simp only [List.length_cons]
                  omega
                rw [hm, List.getD_cons_succ]
                exact h
          · intro h
            refine ⟨by simpa using h 0 c rfl, ?_⟩
            intro i e he
            have h' := h (i + 1) e (by simpa using he)
            have hm : min (i + 1 + 1) ((c :: d :: rest).length - 1) =
                min (i + 1) ((d :: rest).length - 1) + 1 := by
              simp only [List.length_cons]
              omega
            rw [hm, List.getD_cons_succ] at h'
            exact h'

theorem checkSignatures_eq_ok {x : X509 Cert Key} {chain : List Cert} {u : Unit} :
    checkSignatures x chain = .ok u ↔ Linked x chain := by
  rw [checkSignatures, forM_eq_ok, linked_iff]
  simp only [checkSignature_eq_ok, Prod.forall, List.mem_zipIdx_iff_getElem?]
  exact ⟨fun h i c hc => h c i hc, fun h c i hc => h i c hc⟩

def TypeError : String := "TypeError: Cannot read properties of undefined (reading 'publicKey')"

/-- `rootCert.issuer || rootCert.subject || 'unknown'`. -/
def rootName (x : X509 Cert Key) (rootCert : Cert) : String :=
  if x.issuer rootCert ≠ "" then x.issuer rootCert
  else if x.subject rootCert ≠ "" then x.subject rootCert else "unknown"

/-- The chain ends at a trusted root; no list of roots trusts every root. -/
def checkRoot (x : X509 Cert Key) (policy : AttestationPolicy) (chain : List Cert) :
    Except Thrown Unit :=
  match policy.trustedRootPublicKeys, chain.getLast? with
  | none, _ => .ok ()
  | some _, none => .error (.error TypeError)
  | some trusted, some rootCert => do
      let key ← attempt (x.publicKey rootCert)
      let rootKey ← attempt (x.exportSpki key)
      ensure (trusted.contains rootKey) "UNTRUSTED_ROOT"
        ("root certificate is not a trusted Google Attestation Root " ++
          "(device may be non-GMS or Huawei; issuer: " ++ rootName x rootCert ++ ")")

def RootTrusted (x : X509 Cert Key) (policy : AttestationPolicy) (chain : List Cert) : Prop :=
  ∀ trusted, policy.trustedRootPublicKeys = some trusted →
    ∃ rootCert key rootKey, chain.getLast? = some rootCert ∧ x.publicKey rootCert = .ok key ∧
      x.exportSpki key = .ok rootKey ∧ rootKey ∈ trusted

theorem checkRoot_eq_ok {x : X509 Cert Key} {policy : AttestationPolicy} {chain : List Cert}
    {u : Unit} :
    checkRoot x policy chain = .ok u ↔ RootTrusted x policy chain := by
  unfold checkRoot RootTrusted
  split
  · next h => simp [h]
  · next h hlast => simp [h, hlast]
  · next trusted rootCert h hlast =>
      simp only [bind_eq_ok, attempt_eq_ok, ensure_eq_ok, h, hlast, Option.some.injEq,
        List.contains_iff_mem]
      constructor
      · rintro ⟨key, hkey, rootKey, hspki, hmem⟩ _ rfl
        exact ⟨rootCert, key, rootKey, rfl, hkey, hspki, hmem⟩
      · intro hall
        obtain ⟨_, key, rootKey, rfl, hkey, hspki, hmem⟩ := hall trusted rfl
        exact ⟨key, hkey, rootKey, hspki, hmem⟩

/-- Rejects at the first certificate that fails the test, naming its index. -/
def forEachCertificate (chain : List Cert) (fails : Cert → Bool) (code detail : String) :
    Except Thrown Unit :=
  chain.zipIdx.forM fun e => ensure (!fails e.1) code ("certificate " ++ toString e.2 ++ detail)

theorem forEachCertificate_eq_ok {chain : List Cert} {fails : Cert → Bool} {code detail : String}
    {u : Unit} :
    forEachCertificate chain fails code detail = .ok u ↔ ∀ c ∈ chain, fails c = false := by
  rw [forEachCertificate, forM_eq_ok]
  simp only [ensure_eq_ok, Bool.not_eq_true']
  constructor
  · intro h c hc
    obtain ⟨i, hi⟩ := List.mem_iff_getElem?.mp hc
    exact h (c, i) (List.mem_zipIdx_iff_getElem?.mpr hi)
  · intro h e he
    exact h e.1 (List.mem_of_getElem? (List.mem_zipIdx_iff_getElem?.mp he))

/-- An invalid date compares with nothing. -/
def outsideValidity (x : X509 Cert Key) (now : Int) (cert : Cert) : Bool :=
  (x.validFrom cert).any (decide <| now < ·) || (x.validTo cert).any (decide <| · < now)

def checkValidity (x : X509 Cert Key) (now : Int) (chain : List Cert) : Except Thrown Unit :=
  forEachCertificate chain (outsideValidity x now) "CHAIN_SIGNATURE"
    " is outside its validity period"

/-- `replace(/^0+(?=.)/, '')`; a dot stands for any character that ends no line. -/
def dropLeadingZeros : List Char → List Char
  | '0' :: c :: rest =>
      if c = '\n' ∨ c = '\r' ∨ c.toNat = 0x2028 ∨ c.toNat = 0x2029 then '0' :: c :: rest
      else dropLeadingZeros (c :: rest)
  | l => l

def serial (x : X509 Cert Key) (cert : Cert) : String :=
  String.ofList (dropLeadingZeros (toLowerCase (x.serialNumber cert)).toList)

def revoked (x : X509 Cert Key) (policy : AttestationPolicy) (cert : Cert) : Bool :=
  policy.revokedSerials.contains (serial x cert)

def checkRevocation (x : X509 Cert Key) (policy : AttestationPolicy) (chain : List Cert) :
    Except Thrown Unit :=
  forEachCertificate chain (revoked x policy) "REVOKED" " is revoked"

theorem checkValidity_eq_ok {x : X509 Cert Key} {now : Int} {chain : List Cert} {u : Unit} :
    checkValidity x now chain = .ok u ↔ ∀ c ∈ chain, outsideValidity x now c = false :=
  forEachCertificate_eq_ok

theorem checkRevocation_eq_ok {x : X509 Cert Key} {policy : AttestationPolicy}
    {chain : List Cert} {u : Unit} :
    checkRevocation x policy chain = .ok u ↔ ∀ c ∈ chain, revoked x policy c = false :=
  forEachCertificate_eq_ok

/-- The attestation record of a certificate. -/
def attestationRecord (x : X509 Cert Key) (der : Bytes) : Except Thrown KeyDescription := do
  let extensions ← attempt (x.extensions der)
  match extensions.find? fun ext => decide (ext.1 = ID_CE_KEY_DESCRIPTION) with
  | none => reject "MALFORMED" "no attestation extension"
  | some ext => attempt (x.keyDescription ext.2)

/-- The certificate carries the extension. -/
def Carries (x : X509 Cert Key) (der : Bytes) : Prop :=
  ∃ extensions value, x.extensions der = .ok extensions ∧
    (ID_CE_KEY_DESCRIPTION, value) ∈ extensions

theorem attestationRecord_eq_ok {x : X509 Cert Key} {der : Bytes} {description : KeyDescription} :
    attestationRecord x der = .ok description ↔
      ∃ extensions ext, x.extensions der = .ok extensions ∧
        (extensions.find? fun e => decide (e.1 = ID_CE_KEY_DESCRIPTION)) = some ext ∧
        x.keyDescription ext.2 = .ok description := by
  simp only [attestationRecord, bind_eq_ok, attempt_eq_ok]
  constructor
  · rintro ⟨extensions, hx, h⟩
    cases hf : extensions.find? fun e => decide (e.1 = ID_CE_KEY_DESCRIPTION) with
    | none => simp [hf, reject] at h
    | some ext => exact ⟨extensions, ext, hx, hf, by simpa [hf] using h⟩
  · rintro ⟨extensions, ext, hx, hf, h⟩
    exact ⟨extensions, hx, by simpa [hf] using h⟩

def checkBoot (policy : AttestationPolicy) (description : KeyDescription) : Except Thrown Unit :=
  if policy.requireVerifiedBoot then
    match description.teeEnforced.rootOfTrust with
    | none => reject "MALFORMED" "no root of trust"
    | some rootOfTrust => do
        ensure rootOfTrust.deviceLocked "BOOTLOADER_UNLOCKED" "bootloader is unlocked"
        ensure (rootOfTrust.verifiedBootState = VERIFIED) "BOOT_NOT_VERIFIED"
          ("verified boot state " ++ toString rootOfTrust.verifiedBootState)
  else .ok ()

theorem checkBoot_eq_ok {policy : AttestationPolicy} {description : KeyDescription} {u : Unit} :
    checkBoot policy description = .ok u ↔
      (policy.requireVerifiedBoot = true → ∃ rootOfTrust,
        description.teeEnforced.rootOfTrust = some rootOfTrust ∧
        rootOfTrust.deviceLocked = true ∧ rootOfTrust.verifiedBootState = VERIFIED) := by
  unfold checkBoot
  cases policy.requireVerifiedBoot with
  | false => simp
  | true =>
      cases description.teeEnforced.rootOfTrust with
      | none => simp [reject]
      | some rootOfTrust => simp [bind_eq_ok]

def hexDigit (n : ℕ) : Char := if n < 10 then Char.ofNat (48 + n) else Char.ofNat (87 + n)

/-- `bytes.toString('hex')`. -/
def hex (bytes : Bytes) : String :=
  String.ofList (bytes.flatMap fun b => [hexDigit (b.toNat / 16), hexDigit (b.toNat % 16)])

/-- The hardware-enforced application id, else the software-enforced one. -/
def appIdOctets (description : KeyDescription) : Option Bytes :=
  description.teeEnforced.attestationApplicationId.or
    description.softwareEnforced.attestationApplicationId

def checkDigests (policy : AttestationPolicy) (digests : List String) : Except Thrown Unit := do
  ensure (!digests.isEmpty) "SIGNER_NOT_ALLOWED" "no signing certificate digest"
  digests.forM fun digest =>
    ensure (policy.signingCertDigests.contains digest) "SIGNER_NOT_ALLOWED"
      ("signing certificate " ++ digest ++ " is not allowed")

/-- The key was created by the authentic app, signed with the authentic certificate. -/
def checkApplication (x : X509 Cert Key) (policy : AttestationPolicy)
    (description : KeyDescription) : Except Thrown Unit :=
  match appIdOctets description with
  | none => reject "MALFORMED" "no attestation application id"
  | some octets => do
      let appId ← attempt (x.applicationId octets)
      ensure ((appId.packageNames.map x.utf8).contains policy.packageName) "PACKAGE_MISMATCH"
        ("package " ++ policy.packageName ++ " not attested")
      checkDigests policy (appId.signatureDigests.map hex)

def ApplicationAllowed (x : X509 Cert Key) (policy : AttestationPolicy)
    (description : KeyDescription) : Prop :=
  ∃ octets appId, appIdOctets description = some octets ∧ x.applicationId octets = .ok appId ∧
    policy.packageName ∈ appId.packageNames.map x.utf8 ∧ appId.signatureDigests ≠ [] ∧
    ∀ digest ∈ appId.signatureDigests, hex digest ∈ policy.signingCertDigests

theorem checkDigests_eq_ok {policy : AttestationPolicy} {digests : List String} {u : Unit} :
    checkDigests policy digests = .ok u ↔
      digests ≠ [] ∧ ∀ digest ∈ digests, digest ∈ policy.signingCertDigests := by
  simp only [checkDigests, bind_eq_ok, forM_eq_ok, ensure_eq_ok, List.contains_iff_mem,
    Bool.not_eq_true', List.isEmpty_eq_false_iff]
  exact ⟨fun ⟨_, h₁, h₂⟩ => ⟨h₁, h₂⟩, fun ⟨h₁, h₂⟩ => ⟨(), h₁, h₂⟩⟩

theorem checkApplication_eq_ok {x : X509 Cert Key} {policy : AttestationPolicy}
    {description : KeyDescription} {u : Unit} :
    checkApplication x policy description = .ok u ↔ ApplicationAllowed x policy description := by
  unfold checkApplication ApplicationAllowed
  cases appIdOctets description with
  | none => simp [reject]
  | some octets =>
      simp only [bind_eq_ok, attempt_eq_ok, ensure_eq_ok, checkDigests_eq_ok,
        List.contains_iff_mem, List.forall_mem_map, ne_eq, List.map_eq_nil_iff]
      constructor
      · rintro ⟨appId, hid, _, hpackage, hne, hall⟩
        exact ⟨octets, appId, rfl, hid, hpackage, hne, hall⟩
      · rintro ⟨_, appId, heq, hid, hpackage, hne, hall⟩
        obtain rfl := Option.some.inj heq
        exact ⟨appId, hid, (), hpackage, hne, hall⟩

def level (description : KeyDescription) : ℤ :=
  min description.attestationSecurityLevel description.keymasterSecurityLevel

/-- Judges the attestation record of the leaf; the result is its security level. -/
def checkRecord (x : X509 Cert Key) (policy : AttestationPolicy) (challenge : Bytes)
    (description : KeyDescription) : Except Thrown ℤ := do
  let attested := description.attestationChallenge
  ensure (!(attested.length ≠ challenge.length || attested ≠ challenge)) "CHALLENGE_MISMATCH"
    "attestation challenge does not match"
  ensure (policy.minSecurityLevel ≤ level description) "SECURITY_LEVEL"
    ("security level " ++ toString (level description))
  checkBoot policy description
  checkApplication x policy description
  .ok (level description)

/-- What the policy demands of a record, apart from its challenge. -/
structure Admissible (x : X509 Cert Key) (policy : AttestationPolicy)
    (description : KeyDescription) : Prop where
  security : policy.minSecurityLevel ≤ level description
  boot : policy.requireVerifiedBoot = true → ∃ rootOfTrust,
    description.teeEnforced.rootOfTrust = some rootOfTrust ∧
    rootOfTrust.deviceLocked = true ∧ rootOfTrust.verifiedBootState = VERIFIED
  application : ApplicationAllowed x policy description

theorem checkRecord_eq_ok {x : X509 Cert Key} {policy : AttestationPolicy} {challenge : Bytes}
    {description : KeyDescription} {l : ℤ} :
    checkRecord x policy challenge description = .ok l ↔
      description.attestationChallenge = challenge ∧ Admissible x policy description ∧
        l = level description := by
  have hattested : (!(decide (description.attestationChallenge.length ≠ challenge.length) ||
      decide (description.attestationChallenge ≠ challenge))) = true ↔
      description.attestationChallenge = challenge := by
    simp only [Bool.not_eq_true', Bool.or_eq_false_iff, decide_eq_false_iff_not, not_not]
    exact ⟨fun h => h.2, fun h => ⟨congrArg List.length h, h⟩⟩
  simp only [checkRecord, bind_eq_ok, ensure_eq_ok, hattested, decide_eq_true_eq,
    checkBoot_eq_ok, checkApplication_eq_ok, Except.ok.injEq]
  constructor
  · rintro ⟨_, hc, _, hs, _, hb, _, ha, rfl⟩
    exact ⟨hc, ⟨hs, hb, ha⟩, rfl⟩
  · rintro ⟨hc, ⟨hs, hb, ha⟩, rfl⟩
    exact ⟨(), hc, (), hs, (), hb, (), ha, rfl⟩

/-- The checks made on the certificates of the chain. -/
structure ChainValid (x : X509 Cert Key) (policy : AttestationPolicy) (now : Int)
    (chain : List Cert) : Prop where
  linked : Linked x chain
  trusted : RootTrusted x policy chain
  inValidity : ∀ c ∈ chain, outsideValidity x now c = false
  unrevoked : ∀ c ∈ chain, revoked x policy c = false

def verifyChain (x : X509 Cert Key) (policy : AttestationPolicy) (now : Int)
    (chainDer : List Bytes) (challenge : Bytes) : Except Thrown (Key × ℤ) := do
  let chain ← chainDer.mapM fun der => attempt (x.certificate der)
  checkSignatures x chain
  checkRoot x policy chain
  checkValidity x now chain
  checkRevocation x policy chain
  match chainDer, chain with
  | leafDer :: _, leaf :: _ => do
      let description ← attestationRecord x leafDer
      let l ← checkRecord x policy challenge description
      let publicKey ← attempt (x.publicKey leaf)
      .ok (publicKey, l)
  | _, _ => .error (.error TypeError)

/-- Verifies the certificate chain against the configured policy and challenge nonce. -/
def verify (x : X509 Cert Key) (policy : AttestationPolicy) (now : Int) (chainDer : List Bytes)
    (challenge : Bytes) : Except AttestationRejectedError (Key × ℤ) :=
  if chainDer.length < 2 then
    .error ⟨"NOT_A_CHAIN", toString chainDer.length ++ " certificate(s)"⟩
  else
    match verifyChain x policy now chainDer challenge with
    | .ok r => .ok r
    | .error (.rejected e) => .error e
    | .error (.error text) => .error ⟨"MALFORMED", text⟩

/-- A chain is accepted when it has two certificates or more, the chain checks
pass, and the record of the first certificate is admissible for the challenge. -/
theorem verify_eq_ok {x : X509 Cert Key} {policy : AttestationPolicy} {now : Int}
    {chainDer : List Bytes} {challenge : Bytes} {key : Key} {l : ℤ} :
    verify x policy now chainDer challenge = .ok (key, l) ↔
      2 ≤ chainDer.length ∧ ∃ chain leafDer leaf description,
        List.Forall₂ (fun der c => x.certificate der = .ok c) chainDer chain ∧
        chainDer.head? = some leafDer ∧ chain.head? = some leaf ∧
        ChainValid x policy now chain ∧ attestationRecord x leafDer = .ok description ∧
        description.attestationChallenge = challenge ∧ Admissible x policy description ∧
        x.publicKey leaf = .ok key ∧ l = level description := by
  have hcore : verify x policy now chainDer challenge = .ok (key, l) ↔
      2 ≤ chainDer.length ∧ verifyChain x policy now chainDer challenge = .ok (key, l) := by
    unfold verify
    split
    · next h => simp; omega
    · next h =>
        have hlen : 2 ≤ chainDer.length := Nat.le_of_not_lt h
        cases verifyChain x policy now chainDer challenge with
        | ok r => simp [hlen]
        | error e => cases e <;> simp
  rw [hcore, and_congr_right_iff]
  intro hlen
  simp only [verifyChain, bind_eq_ok, mapM_eq_ok, attempt_eq_ok, checkSignatures_eq_ok,
    checkRoot_eq_ok, checkValidity_eq_ok, checkRevocation_eq_ok]
  constructor
  · rintro ⟨chain, hchain, _, hlinked, _, htrusted, _, hvalid, _, hunrevoked, h⟩
    cases hchain with
    | nil => simp at hlen
    | @cons leafDer leaf ders certs hleaf hrest =>
        obtain ⟨description, hrecord, l', hjudged, key', hkey, heq⟩ := by
          simpa only [bind_eq_ok, attempt_eq_ok] using h
        obtain ⟨rfl, rfl⟩ := Prod.mk.inj (Except.ok.inj heq)
        obtain ⟨hc, hadmissible, rfl⟩ := checkRecord_eq_ok.mp hjudged
        exact ⟨leaf :: certs, leafDer, leaf, description, .cons hleaf hrest, rfl, rfl,
          ⟨hlinked, htrusted, hvalid, hunrevoked⟩, hrecord, hc, hadmissible, hkey, rfl⟩
  · rintro ⟨chain, leafDer, leaf, description, hchain, hder, hhead, hok, hrecord, hc, hadmissible,
      hkey, rfl⟩
    refine ⟨chain, hchain, (), hok.linked, (), hok.trusted, (), hok.inValidity, (), hok.unrevoked,
      ?_⟩
    cases hchain with
    | nil => simp at hlen
    | cons hleaf hrest =>
        cases hder
        cases hhead
        simp only [bind_eq_ok, attempt_eq_ok]
        exact ⟨description, hrecord, level description,
          checkRecord_eq_ok.mpr ⟨hc, hadmissible, rfl⟩, key, hkey, rfl⟩

end AttestationService

end EncryptionGateway.Attestation
