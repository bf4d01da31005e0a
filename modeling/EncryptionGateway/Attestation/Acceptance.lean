import EncryptionGateway.Attestation.ChainOfTrust

/-!
# What the attestation policy accepts

The service returns exactly for the chains that meet every requirement of the
policy, as long as the validity dates of their certificates can be read. A date
that cannot be read compares with nothing, so a certificate that has one passes
the check of its validity period.
-/

namespace EncryptionGateway.Attestation.AttestationService

open JavaScript Foundation

variable {Cert Key : Type}

/-- The current time lies between the two dates of the certificate. -/
def InsideValidity (x : X509 Cert Key) (now : Int) (cert : Cert) : Prop :=
  ∃ validFrom validTo, x.validFrom cert = some validFrom ∧ x.validTo cert = some validTo ∧
    validFrom ≤ now ∧ now ≤ validTo

def DatesReadable (x : X509 Cert Key) (cert : Cert) : Prop :=
  (x.validFrom cert).isSome = true ∧ (x.validTo cert).isSome = true

/-- The requirements apart from the validity periods: two certificates or more,
all of which parse, each signed by the next and the last by itself, under a
trusted root, none revoked; and in the first of them a record for the challenge
with the security level, the boot state and the application that are demanded. -/
structure Meets (x : X509 Cert Key) (policy : AttestationPolicy) (chainDer : List Bytes)
    (challenge : Bytes) (chain : List Cert) (publicKey : Key) (securityLevel : ℤ) : Prop where
  two : 2 ≤ chainDer.length
  parsed : List.Forall₂ (fun der cert => x.certificate der = .ok cert) chainDer chain
  linked : Linked x chain
  trusted : RootTrusted x policy chain
  unrevoked : ∀ cert ∈ chain, serial x cert ∉ policy.revokedSerials
  record : ∃ leafDer leaf description, chainDer.head? = some leafDer ∧ chain.head? = some leaf ∧
    attestationRecord x leafDer = .ok description ∧
    description.attestationChallenge = challenge ∧ Admissible x policy description ∧
    x.publicKey leaf = .ok publicKey ∧
    securityLevel = min description.attestationSecurityLevel description.keymasterSecurityLevel

/-- The service returns for the chain if and only if the policy says so, and
then the leaf's key with the smaller of its two levels. -/
def AcceptsByPolicy (x : X509 Cert Key) (policy : AttestationPolicy) (now : Int)
    (chainDer : List Bytes) (challenge : Bytes) : Prop :=
  ∀ publicKey securityLevel,
    verify x policy now chainDer challenge = .ok (publicKey, securityLevel) ↔
      ∃ chain, Meets x policy chainDer challenge chain publicKey securityLevel ∧
        ∀ cert ∈ chain, InsideValidity x now cert

/-- Inside the validity period is not outside of it, with dates that are. -/
theorem insideValidity_iff {x : X509 Cert Key} {now : Int} {cert : Cert} :
    InsideValidity x now cert ↔ outsideValidity x now cert = false ∧ DatesReadable x cert := by
  unfold InsideValidity DatesReadable outsideValidity
  cases x.validFrom cert with
  | none => simp
  | some validFrom =>
      cases x.validTo cert with
      | none => simp
      | some validTo => simp

/-- The service returns when no date that can be read excludes the time. -/
theorem verify_eq_ok_iff_meets {x : X509 Cert Key} {policy : AttestationPolicy} {now : Int}
    {chainDer : List Bytes} {challenge : Bytes} {publicKey : Key} {securityLevel : ℤ} :
    verify x policy now chainDer challenge = .ok (publicKey, securityLevel) ↔
      ∃ chain, Meets x policy chainDer challenge chain publicKey securityLevel ∧
        ∀ cert ∈ chain, outsideValidity x now cert = false := by
  have hrevoked : ∀ cert, revoked x policy cert = false ↔
      serial x cert ∉ policy.revokedSerials := by
    intro cert
    rw [revoked, ← Bool.not_eq_true, List.contains_iff_mem]
  rw [verify_eq_ok]
  constructor
  · rintro ⟨htwo, chain, leafDer, leaf, description, hparsed, hder, hleaf, hvalid, hrecord⟩
    refine ⟨chain, ?_, hvalid.inValidity⟩
    exact {
      two := htwo
      parsed := hparsed
      linked := hvalid.linked
      trusted := hvalid.trusted
      unrevoked := fun cert hmem => (hrevoked cert).mp (hvalid.unrevoked cert hmem)
      record := ⟨leafDer, leaf, description, hder, hleaf, hrecord⟩ }
  · rintro ⟨chain, hmeets, hvalidity⟩
    obtain ⟨leafDer, leaf, description, hder, hleaf, hrecord⟩ := hmeets.record
    refine ⟨hmeets.two, chain, leafDer, leaf, description, hmeets.parsed, hder, hleaf, ?_, hrecord⟩
    exact {
      linked := hmeets.linked
      trusted := hmeets.trusted
      inValidity := hvalidity
      unrevoked := fun cert hmem => (hrevoked cert).mpr (hmeets.unrevoked cert hmem) }

/-- The certificates of a chain are determined by their encodings. -/
theorem Meets.chain_unique {x : X509 Cert Key} {policy : AttestationPolicy} {chainDer : List Bytes}
    {challenge : Bytes} {chain chain' : List Cert} {publicKey publicKey' : Key} {l l' : ℤ}
    (h : Meets x policy chainDer challenge chain publicKey l)
    (h' : Meets x policy chainDer challenge chain' publicKey' l') : chain = chain' := by
  refine List.right_unique_forall₂' ?_ h.parsed h'.parsed
  intro der cert cert' hcert hcert'
  exact Except.ok.inj (hcert.symm.trans hcert')

/-- The service accepts by the policy exactly where no chain that meets every
other requirement gets by with a date that cannot be read. -/
theorem accepts_by_policy_iff (x : X509 Cert Key) (policy : AttestationPolicy) (now : Int)
    (chainDer : List Bytes) (challenge : Bytes) :
    AcceptsByPolicy x policy now chainDer challenge ↔
      ∀ chain publicKey securityLevel,
        Meets x policy chainDer challenge chain publicKey securityLevel →
        (∀ cert ∈ chain, outsideValidity x now cert = false) →
        ∀ cert ∈ chain, DatesReadable x cert := by
  constructor
  · intro haccepts chain publicKey securityLevel hmeets hvalidity cert hmem
    obtain ⟨chain', hmeets', hinside⟩ := (haccepts publicKey securityLevel).mp
      (verify_eq_ok_iff_meets.mpr ⟨chain, hmeets, hvalidity⟩)
    obtain rfl := hmeets.chain_unique hmeets'
    exact (insideValidity_iff.mp (hinside cert hmem)).2
  · intro hreadable publicKey securityLevel
    rw [verify_eq_ok_iff_meets]
    constructor
    · rintro ⟨chain, hmeets, hvalidity⟩
      refine ⟨chain, hmeets, fun cert hmem => insideValidity_iff.mpr ⟨hvalidity cert hmem, ?_⟩⟩
      exact hreadable chain publicKey securityLevel hmeets hvalidity cert hmem
    · rintro ⟨chain, hmeets, hinside⟩
      exact ⟨chain, hmeets, fun cert hmem => (insideValidity_iff.mp (hinside cert hmem)).1⟩

/-- The sample certificates with an end of validity that is no date. -/
def undatedX509 : X509 Bytes UInt8 := { sampleX509 with validTo := fun _ => none }

/-- A chain of such certificates is accepted at any time after its start. -/
theorem accepts_unreadable_date :
    ¬ AcceptsByPolicy undatedX509 samplePolicy 1000000 [[2, 1, 7], [1, 1]] [7] := by
  intro haccepts
  obtain ⟨chain, hmeets, hinside⟩ := (haccepts 2 1).mp rfl
  obtain ⟨-, leaf, -, -, hleaf, -⟩ := hmeets.record
  obtain ⟨-, validTo, -, hnone, -⟩ := hinside leaf (List.mem_of_mem_head? hleaf)
  cases hnone

end EncryptionGateway.Attestation.AttestationService
